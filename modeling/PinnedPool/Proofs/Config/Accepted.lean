import PinnedPool.Proofs.Config.Keyed
import PinnedPool.Proofs.Json.Taken

/-! # Which configurations are accepted

A text is accepted exactly if it holds one value, an object or a list, with nothing but white space
around it, and the value is the text of a configuration by key or by position. That configuration is
what is returned.
-/
namespace PinnedPool
open Json

namespace Topology

def schema : Schema Topology Member where
  name? := Member.name?
  content := Member.Content
  text := Member.Text
  put := Member.put
  other := .other

theorem covers : schema.Covers fields where
  fits f hf := by
    have hlist := takesOnly_list takesOnly_size
    simp only [fields, List.mem_cons, List.not_mem_nil, or_false] at hf
    rcases hf with rfl | rfl
    · exact schema.fits_of hlist fun cpus => ⟨.performance cpus,rfl,rfl,rfl⟩
    · exact schema.fits_of hlist fun cpus => ⟨.efficiency cpus,rfl,rfl,rfl⟩
  known {m k s t} hname h := by
    cases m with
    | performance cpus =>
      cases hname
      exact h
    | efficiency cpus =>
      cases hname
      exact h
    | other key => cases hname
  unknown hkey h := ⟨hkey,h⟩
  unnamed _ := rfl
  idle _ _ := rfl

theorem takesOnly : TakesOnly reader Text := by
  intro s t r h
  obtain ⟨u,hs,ms,hms,rfl⟩ := covers.takesOnly "CoreTopology" standard h
  refine ⟨u,hs,?_⟩
  change Text (ms.foldl (fun t m => m.put t) standard) u r
  rw [foldl_put (hms.once (by decide))]
  exact .of_members hms

theorem Text.value {t : Topology} {s r : Bytes} (h : t.Text s r) : Value s r := by
  have hlist : ∀ {cpus s t}, Bracketed SizeText .list cpus s t → Value s t :=
    value_of_list fun _ _ _ _ hn => hn.value
  cases h with
  | keyed h =>
    refine value_of_object (fun m _ _ _ hm => ?_) h
    cases m with
    | performance | efficiency => exact ⟨_,Json.Member.mono hlist hm⟩
    | other key => exact ⟨key,hm.2⟩
  | listed h => exact value_of_list (fun _ _ _ _ => hlist) h

end Topology

namespace Config

def schema : Schema Config Member where
  name? := Member.name?
  content := Member.Content
  text := Member.Text
  put := Member.put
  other := .other

theorem covers : schema.Covers fields where
  fits f hf := by
    simp only [fields, List.mem_cons, List.not_mem_nil, or_false] at hf
    rcases hf with rfl | rfl | rfl
    · exact schema.fits_of takesOnly_size fun n => ⟨.threads n,rfl,rfl,rfl⟩
    · exact schema.fits_of takesOnly_flag fun b => ⟨.pinWorkers b,rfl,rfl,rfl⟩
    · exact schema.fits_of Topology.takesOnly fun t => ⟨.topology t,rfl,rfl,rfl⟩
  known {m k s t} hname h := by
    cases m with
    | threads n =>
      cases hname
      exact h
    | pinWorkers b =>
      cases hname
      exact h
    | topology t =>
      cases hname
      exact h
    | other key => cases hname
  unknown hkey h := ⟨hkey,h⟩
  unnamed _ := rfl
  idle _ _ := rfl

theorem takesOnly : TakesOnly reader Text := by
  intro s c r h
  obtain ⟨u,hs,ms,hms,rfl⟩ := covers.takesOnly "PoolConfig" standard h
  refine ⟨u,hs,?_⟩
  change Text (ms.foldl (fun c m => m.put c) standard) u r
  rw [foldl_put (hms.once (by decide))]
  exact .of_members hms

theorem Member.Content.value {m : Member} {s t : Bytes} (h : m.Content s t) : Value s t := by
  cases m with
  | threads n => exact SizeText.value h
  | pinWorkers b => exact FlagText.value h
  | topology t => exact Topology.Text.value h
  | other key => exact h

theorem Text.value {c : Config} {s r : Bytes} (h : c.Text s r) : Value s r := by
  cases h with
  | keyed h =>
    refine value_of_object (fun m _ _ _ hm => ?_) h
    cases m with
    | threads n => exact ⟨_,Json.Member.mono SizeText.value hm⟩
    | pinWorkers b => exact ⟨_,Json.Member.mono FlagText.value hm⟩
    | topology t => exact ⟨_,Json.Member.mono Topology.Text.value hm⟩
    | other key => exact ⟨key,hm.2⟩
  | listed h => exact value_of_list (fun _ _ _ _ => Member.Content.value) h

theorem Text.head {c : Config} {s r : Bytes} (h : c.Text s r) :
    ∃ (k : Bracket) (v : Bytes), s = k.opening :: v := by
  cases h with
  | keyed h | listed h =>
    obtain ⟨v,hv,-⟩ := h.head
    exact ⟨_,v,hv⟩

/-- A text is accepted exactly if it is one object or list in white space, well-formed down to the
values that nobody asks for, that is the text of a configuration; and that one is returned. -/
theorem ofString_eq_ok_iff (text : String) (c : Config) :
    ofString text = .ok c ↔
      ∃ s t, Space (utf8 text) s ∧ (∃ (k : Bracket) (v : Bytes), s = k.opening :: v) ∧ Value s t ∧
        c.Text s t ∧ Space t [] := by
  constructor
  · intro h
    obtain ⟨t,hrun,ht⟩ := parse_eq_ok h
    obtain ⟨s,hs,htext⟩ := takesOnly hrun
    exact ⟨s,t,hs,htext.head,htext.value,htext,ht⟩
  · rintro ⟨s,t,hs,-,-,htext,ht⟩
    exact htext.read hs ht

/-- A key inside of a value that nobody asks for is passed over although it spells nothing, since a
surrogate stands alone in it. -/
theorem accepts_lone_surrogate :
    ofString "\x7b\"x\":\x7b\"\\ud800\":1\x7d\x7d" = .ok standard ∧
      utf8 "\x7b\"x\":\x7b\"\\ud800\":1\x7d\x7d" = objectOpen :: quote :: (utf8 "x" ++ quote ::
        colon :: objectOpen :: quote :: (utf8 "\\ud800\"" ++ utf8 ":1\x7d\x7d")) ∧
      ∀ d t, ¬Spells (utf8 "\\ud800\"" ++ utf8 ":1\x7d\x7d") d t := by
  have htext : utf8 "\x7b\"x\":\x7b\"\\ud800\":1\x7d\x7d" = objectOpen :: quote :: (utf8 "x" ++ quote ::
      colon :: objectOpen :: quote :: (utf8 "\\ud800\"" ++ utf8 ":1\x7d\x7d")) := by
    decide +kernel
  have hkey : utf8 "\\ud800\"" ++ utf8 ":1\x7d\x7d" = backslash :: letterU :: 100 :: 56 :: 48 :: 48 ::
      quote :: colon :: 49 :: objectClose :: [objectClose] := by
    decide +kernel
  have hhex : Hex 0xD800 (100 :: 56 :: 48 :: 48 :: quote :: colon :: 49 :: objectClose ::
      [objectClose]) (quote :: colon :: 49 :: objectClose :: [objectClose]) :=
    ⟨100,56,48,48,13,8,0,0,rfl,by decide +kernel,by decide +kernel,by decide +kernel,
      by decide +kernel,rfl⟩
  refine ⟨?_,htext,?_⟩
  · have hone : Value (49 :: objectClose :: [objectClose]) (objectClose :: [objectClose]) :=
      .number (.positive (.single rfl (by decide)) .none .none)
    have hinner : Value (objectOpen :: quote :: backslash :: letterU :: 100 :: 56 :: 48 :: 48 ::
        quote :: colon :: 49 :: objectClose :: [objectClose]) [objectClose] :=
      .object (.lastMember .none (.point hhex .close) .none .none hone .none)
    have hother : Member.Text (.other (utf8 "x")) (quote :: (utf8 "x" ++ quote :: colon ::
        objectOpen :: quote :: backslash :: letterU :: 100 :: 56 :: 48 :: 48 :: quote :: colon ::
        49 :: objectClose :: [objectClose])) [objectClose] :=
      ⟨by decide +kernel,.mk (spells_plain (by decide +kernel) _) .none .none hinner⟩
    have hobject := Bracketed.some (P := Member.Text) (k := .object)
      (.last .none hother (.none (s := [objectClose])))
    rw [← hkey] at hobject
    have honce : Once Member.name? [.other (utf8 "x")] := List.nodup_nil
    exact Text.read (.keyed hobject honce rfl) (htext ▸ .none) .none
  · rw [hkey]
    exact not_spells_surrogate hhex (by decide) (by decide)

end Config
end PinnedPool
