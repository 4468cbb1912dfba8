import PinnedPool.Proofs.Config.Keyed
import PinnedPool.Proofs.Json.Tokens

/-! # Numbers of a configuration

A draft is a configuration text in which any number token may stand for the worker count and for each
CPU. It is accepted exactly if all of its tokens are exact, and then with their values. No token is
rounded, cut off or wrapped around: one that is not exact makes the whole text an error.
-/
namespace PinnedPool
open Json

namespace Topology

/-- A member whose numbers are tokens. -/
inductive Draft where
  | performance (ws : List Bytes)
  | efficiency (ws : List Bytes)
  | other (key : Bytes)

namespace Draft

def numbers : Draft → List Bytes
  | performance ws | efficiency ws => ws
  | other _ => []

/-- The member with the values of its tokens. -/
def member : Draft → Member
  | performance ws => .performance (ws.map valueOf)
  | efficiency ws => .efficiency (ws.map valueOf)
  | other key => .other key

def key : Draft → Bytes
  | performance _ => utf8 "performance"
  | efficiency _ => utf8 "efficiency"
  | other key => key

def Content : Draft → Bytes → Bytes → Prop
  | performance ws | efficiency ws => Bracketed NumberText .list ws
  | other _ => Value

def Text : Draft → Bytes → Bytes → Prop
  | performance ws => Json.Member (Bracketed NumberText .list ws) (utf8 "performance")
  | efficiency ws => Json.Member (Bracketed NumberText .list ws) (utf8 "efficiency")
  | other key => fun s t => key ∉ ["performance", "efficiency"].map utf8 ∧ Json.Member Value key s t

/-- A topology of the given members, in any form. -/
abbrev Texts : List Draft → Bytes → Bytes → Prop :=
  Recorded Text Content (fun d => d.member.name?) ["performance", "efficiency"]

section Members
variable {d : Draft} {s t : Bytes}

theorem Text.keyed (h : d.Text s t) : Json.Member d.Content d.key s t := by
  cases d with
  | performance | efficiency => exact h
  | other => exact h.2

theorem Content.value (h : d.Content s t) : Value s t := by
  cases d with
  | performance | efficiency => exact value_of_list (fun _ _ _ _ => NumberText.value) h
  | other => exact h

theorem key_eq {k : String} (h : d.member.name? = some k) : d.key = utf8 k := by
  cases d with
  | performance | efficiency =>
    cases h
    rfl
  | other => cases h

theorem sizes {ws : List Bytes} (h : Bracketed NumberText .list ws s t)
    (hws : ∀ w ∈ ws, Exact w) : Bracketed SizeText .list (ws.map valueOf) s t :=
  h.map valueOf fun w hw _ _ hn => hn.size (hws w hw)

theorem Content.exact (h : d.Content s t) (hd : ∀ w ∈ d.numbers, Exact w) :
    d.member.Content s t := by
  cases d with
  | performance | efficiency => exact sizes h hd
  | other => exact h

theorem Text.exact (h : d.Text s t) (hd : ∀ w ∈ d.numbers, Exact w) : d.member.Text s t := by
  cases d with
  | performance | efficiency => exact h.mono fun h => sizes h hd
  | other => exact h

end Members

/-- The numbers of a draft. -/
def all (ds : List Draft) : List Bytes := ds.flatMap numbers

/-- The topology of a draft. -/
def topology (ds : List Draft) : Topology := Member.assembled (ds.map member)

section Texts
variable {ds : List Draft} {s t : Bytes} (h : Texts ds s t)
include h

theorem value : Value s t :=
  h.value (fun _ _ _ _ hd => ⟨_,hd.keyed.mono Content.value⟩) (fun _ _ _ _ => Content.value)

theorem text_of_exact (hds : ∀ w ∈ all ds, Exact w) : (topology ds).Text s t := by
  have hnumbers : ∀ d ∈ ds, ∀ w ∈ d.numbers, Exact w := fun d hd w hw =>
    hds w (List.mem_flatMap.mpr ⟨d,hd,hw⟩)
  exact .of_members (h.map member (fun d hd _ _ htext => htext.exact (hnumbers d hd))
    (fun d hd _ _ hc => hc.exact (hnumbers d hd)) fun _ => rfl)

theorem once : Once Member.name? (ds.map member) := by
  rw [Once, List.filterMap_map]
  exact Recorded.once h (by decide)

theorem performance_eq {ws : List Bytes} (hws : .performance ws ∈ ds) :
    (topology ds).performance = ws.map valueOf := by
  have hfind := (findSome?_eq_some_iff Member.name_performance (once h)).mpr
    ⟨_,List.mem_map_of_mem hws,rfl⟩
  exact congrArg (Option.getD · _) hfind

theorem efficiency_eq {ws : List Bytes} (hws : .efficiency ws ∈ ds) :
    (topology ds).efficiency = ws.map valueOf := by
  have hfind := (findSome?_eq_some_iff Member.name_efficiency (once h)).mpr
    ⟨_,List.mem_map_of_mem hws,rfl⟩
  exact congrArg (Option.getD · _) hfind

end Texts

theorem exact_of_list {ws : List Bytes} (h : Accepts (.list .size) (Bracketed NumberText .list ws)) :
    ∀ w ∈ ws, Exact w := by
  obtain ⟨s,u,t,a,r,hs,hu,-,hrun⟩ := h
  exact fun w hw => exact_of_accepts (Reader.list_sound NumberText.value agrees_size hu hs hrun w hw)

theorem all_exact {ds : List Draft} (h : Accepts reader (Texts ds)) : ∀ w ∈ all ds, Exact w := by
  obtain ⟨s,u,t,a,r,hs,hu,-,hrun⟩ := h
  have haccepts := Reader.record_accepts agrees_fields (by decide) hu hs hrun Content.value Text.keyed
    key_eq
  intro w hw
  obtain ⟨d,hd,hw⟩ := List.mem_flatMap.mp hw
  cases d with
  | performance => exact exact_of_list (haccepts _ hd _ (.head _) rfl).of_field w hw
  | efficiency => exact exact_of_list (haccepts _ hd _ (.tail _ (.head _)) rfl).of_field w hw
  | other => cases hw

end Draft
end Topology

namespace Config

/-- A member whose numbers are tokens. -/
inductive Draft where
  | threads (w : Bytes)
  | pinWorkers (b : Bool)
  | topology (ds : List Topology.Draft)
  | other (key : Bytes)

namespace Draft

def numbers : Draft → List Bytes
  | threads w => [w]
  | topology ds => Topology.Draft.all ds
  | pinWorkers _ | other _ => []

/-- The member with the values of its tokens. -/
def member : Draft → Member
  | threads w => .threads (valueOf w)
  | pinWorkers b => .pinWorkers b
  | topology ds => .topology (Topology.Draft.topology ds)
  | other key => .other key

def key : Draft → Bytes
  | threads _ => utf8 "threads"
  | pinWorkers _ => utf8 "pin_workers"
  | topology _ => utf8 "topology"
  | other key => key

def Content : Draft → Bytes → Bytes → Prop
  | threads w => NumberText w
  | pinWorkers b => FlagText b
  | topology ds => Topology.Draft.Texts ds
  | other _ => Value

def Text : Draft → Bytes → Bytes → Prop
  | threads w => Json.Member (NumberText w) (utf8 "threads")
  | pinWorkers b => Json.Member (FlagText b) (utf8 "pin_workers")
  | topology ds => Json.Member (Topology.Draft.Texts ds) (utf8 "topology")
  | other key => fun s t =>
    key ∉ ["threads", "pin_workers", "topology"].map utf8 ∧ Json.Member Value key s t

/-- A configuration of the given members, in any form. -/
abbrev Texts : List Draft → Bytes → Bytes → Prop :=
  Recorded Text Content (fun d => d.member.name?) ["threads", "pin_workers", "topology"]

section Members
variable {d : Draft} {s t : Bytes}

theorem Text.keyed (h : d.Text s t) : Json.Member d.Content d.key s t := by
  cases d with
  | threads | pinWorkers | topology => exact h
  | other => exact h.2

theorem Content.value (h : d.Content s t) : Value s t := by
  cases d with
  | threads => exact NumberText.value h
  | pinWorkers => exact FlagText.value h
  | topology => exact Topology.Draft.value h
  | other => exact h

theorem key_eq {k : String} (h : d.member.name? = some k) : d.key = utf8 k := by
  cases d with
  | threads | pinWorkers | topology =>
    cases h
    rfl
  | other => cases h

theorem Content.exact (h : d.Content s t) (hd : ∀ w ∈ d.numbers, Exact w) :
    d.member.Content s t := by
  cases d with
  | threads w => exact NumberText.size h (hd w (List.mem_singleton_self w))
  | topology => exact Topology.Draft.text_of_exact h hd
  | pinWorkers | other => exact h

theorem Text.exact (h : d.Text s t) (hd : ∀ w ∈ d.numbers, Exact w) : d.member.Text s t := by
  cases d with
  | threads w => exact h.mono fun h => NumberText.size h (hd w (List.mem_singleton_self w))
  | topology => exact h.mono fun h => Topology.Draft.text_of_exact h hd
  | pinWorkers | other => exact h

end Members

section Texts
variable {ds : List Draft} {s t : Bytes} (h : Texts ds s t)
include h

theorem text_of_exact (hds : ∀ w ∈ ds.flatMap numbers, Exact w) :
    (Member.assembled (ds.map member)).Text s t := by
  have hnumbers : ∀ d ∈ ds, ∀ w ∈ d.numbers, Exact w := fun d hd w hw =>
    hds w (List.mem_flatMap.mpr ⟨d,hd,hw⟩)
  exact .of_members (h.map member (fun d hd _ _ htext => htext.exact (hnumbers d hd))
    (fun d hd _ _ hc => hc.exact (hnumbers d hd)) fun _ => rfl)

theorem once : Once Member.name? (ds.map member) := by
  rw [Once, List.filterMap_map]
  exact Recorded.once h (by decide)

theorem exists_content {d : Draft} (hd : d ∈ ds) : ∃ u v, d.Content u v := by
  cases h with
  | keyed h =>
    obtain ⟨u,v,htext⟩ := h.exists_of_mem hd
    cases htext.keyed with
    | mk _ _ _ hcontent => exact ⟨_,_,hcontent⟩
  | listed h => exact h.exists_of_mem hd

theorem exact_of_read {u r : Bytes} {c : Config} (hs : Space u s) (hrun : reader.run u = .ok (c,r)) :
    ∀ w ∈ ds.flatMap numbers, Exact w := by
  have haccepts := Reader.record_accepts agrees_fields (by decide) h hs hrun Content.value Text.keyed
    key_eq
  intro w hw
  obtain ⟨d,hd,hw⟩ := List.mem_flatMap.mp hw
  cases d with
  | threads w' =>
    rw [List.mem_singleton.mp hw]
    exact exact_of_accepts (haccepts _ hd _ (.head _) rfl).of_field
  | topology ds =>
    have hfield := haccepts _ hd _ (.tail _ (.tail _ (.head _))) rfl
    exact Topology.Draft.all_exact hfield.of_field w hw
  | pinWorkers | other => cases hw

end Texts

end Draft

/-- A configuration has the values of the tokens, and the flags, of a draft. -/
structure Stores (c : Config) (ds : List Draft) : Prop where
  threads : ∀ w, .threads w ∈ ds → c.threads = valueOf w
  pinWorkers : ∀ b, .pinWorkers b ∈ ds → c.pinWorkers = b
  performance : ∀ ts ws, .topology ts ∈ ds → .performance ws ∈ ts →
    c.topology.performance = ws.map valueOf
  efficiency : ∀ ts ws, .topology ts ∈ ds → .efficiency ws ∈ ts →
    c.topology.efficiency = ws.map valueOf

theorem stores {ds : List Draft} {s t : Bytes} (h : Draft.Texts ds s t) :
    Stores (Member.assembled (ds.map Draft.member)) ds := by
  have honce := Draft.once h
  have htopology : ∀ ts, .topology ts ∈ ds →
      (Member.assembled (ds.map Draft.member)).topology = Topology.Draft.topology ts ∧
        ∃ u v, Topology.Draft.Texts ts u v := by
    intro ts hts
    have hfind := (findSome?_eq_some_iff Member.name_topology honce).mpr
      ⟨_,List.mem_map_of_mem hts,rfl⟩
    exact ⟨congrArg (Option.getD · _) hfind,Draft.exists_content h hts⟩
  constructor
  · intro w hw
    have hfind := (findSome?_eq_some_iff Member.name_threads honce).mpr
      ⟨_,List.mem_map_of_mem hw,rfl⟩
    exact congrArg (Option.getD · _) hfind
  · intro b hb
    have hfind := (findSome?_eq_some_iff Member.name_pinWorkers honce).mpr
      ⟨_,List.mem_map_of_mem hb,rfl⟩
    exact congrArg (Option.getD · _) hfind
  · intro ts ws hts hws
    obtain ⟨heq,u,v,hu⟩ := htopology ts hts
    rw [heq, Topology.Draft.performance_eq hu hws]
  · intro ts ws hts hws
    obtain ⟨heq,u,v,hu⟩ := htopology ts hts
    rw [heq, Topology.Draft.efficiency_eq hu hws]

/-- A draft is accepted exactly if each of its tokens is all digits, with a value below `2 ^ 64`, and
these values are what is stored. With any other token, such as one with a sign, a fraction or an
exponent, or with a greater value, it is refused. -/
theorem numbers_exact (text : String) {s t : Bytes} (hs : Space (utf8 text) s) (ht : Space t [])
    (ds : List Draft) (h : Draft.Texts ds s t) :
    ((∃ c, ofString text = .ok c) ↔ ∀ w ∈ ds.flatMap Draft.numbers, Exact w) ∧
      (∀ c, ofString text = .ok c → Stores c ds) ∧
      ((∃ w ∈ ds.flatMap Draft.numbers, ¬Exact w) → ∃ e, ofString text = .error (.config e)) := by
  have hread : (∀ w ∈ ds.flatMap Draft.numbers, Exact w) →
      ofString text = .ok (Member.assembled (ds.map Draft.member)) :=
    fun hds => (Draft.text_of_exact h hds).read hs ht
  have hexact : ∀ c, ofString text = .ok c → ∀ w ∈ ds.flatMap Draft.numbers, Exact w := by
    intro c hc
    obtain ⟨r,hrun,-⟩ := parse_eq_ok hc
    exact Draft.exact_of_read h hs hrun
  refine ⟨⟨fun ⟨c,hc⟩ => hexact c hc,fun hds => ⟨_,hread hds⟩⟩,?_,?_⟩
  · intro c hc
    obtain rfl := Except.ok.inj (hc.symm.trans (hread (hexact c hc)))
    exact stores h
  · rintro ⟨w,hw,hinexact⟩
    exact ofString_eq_error fun c r hrun => hinexact (Draft.exact_of_read h hs hrun w hw)

/-- The greatest size and the number after it, a negative zero, and a hundred with an exponent. -/
theorem numbers_exact_bound :
    (∃ c, ofString "\x7b\"threads\":18446744073709551615\x7d" = .ok c ∧
      c.threads = 18446744073709551615) ∧
      (∃ e, ofString "[18446744073709551616]" = .error (.config e)) ∧
      ∃ e, ofString "[3,true,[[-0,1e2]]]" = .error (.config e) := by
  have hnumber : ∀ {w : Bytes}, Numeral w [] → Writes (NumberText w) w := fun hw _ => ⟨hw,rfl⟩
  have hgreatest : Writes (NumberText (utf8 "18446744073709551615")) (utf8 "18446744073709551615") :=
    hnumber (numeral_of_skipUnsigned (by decide +kernel)).1
  have hnext : Writes (NumberText (utf8 "18446744073709551616")) (utf8 "18446744073709551616") :=
    hnumber (numeral_of_skipUnsigned (by decide +kernel)).1
  have hthree : Writes (NumberText (utf8 "3")) (utf8 "3") :=
    hnumber (numeral_of_skipUnsigned (by decide +kernel)).1
  have hzero : Writes (NumberText (minus :: utf8 "0")) (minus :: utf8 "0") :=
    hnumber (numeral_of_skipUnsigned (by decide +kernel)).2
  have hhundred : Writes (NumberText (utf8 "1e2")) (utf8 "1e2") :=
    hnumber (numeral_of_skipUnsigned (by decide +kernel)).1
  have hkey : ∀ b ∈ utf8 "threads", Plain b := by decide +kernel
  refine ⟨?_,?_,?_⟩
  · have hobject := writes_bracketed (P := Draft.Text) .object
      [(.threads (utf8 "18446744073709551615"),
        memberBytes "threads" (utf8 "18446744073709551615"))]
      (List.forall_mem_singleton.mpr (writes_member hkey hgreatest)) []
    have honce : Once (fun d => d.member.name?) [Draft.threads (utf8 "18446744073709551615")] := by
      change ["threads"].Nodup
      decide
    obtain ⟨hiff,hstores,-⟩ := numbers_exact "\x7b\"threads\":18446744073709551615\x7d"
      (.of_eq (by decide +kernel)) .none _ (.keyed hobject honce)
    obtain ⟨c,hc⟩ := hiff.mpr (by decide +kernel)
    have hvalue : valueOf (utf8 "18446744073709551615") = 18446744073709551615 := by decide +kernel
    exact ⟨c,hc,((hstores c hc).threads _ (List.mem_singleton_self _)).trans hvalue⟩
  · have hlist := writes_bracketed (P := Draft.Content) .list
      [(.threads (utf8 "18446744073709551616"),utf8 "18446744073709551616")]
      (List.forall_mem_singleton.mpr hnext) []
    refine (numbers_exact _ (.of_eq ?_) .none _ (.listed hlist (by decide))).2.2
      ⟨utf8 "18446744073709551616",List.mem_singleton_self _,by decide +kernel⟩
    decide +kernel
  · have hcpus := writes_bracketed .list [(minus :: utf8 "0",minus :: utf8 "0"), (utf8 "1e2",utf8 "1e2")]
      (List.forall_mem_cons.mpr ⟨hzero,List.forall_mem_singleton.mpr hhundred⟩)
    have htopology := writes_bracketed (P := Topology.Draft.Content) .list
      [(.performance [minus :: utf8 "0", utf8 "1e2"],
        bracketBytes .list [minus :: utf8 "0", utf8 "1e2"])] (List.forall_mem_singleton.mpr hcpus)
    have hlist := writes_bracketed (P := Draft.Content) .list
      [(.threads (utf8 "3"),utf8 "3"), (.pinWorkers true,utf8 "true"),
        (.topology [.performance [minus :: utf8 "0", utf8 "1e2"]],
          bracketBytes .list [bracketBytes .list [minus :: utf8 "0", utf8 "1e2"]])]
      (List.forall_mem_cons.mpr ⟨hthree,List.forall_mem_cons.mpr ⟨fun _ => rfl,
        List.forall_mem_singleton.mpr fun t => .listed (htopology t) (by decide)⟩⟩) []
    refine (numbers_exact _ (.of_eq ?_) .none _ (.listed hlist (by decide))).2.2
      ⟨minus :: utf8 "0",?_,by decide +kernel⟩
    · decide +kernel
    · exact .tail _ (.head _)

end Config
end PinnedPool
