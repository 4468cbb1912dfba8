import PinnedPool.Proofs.Config.RoundTrip
import PinnedPool.Proofs.Json.Positions

/-! # Configurations by position

The first fields of a configuration may be given in a list by their values alone, and so may the lists
of its topology. That is the configuration that the same values give by key. A list with more elements
than there are fields is refused at either level, whatever they are.
-/
namespace PinnedPool
open Json

namespace Topology

theorem le_of_accepts {n : Nat} (h : Accepts reader (Values n)) : n ≤ 2 := by
  obtain ⟨s,u,t,a,r,hs,hu,-,hrun⟩ := h
  have hlength := (Reader.positions_sound (fun h => h) agrees_fields hu hs hrun).1
  rwa [List.length_replicate] at hlength

end Topology

namespace Config

theorem Member.assembled_perm {ms ms' : List Member} (h : ms.Perm ms') (honce : Once name? ms) :
    assembled ms = assembled ms' := by
  rw [assembled, findSome?_perm name_threads h honce, findSome?_perm name_pinWorkers h honce,
    findSome?_perm name_topology h honce]
  rfl

section Short
variable {s u t r : Bytes} {c : Config} (hs : Space s u) (hrun : reader.run s = .ok (c,r))
include hs hrun

theorem short_of_list {es : List (Option Nat)} (h : Bracketed Extent .list es u t) :
    es.length ≤ 3 ∧ ∀ n, es[2]? = some (some n) → n ≤ 2 := by
  obtain ⟨hlength,haccepts⟩ := Reader.positions_sound Extent.value agrees_fields h hs hrun
  refine ⟨hlength,?_⟩
  intro n hn
  exact Topology.le_of_accepts (haccepts 2 _ _ rfl hn).of_field

theorem short_of_object {es : List (Bytes × Option Nat)}
    (h : Bracketed (fun e => Json.Member (Extent e.2) e.1) .object es u t) {n : Nat}
    (hn : (utf8 "topology",some n) ∈ es) : n ≤ 2 := by
  have haccepts := (Reader.record_sound agrees_fields Extent.value h hs hrun).2
  exact Topology.le_of_accepts (haccepts _ hn _ fieldOf?_topology).of_field

end Short

/-- The values of the first fields are read from a list as they are read by key, with the topology in
either form and the members of the object in any order. A list of four is refused, and so is one with
a list of three for its topology, by position or by key. -/
theorem read_by_position (text : String) {s t : Bytes} (hs : Space (utf8 text) s)
    (ht : Space t []) :
    (∀ ms, Bracketed Member.Content .list ms s t →
      ms.map Member.name? <+: ["threads", "pin_workers", "topology"].map some →
      ofString text = .ok
        { threads := (ms.findSome? Member.threads?).getD 3
          pinWorkers := (ms.findSome? Member.pinWorkers?).getD true
          topology := (ms.findSome? Member.topology?).getD ⟨[4, 5, 6, 7],[0, 1, 2, 3]⟩ } ∧
      ∀ text' s' t' ms', Space (utf8 text') s' → Bracketed Member.Text .object ms' s' t' →
        Space t' [] → ms'.Perm ms → ofString text' = ofString text) ∧
    (∀ es, Bracketed Extent .list es s t →
      3 < es.length ∨ (∃ n, es[2]? = some (some n) ∧ 2 < n) →
      ∃ e, ofString text = .error (.config e)) ∧
    ∀ es, Bracketed (fun e => Json.Member (Extent e.2) e.1) .object es s t →
      (∃ n, (utf8 "topology",some n) ∈ es ∧ 2 < n) → ∃ e, ofString text = .error (.config e) := by
  refine ⟨?_,?_,?_⟩
  · intro ms hms hnames
    have hread : ofString text = .ok (Member.assembled ms) := Text.read (.listed hms hnames rfl) hs ht
    refine ⟨hread,?_⟩
    intro text' s' t' ms' hs' hms' ht' hperm
    have honce : Once Member.name? ms' :=
      (hperm.filterMap Member.name?).nodup_iff.mpr (once_of_names hnames (by decide))
    rw [hread, Text.read (.keyed hms' honce rfl) hs' ht', Member.assembled_perm hperm honce]
  · intro es hes hlong
    refine ofString_eq_error fun c r hrun => ?_
    obtain ⟨hlength,htopology⟩ := short_of_list hs hrun hes
    rcases hlong with hlong | ⟨n,hn,hlong⟩
    · omega
    · have := htopology n hn
      omega
  · rintro es hes ⟨n,hn,hlong⟩
    refine ofString_eq_error fun c r hrun => ?_
    have := short_of_object hs hrun hes hn
    omega

/-- A list in white space with a list for the topology, and the same by key with an object for it; and
a third list that is none, by position and by key. -/
theorem read_by_position_nested :
    ofString " [6,false,[[1],[]]]\n" = .ok ⟨6,false,⟨[1],[]⟩⟩ ∧
      ofString "\x7b\"topology\":\x7b\"performance\":[1],\"efficiency\":[]\x7d,\"threads\":6,\"pin_workers\":false\x7d" =
        ofString " [6,false,[[1],[]]]\n" ∧
      (∃ e, ofString "[7,7,[[],[],7]]" = .error (.config e)) ∧
      ∃ e, ofString "\x7b\"topology\":[[],[],7]\x7d" = .error (.config e) := by
  have hsix : Writes (SizeText 6) (utf8 (toString 6)) := fun _ => ⟨by decide,rfl⟩
  have hfalse : Writes (FlagText false) (utf8 (toString false)) := fun _ => rfl
  have hlists : Writes (Bracketed (Bracketed SizeText .list) .list [[1], []])
      (bracketBytes .list [utf8 (Topology.writeCpus [1]), utf8 (Topology.writeCpus [])]) :=
    writes_bracketed .list [([1],utf8 (Topology.writeCpus [1])), ([],utf8 (Topology.writeCpus []))]
      (List.forall_mem_cons.mpr ⟨Topology.writes_cpus (by decide),
        List.forall_mem_singleton.mpr (Topology.writes_cpus (by decide))⟩)
  have hlisted : Writes (Topology.Text ⟨[1],[]⟩) (bracketBytes .list
      [utf8 (Topology.writeCpus [1]), utf8 (Topology.writeCpus [])]) :=
    fun t => .listed (hlists t) (by decide) rfl
  have hkeyed : Writes (Topology.Text ⟨[1],[]⟩) (utf8 (Topology.write ⟨[1],[]⟩)) :=
    Topology.writes_text ⟨by decide,by decide⟩
  have hempty : Writes Value [listOpen, listClose] := fun _ => .emptyList .none
  have hseven : Writes Value [55] := fun _ => .number (.positive (.single rfl (by decide)) .none .none)
  have hthree : Writes (Values 3) (bracketBytes .list [[listOpen, listClose], [listOpen, listClose], [55]]) :=
    writes_bracketed (P := fun _ : Unit => Value) .list
      [((),[listOpen, listClose]), ((),[listOpen, listClose]), ((),[55])] (by simp [hempty, hseven])
  have htopology : ∀ b ∈ utf8 "topology", Plain b := by decide +kernel
  have hthreads : ∀ b ∈ utf8 "threads", Plain b := by decide +kernel
  have hpin : ∀ b ∈ utf8 "pin_workers", Plain b := by decide +kernel
  have hlist := writes_bracketed (P := Member.Content) .list
    [(.threads 6,utf8 (toString 6)), (.pinWorkers false,utf8 (toString false)),
      (.topology ⟨[1],[]⟩,bracketBytes .list
        [utf8 (Topology.writeCpus [1]), utf8 (Topology.writeCpus [])])]
    (List.forall_mem_cons.mpr ⟨hsix,List.forall_mem_cons.mpr ⟨hfalse,
      List.forall_mem_singleton.mpr hlisted⟩⟩) [10]
  have hobject := writes_bracketed (P := Member.Text) .object
    [(.topology ⟨[1],[]⟩,memberBytes "topology" (utf8 (Topology.write ⟨[1],[]⟩))),
      (.threads 6,memberBytes "threads" (utf8 (toString 6))),
      (.pinWorkers false,memberBytes "pin_workers" (utf8 (toString false)))]
    (List.forall_mem_cons.mpr ⟨writes_member htopology hkeyed,List.forall_mem_cons.mpr
      ⟨writes_member hthreads hsix,List.forall_mem_singleton.mpr (writes_member hpin hfalse)⟩⟩) []
  have hlong := writes_bracketed (P := Extent) .list
    [(none,[55]), (none,[55]), (some 3,bracketBytes .list
      [[listOpen, listClose], [listOpen, listClose], [55]])]
    (List.forall_mem_cons.mpr ⟨hseven,List.forall_mem_cons.mpr ⟨hseven,
      List.forall_mem_singleton.mpr hthree⟩⟩) []
  have hlong' := writes_bracketed (P := fun e : Bytes × Option Nat => Json.Member (Extent e.2) e.1)
    .object [((utf8 "topology",some 3),memberBytes "topology" (bracketBytes .list
      [[listOpen, listClose], [listOpen, listClose], [55]]))]
    (List.forall_mem_singleton.mpr (writes_member htopology hthree)) []
  have htext : utf8 " [6,false,[[1],[]]]\n" = 32 :: (bracketBytes .list [utf8 (toString 6),
      utf8 (toString false), bracketBytes .list
        [utf8 (Topology.writeCpus [1]), utf8 (Topology.writeCpus [])]] ++ [10]) := by
    decide +kernel
  obtain ⟨hread,hagree⟩ := (read_by_position _ ((Space.of_eq htext).trans (.some (by decide) .none))
    (.some (by decide) .none)).1 _ hlist List.prefix_rfl
  refine ⟨hread,?_,?_,?_⟩
  · have hperm : ([.topology ⟨[1],[]⟩] ++ [.threads 6, .pinWorkers false] : List Member).Perm
        ([.threads 6, .pinWorkers false] ++ [.topology ⟨[1],[]⟩]) := List.perm_append_comm
    refine hagree _ _ _ _ ?_ hobject .none hperm
    exact .of_eq (by decide +kernel)
  · refine (read_by_position _ (.of_eq ?_) .none).2.1 _ hlong (.inr ⟨3,rfl,by decide⟩)
    decide +kernel
  · refine (read_by_position _ (.of_eq ?_) .none).2.2 _ hlong' ⟨3,List.mem_singleton_self _,by decide⟩
    decide +kernel

end Config
end PinnedPool
