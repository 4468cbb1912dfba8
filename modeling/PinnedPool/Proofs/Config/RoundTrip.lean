import PinnedPool.Proofs.Config.Keyed
import PinnedPool.Proofs.Json.Yields

/-! # Configurations are read back as they are written

The compact text of a configuration is one of the texts by key, so it is read to its end and as that
configuration. What has been read from any text consists of sizes, so it can be written and read
again.
-/
namespace PinnedPool
open Json

/-! ## Topologies -/

namespace Topology

/-- Every CPU is a size. -/
structure Fits (t : Topology) : Prop where
  performance : ∀ n ∈ t.performance, n < Number.wordBound
  efficiency : ∀ n ∈ t.efficiency, n < Number.wordBound

theorem utf8_writeCpus (cpus : List Nat) :
    utf8 (writeCpus cpus) = bracketBytes .list (cpus.map fun n => utf8 (toString n)) := by
  have hopen : utf8 "[" = [listOpen] := by decide +kernel
  have hclose : utf8 "]" = [listClose] := by decide +kernel
  rw [writeCpus, utf8_append, utf8_append, hopen, hclose, utf8_intercalate, List.map_map]
  rfl

theorem writes_cpus {cpus : List Nat} (h : ∀ n ∈ cpus, n < Number.wordBound) :
    Writes (Bracketed SizeText .list cpus) (utf8 (writeCpus cpus)) := by
  have hwrites : ∀ x ∈ cpus.map fun n => (n,utf8 (toString n)), Writes (SizeText x.1) x.2 := by
    intro x hx t
    obtain ⟨n,hn,rfl⟩ := List.mem_map.mp hx
    exact ⟨h n hn,rfl⟩
  have hbracketed := writes_bracketed .list _ hwrites
  rw [List.map_map, List.map_map] at hbracketed
  have hfst : (Prod.fst ∘ fun n : Nat => (n,utf8 (toString n))) = id := rfl
  rw [hfst, List.map_id] at hbracketed
  rw [utf8_writeCpus]
  exact hbracketed

theorem utf8_write (t : Topology) :
    utf8 t.write = bracketBytes .object [memberBytes "performance" (utf8 (writeCpus t.performance)),
      memberBytes "efficiency" (utf8 (writeCpus t.efficiency))] := by
  have hopen : utf8 "\x7b\"performance\":" =
      objectOpen :: quote :: (utf8 "performance" ++ [quote, colon]) := by decide +kernel
  have hnext : utf8 ",\"efficiency\":" =
      comma :: quote :: (utf8 "efficiency" ++ [quote, colon]) := by decide +kernel
  have hclose : utf8 "\x7d" = [objectClose] := by decide +kernel
  unfold write
  simp only [utf8_append, hopen, hnext, hclose, bracketBytes, memberBytes, commas,
    List.append_assoc, List.cons_append, List.nil_append]
  rfl

theorem writes_text {t : Topology} (h : t.Fits) : Writes t.Text (utf8 t.write) := by
  intro r
  have hperformance : ∀ b ∈ utf8 "performance", Plain b := by decide +kernel
  have hefficiency : ∀ b ∈ utf8 "efficiency", Plain b := by decide +kernel
  have hmembers := writes_bracketed (P := Member.Text) .object
    [(.performance t.performance,memberBytes "performance" (utf8 (writeCpus t.performance))),
      (.efficiency t.efficiency,memberBytes "efficiency" (utf8 (writeCpus t.efficiency)))]
    (List.forall_mem_cons.mpr ⟨writes_member hperformance (writes_cpus h.performance),
      List.forall_mem_singleton.mpr (writes_member hefficiency (writes_cpus h.efficiency))⟩) r
  have honce : Once Member.name? [.performance t.performance, .efficiency t.efficiency] := by
    change ["performance", "efficiency"].Nodup
    decide
  rw [utf8_write]
  exact .keyed hmembers honce rfl

theorem yields : Yields reader Fits := by
  have hlist : Yields (.list .size) fun cpus => ∀ n ∈ cpus, n < Number.wordBound :=
    yields_list yields_size
  have hstandard : standard.Fits := ⟨by decide,by decide⟩
  refine yields_record ?_ "CoreTopology" hstandard
  intro f hf
  simp only [fields, List.mem_cons, List.not_mem_nil, or_false] at hf
  rcases hf with rfl | rfl
  · exact yields_field hlist "performance" fun _ _ hcpus ht => ⟨hcpus,ht.efficiency⟩
  · exact yields_field hlist "efficiency" fun _ _ hcpus ht => ⟨ht.performance,hcpus⟩

end Topology

namespace Config

/-- Every number is a size. -/
structure Fits (c : Config) : Prop where
  threads : c.threads < Number.wordBound
  topology : c.topology.Fits

theorem utf8_write (c : Config) :
    utf8 c.write = bracketBytes .object [memberBytes "threads" (utf8 (toString c.threads)),
      memberBytes "pin_workers" (utf8 (toString c.pinWorkers)),
      memberBytes "topology" (utf8 c.topology.write)] := by
  have hopen : utf8 "\x7b\"threads\":" =
      objectOpen :: quote :: (utf8 "threads" ++ [quote, colon]) := by decide +kernel
  have hpin : utf8 ",\"pin_workers\":" =
      comma :: quote :: (utf8 "pin_workers" ++ [quote, colon]) := by decide +kernel
  have htopology : utf8 ",\"topology\":" =
      comma :: quote :: (utf8 "topology" ++ [quote, colon]) := by decide +kernel
  have hclose : utf8 "\x7d" = [objectClose] := by decide +kernel
  unfold write
  simp only [utf8_append, hopen, hpin, htopology, hclose, bracketBytes, memberBytes, commas,
    List.append_assoc, List.cons_append, List.nil_append]
  rfl

theorem writes_text {c : Config} (h : c.Fits) : Writes c.Text (utf8 c.write) := by
  intro r
  have hthreads : ∀ b ∈ utf8 "threads", Plain b := by decide +kernel
  have hpin : ∀ b ∈ utf8 "pin_workers", Plain b := by decide +kernel
  have htopology : ∀ b ∈ utf8 "topology", Plain b := by decide +kernel
  have hsize : Writes (SizeText c.threads) (utf8 (toString c.threads)) := fun _ => ⟨h.threads,rfl⟩
  have hflag : Writes (FlagText c.pinWorkers) (utf8 (toString c.pinWorkers)) := fun _ => rfl
  have hmembers := writes_bracketed (P := Member.Text) .object
    [(.threads c.threads,memberBytes "threads" (utf8 (toString c.threads))),
      (.pinWorkers c.pinWorkers,memberBytes "pin_workers" (utf8 (toString c.pinWorkers))),
      (.topology c.topology,memberBytes "topology" (utf8 c.topology.write))]
    (List.forall_mem_cons.mpr ⟨writes_member hthreads hsize,
      List.forall_mem_cons.mpr ⟨writes_member hpin hflag,
        List.forall_mem_singleton.mpr (writes_member htopology (Topology.writes_text h.topology))⟩⟩)
    r
  have honce : Once Member.name?
      [.threads c.threads, .pinWorkers c.pinWorkers, .topology c.topology] := by
    change ["threads", "pin_workers", "topology"].Nodup
    decide
  rw [utf8_write]
  exact .keyed hmembers honce rfl

theorem yields : Yields reader Fits := by
  have hstandard : standard.Fits := ⟨by decide,by decide,by decide⟩
  refine yields_record ?_ "PoolConfig" hstandard
  intro f hf
  simp only [fields, List.mem_cons, List.not_mem_nil, or_false] at hf
  rcases hf with rfl | rfl | rfl
  · exact yields_field yields_size "threads" fun _ _ hn hc => ⟨hn,hc.topology⟩
  · have hflag : Yields .flag fun _ => True := fun _ _ _ _ => trivial
    exact yields_field hflag "pin_workers" fun _ _ _ hc => ⟨hc.threads,hc.topology⟩
  · exact yields_field Topology.yields "topology" fun _ _ ht hc => ⟨hc.threads,ht⟩

/-! ## Reading back -/

theorem parse_writes {α : Type} {r : Reader α} {P : α → Bytes → Bytes → Prop} (hr : Reads r P) {a : α}
    {text : String} (h : Writes (P a) (utf8 text)) : parse r text = .ok a := by
  have hread := hr.parse (List.append_nil (utf8 text) ▸ h []) .none .none
  rw [parse, parseBytes]
  exact congrArg (Except.mapError PoolError.config) hread

theorem ofString_write {c : Config} (h : c.Fits) : ofString c.write = .ok c :=
  parse_writes reads (writes_text h)

theorem parse_topology_write {t : Topology} (h : t.Fits) : parse Topology.reader t.write = .ok t :=
  parse_writes Topology.reads (Topology.writes_text h)

theorem ofFile_toUTF8 (text : String) : ofFile (.ok text.toUTF8) = ofString text := by
  have hread : String.fromUTF8? text.toUTF8 = some text := by
    have hvalid : text.toUTF8.IsValidUTF8 := text.isValidUTF8
    rw [String.fromUTF8?, dif_pos hvalid]
    rfl
  rw [ofFile, hread]

/-- What is read from a whole text has the property. -/
theorem yields_parse {α : Type} {r : Reader α} {P : α → Prop} (hr : Yields r P) {text : String}
    {a : α} (h : parse r text = .ok a) : P a := by
  obtain ⟨t,hrun,-⟩ := parse_eq_ok h
  exact hr hrun

/-- The compact text of a configuration is read back as that configuration, from a string and from a
file, and so is the one of a topology by itself. Hence no two are written alike, and writing what has
been read from any text and reading it again changes nothing. -/
theorem round_trip :
    (∀ c : Config, c.Fits → ofString c.write = .ok c ∧ ofFile (.ok c.write.toUTF8) = .ok c) ∧
      (∀ t : Topology, t.Fits → parse Topology.reader t.write = .ok t) ∧
      (∀ c d : Config, c.Fits → d.Fits → c.write = d.write → c = d) ∧
      (∀ t u : Topology, t.Fits → u.Fits → t.write = u.write → t = u) ∧
      (∀ text c, ofString text = .ok c → c.Fits ∧ ofString c.write = ofString text) ∧
      ∀ text t, parse Topology.reader text = .ok t →
        t.Fits ∧ parse Topology.reader t.write = parse Topology.reader text := by
  refine ⟨?_,?_,?_,?_,?_,?_⟩
  · intro c hc
    exact ⟨ofString_write hc,(ofFile_toUTF8 c.write).trans (ofString_write hc)⟩
  · intro t ht
    exact parse_topology_write ht
  · intro c d hc hd heq
    have hread := ofString_write hc
    rw [heq, ofString_write hd] at hread
    exact (Except.ok.inj hread).symm
  · intro t u ht hu heq
    have hread := parse_topology_write ht
    rw [heq, parse_topology_write hu] at hread
    exact (Except.ok.inj hread).symm
  · intro text c h
    have hc := yields_parse yields h
    exact ⟨hc,(ofString_write hc).trans h.symm⟩
  · intro text t h
    have ht := yields_parse Topology.yields h
    exact ⟨ht,(parse_topology_write ht).trans h.symm⟩

/-- The largest size is read back, and the numeral of the next number is refused. -/
theorem round_trip_largest :
    (⟨Number.wordBound - 1,false,⟨[Number.wordBound - 1, 0],[]⟩⟩ : Config).Fits ∧
      ofString (⟨Number.wordBound - 1,false,⟨[Number.wordBound - 1, 0],[]⟩⟩ : Config).write =
        .ok ⟨Number.wordBound - 1,false,⟨[Number.wordBound - 1, 0],[]⟩⟩ ∧
      (ofString (⟨Number.wordBound,false,⟨[],[]⟩⟩ : Config).write).isOk = false := by
  have hfits : (⟨Number.wordBound - 1,false,⟨[Number.wordBound - 1, 0],[]⟩⟩ : Config).Fits :=
    ⟨by decide,by decide,by decide⟩
  refine ⟨hfits,(round_trip.1 _ hfits).1,?_⟩
  decide +kernel

end Config
end PinnedPool
