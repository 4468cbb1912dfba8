import PinnedPool.Config
import PinnedPool.Proofs.Json.Repeated

/-! # Configurations by key

A configuration text names some of the fields, in any order and each in any spelling, among keys that
mean nothing to it. Whatever is not named is the standard value, at both levels.
-/
namespace PinnedPool
open Json

namespace Topology

inductive Member where
  | performance (cpus : List Nat)
  | efficiency (cpus : List Nat)
  | other (key : Bytes)

namespace Member

def name? : Member → Option String
  | performance _ => some "performance"
  | efficiency _ => some "efficiency"
  | other _ => none

def performance? : Member → Option (List Nat)
  | performance cpus => some cpus
  | efficiency _ | other _ => none

def efficiency? : Member → Option (List Nat)
  | efficiency cpus => some cpus
  | performance _ | other _ => none

theorem name_performance (m : Member) (cpus : List Nat) (h : m.performance? = some cpus) :
    m.name? = some "performance" := by
  cases m with
  | performance => rfl
  | efficiency | other => cases h

theorem name_efficiency (m : Member) (cpus : List Nat) (h : m.efficiency? = some cpus) :
    m.name? = some "efficiency" := by
  cases m with
  | efficiency => rfl
  | performance | other => cases h

def put : Member → Topology → Topology
  | performance cpus, t => { t with performance := cpus }
  | efficiency cpus, t => { t with efficiency := cpus }
  | other _, t => t

/-- The text of a member's value. -/
def Content : Member → Bytes → Bytes → Prop
  | performance cpus | efficiency cpus => Bracketed SizeText .list cpus
  | other _ => Value

def Text : Member → Bytes → Bytes → Prop
  | performance cpus => Json.Member (Bracketed SizeText .list cpus) (utf8 "performance")
  | efficiency cpus => Json.Member (Bracketed SizeText .list cpus) (utf8 "efficiency")
  | other key => fun s t => key ∉ ["performance", "efficiency"].map utf8 ∧ Json.Member Value key s t

/-- A list that is not written is the standard one, also when the other one is. -/
def assembled (ms : List Member) : Topology where
  performance := (ms.findSome? performance?).getD [4, 5, 6, 7]
  efficiency := (ms.findSome? efficiency?).getD [0, 1, 2, 3]

end Member

theorem members : Members fields Member.Text Member.name? Member.put := by
  intro m s t h ht
  have hlist := reads_list reads_size
  cases m with
  | performance cpus =>
    have hf := (Reader.fieldOf?_utf8 fields "performance").trans rfl
    exact Reader.takes_field hlist hf h ht
  | efficiency cpus =>
    have hf := (Reader.fieldOf?_utf8 fields "efficiency").trans rfl
    exact Reader.takes_field hlist hf h ht
  | other key =>
    have hf := Reader.fieldOf?_eq_none fields h.1
    exact Reader.takes_other hf h.2 ht

theorem foldl_put {ms : List Member} (h : Once Member.name? ms) :
    ms.foldl (fun t m => m.put t) standard = Member.assembled ms := by
  have hperformance := foldl_field Member.put Topology.performance Member.performance? h
    Member.name_performance (by rintro (_ | _ | _) _ <;> rfl) standard
  have hefficiency := foldl_field Member.put Topology.efficiency Member.efficiency? h
    Member.name_efficiency (by rintro (_ | _ | _) _ <;> rfl) standard
  have heta : ∀ t : Topology, t = ⟨t.performance,t.efficiency⟩ := fun _ => rfl
  rw [heta (ms.foldl _ _), hperformance, hefficiency]
  rfl

/-- A topology by key or by position. -/
inductive Text (t : Topology) (s r : Bytes) : Prop
  | keyed {ms} (members : Bracketed Member.Text .object ms s r) (once : Once Member.name? ms)
    (eq : t = Member.assembled ms)
  | listed {cpus} (lists : Bracketed (Bracketed SizeText .list) .list cpus s r)
    (short : cpus.length ≤ 2)
    (eq : t = ⟨cpus[0]?.getD [4, 5, 6, 7],cpus[1]?.getD [0, 1, 2, 3]⟩)

theorem fills : ∀ f ∈ fields, Fills Member.Content Member.name? Member.put f := by
  intro f hf m hm
  have hlist := reads_list reads_size
  simp only [fields, List.mem_cons, List.not_mem_nil, or_false] at hf
  rcases hf with rfl | rfl
  · cases m with
    | performance cpus => exact hlist.field id "performance" _
    | efficiency | other => simp [Member.name?, Field.of] at hm
  · cases m with
    | efficiency cpus => exact hlist.field id "efficiency" _
    | performance | other => simp [Member.name?, Field.of] at hm

namespace Member

def cpus : Member → List Nat
  | performance cpus | efficiency cpus => cpus
  | other _ => []

/-- The members that are given by a list of their values. -/
def listed : List (List Nat) → List Member
  | [] => []
  | [cpus] => [performance cpus]
  | cpus :: cpus' :: _ => [performance cpus, efficiency cpus']

theorem names_listed (lists : List (List Nat)) :
    (listed lists).map name? <+: ["performance", "efficiency"].map some := by
  match lists with
  | [] => exact List.nil_prefix
  | [_] | _ :: _ :: _ => simp [listed, name?]

section Short
variable {lists : List (List Nat)} (h : lists.length ≤ 2)
include h

theorem map_cpus_listed : (listed lists).map cpus = lists := by
  match lists, h with
  | [], _ | [_], _ | [_, _], _ => rfl

theorem assembled_listed :
    assembled (listed lists) = ⟨lists[0]?.getD [4, 5, 6, 7],lists[1]?.getD [0, 1, 2, 3]⟩ := by
  match lists, h with
  | [], _ | [_], _ | [_, _], _ => rfl

end Short

/-- Lists of CPUs are the values of the members that they give. -/
theorem content_iff {ms : List Member} (h : ∀ m ∈ ms, m.name? ≠ none) {s t : Bytes} :
    Bracketed Content .list ms s t ↔
      Bracketed (Bracketed SizeText .list) .list (ms.map cpus) s t := by
  have hcontent : ∀ m ∈ ms, m.Content = Bracketed SizeText .list m.cpus := by
    intro m hm
    cases m with
    | performance | efficiency => rfl
    | other => exact absurd rfl (h _ hm)
  constructor
  · intro hms
    exact hms.map cpus fun m hm _ _ hc => hcontent m hm ▸ hc
  · intro hms
    have hmap := (Bracketed.of_map cpus hms).map id fun m hm _ _ hc => hcontent m hm ▸ hc
    rw [List.map_id] at hmap
    exact hmap

end Member

/-- Members that are named in order are given by their values. -/
theorem Member.listed_map_cpus {ms : List Member}
    (h : ms.map Member.name? <+: ["performance", "efficiency"].map some) :
    Member.listed (ms.map Member.cpus) = ms := by
  rcases ms with _ | ⟨m,_ | ⟨m',ms⟩⟩
  · rfl
  · cases m with
    | performance => rfl
    | efficiency | other => simp [name?] at h
  · cases m with
    | performance =>
      cases m' with
      | efficiency =>
        have hnil : ms = [] := by simpa [name?] using h
        rw [hnil]
        rfl
      | performance | other => simp [name?] at h
    | efficiency | other => simp [name?] at h

theorem Text.of_members {ms : List Member} {s r : Bytes}
    (h : Recorded Member.Text Member.Content Member.name? ["performance", "efficiency"] ms s r) :
    (Member.assembled ms).Text s r := by
  cases h with
  | keyed h honce => exact .keyed h honce rfl
  | listed h hnames =>
    have hshort : (ms.map Member.cpus).length ≤ 2 := by
      have hle := hnames.length_le
      rwa [List.length_map] at hle ⊢
    have hlisted := Member.assembled_listed hshort
    rw [Member.listed_map_cpus hnames] at hlisted
    exact .listed ((Member.content_iff (ne_none_of_names hnames)).mp h) hshort hlisted

theorem reads : Reads reader Text where
  head h := by
    cases h with
    | keyed h | listed h =>
      obtain ⟨v,hv,hb⟩ := h.head
      exact ⟨_,v,hv,hb⟩
  run {t s u r} h hs hr := by
    cases h with
    | keyed h honce heq =>
      exact (members.reads "CoreTopology" standard).run ⟨_,h,honce,heq.trans (foldl_put honce).symm⟩
        hs hr
    | @listed cpus h hshort heq =>
      have hnames := Member.names_listed cpus
      have hcontent := (Member.content_iff (ne_none_of_names hnames)).mpr
        ((Member.map_cpus_listed hshort).symm ▸ h)
      have hread := Reader.readRecord_of_list fills "CoreTopology" standard hcontent hnames
        (by simp [fields]) hs
      rw [foldl_put (once_of_names hnames (by decide)), Member.assembled_listed hshort] at hread
      rw [heq]
      exact hread

theorem agrees_fields : ∀ f ∈ fields, Agrees f.update := by
  intro f hf
  simp only [fields, List.mem_cons, List.not_mem_nil, or_false] at hf
  rcases hf with rfl | rfl
  · exact agrees_field (agrees_list agrees_size) ..
  · exact agrees_field (agrees_list agrees_size) ..

theorem nameOf_of_mem {name : String} (h : name ∈ ["performance", "efficiency"]) :
    Reader.nameOf fields (utf8 name) = some name := by
  rw [Reader.nameOf, Reader.fieldOf?_utf8]
  simp only [List.mem_cons, List.not_mem_nil, or_false] at h
  rcases h with rfl | rfl <;> rfl

/-- A topology that gives a list twice is not read, whatever its values. -/
theorem not_accepts {keys : List Bytes}
    (h : Reader.Clash ["performance", "efficiency"] keys) : ¬Accepts reader (Keys keys) := by
  rintro ⟨s,u,t,a,r,hs,hu,-,hrun⟩
  obtain ⟨name,hname,hcount⟩ := h
  obtain ⟨honce,-⟩ := Reader.record_sound agrees_fields (fun h => h) hu hs hrun
  have hle := Reader.count_le_one honce (nameOf_of_mem hname)
  rw [List.map_id'] at hle
  omega

end Topology

namespace Config

inductive Member where
  | threads (n : Nat)
  | pinWorkers (b : Bool)
  | topology (t : Topology)
  | other (key : Bytes)

namespace Member

def name? : Member → Option String
  | threads _ => some "threads"
  | pinWorkers _ => some "pin_workers"
  | topology _ => some "topology"
  | other _ => none

def threads? : Member → Option Nat
  | threads n => some n
  | pinWorkers _ | topology _ | other _ => none

def pinWorkers? : Member → Option Bool
  | pinWorkers b => some b
  | threads _ | topology _ | other _ => none

def topology? : Member → Option Topology
  | topology t => some t
  | threads _ | pinWorkers _ | other _ => none

theorem name_threads (m : Member) (n : Nat) (h : m.threads? = some n) :
    m.name? = some "threads" := by
  cases m with
  | threads => rfl
  | pinWorkers | topology | other => cases h

theorem name_pinWorkers (m : Member) (b : Bool) (h : m.pinWorkers? = some b) :
    m.name? = some "pin_workers" := by
  cases m with
  | pinWorkers => rfl
  | threads | topology | other => cases h

theorem name_topology (m : Member) (t : Topology) (h : m.topology? = some t) :
    m.name? = some "topology" := by
  cases m with
  | topology => rfl
  | threads | pinWorkers | other => cases h

def put : Member → Config → Config
  | threads n, c => { c with threads := n }
  | pinWorkers b, c => { c with pinWorkers := b }
  | topology t, c => { c with topology := t }
  | other _, c => c

/-- The text of a member's value. -/
def Content : Member → Bytes → Bytes → Prop
  | threads n => SizeText n
  | pinWorkers b => FlagText b
  | topology t => t.Text
  | other _ => Value

def Text : Member → Bytes → Bytes → Prop
  | threads n => Json.Member (SizeText n) (utf8 "threads")
  | pinWorkers b => Json.Member (FlagText b) (utf8 "pin_workers")
  | topology t => Json.Member t.Text (utf8 "topology")
  | other key => fun s t =>
    key ∉ ["threads", "pin_workers", "topology"].map utf8 ∧ Json.Member Value key s t

def assembled (ms : List Member) : Config where
  threads := (ms.findSome? threads?).getD 3
  pinWorkers := (ms.findSome? pinWorkers?).getD true
  topology := (ms.findSome? topology?).getD ⟨[4, 5, 6, 7],[0, 1, 2, 3]⟩

end Member

theorem fieldOf?_topology : Reader.fieldOf? fields (utf8 "topology") =
    some (.of "topology" Topology.reader fun t c => { c with topology := t }) :=
  (Reader.fieldOf?_utf8 fields "topology").trans rfl

theorem members : Members fields Member.Text Member.name? Member.put := by
  intro m s t h ht
  cases m with
  | threads n =>
    have hf := (Reader.fieldOf?_utf8 fields "threads").trans rfl
    exact Reader.takes_field reads_size hf h ht
  | pinWorkers b =>
    have hf := (Reader.fieldOf?_utf8 fields "pin_workers").trans rfl
    exact Reader.takes_field reads_flag hf h ht
  | topology t =>
    exact Reader.takes_field Topology.reads fieldOf?_topology h ht
  | other key =>
    have hf := Reader.fieldOf?_eq_none fields h.1
    exact Reader.takes_other hf h.2 ht

theorem foldl_put {ms : List Member} (h : Once Member.name? ms) :
    ms.foldl (fun c m => m.put c) standard = Member.assembled ms := by
  have hthreads := foldl_field Member.put Config.threads Member.threads? h
    Member.name_threads (by rintro (_ | _ | _ | _) _ <;> rfl) standard
  have hpin := foldl_field Member.put Config.pinWorkers Member.pinWorkers? h
    Member.name_pinWorkers (by rintro (_ | _ | _ | _) _ <;> rfl) standard
  have htopology := foldl_field Member.put Config.topology Member.topology? h
    Member.name_topology (by rintro (_ | _ | _ | _) _ <;> rfl) standard
  have heta : ∀ c : Config, c = ⟨c.threads,c.pinWorkers,c.topology⟩ := fun _ => rfl
  rw [heta (ms.foldl _ _), hthreads, hpin, htopology]
  rfl

theorem fills : ∀ f ∈ fields, Fills Member.Content Member.name? Member.put f := by
  intro f hf m hm
  simp only [fields, List.mem_cons, List.not_mem_nil, or_false] at hf
  rcases hf with rfl | rfl | rfl
  · cases m with
    | threads n => exact reads_size.field id "threads" _
    | pinWorkers | topology | other => simp [Member.name?, Field.of] at hm
  · cases m with
    | pinWorkers b => exact reads_flag.field id "pin_workers" _
    | threads | topology | other => simp [Member.name?, Field.of] at hm
  · cases m with
    | topology t => exact Topology.reads.field id "topology" _
    | threads | pinWorkers | other => simp [Member.name?, Field.of] at hm

/-- A configuration by key or by position. -/
inductive Text (c : Config) (s r : Bytes) : Prop
  | keyed {ms} (members : Bracketed Member.Text .object ms s r) (once : Once Member.name? ms)
    (eq : c = Member.assembled ms)
  | listed {ms} (values : Bracketed Member.Content .list ms s r)
    (names : ms.map Member.name? <+: ["threads", "pin_workers", "topology"].map some)
    (eq : c = Member.assembled ms)

theorem Text.of_members {ms : List Member} {s r : Bytes}
    (h : Recorded Member.Text Member.Content Member.name?
      ["threads", "pin_workers", "topology"] ms s r) : (Member.assembled ms).Text s r := by
  cases h with
  | keyed h honce => exact .keyed h honce rfl
  | listed h hnames => exact .listed h hnames rfl

theorem reads : Reads reader Text where
  head h := by
    cases h with
    | keyed h | listed h =>
      obtain ⟨v,hv,hb⟩ := h.head
      exact ⟨_,v,hv,hb⟩
  run {c s u r} h hs hr := by
    cases h with
    | keyed h honce heq =>
      exact (members.reads "PoolConfig" standard).run ⟨_,h,honce,heq.trans (foldl_put honce).symm⟩
        hs hr
    | listed h hnames heq =>
      have hread := Reader.readRecord_of_list fills "PoolConfig" standard h hnames
        (by simp [fields]) hs
      rw [foldl_put (once_of_names hnames (by decide)), ← heq] at hread
      exact hread

theorem agrees_fields : ∀ f ∈ fields, Agrees f.update := by
  intro f hf
  simp only [fields, List.mem_cons, List.not_mem_nil, or_false] at hf
  rcases hf with rfl | rfl | rfl
  · exact agrees_field agrees_size ..
  · exact agrees_field agrees_flag ..
  · exact agrees_field (agrees_record Topology.agrees_fields ..) ..

theorem nameOf_of_mem {name : String} (h : name ∈ ["threads", "pin_workers", "topology"]) :
    Reader.nameOf fields (utf8 name) = some name := by
  rw [Reader.nameOf, Reader.fieldOf?_utf8]
  simp only [List.mem_cons, List.not_mem_nil, or_false] at h
  rcases h with rfl | rfl | rfl <;> rfl

/-- A member with any value, or with an object of the given keys. -/
structure Entry where
  key : Bytes
  inner : Option (List Bytes)

namespace Entry

def Holds (e : Entry) : Bytes → Bytes → Prop :=
  match e.inner with
  | none => Value
  | some keys => Keys keys

def Text (e : Entry) : Bytes → Bytes → Prop := Json.Member e.Holds e.key

theorem Holds.value {e : Entry} {s t : Bytes} (h : e.Holds s t) : Value s t := by
  obtain ⟨key,inner⟩ := e
  cases inner with
  | none => exact h
  | some keys => exact Keys.value h

end Entry

/-- Some field of the configuration is given twice, or some list of its topology. -/
def Repeats (es : List Entry) : Prop :=
  Reader.Clash ["threads", "pin_workers", "topology"] (es.map Entry.key) ∨
    ∃ keys, ⟨utf8 "topology",some keys⟩ ∈ es ∧ Reader.Clash ["performance", "efficiency"] keys

theorem not_read {es : List Entry} {s u t r : Bytes} {c : Config}
    (h : Bracketed Entry.Text .object es u t) (hs : Space s u) (hrepeats : Repeats es) :
    reader.run s ≠ .ok (c,r) := by
  intro hrun
  obtain ⟨honce,haccepts⟩ := Reader.record_sound agrees_fields Entry.Holds.value h hs hrun
  rcases hrepeats with ⟨name,hname,hcount⟩ | ⟨keys,hmem,hclash⟩
  · have hle := Reader.count_le_one honce (nameOf_of_mem hname)
    omega
  · exact Topology.not_accepts hclash (haccepts _ hmem _ fieldOf?_topology).of_field

theorem parse_eq_ok {α : Type} {r : Reader α} {text : String} {a : α} (h : parse r text = .ok a) :
    ∃ t, r.run (utf8 text) = .ok (a,t) ∧ Space t [] := by
  rw [parse, parseBytes, Reader.parse] at h
  cases hrun : r.runAll text.toUTF8.toList with
  | ok b =>
    rw [hrun] at h
    cases h
    obtain ⟨t,ht,hend⟩ := Reader.runAll_eq_ok hrun
    exact ⟨t,ht,space_of_dropSpace hend⟩
  | error f =>
    rw [hrun] at h
    cases h

/-- A text that the reader does not take is an error of the configuration. -/
theorem ofString_eq_error {text : String} (h : ∀ c r, reader.run (utf8 text) ≠ .ok (c,r)) :
    ∃ e, ofString text = .error (.config e) := by
  cases hparse : reader.parse (utf8 text) with
  | ok c =>
    have hread : ofString text = .ok c := congrArg (Except.mapError PoolError.config) hparse
    obtain ⟨r,hrun,-⟩ := parse_eq_ok hread
    exact absurd hrun (h c r)
  | error e => exact ⟨e,congrArg (Except.mapError PoolError.config) hparse⟩

theorem Text.read {c : Config} {text : String} {s t : Bytes} (h : c.Text s t)
    (hs : Space (utf8 text) s) (ht : Space t []) : ofString text = .ok c :=
  congrArg (Except.mapError PoolError.config) (reads.parse h hs ht)

/-- An object of known members, each at most once, and any others is read whatever the order, the
spelling of the keys and the white space: a field that is not given is the standard one. An object in
which a known key comes twice is refused, whatever the values and the others, and so is one whose
topology has a known key twice. -/
theorem read_by_key (text : String) {s t : Bytes} (hs : Space (utf8 text) s) (ht : Space t []) :
    (∀ ms, Bracketed Member.Text .object ms s t → Once Member.name? ms →
      ofString text = .ok
        { threads := (ms.findSome? Member.threads?).getD 3
          pinWorkers := (ms.findSome? Member.pinWorkers?).getD true
          topology := (ms.findSome? Member.topology?).getD ⟨[4, 5, 6, 7],[0, 1, 2, 3]⟩ }) ∧
      ∀ es, Bracketed Entry.Text .object es s t → Repeats es →
        ∃ e, ofString text = .error (.config e) := by
  constructor
  · intro ms hms honce
    exact Text.read (.keyed hms honce rfl) hs ht
  · intro es hes hrepeats
    exact ofString_eq_error fun c r => not_read hes hs hrepeats

/-- A key in escapes, white space, an unknown key with brackets in its value and a topology with one of
its lists; and a key that comes twice in two spellings. -/
theorem read_by_key_escaped :
    ofString "\x7b\"x\":[\x7b\x7d],\"\\u0074hreads\" : 6,\"topology\":\x7b\"efficiency\":[]\x7d\x7d\n" =
        .ok ⟨6,true,⟨[4, 5, 6, 7],[]⟩⟩ ∧
      ∃ e, ofString "\x7b\"threads\":6,\"\\u0074hreads\":6\x7d" = .error (.config e) := by
  have hkey : utf8 "threads" = String.utf8EncodeChar 't' ++ utf8 "hreads" := by decide +kernel
  have hescaped : ∀ t, Spells (backslash :: letterU :: 48 :: 48 :: 55 :: 52 ::
      (utf8 "hreads" ++ quote :: t)) (utf8 "threads") t := by
    intro t
    have hhex : Hex 't'.toNat (48 :: 48 :: 55 :: 52 :: (utf8 "hreads" ++ quote :: t))
        (utf8 "hreads" ++ quote :: t) :=
      ⟨48,48,55,52,0,0,7,4,rfl,by decide +kernel,by decide +kernel,by decide +kernel,
        by decide +kernel,rfl⟩
    rw [hkey]
    exact .point (by decide) hhex (spells_plain (by decide +kernel) t)
  constructor
  · have htext : utf8 "\x7b\"x\":[\x7b\x7d],\"\\u0074hreads\" : 6,\"topology\":\x7b\"efficiency\":[]\x7d\x7d\n" =
        objectOpen :: quote :: (utf8 "x" ++ quote :: colon :: listOpen :: objectOpen :: objectClose ::
          listClose :: comma :: quote :: backslash :: letterU :: 48 :: 48 :: 55 :: 52 ::
          (utf8 "hreads" ++ quote :: 32 :: colon :: 32 :: (utf8 (toString 6) ++ comma :: quote ::
          (utf8 "topology" ++ quote :: colon :: objectOpen :: quote :: (utf8 "efficiency" ++ quote ::
          colon :: listOpen :: listClose :: objectClose :: objectClose :: [10]))))) := by
      decide +kernel
    have hx : ∀ t, Member.Text (.other (utf8 "x")) (quote :: (utf8 "x" ++ quote :: colon ::
        listOpen :: objectOpen :: objectClose :: listClose :: t)) t := by
      intro t
      refine ⟨by decide +kernel,.mk (spells_plain (by decide +kernel) _) .none .none ?_⟩
      exact .list (.lastItem .none (.emptyObject .none) .none)
    have hthreads : ∀ t, Member.Text (.threads 6) (quote :: backslash :: letterU :: 48 :: 48 ::
        55 :: 52 :: (utf8 "hreads" ++ quote :: 32 :: colon :: 32 :: (utf8 (toString 6) ++ t))) t :=
      fun t => .mk (hescaped _) (.some (by decide) .none) (.some (by decide) .none) ⟨by decide,rfl⟩
    have hefficiency : ∀ t, Topology.Member.Text (.efficiency []) (quote :: (utf8 "efficiency" ++
        quote :: colon :: listOpen :: listClose :: t)) t := fun t =>
      .mk (spells_plain (by decide +kernel) _) .none .none (.empty .none)
    have htopology : ∀ t, Member.Text (.topology ⟨[4, 5, 6, 7],[]⟩) (quote :: (utf8 "topology" ++
        quote :: colon :: objectOpen :: quote :: (utf8 "efficiency" ++ quote :: colon ::
        listOpen :: listClose :: objectClose :: t))) t := by
      intro t
      refine .mk (spells_plain (by decide +kernel) _) .none .none ?_
      have honce : Once Topology.Member.name? [.efficiency []] := by
        change ["efficiency"].Nodup
        decide
      exact .keyed (.some (.last .none (hefficiency _) .none)) honce rfl
    have hobject := Bracketed.some (P := Member.Text) (k := .object) (.cons .none (hx _) .none
      (.cons .none (hthreads _) .none (.last .none (htopology _) (.none (s := [objectClose, 10])))))
    have honce : Once Member.name? [.other (utf8 "x"), .threads 6,
        .topology ⟨[4, 5, 6, 7],[]⟩] := by
      change ["threads", "topology"].Nodup
      decide
    exact (read_by_key _ (htext ▸ .none) (.some (by decide) .none)).1 _ hobject honce
  · have htext : utf8 "\x7b\"threads\":6,\"\\u0074hreads\":6\x7d" =
        objectOpen :: quote :: (utf8 "threads" ++ quote :: colon :: 54 :: comma :: quote ::
          backslash :: letterU :: 48 :: 48 :: 55 :: 52 :: (utf8 "hreads" ++ quote :: colon :: 54 ::
          [objectClose])) := by
      decide +kernel
    have hsix : ∀ t, Value (54 :: t) t := fun t =>
      .number (.positive (.single rfl (by decide)) .none .none)
    have hplain : ∀ t, Entry.Text ⟨utf8 "threads",none⟩ (quote :: (utf8 "threads" ++ quote ::
        colon :: 54 :: t)) t := fun t =>
      .mk (spells_plain (by decide +kernel) _) .none .none (hsix t)
    have hagain : ∀ t, Entry.Text ⟨utf8 "threads",none⟩ (quote :: backslash :: letterU :: 48 ::
        48 :: 55 :: 52 :: (utf8 "hreads" ++ quote :: colon :: 54 :: t)) t := fun t =>
      .mk (hescaped _) .none .none (hsix t)
    have hobject := Bracketed.some (P := Entry.Text) (k := .object) (.cons .none (hplain _) .none
      (.last .none (hagain _) (.none (s := [objectClose]))))
    have hrepeats : Repeats [⟨utf8 "threads",none⟩, ⟨utf8 "threads",none⟩] := by
      refine .inl ⟨"threads",by simp,?_⟩
      simp
    exact (read_by_key _ (htext ▸ .none) .none).2 _ hobject hrepeats

end Config
end PinnedPool
