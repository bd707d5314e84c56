import Dripcap.Library.Run
import Dripcap.Script.Layer
import Mathlib.Data.List.AList

/-!
# The stream thread

The loop of the stream thread of the dispatcher: it takes the packets in the order of their ids,
collects the streams of their layers and gives every event of a stream to the scripts of that
stream, which may produce further events for the same packet.

The scripts are not modelled: what a script answers to an event is part of the step. A script
object is a number, the position at which it stands in the list of all script objects made. The
packets that scripts insert belong to the model of the dispatcher.
-/

namespace Dripcap

namespace Streams

/-! ### The streams of a packet -/

abbrev LayerPtr := ℕ

/-- The layers of a packet with the streams in them, as far as `findStreams` looks at them. -/
inductive LayerNode where
  | mk (layer : LayerPtr) (streams : List PacketStream) (layers : List (String × LayerNode)) :
      LayerNode

/-- `std::unordered_map<LayerPtr, PacketStreamList>` -/
abbrev StreamList := AList fun _ : LayerPtr => List PacketStream

/-- The list of a layer. -/
def StreamList.at (list : StreamList) (layer : LayerPtr) : List PacketStream :=
  (list.lookup layer).getD []

/-- `streamList[layer].insert(end, streams)` -/
def StreamList.append (list : StreamList) (layer : LayerPtr) (streams : List PacketStream) :
    StreamList :=
  list.insert layer (list.at layer ++ streams)

mutual

/-- `findStreams` for one of the layers, into the list so far. -/
def findStreams (list : StreamList) : LayerNode → StreamList
  | .mk layer streams layers =>
    (findStreamsList ∅ layers).entries.foldr (fun e list => list.insert e.1 e.2)
      (list.insert layer streams)

def findStreamsList (list : StreamList) : List (String × LayerNode) → StreamList
  | [] => list
  | (_, node) :: layers => findStreamsList (findStreams list node) layers

end

/-! ### The table of streams -/

/-- A `ScriptClass` with a stream dissector and the modules it knows. -/
structure ScriptClass where
  source : String
  modules : List (String × String)

/-- `Dispatcher::Stream`; a dissector is a pointer to its script object. -/
structure Stream where
  loaded : Bool := false
  started : Bool := false
  dissectors : List ℕ := []

/-- The name space and the id of a stream. -/
abbrev Key := String × String

/-- `streamCache` -/
abbrev Cache := AList fun _ : String => AList fun _ : String => Stream

namespace Cache

/-- `streamCache[ns]` -/
def inner (c : Cache) (ns : String) : AList fun _ : String => Stream := (c.lookup ns).getD ∅

/-- The entry of a stream, if there is one. -/
def find (c : Cache) (k : Key) : Option Stream := (c.inner k.1).lookup k.2

/-- `streamCache[ns][id]` with the entry that is made where there is none -/
def set (c : Cache) (k : Key) (stream : Stream) : Cache :=
  c.insert k.1 ((c.inner k.1).insert k.2 stream)

/-- `streamCache[ns].erase(id)`, and the name space with it if nothing is left. -/
def erase (c : Cache) (k : Key) : Cache :=
  let left := (c.inner k.1).erase k.2
  let c := AList.insert k.1 left c
  if left.entries.isEmpty then AList.erase k.1 c else c

/-- No name space is empty. -/
def Tidy (c : Cache) : Prop := ∀ ns inner, c.lookup ns = some inner → inner.entries ≠ []

variable {c : Cache} {k k' : Key}

@[simp] lemma find_empty (k : Key) : find ∅ k = none := rfl

lemma inner_insert (c : Cache) (ns ns' : String) (l : AList fun _ : String => Stream) :
    inner (AList.insert ns l c) ns' = if ns' = ns then l else c.inner ns' := by
  unfold inner
  split_ifs with h
  · rw [h, AList.lookup_insert]
    rfl
  · rw [AList.lookup_insert_ne h]

lemma find_set (c : Cache) (k k' : Key) (stream : Stream) :
    (c.set k stream).find k' = if k' = k then some stream else c.find k' := by
  obtain ⟨ns, id⟩ := k
  obtain ⟨ns', id'⟩ := k'
  rw [set, find, inner_insert]
  by_cases hns : ns' = ns
  · subst hns
    by_cases hid : id' = id
    · subst hid
      rw [if_pos rfl, if_pos rfl, AList.lookup_insert]
    · have hne : (ns', id') ≠ (ns', id) := by simp [hid]
      rw [if_pos rfl, if_neg hne, AList.lookup_insert_ne hid]
      rfl
  · have hne : (ns', id') ≠ (ns, id) := by simp [hns]
    rw [if_neg hns, if_neg hne]
    rfl

lemma inner_erase (c : Cache) (ns ns' : String) :
    inner (AList.erase ns c) ns' = if ns' = ns then ∅ else c.inner ns' := by
  unfold inner
  split_ifs with h
  · rw [h, AList.lookup_erase]
    rfl
  · rw [AList.lookup_erase_ne h]

/-- The erased name space looks like an empty one. -/
lemma inner_of_erase (c : Cache) (k : Key) (ns : String) :
    (c.erase k).inner ns = if ns = k.1 then (c.inner k.1).erase k.2 else c.inner ns := by
  rw [erase]
  split_ifs with hempty hns hns
  · rw [inner_erase, if_pos hns]
    exact (AList.ext (List.isEmpty_iff.mp hempty)).symm
  · rw [inner_erase, if_neg hns, inner_insert, if_neg hns]
  · rw [inner_insert, if_pos hns]
  · rw [inner_insert, if_neg hns]

lemma find_erase (c : Cache) (k k' : Key) :
    (c.erase k).find k' = if k' = k then none else c.find k' := by
  obtain ⟨ns, id⟩ := k
  obtain ⟨ns', id'⟩ := k'
  rw [find, inner_of_erase]
  by_cases hns : ns' = ns
  · subst hns
    by_cases hid : id' = id
    · subst hid
      rw [if_pos rfl, if_pos rfl, AList.lookup_erase]
    · have hne : (ns', id') ≠ (ns', id) := by simp [hid]
      rw [if_pos rfl, if_neg hne, AList.lookup_erase_ne hid]
      rfl
  · have hne : (ns', id') ≠ (ns, id) := by simp [hns]
    rw [if_neg hns, if_neg hne]
    rfl

lemma tidy_empty : Tidy ∅ := by
  intro ns inner h
  cases h

lemma Tidy.insert (h : c.Tidy) {ns : String} {l : AList fun _ : String => Stream}
    (hl : l.entries ≠ []) : Tidy (AList.insert ns l c) := by
  intro ns' inner hinner
  by_cases hns : ns' = ns
  · rw [hns, AList.lookup_insert] at hinner
    rwa [← Option.some.inj hinner]
  · rw [AList.lookup_insert_ne hns] at hinner
    exact h ns' inner hinner

lemma Tidy.set (h : c.Tidy) (k : Key) (stream : Stream) : (c.set k stream).Tidy := by
  apply h.insert
  rw [AList.entries_insert]
  exact List.cons_ne_nil _ _

lemma Tidy.erase (h : c.Tidy) (k : Key) : (c.erase k).Tidy := by
  rw [Cache.erase]
  split_ifs with hempty
  · intro ns inner hinner
    by_cases hns : ns = k.1
    · rw [hns, AList.lookup_erase] at hinner
      cases hinner
    · rw [AList.lookup_erase_ne hns, AList.lookup_insert_ne hns] at hinner
      exact h ns inner hinner
  · apply h.insert
    simpa using hempty

end Cache

/-! ### The loop -/

/-- The state of the thread. Between two packets `streamList` and `list` are empty; `list` is what
is left of the round, in the order in which it is gone through. The data that a script object has
been called with is all that its own state can depend on. -/
structure State where
  streamDissectors : String → List String := fun _ => []
  modules : List (String × String) := []
  scripts : List ScriptClass := []
  received : ℕ → List Object := fun _ => []
  streamCache : Cache := ∅
  busy : Bool := false
  streamList : StreamList := ∅
  list : List (LayerPtr × PacketStream) := []
  maxID : ℕ := 0
  streamMaxID : ℕ := 0

inductive Event where
  /-- `Dispatcher::loadStreamDissector` -/
  | loadStreamDissector (source : String) (namespaces : List String)
  /-- `Dispatcher::loadModule` -/
  | loadModule (name source : String)
  /-- the next packet has been dissected and is taken -/
  | take (layers : List (String × LayerNode))
  /-- the streams found so far are gone through, in some order of the layers -/
  | round (order : List LayerPtr)
  /-- the next event of the round; `out` are the streams that the scripts produce -/
  | deliver (out : ℕ → List PacketStream)
  /-- the packet is finished -/
  | finish

namespace State

/-- The script objects for the sources of a name space, as far as they load. -/
def load (loads : String → Bool) (modules : List (String × String)) (sources : List String) :
    List ScriptClass :=
  (sources.filter loads).map fun source => ⟨source, modules⟩

/-- The entry of a stream with its scripts; a new one gets script objects of its own. -/
def loadStream (loads : String → Bool) (s : State) (k : Key) : Stream × State :=
  let stream := (s.streamCache.find k).getD {}
  if stream.loaded then (stream, s)
  else
    let scripts := load loads s.modules (s.streamDissectors k.1)
    ({ stream with
        loaded := true
        dissectors := stream.dissectors ++ List.range' s.scripts.length scripts.length },
      { s with scripts := s.scripts ++ scripts })

@[simps]
def setCache (s : State) (c : Cache) : State := { s with streamCache := c }

/-- `analyzeStream` for one script. What it produces is appended to the streams of the layer. -/
@[simps]
def analyzeStream (s : State) (layer : LayerPtr) (data : Object) (out : ℕ → List PacketStream)
    (script : ℕ) : State :=
  { s with
    received := Function.update s.received script (s.received script ++ [data])
    streamList := s.streamList.append layer (out script) }

/-- `for (const ScriptClassPtr &script : stream.dissectors)` -/
def analyzeStreams (s : State) (layer : LayerPtr) (data : Object) (out : ℕ → List PacketStream) :
    List ℕ → State
  | [] => s
  | script :: scripts => (s.analyzeStream layer data out script).analyzeStreams layer data out scripts

/-- The body of the inner loop for an event of a stream. -/
def analyze (loads : String → Bool) (s : State) (layer : LayerPtr) (net : PacketStream)
    (out : ℕ → List PacketStream) : State :=
  let k := (net.ns, net.id)
  let r := s.loadStream loads k
  if net.flag = .end then
    let s' := r.2.setCache (r.2.streamCache.set k r.1)
    let s' := if r.1.started then s'.analyzeStreams layer net.data out r.1.dissectors else s'
    s'.setCache (s'.streamCache.erase k)
  else
    let s' := r.2.setCache (r.2.streamCache.set k { r.1 with started := true })
    s'.analyzeStreams layer net.data out r.1.dissectors

def step (loads : String → Bool) (s : State) : Event → Option State
  | .loadStreamDissector source namespaces =>
    some { s with streamDissectors := fun ns =>
      s.streamDissectors ns ++ (namespaces.filter (· = ns)).map fun _ => source }
  | .loadModule name source =>
    some { s with modules := s.modules.filter (·.1 ≠ name) ++ [(name, source)] }
  | .take layers =>
    if s.busy then none
    else some { s with
      busy := true
      streamList := findStreamsList ∅ layers
      maxID := s.maxID + 1 }
  | .round order =>
    if s.busy ∧ s.list.isEmpty ∧ order ≠ [] ∧ order.isPerm s.streamList.keys then
      some { s with
        streamList := ∅
        list := order.flatMap fun layer => (s.streamList.at layer).map fun net => (layer, net) }
    else none
  | .deliver out =>
    match s.list with
    | [] => none
    | (layer, net) :: list => some ({ s with list := list }.analyze loads layer net out)
  | .finish =>
    if s.busy ∧ s.list.isEmpty ∧ s.streamList.keys.isEmpty then
      some { s with busy := false, streamMaxID := s.maxID }
    else none

/-! ### What an event does -/

variable {loads : String → Bool} {s s' : State} {layer : LayerPtr} {net : PacketStream}
  {out : ℕ → List PacketStream}

/-- The script objects that are given an event. -/
def called (loads : String → Bool) (s : State) (net : PacketStream) : List ℕ :=
  let stream := (s.loadStream loads (net.ns, net.id)).1
  if net.flag = .end ∧ stream.started = false then [] else stream.dissectors

lemma loadStream_of_loaded {k : Key} {stream : Stream} (h : s.streamCache.find k = some stream)
    (hloaded : stream.loaded = true) : s.loadStream loads k = (stream, s) := by
  simp only [loadStream, h, Option.getD_some, hloaded, if_true]

lemma loadStream_of_absent {k : Key} (h : s.streamCache.find k = none) :
    s.loadStream loads k =
      (⟨true, false, List.range' s.scripts.length
        (load loads s.modules (s.streamDissectors k.1)).length⟩,
      { s with scripts := s.scripts ++ load loads s.modules (s.streamDissectors k.1) }) := by
  rw [loadStream, h]
  rfl

/-- The scripts do not touch the table of streams. -/
lemma analyzeStreams_setCache (s : State) (c : Cache) (data : Object) (scripts : List ℕ) :
    (s.setCache c).analyzeStreams layer data out scripts =
      (s.analyzeStreams layer data out scripts).setCache c := by
  induction scripts generalizing s with
  | nil => rfl
  | cons script scripts ih => exact ih (s.analyzeStream layer data out script)

/-- The entry that an event leaves in the table. -/
def nextCache (loads : String → Bool) (s : State) (net : PacketStream) : Cache :=
  let k := (net.ns, net.id)
  let stream := (s.loadStream loads k).1
  if net.flag = .end then (s.streamCache.set k stream).erase k
  else s.streamCache.set k { stream with started := true }

variable (loads) in
lemma loadStream_streamCache (s : State) (k : Key) :
    (s.loadStream loads k).2.streamCache = s.streamCache := by
  simp only [loadStream]
  split_ifs
  · rfl
  · rfl

/-- Both branches of the loop: the event is given to the scripts, and the entry is changed. -/
lemma analyze_eq (s : State) : s.analyze loads layer net out =
    ((s.loadStream loads (net.ns, net.id)).2.analyzeStreams layer net.data out
      (s.called loads net)).setCache (s.nextCache loads net) := by
  have hcache := s.loadStream_streamCache loads (net.ns, net.id)
  by_cases hflag : net.flag = .end
  · simp only [analyze, called, nextCache, hflag, hcache, if_true, true_and]
    cases (s.loadStream loads (net.ns, net.id)).1.started with
    | true =>
      simp only [if_true, Bool.true_eq_false, if_false, analyzeStreams_setCache]
      rfl
    | false => rfl
  · simp only [analyze, called, nextCache, hflag, analyzeStreams_setCache, hcache, if_false,
      false_and]

lemma analyzeStreams_rest (s : State) (data : Object) (scripts : List ℕ) :
    s.analyzeStreams layer data out scripts =
      { s with
        received := (s.analyzeStreams layer data out scripts).received
        streamList := (s.analyzeStreams layer data out scripts).streamList } := by
  induction scripts generalizing s with
  | nil => rfl
  | cons script scripts ih =>
    rw [analyzeStreams, ih]
    rfl

/-- Every script of the list is called once. -/
lemma analyzeStreams_received (s : State) (data : Object) {scripts : List ℕ}
    (h : scripts.Nodup) (script : ℕ) :
    (s.analyzeStreams layer data out scripts).received script =
      if script ∈ scripts then s.received script ++ [data] else s.received script := by
  induction scripts generalizing s with
  | nil => rfl
  | cons a scripts ih =>
    obtain ⟨ha, hscripts⟩ := List.nodup_cons.mp h
    rw [analyzeStreams, ih _ hscripts, analyzeStream_received, Function.update_apply]
    by_cases heq : script = a
    · subst heq
      rw [if_neg ha, if_pos rfl, if_pos List.mem_cons_self]
    · simp only [List.mem_cons, heq, false_or, if_false]

lemma at_append (list : StreamList) (layer' : LayerPtr) (streams : List PacketStream) :
    (list.append layer streams).at layer' =
      list.at layer' ++ if layer' = layer then streams else [] := by
  unfold StreamList.append StreamList.at
  by_cases h : layer' = layer
  · rw [if_pos h, h, AList.lookup_insert]
    rfl
  · rw [if_neg h, AList.lookup_insert_ne h, List.append_nil]

/-- What the scripts produce is appended to the streams of the layer in the order of the calls. -/
lemma analyzeStreams_at (s : State) (data : Object) (scripts : List ℕ) (layer' : LayerPtr) :
    (s.analyzeStreams layer data out scripts).streamList.at layer' =
      s.streamList.at layer' ++ if layer' = layer then scripts.flatMap out else [] := by
  induction scripts generalizing s with
  | nil =>
    rw [analyzeStreams, List.flatMap_nil, ite_self, List.append_nil]
  | cons script scripts ih =>
    rw [analyzeStreams, ih, analyzeStream_streamList, at_append]
    split_ifs
    · rw [List.flatMap_cons, List.append_assoc]
    · rw [List.append_nil, List.append_nil]

/-- The table after an event, seen from every stream. -/
lemma nextCache_find (s : State) (k : Key) : (s.nextCache loads net).find k =
    if k = (net.ns, net.id) then
      if net.flag = .end then none
      else some { (s.loadStream loads (net.ns, net.id)).1 with started := true }
    else s.streamCache.find k := by
  rw [nextCache]
  dsimp only
  split_ifs with hflag hk hk
  · rw [Cache.find_erase, if_pos hk]
  · rw [Cache.find_erase, if_neg hk, Cache.find_set, if_neg hk]
  · rw [Cache.find_set, if_pos hk]
  · rw [Cache.find_set, if_neg hk]

lemma nextCache_tidy (h : s.streamCache.Tidy) : (s.nextCache loads net).Tidy := by
  rw [nextCache]
  split_ifs
  · exact (h.set _ _).erase _
  · exact h.set _ _

/-! ### The steps -/

variable {e : Event}

lemma take_cases {layers : List (String × LayerNode)} (h : s.step loads (.take layers) = some s') :
    s.busy = false ∧ s' = { s with
      busy := true
      streamList := findStreamsList ∅ layers
      maxID := s.maxID + 1 } := by
  simp only [step] at h
  split_ifs at h with hbusy
  exact ⟨by simpa using hbusy, (Option.some.inj h).symm⟩

lemma round_cases {order : List LayerPtr} (h : s.step loads (.round order) = some s') :
    (s.busy = true ∧ s.list = [] ∧ order.Perm s.streamList.keys) ∧ s' = { s with
      streamList := ∅
      list := order.flatMap fun layer => (s.streamList.at layer).map fun net => (layer, net) } := by
  simp only [step] at h
  split_ifs at h with hguard
  obtain ⟨hbusy, hlist, -, hperm⟩ := hguard
  exact ⟨⟨hbusy, List.isEmpty_iff.mp hlist, List.isPerm_iff.mp hperm⟩, (Option.some.inj h).symm⟩

lemma deliver_cases (h : s.step loads (.deliver out) = some s') :
    ∃ layer net list, s.list = (layer, net) :: list ∧
      s' = { s with list := list }.analyze loads layer net out := by
  simp only [step] at h
  split at h
  · cases h
  · rename_i layer net list hlist
    exact ⟨layer, net, list, hlist, (Option.some.inj h).symm⟩

lemma finish_cases (h : s.step loads .finish = some s') :
    (s.list = [] ∧ s.streamList.keys = []) ∧
      s' = { s with busy := false, streamMaxID := s.maxID } := by
  simp only [step] at h
  split_ifs at h with hguard
  obtain ⟨-, hlist, hkeys⟩ := hguard
  exact ⟨⟨List.isEmpty_iff.mp hlist, List.isEmpty_iff.mp hkeys⟩, (Option.some.inj h).symm⟩

end State

end Streams

end Dripcap
