import Dripcap.Dispatcher.State
import Dripcap.Library.Run

/-!
# The steps of the dispatcher

One event for every section of code that runs under the mutex, together with what the thread
does before it locks the mutex the next time. The parts that run without the mutex (the raw
layer of `insert`, the dissectors, the stream dissectors) belong to the event that ends them;
what scripts make of a packet is part of the event.

`loadSource modules source` says whether a dissector source loads in a script with these
modules.
-/

namespace Dripcap

/-- The sections of the dispatcher's code. -/
inductive Event (hardware : ℕ) where
  /-- thread `t` calls `insert`, up to the end of its first locked section -/
  | insert (t : ℕ) (pkt : Option ℕ)
  /-- `insert` of thread `t`, up to the end of its second locked section -/
  | push (t : ℕ)
  /-- the `notify_all` that ends a call of thread `t` -/
  | notify (t : ℕ)
  /-- a dissector worker looks at the predicate of its wait -/
  | wake (w : Core hardware)
  /-- a dissector worker has run its dissectors, which left these layers -/
  | dissected (w : Core hardware) (layers : LayerList)
  /-- the stream thread looks at the predicate of its wait -/
  | streamWake
  /-- the stream thread has run its dissectors, which left these layers -/
  | analyzed (layers : LayerList)
  /-- a filter worker has created its script -/
  | filterStart (name : String) (w : Core hardware)
  /-- a filter worker looks at the predicate of its wait -/
  | filterWake (name : String) (w : Core hardware)
  /-- a filter worker has run the filter -/
  | filterDone (name : String) (w : Core hardware)
  /-- `loadDissector` queues a source for one worker -/
  | loadDissector (t : ℕ) (w : Core hardware) (src : DissectorSource)
  /-- `loadModule` adds a module to one worker -/
  | loadModule (t : ℕ) (w : Core hardware) (name source : String)
  /-- `setFilter` tells the workers of the present filter to exit -/
  | exitFilter (t : ℕ) (name : String)
  /-- `setFilter` has joined the workers of the present filter and installs the new one -/
  | installFilter (t : ℕ) (name source : String) (loaded : Bool) (accepts : Packet → Bool)
  /-- `get(start, end)` -/
  | get (start fin : ℕ)
  /-- `get(list)` -/
  | getList (ids : List ℕ)

namespace DissectorWorker

/-- `dissectors[ns].push_back(script)` for a list of namespaces. -/
def register (script : ScriptClass) (d : String → List ScriptClass) :
    List String → String → List ScriptClass
  | [] => d
  | ns :: nss => register script (Function.update d ns (d ns ++ [script])) nss

/-- One round of the loop over the sources: a script that loads is entered for its
namespaces. -/
def loadSource (loadSource : List (String × String) → String → Bool)
    (modules : List (String × String)) (d : String → List ScriptClass) (src : DissectorSource) :
    String → List ScriptClass :=
  if loadSource modules src.source then
    register ⟨src.source, src.namespaces, modules⟩ d src.namespaces
  else d

/-- `while (!sources.empty())` -/
def loadSources (load : List (String × String) → String → Bool) (x : DissectorWorker) :
    DissectorWorker :=
  { x with
    sources := []
    dissectors := x.sources.foldl (loadSource load x.modules) x.dissectors }

end DissectorWorker

/-- `Dispatcher::insert` gives the raw layer to a packet that has no layers. -/
def addRawLayer (pkt : Packet) : Packet :=
  if pkt.layers.isEmpty then
    { pkt with layers := [("::<Ethernet>", rawLayer pkt.payload.length)] }
  else pkt

namespace State

variable {hardware : ℕ}

/-! ### `insert` -/

/-- The first locked section of an `insert` that accepts the packet. -/
@[simps]
def accept (s : State hardware) (t n : ℕ) : State hardware :=
  { s with
    count := s.count + 1
    heap := s.heap.modify (.made n) fun pkt => { pkt with id := s.count + 1 }
    calls := Function.update s.calls t (.inserting (.made n)) }

def insert (s : State hardware) (t : ℕ) (pkt : Option ℕ) : Option (State hardware) :=
  if s.calls t ≠ .idle then none
  else match pkt with
    | none => some s
    | some n =>
      if s.waitingPackets.length ≥ 32 then some { s with dropped := s.dropped + 1 }
      else some (s.accept t n)

/-- The raw layer and the second locked section. -/
@[simps]
def enqueue (s : State hardware) (t : ℕ) (p : PacketPtr) : State hardware :=
  { s with
    heap := s.heap.modify p addRawLayer
    waitingPackets := s.waitingPackets ++ [p]
    calls := Function.update s.calls t (.notifying .cond) }

def push (s : State hardware) (t : ℕ) : Option (State hardware) :=
  match s.calls t with
  | .inserting p => some (s.enqueue t p)
  | _ => none

def notify (s : State hardware) (t : ℕ) : Option (State hardware) :=
  match s.calls t with
  | .notifying .cond => some (s.notifyWorkers.setCall t .idle)
  | .notifying .filterCond => some (s.notifyFilters.setCall t .idle)
  | _ => none

/-! ### Dissector workers -/

/-- `while (!d->waitingPackets.empty())`: take the front of the queue, or leave the inner loop
and lock the mutex anew. -/
def take (s : State hardware) (w : Core hardware) : State hardware :=
  match s.waitingPackets with
  | [] => s.setWorker w { s.workers w with phase := .ready }
  | p :: ps =>
    { s with waitingPackets := ps }.setWorker w { s.workers w with phase := .dissecting p }

def wake (load : List (String × String) → String → Bool) (s : State hardware)
    (w : Core hardware) : Option (State hardware) :=
  match (s.workers w).phase with
  | .ready =>
    if s.waitingPackets.isEmpty ∧ (s.workers w).sources.isEmpty then
      some (s.setWorker w { s.workers w with phase := .asleep })
    else some ((s.setWorker w ((s.workers w).loadSources load)).take w)
  | _ => none

/-- `d->packets.set(pkt->id, pkt)` -/
@[simps]
def store (s : State hardware) (p : PacketPtr) : State hardware :=
  { s with packets := s.packets.set (s.idOf p) p (s.heap.packet p) }

/-- The new value of `maxID` after a packet has been stored. The loop cannot pass `count`, so
`count` rounds are enough. -/
def nextMaxID (s : State hardware) : ℕ :=
  Prefix.advance s.packets.has s.count (if s.maxID = 0 then 1 else s.maxID)

/-- `maxID` and the notifications after a packet has been stored. As long as packet 1 is
missing the rest of the step is skipped. -/
def publish (s : State hardware) : State hardware :=
  if s.maxID = 0 ∧ s.packets.has 1 = false then s
  else { s with maxID := s.nextMaxID }.notifyFilters.notifyStream

def dissected (s : State hardware) (w : Core hardware) (layers : LayerList) :
    Option (State hardware) :=
  match (s.workers w).phase with
  | .dissecting p => some (((s.setLayers p layers).store p).publish.take w)
  | _ => none

/-! ### The stream thread -/

/-- A packet that is not there would be a null pointer, which the code does not expect. -/
def streamWake (s : State hardware) : Option (State hardware) :=
  match s.streamThread.phase with
  | .ready =>
    if s.maxID > s.streamThread.maxID then
      match s.lookup (s.streamThread.maxID + 1) with
      | (some p, s') =>
        some { s' with streamThread := ⟨.analyzing p, s.streamThread.maxID + 1⟩ }
      | (none, _) => none
    else some { s with streamThread := { s.streamThread with phase := .asleep } }
  | _ => none

/-- The packet has been analyzed: `d->streamMaxID = maxID`. -/
@[simps]
def finish (s : State hardware) (p : PacketPtr) (layers : LayerList) : State hardware :=
  { s with
    heap := s.heap.modify p fun pkt => { pkt with layers := layers }
    streamMaxID := s.streamThread.maxID
    streamThread := { s.streamThread with phase := .ready } }

def analyzed (s : State hardware) (layers : LayerList) : Option (State hardware) :=
  match s.streamThread.phase with
  | .analyzing p => some (s.finish p layers)
  | _ => none

/-! ### Filter workers -/

def filterStart (s : State hardware) (name : String) (w : Core hardware) :
    Option (State hardware) :=
  match s.filters name with
  | none => none
  | some f =>
    match f.workers w with
    | .starting => some (s.setFilter name (some (f.setPhase w
        (if f.loaded then .ready else .finished))))
    | _ => none

def filterWake (s : State hardware) (name : String) (w : Core hardware) :
    Option (State hardware) :=
  match s.filters name with
  | none => none
  | some f =>
    match f.workers w with
    | .ready =>
      if f.exiting then some (s.setFilter name (some (f.setPhase w .finished)))
      else if s.streamMaxID > f.ctx.fetchedMaxID then
        match s.lookup (f.ctx.fetchedMaxID + 1) with
        | (some p, s') =>
          some (s'.setFilter name (some { f.setPhase w (.matching p) with ctx := f.ctx.fetch }))
        | (none, _) => none
      else some (s.setFilter name (some (f.setPhase w .asleep)))
    | _ => none

def filterDone (s : State hardware) (name : String) (w : Core hardware) :
    Option (State hardware) :=
  match s.filters name with
  | none => none
  | some f =>
    match f.workers w with
    | .matching p =>
      some (s.setFilter name (some { f.setPhase w .ready with
        ctx := f.ctx.complete (s.idOf p) (f.accepts (s.heap.packet p)) }))
    | _ => none

/-! ### Commands -/

/-- `DissectorWorker::loadDissector` up to its notification. -/
def loadDissector (s : State hardware) (t : ℕ) (w : Core hardware) (src : DissectorSource) :
    Option (State hardware) :=
  if s.calls t ≠ .idle then none
  else
    let x := s.workers w
    some ((s.setWorker w { x with sources := x.sources ++ [src] }).setCall t (.notifying .cond))

def loadModule (s : State hardware) (t : ℕ) (w : Core hardware) (name source : String) :
    Option (State hardware) :=
  if s.calls t ≠ .idle then none
  else
    let x := s.workers w
    some (s.setWorker w { x with modules := x.modules ++ [(name, source)] })

def exitFilter (s : State hardware) (t : ℕ) (name : String) : Option (State hardware) :=
  if s.calls t ≠ .idle then none
  else match s.filters name with
    | none => some s
    | some f =>
      some ((s.setFilter name (some { f with exiting := true })).setCall t (.notifying .filterCond))

/-- The threads of the present filter have been joined. An empty name or an empty source
installs nothing. -/
def installFilter (s : State hardware) (t : ℕ) (name source : String) (loaded : Bool)
    (accepts : Packet → Bool) : Option (State hardware) :=
  if s.calls t ≠ .idle then none
  else
    let joined : Bool := match s.filters name with
      | none => true
      | some f => f.exiting && decide (∀ w, f.workers w = .finished)
    if joined then
      some (s.setFilter name (if name ≠ "" ∧ source ≠ "" then some ⟨loaded, accepts, false, {},
        fun _ => .starting⟩ else none))
    else none

/-! ### The system -/

/-- One step of the dispatcher. -/
def step (load : List (String × String) → String → Bool) (s : State hardware) :
    Event hardware → Option (State hardware)
  | .insert t pkt => s.insert t pkt
  | .push t => s.push t
  | .notify t => s.notify t
  | .wake w => s.wake load w
  | .dissected w layers => s.dissected w layers
  | .streamWake => s.streamWake
  | .analyzed layers => s.analyzed layers
  | .filterStart name w => s.filterStart name w
  | .filterWake name w => s.filterWake name w
  | .filterDone name w => s.filterDone name w
  | .loadDissector t w src => s.loadDissector t w src
  | .loadModule t w name source => s.loadModule t w name source
  | .exitFilter t name => s.exitFilter t name
  | .installFilter t name source loaded accepts => s.installFilter t name source loaded accepts
  | .get start fin => some (s.get start fin).2
  | .getList ids => some (s.getList ids).2

/-! ### What `take` and `publish` leave alone -/

lemma take_eq (s : State hardware) (w : Core hardware) :
    s.take w = { s with
      waitingPackets := (s.take w).waitingPackets
      workers := (s.take w).workers } := by
  unfold take
  split <;> rfl

lemma publish_eq (s : State hardware) :
    s.publish = { s with
      maxID := s.publish.maxID
      filters := s.publish.filters
      streamThread := s.publish.streamThread } := by
  unfold publish
  split_ifs <;> rfl

section

variable (s : State hardware) (w : Core hardware)

@[simp] lemma take_heap : (s.take w).heap = s.heap := by rw [take_eq]

@[simp] lemma take_packets : (s.take w).packets = s.packets := by rw [take_eq]

@[simp] lemma take_filters : (s.take w).filters = s.filters := by rw [take_eq]

@[simp] lemma take_streamThread : (s.take w).streamThread = s.streamThread := by rw [take_eq]

@[simp] lemma take_count : (s.take w).count = s.count := by rw [take_eq]

@[simp] lemma take_dropped : (s.take w).dropped = s.dropped := by rw [take_eq]

@[simp] lemma take_maxID : (s.take w).maxID = s.maxID := by rw [take_eq]

@[simp] lemma take_streamMaxID : (s.take w).streamMaxID = s.streamMaxID := by rw [take_eq]

@[simp] lemma take_calls : (s.take w).calls = s.calls := by rw [take_eq]

@[simp] lemma publish_heap : s.publish.heap = s.heap := by rw [publish_eq]

@[simp] lemma publish_waitingPackets : s.publish.waitingPackets = s.waitingPackets := by rw [publish_eq]

@[simp] lemma publish_packets : s.publish.packets = s.packets := by rw [publish_eq]

@[simp] lemma publish_workers : s.publish.workers = s.workers := by rw [publish_eq]

@[simp] lemma publish_count : s.publish.count = s.count := by rw [publish_eq]

@[simp] lemma publish_dropped : s.publish.dropped = s.dropped := by rw [publish_eq]

@[simp] lemma publish_streamMaxID : s.publish.streamMaxID = s.streamMaxID := by rw [publish_eq]

@[simp] lemma publish_calls : s.publish.calls = s.calls := by rw [publish_eq]

end

/-- What a worker did before it takes the next packet is forgotten. -/
lemma take_setWorker_phase (s : State hardware) (w : Core hardware) (ph : DissectorPhase) :
    (s.setWorker w { s.workers w with phase := ph }).take w = s.take w := by
  cases hq : s.waitingPackets <;> simp [take, setWorker, hq, Function.update_idem]

lemma publish_setWorker (s : State hardware) (w : Core hardware) (x : DissectorWorker) :
    (s.setWorker w x).publish = s.publish.setWorker w x := by
  unfold publish
  simp only [setWorker_maxID, setWorker_packets]
  split_ifs <;> rfl

/-! ### What each section can do

One lemma for each function above: the guards it has passed and the state it leaves. The
invariants are proved from these lemmas, never from the definitions. -/

variable {s s' : State hardware} {t : ℕ} {w : Core hardware} {name : String}

lemma insert_cases {pkt : Option ℕ} (h : s.insert t pkt = some s') :
    s.calls t = .idle ∧ ((pkt = none ∧ s' = s) ∨ ∃ n, pkt = some n ∧
      ((32 ≤ s.waitingPackets.length ∧ s' = { s with dropped := s.dropped + 1 }) ∨
        (s.waitingPackets.length < 32 ∧ s' = s.accept t n))) := by
  by_cases hc : s.calls t = .idle
  · refine ⟨hc, ?_⟩
    cases pkt with
    | none => exact Or.inl ⟨rfl, by simpa [insert, hc] using h.symm⟩
    | some n =>
      by_cases hq : s.waitingPackets.length ≥ 32
      · exact Or.inr ⟨n, rfl, Or.inl ⟨hq, by simpa [insert, hc, hq] using h.symm⟩⟩
      · exact Or.inr ⟨n, rfl, Or.inr ⟨not_le.mp hq, by simpa [insert, hc, hq] using h.symm⟩⟩
  · simp [insert, hc] at h

lemma push_cases (h : s.push t = some s') :
    ∃ p, s.calls t = .inserting p ∧ s' = s.enqueue t p := by
  unfold push at h
  split at h
  · rename_i p hp
    exact ⟨p, hp, (Option.some.inj h).symm⟩
  · cases h

lemma notify_cases (h : s.notify t = some s') :
    (s.calls t = .notifying .cond ∧ s' = s.notifyWorkers.setCall t .idle) ∨
      (s.calls t = .notifying .filterCond ∧ s' = s.notifyFilters.setCall t .idle) := by
  unfold notify at h
  split at h
  · rename_i hc
    exact Or.inl ⟨hc, (Option.some.inj h).symm⟩
  · rename_i hc
    exact Or.inr ⟨hc, (Option.some.inj h).symm⟩
  · cases h

lemma take_cases (s : State hardware) (w : Core hardware) :
    (s.waitingPackets = [] ∧ s.take w = s.setWorker w { s.workers w with phase := .ready }) ∨
      ∃ p ps, s.waitingPackets = p :: ps ∧ s.take w =
        { s with waitingPackets := ps }.setWorker w
          { s.workers w with phase := .dissecting p } := by
  unfold take
  split
  · rename_i hq
    exact Or.inl ⟨hq, rfl⟩
  · rename_i p ps hq
    exact Or.inr ⟨p, ps, hq, rfl⟩

lemma wake_cases {load : List (String × String) → String → Bool}
    (h : s.wake load w = some s') :
    (s.workers w).phase = .ready ∧
      ((s.waitingPackets = [] ∧ (s.workers w).sources = [] ∧
          s' = s.setWorker w { s.workers w with phase := .asleep }) ∨
        ((s.waitingPackets ≠ [] ∨ (s.workers w).sources ≠ []) ∧
          s' = (s.setWorker w ((s.workers w).loadSources load)).take w)) := by
  unfold wake at h
  split at h
  · rename_i hp
    refine ⟨hp, ?_⟩
    split_ifs at h with hw
    · simp only [List.isEmpty_iff] at hw
      exact Or.inl ⟨hw.1, hw.2, (Option.some.inj h).symm⟩
    · simp only [List.isEmpty_iff, not_and_or] at hw
      exact Or.inr ⟨hw, (Option.some.inj h).symm⟩
  · cases h

lemma publish_cases (s : State hardware) :
    (s.maxID = 0 ∧ s.packets.has 1 = false ∧ s.publish = s) ∨
      ((s.maxID = 0 → s.packets.has 1 = true) ∧
        s.publish = { s with maxID := s.nextMaxID }.notifyFilters.notifyStream) := by
  unfold publish
  split_ifs with h
  · exact Or.inl ⟨h.1, h.2, rfl⟩
  · exact Or.inr ⟨fun h0 => by simpa [h0] using h, rfl⟩

lemma dissected_cases {layers : LayerList} (h : s.dissected w layers = some s') :
    ∃ p, (s.workers w).phase = .dissecting p ∧
      s' = ((s.setLayers p layers).store p).publish.take w := by
  unfold dissected at h
  split at h
  · rename_i p hp
    exact ⟨p, hp, (Option.some.inj h).symm⟩
  · cases h

lemma streamWake_cases (h : s.streamWake = some s') :
    s.streamThread.phase = .ready ∧
      ((s.streamThread.maxID < s.maxID ∧ ∃ p, (s.lookup (s.streamThread.maxID + 1)).1 = some p ∧
          s' = { (s.lookup (s.streamThread.maxID + 1)).2 with
            streamThread := ⟨.analyzing p, s.streamThread.maxID + 1⟩ }) ∨
        (s.maxID ≤ s.streamThread.maxID ∧
          s' = { s with streamThread := { s.streamThread with phase := .asleep } })) := by
  unfold streamWake at h
  split at h
  · rename_i hp
    refine ⟨hp, ?_⟩
    split_ifs at h with hm
    · split at h
      · rename_i p s₁ hl
        refine Or.inl ⟨hm, p, by rw [hl], ?_⟩
        rw [hl]
        exact (Option.some.inj h).symm
      · cases h
    · exact Or.inr ⟨not_lt.mp hm, (Option.some.inj h).symm⟩
  · cases h

lemma analyzed_cases {layers : LayerList} (h : s.analyzed layers = some s') :
    ∃ p, s.streamThread.phase = .analyzing p ∧ s' = s.finish p layers := by
  unfold analyzed at h
  split at h
  · rename_i p hp
    exact ⟨p, hp, (Option.some.inj h).symm⟩
  · cases h

lemma filterStart_cases (h : s.filterStart name w = some s') :
    ∃ f, s.filters name = some f ∧ f.workers w = .starting ∧
      s' = s.setFilter name (some (f.setPhase w (if f.loaded then .ready else .finished))) := by
  unfold filterStart at h
  split at h
  · cases h
  · rename_i f hf
    split at h
    · rename_i hp
      exact ⟨f, hf, hp, (Option.some.inj h).symm⟩
    · cases h

lemma filterWake_cases (h : s.filterWake name w = some s') :
    ∃ f, s.filters name = some f ∧ f.workers w = .ready ∧
      ((f.exiting = true ∧ s' = s.setFilter name (some (f.setPhase w .finished))) ∨
        (f.exiting = false ∧ f.ctx.fetchedMaxID < s.streamMaxID ∧
          ∃ p, (s.lookup (f.ctx.fetchedMaxID + 1)).1 = some p ∧
            s' = (s.lookup (f.ctx.fetchedMaxID + 1)).2.setFilter name
              (some { f.setPhase w (.matching p) with ctx := f.ctx.fetch })) ∨
        (f.exiting = false ∧ s.streamMaxID ≤ f.ctx.fetchedMaxID ∧
          s' = s.setFilter name (some (f.setPhase w .asleep)))) := by
  unfold filterWake at h
  split at h
  · cases h
  · rename_i f hf
    split at h
    · rename_i hp
      refine ⟨f, hf, hp, ?_⟩
      split_ifs at h with he hm
      · exact Or.inl ⟨he, (Option.some.inj h).symm⟩
      · refine Or.inr (Or.inl ⟨Bool.eq_false_iff.mpr he, hm, ?_⟩)
        split at h
        · rename_i p s₁ hl
          refine ⟨p, by rw [hl], ?_⟩
          rw [hl]
          exact (Option.some.inj h).symm
        · cases h
      · exact Or.inr (Or.inr ⟨Bool.eq_false_iff.mpr he, not_lt.mp hm, (Option.some.inj h).symm⟩)
    · cases h

lemma filterDone_cases (h : s.filterDone name w = some s') :
    ∃ f p, s.filters name = some f ∧ f.workers w = .matching p ∧
      s' = s.setFilter name (some { f.setPhase w .ready with
        ctx := f.ctx.complete (s.idOf p) (f.accepts (s.heap.packet p)) }) := by
  unfold filterDone at h
  split at h
  · cases h
  · rename_i f hf
    split at h
    · rename_i p hp
      exact ⟨f, p, hf, hp, (Option.some.inj h).symm⟩
    · cases h

lemma loadDissector_cases {src : DissectorSource} (h : s.loadDissector t w src = some s') :
    s.calls t = .idle ∧ s' = (s.setWorker w { s.workers w with
      sources := (s.workers w).sources ++ [src] }).setCall t (.notifying .cond) := by
  unfold loadDissector at h
  split_ifs at h with hc
  exact ⟨not_not.mp hc, (Option.some.inj h).symm⟩

lemma loadModule_cases {source : String} (h : s.loadModule t w name source = some s') :
    s.calls t = .idle ∧ s' = s.setWorker w { s.workers w with
      modules := (s.workers w).modules ++ [(name, source)] } := by
  unfold loadModule at h
  split_ifs at h with hc
  exact ⟨not_not.mp hc, (Option.some.inj h).symm⟩

lemma exitFilter_cases (h : s.exitFilter t name = some s') :
    s.calls t = .idle ∧ ((s.filters name = none ∧ s' = s) ∨
      ∃ f, s.filters name = some f ∧
        s' = (s.setFilter name (some { f with exiting := true })).setCall t
          (.notifying .filterCond)) := by
  unfold exitFilter at h
  split_ifs at h with hc
  refine ⟨not_not.mp hc, ?_⟩
  split at h
  · rename_i hf
    exact Or.inl ⟨hf, (Option.some.inj h).symm⟩
  · rename_i f hf
    exact Or.inr ⟨f, hf, (Option.some.inj h).symm⟩

lemma installFilter_cases {source : String} {loaded : Bool} {accepts : Packet → Bool}
    (h : s.installFilter t name source loaded accepts = some s') :
    s.calls t = .idle ∧
      (∀ f, s.filters name = some f → f.exiting = true ∧ ∀ w, f.workers w = .finished) ∧
      s' = s.setFilter name (if name ≠ "" ∧ source ≠ "" then
        some ⟨loaded, accepts, false, {}, fun _ => .starting⟩ else none) := by
  unfold installFilter at h
  by_cases hc : s.calls t = .idle
  · cases hf : s.filters name with
    | none =>
      simp only [hc, hf, ne_eq, not_true_eq_false, if_false, if_true, Option.some.injEq] at h
      exact ⟨hc, by simp, h.symm⟩
    | some f =>
      simp only [hc, hf, ne_eq, not_true_eq_false, if_false] at h
      by_cases hj : (f.exiting && decide (∀ w, f.workers w = .finished)) = true
      · rw [if_pos hj] at h
        simp only [Bool.and_eq_true, decide_eq_true_eq] at hj
        refine ⟨hc, ?_, (Option.some.inj h).symm⟩
        rintro g hg
        obtain rfl := Option.some.inj hg
        exact hj
      · rw [if_neg hj] at h
        cases h
  · simp [hc] at h

end State

end Dripcap
