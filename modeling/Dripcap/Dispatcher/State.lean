import Dripcap.Dispatcher.FilterContext
import Dripcap.Dispatcher.ObjectCache
import Dripcap.Script.Layer
import Mathlib.Algebra.GroupWithZero.Nat
import Mathlib.Tactic.Simps.Basic

/-!
# The state of the dispatcher

`Dispatcher::Private` with its threads, as it is seen whenever the mutex is free. A thread is
between two locked sections, so its state is the place where it will lock the mutex next and
what it holds there.

Counters are natural numbers. The destructor of the dispatcher, and with it the flag
`Private::exiting`, is not part of the model: the dispatcher lives.
-/

namespace Dripcap

/-- `numcore`, the number of threads of each pool of workers, for a number of hardware threads
that may be reported as zero. -/
abbrev Core (hardware : ℕ) := Fin (max 1 hardware)

instance Core.neZero (hardware : ℕ) : NeZero (max 1 hardware) := ⟨by omega⟩

instance Core.ofNat (hardware n : ℕ) : OfNat (Core hardware) n := ⟨Fin.ofNat (max 1 hardware) n⟩

/-- A `PacketPtr` that is not null. Packets are created by callers of `insert` (the capture
thread, the command handlers, stream dissectors) or by the object cache when it reads a packet
back; only the former are ever inserted. -/
inductive PacketPtr where
  | made : ℕ → PacketPtr
  | loaded : ℕ → PacketPtr
  deriving DecidableEq

/-- The packets behind the pointers; `loads` counts those the object cache has created. -/
structure Heap where
  packet : PacketPtr → Packet
  loads : ℕ

namespace Heap

/-- Overwrite a packet through its pointer. -/
def modify (h : Heap) (p : PacketPtr) (f : Packet → Packet) : Heap :=
  { h with packet := Function.update h.packet p (f (h.packet p)) }

/-- `convert<PacketPtr>` on the value of a stored packet: a new packet of the same content. -/
def load (value : Packet) (h : Heap) : PacketPtr × Heap :=
  (.loaded h.loads,
    { packet := Function.update h.packet (.loaded h.loads) value, loads := h.loads + 1 })

end Heap

/-- The two condition variables that calls notify after they have released the mutex. -/
inductive Cond where
  | cond
  | filterCond
  deriving DecidableEq

/-- Where a thread is in its current call of `insert`, `loadDissector` or `setFilter`. -/
inductive Call where
  | idle
  /-- between the two locked sections of `insert` -/
  | inserting (pkt : PacketPtr)
  /-- before the final `notify_all` -/
  | notifying (c : Cond)
  deriving DecidableEq

/-- An element of `DissectorWorker::sources`; of the options only the namespaces are read. -/
structure DissectorSource where
  source : String
  namespaces : List String
  deriving DecidableEq

/-- A `ScriptClass` loaded from a dissector source with the modules known to its worker. -/
structure ScriptClass where
  source : String
  namespaces : List String
  modules : List (String × String)
  deriving DecidableEq

/-- What a dissector worker does while the mutex is free. -/
inductive DissectorPhase where
  /-- about to lock the mutex and to look at the predicate of its wait -/
  | ready
  /-- in the wait set of `cond` -/
  | asleep
  /-- running the dissectors on a packet -/
  | dissecting (pkt : PacketPtr)
  deriving DecidableEq

/-- `Dispatcher::DissectorWorker` -/
structure DissectorWorker where
  phase : DissectorPhase := .ready
  sources : List DissectorSource := []
  modules : List (String × String) := []
  dissectors : String → List ScriptClass := fun _ => []

/-- A thread in the wait set is woken up. -/
def DissectorWorker.notified (x : DissectorWorker) : DissectorWorker :=
  if x.phase = .asleep then { x with phase := .ready } else x

/-- What the stream thread does while the mutex is free. -/
inductive StreamPhase where
  | ready
  | asleep
  /-- running the stream dissectors on a packet -/
  | analyzing (pkt : PacketPtr)
  deriving DecidableEq

/-- The stream thread with its own counter `maxID`. -/
structure StreamThread where
  phase : StreamPhase := .ready
  maxID : ℕ := 0

/-- A thread in the wait set is woken up. -/
def StreamThread.notified (x : StreamThread) : StreamThread :=
  if x.phase = .asleep then { x with phase := .ready } else x

/-- What a filter worker does while the mutex is free. -/
inductive FilterPhase where
  /-- creating its script -/
  | starting
  | ready
  | asleep
  /-- running the filter on a packet -/
  | matching (pkt : PacketPtr)
  /-- the thread has returned -/
  | finished
  deriving DecidableEq

/-- The workers of an installed filter with the context they share. `loaded` says whether the
source of the filter loads, `accepts` is what `script->filter` answers. -/
structure Filter (hardware : ℕ) where
  loaded : Bool
  accepts : Packet → Bool
  exiting : Bool := false
  ctx : FilterContext := {}
  workers : Core hardware → FilterPhase := fun _ => .starting

/-- The workers in the wait set are woken up. -/
def Filter.notified {hardware : ℕ} (f : Filter hardware) : Filter hardware :=
  { f with workers := fun w => if f.workers w = .asleep then .ready else f.workers w }

@[simps]
def Filter.setPhase {hardware : ℕ} (f : Filter hardware) (w : Core hardware) (ph : FilterPhase) :
    Filter hardware :=
  { f with workers := Function.update f.workers w ph }

/-- `Dispatcher::Private` and its threads. -/
structure State (hardware : ℕ) where
  heap : Heap
  waitingPackets : List PacketPtr := []
  packets : ObjectCache ℕ PacketPtr Packet := .empty
  workers : Core hardware → DissectorWorker := fun _ => {}
  filters : String → Option (Filter hardware) := fun _ => none
  streamThread : StreamThread := {}
  count : ℕ := 0
  dropped : ℕ := 0
  maxID : ℕ := 0
  streamMaxID : ℕ := 0
  calls : ℕ → Call := fun _ => .idle

namespace State

variable {hardware : ℕ}

/-- A new dispatcher; the packets that callers are going to insert are arbitrary. -/
def init (packet : PacketPtr → Packet) : State hardware where
  heap := ⟨packet, 0⟩

/-- The `id` field of a packet. -/
def idOf (s : State hardware) (p : PacketPtr) : ℕ := (s.heap.packet p).id

@[simps]
def setCall (s : State hardware) (t : ℕ) (c : Call) : State hardware :=
  { s with calls := Function.update s.calls t c }

@[simps]
def setWorker (s : State hardware) (w : Core hardware) (x : DissectorWorker) : State hardware :=
  { s with workers := Function.update s.workers w x }

@[simps]
def setFilter (s : State hardware) (name : String) (f : Option (Filter hardware)) :
    State hardware :=
  { s with filters := Function.update s.filters name f }

/-- A script replaces the layers of a packet. -/
@[simps]
def setLayers (s : State hardware) (p : PacketPtr) (layers : LayerList) : State hardware :=
  { s with heap := s.heap.modify p fun pkt => { pkt with layers := layers } }

/-! ### Notifications -/

/-- `cond.notify_all()` -/
@[simps]
def notifyWorkers (s : State hardware) : State hardware :=
  { s with workers := fun w => (s.workers w).notified }

/-- `filterCond.notify_all()` -/
@[simps]
def notifyFilters (s : State hardware) : State hardware :=
  { s with filters := fun name => (s.filters name).map Filter.notified }

/-- `streamCond.notify_all()` -/
@[simps]
def notifyStream (s : State hardware) : State hardware :=
  { s with streamThread := s.streamThread.notified }

/-! ### Reading packets -/

/-- `d->packets.get(id)` -/
def lookup (s : State hardware) (id : ℕ) : Option PacketPtr × State hardware :=
  let r := s.packets.get Heap.load id s.heap
  (r.1, { s with packets := r.2.1, heap := r.2.2 })

/-- Look up the ids of a list one after the other, keeping the packets that are there. -/
def lookups (s : State hardware) : List ℕ → List PacketPtr × State hardware
  | [] => ([], s)
  | id :: ids =>
    let r := s.lookup id
    let rs := r.2.lookups ids
    (r.1.toList ++ rs.1, rs.2)

/-- `Dispatcher::get(list)`: the packets are returned in the order of their ids. -/
def getList (s : State hardware) (ids : List ℕ) : List PacketPtr × State hardware :=
  let r := s.lookups ids
  (r.1.mergeSort fun p q => decide (r.2.idOf p ≤ r.2.idOf q), r.2)

/-- The loop of `Dispatcher::get(start, end)` from `i` on, with the number of rounds left. -/
def getLoop (s : State hardware) (i : ℕ) : ℕ → List PacketPtr × State hardware
  | 0 => ([], s)
  | n + 1 =>
    if i > s.streamMaxID then ([], s)
    else
      let r := s.lookup i
      let rs := r.2.getLoop (i + 1) n
      (r.1.toList ++ rs.1, rs.2)

/-- `Dispatcher::get(start, end)` -/
def get (s : State hardware) (start fin : ℕ) : List PacketPtr × State hardware :=
  if start = 0 ∨ fin = 0 ∨ start > fin then ([], s)
  else s.getLoop start (fin + 1 - start)

end State

end Dripcap
