import Dripcap.Dispatcher.Lifecycle
import Dripcap.Script.Buffer
import Dripcap.Script.Value

/-!
# Payloads in stream dissectors

The script object of a stream dissector lives as long as its stream, so it may keep a `Payload` of
one packet and put it into a stream while another packet is processed. `ScriptClass::analyzeStream`
encodes the payload as the two numbers of its range, and the dissector of the new stream is called
with `MsgpackToV8` of these and the packet that is processed.

The state is the one of the stream thread with the payload of its packet and the payloads that the
script objects have. What a script does in a call is the part of it that has to do with payloads.
-/

namespace Dripcap

namespace StreamPayload

open Streams

/-! ### Views of payloads -/

/-- A `Payload`. Its vector belongs to a packet and is never changed; the numbers are not checked
by the code that makes it. -/
@[ext]
structure View where
  vec : List UInt8
  start : UInt64
  fin : UInt64

namespace View

/-- `PacketWrapper::payload` -/
def whole (payload : List UInt8) : View := ⟨payload, 0, .ofNat payload.length⟩

/-- `Buffer::length` -/
def length (v : View) : UInt64 := v.fin - v.start

/-- `Payload::slice` with `Buffer::sliceRange` -/
def slice (v : View) (s e : UInt64) : View where
  vec := v.vec
  start := min (v.start + s) v.fin
  fin := v.start + min (max s (min e v.length)) v.length

/-- `v8ToMsgpack` for a payload. -/
def toMsgpack (v : View) : Object :=
  .extPacked .payload (.array [.integer v.start.toNat, .integer v.fin.toNat])

/-- The bytes of a view, `vec->at(i)` for all of its positions. There are none where the view is
not one of its vector. -/
def bytes (v : View) : Option (List UInt8) :=
  if v.start ≤ v.fin then
    (List.range' v.start.toNat (v.fin.toNat - v.start.toNat)).mapM fun i => v.vec[i]?
  else none

/-- The view that a well-formed one is. -/
def ofPayload (b : Payload) : View := ⟨b.vec, .ofNat b.start, .ofNat b.fin⟩

variable (b : Payload)

lemma toNat_ofNat_of_le {n : ℕ} (h : n ≤ b.vec.length) : (UInt64.ofNat n).toNat = n := by
  have hsize := b.size_lt
  apply UInt64.toNat_ofNat_of_lt'
  show n < 2 ^ 64
  omega

lemma ofPayload_start : (ofPayload b).start.toNat = b.start :=
  toNat_ofNat_of_le b (b.start_le.trans b.fin_le)

lemma ofPayload_fin : (ofPayload b).fin.toNat = b.fin := toNat_ofNat_of_le b b.fin_le

lemma ofPayload_le : (ofPayload b).start ≤ (ofPayload b).fin := by
  apply UInt64.le_iff_toNat_le.mpr
  rw [ofPayload_start, ofPayload_fin]
  exact b.start_le

lemma ofPayload_length : (ofPayload b).length.toNat = b.length := by
  rw [length, UInt64.toNat_sub_of_le _ _ (ofPayload_le b), ofPayload_start, ofPayload_fin]
  rfl

/-- Both slices are the same one. -/
lemma slice_ofPayload (s e : UInt64) :
    (ofPayload b).slice s e = ofPayload (Payload.slice b s.toNat e.toNat) := by
  have hstart : ((ofPayload b).slice s e).start.toNat = (Payload.slice b s.toNat e.toNat).start := by
    rw [slice, UInt64.toNat_min, UInt64.toNat_add, ofPayload_start, ofPayload_fin]
    rfl
  have hfin : ((ofPayload b).slice s e).fin.toNat = (Payload.slice b s.toNat e.toNat).fin := by
    have hmax : (max s (min e (ofPayload b).length)).toNat = max s.toNat (min e.toNat b.length) := by
      rw [UInt64.toNat_max, UInt64.toNat_min, ofPayload_length]
    rw [slice, UInt64.toNat_add, UInt64.toNat_min, hmax, ofPayload_length, ofPayload_start]
    apply Nat.mod_eq_of_lt
    have := b.start_add_length
    have := b.fin_le
    have := b.size_lt
    omega
  have hvec : ((ofPayload b).slice s e).vec = (ofPayload (Payload.slice b s.toNat e.toNat)).vec := rfl
  rw [← ofPayload_start] at hstart
  rw [← ofPayload_fin] at hfin
  exact View.ext hvec (UInt64.toNat_inj.mp hstart) (UInt64.toNat_inj.mp hfin)

lemma mapM_getElem? {vec : List UInt8} {s n : ℕ} (h : s + n ≤ vec.length) :
    (List.range' s n).mapM (fun i => vec[i]?) = some ((vec.drop s).take n) := by
  induction n generalizing s with
  | zero => rfl
  | succ n ih =>
    have hs : s < vec.length := by omega
    rw [List.range'_succ, List.mapM_cons, ih (by omega), List.getElem?_eq_getElem hs,
      List.drop_eq_getElem_cons hs]
    rfl

lemma bytes_ofPayload : (ofPayload b).bytes = some b.bytes := by
  rw [bytes, if_pos (ofPayload_le b), ofPayload_start, ofPayload_fin]
  apply mapM_getElem?
  have := b.start_le
  have := b.fin_le
  show b.start + (b.fin - b.start) ≤ b.vec.length
  omega

lemma toMsgpack_ofPayload : (ofPayload b).toMsgpack = Payload.toMsgpack b false := by
  rw [toMsgpack, ofPayload_start, ofPayload_fin]
  rfl

end View

/-- The payload that a script gets for an object which is one of the packet with this payload. -/
def handed (cx : Context) (payload : List UInt8) (data : Object) : Option View :=
  match MsgpackToV8 cx true data with
  | some (.payload start fin) => some ⟨payload, .ofNat start, .ofNat fin⟩
  | _ => none

lemma v8ToMsgpack_payload (v : View) :
    v8ToMsgpack (.payload v.start.toNat v.fin.toNat) = some v.toMsgpack := rfl

lemma MsgpackToV8_toMsgpack (cx : Context) (v : View) :
    MsgpackToV8 cx true v.toMsgpack = some (.payload v.start.toNat v.fin.toNat) := by
  rw [View.toMsgpack, MsgpackToV8, if_pos rfl,
    Object.asRange_natCast v.start.toNat_lt v.fin.toNat_lt]
  rfl

/-- The range comes back as it is, and the vector is the one of the packet. -/
lemma handed_toMsgpack (cx : Context) (payload : List UInt8) (v : View) :
    handed cx payload v.toMsgpack = some ⟨payload, v.start, v.fin⟩ := by
  rw [handed, MsgpackToV8_toMsgpack]
  show some (View.mk payload (.ofNat v.start.toNat) (.ofNat v.fin.toNat)) = _
  rw [UInt64.ofNat_toNat, UInt64.ofNat_toNat]

/-! ### A call of a script -/

/-- What a script does in a call, as far as it has to do with payloads. The payloads that a script
has are numbered in the order in which it has got them; there is no payload for other numbers. -/
inductive Action where
  /-- a payload of the packet that stands in a layer or inside of the data is read -/
  | find (start fin : UInt64)
  | slice (k : ℕ) (s e : UInt64)
  /-- a new `PacketStream` with a payload as its data is put into the array -/
  | emit (name ns id : String) (flag : StreamFlag) (k : ℕ)
  /-- a `PacketStream` with other data is put into the array -/
  | emitOther (stream : PacketStream)

/-- A call returns or throws an exception. -/
structure Call where
  actions : List Action
  throws : Bool := false

/-- A `PacketStream` that `analyzeStream` returns for the packet with this payload; `view` is its
data if that is a payload. -/
structure Emission where
  payload : List UInt8
  stream : PacketStream
  view : Option View

/-- The payloads that a script has and the array of its call. -/
structure Frame where
  known : List View
  array : List Emission

namespace Frame

variable (payload : List UInt8)

def act (f : Frame) : Action → Frame
  | .find start fin => { f with known := f.known ++ [⟨payload, start, fin⟩] }
  | .slice k s e =>
    { f with known := f.known ++ (f.known[k]?.map fun v => v.slice s e).toList }
  | .emit name ns id flag k =>
    { f with array := f.array ++
        (f.known[k]?.map fun v => ⟨payload, ⟨name, ns, id, v.toMsgpack, flag⟩, some v⟩).toList }
  | .emitOther stream => { f with array := f.array ++ [⟨payload, stream, none⟩] }

/-- The call of a script that has the payloads `known`, with the packet and the data. -/
def call (cx : Context) (known : List View) (data : Object) (c : Call) : Frame :=
  let f := c.actions.foldl (act payload)
    ⟨known ++ .whole payload :: (handed cx payload data).toList, []⟩
  if c.throws then { f with array := [] } else f

end Frame

/-! ### The thread -/

/-- The state of the stream thread, the payload of its packet and the payloads that the script
objects have. -/
structure State where
  thread : Streams.State := {}
  payload : List UInt8 := []
  known : ℕ → List View := fun _ => []

inductive Event where
  /-- `Dispatcher::loadStreamDissector` -/
  | loadStreamDissector (source : String) (namespaces : List String)
  /-- `Dispatcher::loadModule` -/
  | loadModule (name source : String)
  /-- the next packet is taken -/
  | take (payload : List UInt8) (layers : List (String × LayerNode))
  | round (order : List LayerPtr)
  /-- the next event of the round; every script object has its call -/
  | deliver (calls : ℕ → Call)
  | finish

namespace State

variable (loads : String → Bool) (cx : Context)

/-- The calls of the scripts for an event. -/
def frame (s : State) (net : PacketStream) (calls : ℕ → Call) (script : ℕ) : Frame :=
  Frame.call s.payload cx (s.known script) net.data (calls script)

/-- What the event is for the stream thread. -/
def threadEvent (s : State) : Event → Streams.Event
  | .loadStreamDissector source namespaces => .loadStreamDissector source namespaces
  | .loadModule name source => .loadModule name source
  | .take _ layers => .take layers
  | .round order => .round order
  | .deliver calls => .deliver fun script =>
    match s.thread.list with
    | [] => []
    | (_, net) :: _ => (s.frame cx net calls script).array.map Emission.stream
  | .finish => .finish

/-- The payloads that the scripts have after the event. -/
def nextKnown (s : State) : Event → ℕ → List View
  | .deliver calls => fun script =>
    match s.thread.list with
    | [] => s.known script
    | (_, net) :: _ =>
      if script ∈ s.thread.called loads net then (s.frame cx net calls script).known
      else s.known script
  | _ => s.known

def nextPayload (s : State) : Event → List UInt8
  | .take payload _ => payload
  | _ => s.payload

def step (s : State) (e : Event) : Option State :=
  (s.thread.step loads (s.threadEvent cx e)).map fun thread =>
    { thread
      payload := s.nextPayload e
      known := s.nextKnown loads cx e }

/-- The streams that the scripts produce at an event, in the order of the calls. -/
def emissions (s : State) (e : Event) (_ : State) : List Emission :=
  match e, s.thread.list with
  | .deliver calls, (_, net) :: _ =>
    (s.thread.called loads net).flatMap fun script => (s.frame cx net calls script).array
  | _, _ => []

end State

/-! ### What is put into the array -/

namespace Emission

/-- The emission of a packet with this payload; a `Payload` in it is encoded as its range. -/
structure Encoded (payload : List UInt8) (em : Emission) : Prop where
  payload : em.payload = payload
  data : ∀ v, em.view = some v → em.stream.data = v.toMsgpack

/-- The data that the next dissector is handed has the bytes of the emitted payload. -/
def Faithful (cx : Context) (em : Emission) : Prop :=
  ∀ v b, em.view = some v → v.bytes = some b →
    ∃ w, handed cx em.payload em.stream.data = some w ∧ w.bytes = some b

/-- Within the range of the emitted payload, the packet that is processed has the bytes of the
packet that the payload was taken from. -/
def SameBytes (em : Emission) : Prop :=
  ∀ v b, em.view = some v → v.bytes = some b →
    ∀ i, v.start.toNat ≤ i → i < v.fin.toNat → em.payload[i]? = v.vec[i]?

end Emission

lemma mapM_congr_iff {α β : Type*} {f g : α → Option β} {l : List α} {b : List β}
    (h : l.mapM g = some b) : l.mapM f = some b ↔ ∀ a ∈ l, f a = g a := by
  induction l generalizing b with
  | nil => simpa using h
  | cons a l ih =>
    rw [List.mapM_cons] at h
    obtain ⟨x, hx, h⟩ := Option.bind_eq_some_iff.mp h
    obtain ⟨xs, hxs, h⟩ := Option.bind_eq_some_iff.mp h
    obtain rfl : x :: xs = b := Option.some.inj h
    rw [List.forall_mem_cons, ← ih hxs, hx, List.mapM_cons]
    constructor
    · intro h'
      obtain ⟨y, hy, h'⟩ := Option.bind_eq_some_iff.mp h'
      obtain ⟨ys, hys, h'⟩ := Option.bind_eq_some_iff.mp h'
      obtain ⟨rfl, rfl⟩ := List.cons.inj (Option.some.inj h')
      exact ⟨hy, hys⟩
    · rintro ⟨hy, hys⟩
      rw [hy, hys]
      rfl

/-- The same range of another vector has the same bytes exactly when they agree there. -/
lemma View.bytes_eq_iff {v : View} {b : List UInt8} (h : v.bytes = some b) (vec : List UInt8) :
    View.bytes ⟨vec, v.start, v.fin⟩ = some b ↔
      ∀ i, v.start.toNat ≤ i → i < v.fin.toNat → vec[i]? = v.vec[i]? := by
  unfold View.bytes at h ⊢
  split_ifs at h with hle
  have hle' : v.start.toNat ≤ v.fin.toNat := UInt64.le_iff_toNat_le.mp hle
  rw [if_pos hle, mapM_congr_iff h]
  simp only [List.mem_range'_1, and_imp]
  rw [Nat.add_sub_cancel' hle']

lemma Emission.Encoded.faithful_iff {payload : List UInt8} {em : Emission}
    (h : em.Encoded payload) (cx : Context) : em.Faithful cx ↔ em.SameBytes := by
  constructor
  · intro hem v b hv hb
    obtain ⟨w, hw, hbytes⟩ := hem v b hv hb
    rw [h.data v hv, handed_toMsgpack] at hw
    obtain rfl := Option.some.inj hw
    exact (View.bytes_eq_iff hb em.payload).mp hbytes
  · intro hem v b hv hb
    refine ⟨⟨em.payload, v.start, v.fin⟩, ?_, ?_⟩
    · rw [h.data v hv, handed_toMsgpack]
    · exact (View.bytes_eq_iff hb em.payload).mpr (hem v b hv hb)

namespace Frame

variable {payload : List UInt8} {f : Frame}

lemma encoded_act (h : ∀ em ∈ f.array, em.Encoded payload) (a : Action) :
    ∀ em ∈ (f.act payload a).array, em.Encoded payload := by
  intro em hem
  cases a with
  | find start fin => exact h em hem
  | slice k s e => exact h em hem
  | emit name ns id flag k =>
    rcases List.mem_append.mp hem with hem | hem
    · exact h em hem
    · obtain ⟨v, -, rfl⟩ := Option.map_eq_some_iff.mp (Option.mem_toList.mp hem)
      refine ⟨rfl, ?_⟩
      intro v' hv'
      obtain rfl := Option.some.inj hv'
      rfl
  | emitOther stream =>
    rcases List.mem_append.mp hem with hem | hem
    · exact h em hem
    · obtain rfl := List.mem_singleton.mp hem
      exact ⟨rfl, fun v hv => by cases hv⟩

lemma encoded_foldl (h : ∀ em ∈ f.array, em.Encoded payload) (actions : List Action) :
    ∀ em ∈ (actions.foldl (act payload) f).array, em.Encoded payload := by
  induction actions generalizing f with
  | nil => exact h
  | cons a actions ih => exact ih (encoded_act h a)

lemma encoded_call (cx : Context) (known : List View) (data : Object) (c : Call) :
    ∀ em ∈ (call payload cx known data c).array, em.Encoded payload := by
  unfold call
  split_ifs
  · intro em hem
    cases hem
  · apply encoded_foldl
    intro em hem
    cases hem

end Frame

namespace State

variable {loads : String → Bool} {cx : Context} {s s' : State} {es : List Event}

lemma step_cases {e : Event} (h : s.step loads cx e = some s') :
    s.thread.step loads (s.threadEvent cx e) = some s'.thread ∧
      s'.payload = s.nextPayload e := by
  obtain ⟨thread, hthread, rfl⟩ := Option.map_eq_some_iff.mp h
  exact ⟨hthread, rfl⟩

/-- The thread does what the stream thread does. -/
lemma run_thread (h : Run.run (step loads cx) s es = some s') :
    ∃ es', Run.run (Streams.State.step loads) s.thread es' = some s'.thread := by
  refine Run.run_mono (R := fun s s' => ∃ es',
    Run.run (Streams.State.step loads) s.thread es' = some s'.thread)
    (fun _ => ⟨[], rfl⟩) ?_ ?_ h
  · rintro a b c ⟨es₁, h₁⟩ ⟨es₂, h₂⟩
    exact ⟨es₁ ++ es₂, Run.run_trans h₁ h₂⟩
  · intro s e s' hs
    refine ⟨[s.threadEvent cx e], ?_⟩
    rw [Run.run_cons, (step_cases hs).1]
    rfl

/-- A packet begins when the work for the packet before it is done. -/
lemma payload_step {e : Event} (hs : s.step loads cx e = some s') (hbusy : s.thread.busy = true) :
    s'.payload = s.payload := by
  obtain ⟨hthread, hpayload⟩ := step_cases hs
  rw [hpayload]
  cases e with
  | take payload layers =>
    rw [(Streams.State.take_cases hthread).1] at hbusy
    cases hbusy
  | _ => rfl

/-- What an event adds to the work for the packet is found in its layers or an emission for it. -/
lemma mem_offered {e : Event} (hs : s.step loads cx e = some s') {i : ℕ} {layer : LayerPtr}
    {net : PacketStream}
    (h : net ∈ Streams.State.offered loads i layer s.thread (s.threadEvent cx e) s'.thread) :
    (∃ layers, e = .take s'.payload layers ∧ net ∈ (findStreamsList ∅ layers).at layer) ∨
      ∃ em ∈ s.emissions loads cx e s', em.stream = net ∧ em.payload = s'.payload := by
  obtain ⟨hthread, hpayload⟩ := step_cases hs
  cases e with
  | take payload layers =>
    simp only [Streams.State.offered, threadEvent] at h
    split_ifs at h
    · left
      rw [hpayload]
      exact ⟨layers, rfl, h⟩
    · cases h
  | deliver calls =>
    right
    cases hlist : s.thread.list with
    | nil => simp only [Streams.State.offered, threadEvent, hlist] at h; cases h
    | cons head list =>
      simp only [Streams.State.offered, threadEvent, hlist] at h
      split_ifs at h
      · obtain ⟨script, hscript, hnet⟩ := List.mem_flatMap.mp h
        obtain ⟨em, hem, rfl⟩ := List.mem_map.mp hnet
        refine ⟨em, ?_, rfl, ?_⟩
        · simp only [emissions, hlist]
          exact List.mem_flatMap.mpr ⟨script, hscript, hem⟩
        · rw [hpayload]
          exact (Frame.encoded_call cx _ _ _ em hem).payload
      · cases h
  | loadStreamDissector source namespaces => cases h
  | loadModule name source => cases h
  | round order => cases h
  | finish => cases h

/-- Every stream that is still to be gone through belongs to the packet that is processed. -/
lemma rest_run (h : Run.run (step loads cx) {} es = some s) {layer : LayerPtr}
    {net : PacketStream} (hnet : net ∈ s.thread.rest s.thread.maxID layer) :
    (∃ layers, Event.take s.payload layers ∈ es ∧ net ∈ (findStreamsList ∅ layers).at layer) ∨
      ∃ em ∈ Run.observe (step loads cx) (emissions loads cx) {} es,
        em.stream = net ∧ em.payload = s.payload := by
  refine Run.run_induction (motive := fun es s =>
    ∀ net ∈ s.thread.rest s.thread.maxID layer,
      (∃ layers, Event.take s.payload layers ∈ es ∧ net ∈ (findStreamsList ∅ layers).at layer) ∨
        ∃ em ∈ Run.observe (step loads cx) (emissions loads cx) {} es,
          em.stream = net ∧ em.payload = s.payload) ?_ ?_ h net hnet
  · intro net hnet
    cases hnet
  · intro es s e s' hes ih hs net hnet
    obtain ⟨hthread, -⟩ := step_cases hs
    obtain ⟨es', hes'⟩ := run_thread hes
    have hrest := Streams.State.rest_step (Streams.State.tidied_run hes') hthread
      s'.thread.maxID layer
    rw [Run.observe_concat (emissions loads cx) hes hs]
    have hmem : net ∈ s.thread.rest s'.thread.maxID layer ++
        Streams.State.offered loads s'.thread.maxID layer s.thread (s.threadEvent cx e) s'.thread := by
      rw [← hrest]
      exact List.mem_append_right _ hnet
    rcases List.mem_append.mp hmem with hold | hnew
    · have hbusy : s.thread.busy = true ∧ s'.thread.maxID = s.thread.maxID := by
        by_contra hidle
        rw [Streams.State.rest, if_neg hidle] at hold
        cases hold
      rw [hbusy.2] at hold
      rw [payload_step hs hbusy.1]
      rcases ih net hold with ⟨layers, hlayers, hfound⟩ | ⟨em, hem, heq⟩
      · exact .inl ⟨layers, List.mem_append_left _ hlayers, hfound⟩
      · exact .inr ⟨em, List.mem_append_left _ hem, heq⟩
    · rcases mem_offered hs hnew with ⟨layers, rfl, hfound⟩ | ⟨em, hem, heq⟩
      · exact .inl ⟨layers, List.mem_append_right _ (List.mem_singleton_self _), hfound⟩
      · exact .inr ⟨em, List.mem_append_right _ hem, heq⟩

/-- In every run, the data of an emission that is a payload is handed on with the bytes of that
payload exactly when the packet that is processed has the same bytes in the range; and it is handed
on as data of that packet. -/
theorem handed_iff (h : Run.run (step loads cx) {} es = some s) :
    (∀ em ∈ Run.observe (step loads cx) (emissions loads cx) {} es,
      em.Faithful cx ↔ em.SameBytes) ∧
    ∀ layer, ∀ net ∈ s.thread.rest s.thread.maxID layer,
      (∃ layers, Event.take s.payload layers ∈ es ∧ net ∈ (findStreamsList ∅ layers).at layer) ∨
        ∃ em ∈ Run.observe (step loads cx) (emissions loads cx) {} es,
          em.stream = net ∧ em.payload = s.payload := by
  constructor
  · intro em hem
    obtain ⟨e, -, t, t', -, hobs⟩ := Run.mem_observe hem
    unfold emissions at hobs
    split at hobs
    · obtain ⟨script, -, hscript⟩ := List.mem_flatMap.mp hobs
      exact (Frame.encoded_call cx _ _ _ em hscript).faithful_iff cx
    · cases hobs
  · intro layer net hnet
    exact rest_run h hnet

/-- No class is loaded. -/
def bare : Context := ⟨fun _ => none, [0], Buffer.asciiText⟩

/-- Two packets with events of one stream. The dissector keeps the payload of the first packet and
emits it while the second one is processed. -/
def keptRun : List Event :=
  let layers (layer : LayerPtr) : List (String × LayerNode) :=
    [("", .mk layer [⟨"", "tcp", "1", .nil, .noop⟩] [])]
  [.loadStreamDissector "http.es" ["tcp"],
    .take [1, 2] (layers 0), .round [0], .deliver fun _ => ⟨[], false⟩, .round [0], .finish,
    .take [9, 8] (layers 1), .round [1],
    .deliver fun _ => ⟨[.emit "" "http" "1" .noop 0], false⟩]

theorem handed_iff_kept : ∃ s : State,
    Run.run (step (fun _ => true) bare) {} keptRun = some s ∧
    ((∀ em ∈ Run.observe (step (fun _ => true) bare) (emissions (fun _ => true) bare) {} keptRun,
      em.Faithful bare ↔ em.SameBytes) ∧
    ∀ layer, ∀ net ∈ s.thread.rest s.thread.maxID layer,
      (∃ layers, Event.take s.payload layers ∈ keptRun ∧
        net ∈ (findStreamsList ∅ layers).at layer) ∨
      ∃ em ∈ Run.observe (step (fun _ => true) bare) (emissions (fun _ => true) bare) {} keptRun,
        em.stream = net ∧ em.payload = s.payload) :=
  ⟨_, rfl, handed_iff rfl⟩

/-- The bytes of the first packet are emitted, those of the second one are handed on. -/
theorem handed_other : ∃ s : State,
    Run.run (step (fun _ => true) bare) {} keptRun = some s ∧
    ∃ em ∈ Run.observe (step (fun _ => true) bare) (emissions (fun _ => true) bare) {} keptRun,
      em.view.bind View.bytes = some [1, 2] ∧
      (handed bare em.payload em.stream.data).bind View.bytes = some [9, 8] ∧
      ¬ em.Faithful bare := by
  refine ⟨_, rfl, ⟨[9, 8], ⟨"", "http", "1", (View.whole [1, 2]).toMsgpack, .noop⟩,
    some (.whole [1, 2])⟩, ?_, ?_, ?_, ?_⟩
  · exact List.mem_singleton_self _
  · decide
  · rw [handed_toMsgpack]
    decide
  · intro h
    obtain ⟨w, hw, hbytes⟩ := h _ [1, 2] rfl (by decide)
    rw [handed_toMsgpack] at hw
    obtain rfl := Option.some.inj hw
    exact absurd hbytes (by decide)

end State

end StreamPayload

end Dripcap
