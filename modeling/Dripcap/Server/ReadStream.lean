import Dripcap.Server.PacketBytes
import Dripcap.Server.ReadLoop

/-!
# The stream of the read loop

The loop of `darwin/msgpack_server.cpp` with the unpacker of msgpack-c. The messages are the values
of the stream, whatever pieces of it `read` returns: what the handlers come to is what they come to
for all messages of the stream one after the other (`session_run`).
-/

namespace Dripcap.Server

open Outcome Run Polish MessagePack Unpacker

-- the `msgpack::object` of a value
variable (object : Term (Leaf Double) → Object)

/-- `reserve_buffer`, `buffer_consumed` and the calls of `next` in a turn of the loop. -/
def nextObjects (unp : Unpacker) (bytes : List UInt8) : List Object × Option Unpacker :=
  ((unp.turn tryReadSize bytes).1.map object, (unp.turn tryReadSize bytes).2)

/-- The bytes that have been read. -/
def chunks : List ReadResult → List (List UInt8)
  | [] => []
  | .data chunk _ _ :: results => chunk.1 :: chunks results
  | _ :: results => chunks results

/-- The answers of the components belong to the messages of the stream: `answers n` to the `n`-th of
them. -/
def AnswersInOrder (answers : ℕ → Components) : List UInt8 → List ReadResult → Prop
  | _, [] => True
  | before, .data chunk env _ :: results =>
    (∀ i, env i = answers ((values loadFloat before).length + i)) ∧
      AnswersInOrder answers (before ++ chunk.1) results
  | before, _ :: results => AnswersInOrder answers before results

section Messages

variable (mp : Msgpack) {env answers : ℕ → Components}

lemma receiveAll_shift {k : ℕ} (h : ∀ i, env i = answers (k + i)) (i : ℕ) (objs : List Object) :
    receiveAll mp env i objs = receiveAll mp answers (k + i) objs := by
  induction objs generalizing i with
  | nil => rfl
  | cons obj objs ih => rw [receiveAll, receiveAll, h, ih, Nat.add_assoc]

lemma receiveAll_append (i : ℕ) (objs objs' : List Object) :
    receiveAll mp answers i (objs ++ objs') = receiveAll mp answers i objs >>= fun _ =>
      receiveAll mp answers (i + objs.length) objs' := by
  induction objs generalizing i with
  | nil => rfl
  | cons obj objs ih =>
    rw [List.cons_append, receiveAll, receiveAll, ih, bind_assoc, List.length_cons,
      Nat.add_comm objs.length 1, Nat.add_assoc]

end Messages

section Loop

variable {object} {mp : Msgpack} {answers : ℕ → Components} {s s' : Reader Unpacker}
  {session : Session} {before : List UInt8}

/-- What the handlers come to for the messages of a stream. -/
def streamOutcome (object : Term (Leaf Double) → Object) (mp : Msgpack) (answers : ℕ → Components)
    (session : Session) (stream : List UInt8) : Except Failure Unit × Session :=
  outcome (receiveAll mp answers 0 ((values loadFloat stream).map object)) session

/-- Where the loop is when some bytes have been read. -/
structure Follows (object : Term (Leaf Double) → Object) (mp : Msgpack) (answers : ℕ → Components)
    (session : Session) (before : List UInt8) (s : Reader Unpacker) : Prop where
  reading : s.phase = .reading
  sound : s.unp.Sound
  none : s.unp.decode [] = ([], false)
  decode : ∀ more, values loadFloat (before ++ more) =
    values loadFloat before ++ (s.unp.decode more).1 ∧
      malformed loadFloat (before ++ more) = (s.unp.decode more).2
  received : streamOutcome object mp answers session before = (.ok (), s.session)

/-- How the loop has come to an end. -/
def Ended (object : Term (Leaf Double) → Object) (mp : Msgpack) (answers : ℕ → Components)
    (session : Session) (stream : List UInt8) (s : Reader Unpacker) : Prop :=
  s.session = (streamOutcome object mp answers session stream).2 ∧
    (s.phase = .terminated ↔ (∃ e, (streamOutcome object mp answers session stream).1 = .error e) ∨
      malformed loadFloat stream = true)

lemma Follows.ended (h : Follows object mp answers session before s) (errno : ℕ) {phase : Phase}
    (hphase : phase ≠ .terminated) :
    Ended object mp answers session before { s with errno, phase } := by
  have hmalformed := (h.decode []).2
  rw [List.append_nil, h.none] at hmalformed
  rw [Ended, h.received, hmalformed]
  exact ⟨rfl, iff_of_false hphase (by simp)⟩

lemma eq_nil_of_phase {next : Unpacker → List UInt8 → List Object × Option Unpacker}
    (hphase : s.phase ≠ .reading) {results : List ReadResult}
    (hrun : run (readStep mp next) s results = some s') : results = [] ∧ s' = s := by
  cases results with
  | nil => exact ⟨rfl, (Option.some.inj hrun).symm⟩
  | cons result results =>
    have hstep : readStep mp next s result = Option.none := by
      rw [readStep]
      split
      · exact absurd ‹_› hphase
      · rfl
    rw [run_cons, hstep] at hrun
    cases hrun

/-- The messages of a turn come after those before it, and in front of those that follow. -/
lemma Follows.received_append (h : Follows object mp answers session before s) {env : ℕ → Components}
    (henv : ∀ i, env i = answers ((values loadFloat before).length + i)) {stream : List UInt8}
    {objs tail : List (Term (Leaf Double))}
    (hvalues : values loadFloat stream = values loadFloat before ++ (objs ++ tail)) :
    streamOutcome object mp answers session stream =
      outcome (receiveAll mp env 0 (objs.map object) >>= fun _ =>
        receiveAll mp answers ((values loadFloat before).length + objs.length) (tail.map object))
        s.session := by
  have hreceived : Returns (receiveAll mp answers 0 ((values loadFloat before).map object)) session ()
    s.session := h.received
  rw [streamOutcome, hvalues, List.map_append, List.map_append, receiveAll_append,
    hreceived.outcome_bind, receiveAll_append, receiveAll_shift mp henv, Nat.zero_add,
    List.length_map, List.length_map, Nat.add_zero]

lemma Follows.received_turn (h : Follows object mp answers session before s) {env : ℕ → Components}
    (henv : ∀ i, env i = answers ((values loadFloat before).length + i)) {stream : List UInt8}
    {objs : List (Term (Leaf Double))}
    (hvalues : values loadFloat stream = values loadFloat before ++ objs) :
    streamOutcome object mp answers session stream =
      outcome (receiveAll mp env 0 (objs.map object)) s.session := by
  have happend := h.received_append henv (hvalues.trans (congrArg _ (List.append_nil objs).symm))
  exact happend.trans (congrArg (fun x => outcome x s.session) (bind_pure _))

lemma Follows.errno (h : Follows object mp answers session before s) (errno : ℕ) :
    Follows object mp answers session before { s with errno } :=
  ⟨h.reading, h.sound, h.none, h.decode, h.received⟩

/-- A turn with bytes: the loop goes on with all of their messages handled, or it is left. -/
lemma Follows.data (h : Follows object mp answers session before s) (chunk : Chunk)
    {env : ℕ → Components} (henv : ∀ i, env i = answers ((values loadFloat before).length + i))
    (hkeeps : s.unp.KeepsAll tryReadSize) (errno : ℕ) :
    let t := consume mp (nextObjects object) s chunk.1 env errno
    (∃ unp, (s.unp.turn tryReadSize chunk.1).2 = some unp ∧ t.unp = unp ∧
      Follows object mp answers session (before ++ chunk.1) t) ∨
    t.phase = .terminated ∧ ∀ more, t.session =
      (streamOutcome object mp answers session (before ++ chunk.1 ++ more)).2 ∧
      ((∃ e, (streamOutcome object mp answers session (before ++ chunk.1 ++ more)).1 = .error e) ∨
        malformed loadFloat (before ++ chunk.1 ++ more) = true) := by
  intro t
  have hreads := reads_turn h.sound hkeeps chunk.1
  have hvalues (more : List UInt8) := (h.decode (chunk.1 ++ more)).1
  have hmalformed (more : List UInt8) := (h.decode (chunk.1 ++ more)).2
  have ht : t = consume mp (nextObjects object) s chunk.1 env errno := rfl
  simp only [consume, nextObjects] at ht
  simp only [← List.append_assoc] at hvalues hmalformed
  rcases hturn : s.unp.turn tryReadSize chunk.1 with ⟨objs, _ | unp⟩
  · rw [hturn] at hreads ht
    simp only [show ∀ more, _ from hreads] at hvalues hmalformed
    have hsession : t.phase = .terminated ∧
        t.session = (outcome (receiveAll mp env 0 (objs.map object)) s.session).2 := by
      rw [ht]
      split
      · rename_i hnone
        cases hnone
      · rename_i heq _
        exact ⟨rfl, (congrArg Prod.snd heq).symm⟩
    refine .inr ⟨hsession.1, fun more => ⟨?_, .inr (hmalformed more)⟩⟩
    rw [hsession.2, h.received_turn henv (hvalues more)]
  · rw [hturn] at hreads ht
    obtain ⟨hsound, hnone, hdecode⟩ := hreads
    simp only [hdecode] at hvalues hmalformed
    have hmessages (more : List UInt8) := h.received_append henv (hvalues more)
    rcases hout : outcome (receiveAll mp env 0 (objs.map object)) s.session with ⟨e | _, after⟩
    · rw [hout] at ht
      refine .inr ⟨by rw [ht], fun more => ?_⟩
      rw [hmessages, outcome_bind_error hout, ht]
      exact ⟨rfl, .inl ⟨e, rfl⟩⟩
    · rw [hout] at ht
      have hnow := hvalues []
      rw [hnone, List.append_nil, List.append_nil] at hnow
      have hall := (h.received_turn henv hnow).trans hout
      refine .inl ⟨unp, rfl, by rw [ht], ?_⟩
      rw [ht]
      refine ⟨h.reading, hsound, hnone, fun more => ⟨?_, hmalformed more⟩, hall⟩
      rw [hvalues, hnow, List.append_assoc]

lemma ended_run {results : List ReadResult} (h : Follows object mp answers session before s)
    (hanswers : AnswersInOrder answers before results)
    (hrewinds : NeverRewinds tryReadSize s.unp (chunks results))
    (hrun : run (readStep mp (nextObjects object)) s results = some s') :
    Ended object mp answers session (before ++ (chunks results).flatten) s' := by
  induction results generalizing s before with
  | nil =>
    obtain rfl := Option.some.inj hrun
    rw [chunks, List.flatten_nil, List.append_nil]
    exact h.ended s.errno (by rw [h.reading]; decide)
  | cons result results ih =>
    rw [run_cons, readStep, h.reading, Option.bind_some] at hrun
    cases result with
    | interrupted => exact ih (h.errno EINTR) hanswers hrewinds hrun
    | eof =>
      by_cases herrno : s.errno = EINTR
      · rw [show turn mp (nextObjects object) s .eof = { s with errno := s.errno } from
          if_pos herrno] at hrun
        exact ih (h.errno _) hanswers hrewinds hrun
      · rw [show turn mp (nextObjects object) s .eof = { s with errno := s.errno, phase := .ended }
          from if_neg herrno] at hrun
        obtain ⟨rfl, rfl⟩ := eq_nil_of_phase (show Phase.ended ≠ .reading by decide) hrun
        rw [show chunks [.eof] = [] from rfl, List.flatten_nil, List.append_nil]
        exact h.ended _ (by decide)
    | error errno =>
      rw [show turn mp (nextObjects object) s (.error errno) =
        { s with errno := errno.1, phase := .ended } from if_neg errno.2] at hrun
      obtain ⟨rfl, rfl⟩ := eq_nil_of_phase (show Phase.ended ≠ .reading by decide) hrun
      rw [show chunks [.error errno] = [] from rfl, List.flatten_nil, List.append_nil]
      exact h.ended _ (by decide)
    | data chunk env errno =>
      rw [turn_data] at hrun
      rw [chunks, List.flatten_cons, ← List.append_assoc]
      rcases h.data chunk hanswers.1 hrewinds.1 errno with ⟨unp, hturn, hunp, hfollows⟩ | ⟨hphase, hall⟩
      · refine ih hfollows hanswers.2 ?_ hrun
        have hrest := hrewinds.2
        rw [hturn] at hrest
        rwa [hunp]
      · have hne : (consume mp (nextObjects object) s chunk.1 env errno).phase ≠ .reading := by
          rw [hphase]
          decide
        obtain ⟨rfl, rfl⟩ := eq_nil_of_phase hne hrun
        exact ⟨(hall _).1, iff_of_true hphase (hall _).2⟩

/-- Whatever pieces of the stream `read` returns, the handlers come to what they come to for all the
messages of the stream, and an exception leaves `start` exactly when a handler throws one or the
stream is malformed. -/
theorem session_run (answers : ℕ → Components) (session : Session) {results : List ReadResult}
    (hanswers : AnswersInOrder answers [] results)
    (hrewinds : NeverRewinds tryReadSize (new INIT_BUFFER_SIZE) (chunks results))
    (hrun : run (readStep mp (nextObjects object)) { unp := new INIT_BUFFER_SIZE, session } results =
      some s) :
    let r := outcome (receiveAll mp answers 0
      ((values loadFloat (chunks results).flatten).map object)) session
    s.session = r.2 ∧ (s.phase = .terminated ↔
      (∃ e, r.1 = .error e) ∨ malformed loadFloat (chunks results).flatten = true) := by
  have hfollows : Follows object mp answers session [] { unp := new INIT_BUFFER_SIZE, session } := by
    refine ⟨rfl, sound_new _, decode_new _ [], fun more => ?_, rfl⟩
    rw [decode_new]
    exact ⟨rfl, rfl⟩
  exact ended_run hfollows hanswers hrewinds hrun

/-- Two reads, with an interruption between them, of a message with the command `ping`. -/
theorem session_run_ping :
    let mp : Msgpack := ⟨Unicode.ofUtf8, Packing.unpackObject (fun _ => 0) Unicode.ofUtf8,
      Packing.bytesOf fun _ => 0⟩
    let object := Packing.objectOf (fun _ => 0) Unicode.ofUtf8 8
    let results : List ReadResult := [.data ⟨[0x93, 0xa4, 112, 105], by decide⟩ (fun _ => {}) 0,
      .interrupted, .data ⟨[110, 103, 1, 0xc0], by decide⟩ (fun _ => {}) 0]
    let s := (run (readStep mp (nextObjects object)) { unp := new INIT_BUFFER_SIZE }
      results).get (by decide +kernel)
    let r := outcome (receiveAll mp (fun _ => {}) 0
      ((values loadFloat (chunks results).flatten).map object)) {}
    s.session = r.2 ∧ (s.phase = .terminated ↔
      (∃ e, r.1 = .error e) ∨ malformed loadFloat (chunks results).flatten = true) := by
  intro mp object results s
  have hanswers : AnswersInOrder (fun _ => {}) [] results := ⟨fun _ => rfl, fun _ => rfl, trivial⟩
  exact session_run (fun _ => {}) {} hanswers (by decide +kernel) (Option.some_get _).symm

end Loop

end Dripcap.Server
