import Dripcap.Library.Run
import Dripcap.Server.Commands

/-!
# The read loop

The loop of `MsgpackServer::start` in `darwin/msgpack_server.cpp`, which is included for Linux. Each
turn calls `read` and handles the messages that have become complete. The loop is left when `read`
returns nothing and `errno` is not `EINTR`, although `read` sets `errno` only when it fails: at the
end of file it has the value that an earlier call has left there.
-/

namespace Dripcap.Server

open Outcome Run

abbrev EINTR : ℕ := 4

/-- `try_read_size` -/
abbrev tryReadSize : ℕ := 256

/-- What `read` puts into the buffer. -/
abbrev Chunk : Type := { bytes : List UInt8 // 0 < bytes.length ∧ bytes.length ≤ tryReadSize }

/-- One call of `read`. -/
inductive ReadResult where
  /-- bytes, with what the components answer to the messages in them and the value of `errno` when
  these have been handled -/
  | data (chunk : Chunk) (env : ℕ → Components) (errno : ℕ)
  | interrupted
  | eof
  | error (errno : { e : ℕ // e ≠ EINTR })

namespace ReadResult

/-- `actual_read_size` -/
def actualReadSize : ReadResult → ℤ
  | data chunk _ _ => chunk.1.length
  | interrupted => -1
  | eof => 0
  | error _ => -1

/-- `errno` after the call; it is set only by a failure. -/
def errno (before : ℕ) : ReadResult → ℕ
  | data _ _ _ => before
  | interrupted => EINTR
  | eof => before
  | error errno => errno

end ReadResult

/-- Where the server is. -/
inductive Phase where
  | reading
  /-- the loop has been left by `break` -/
  | ended
  /-- an exception has left `start` -/
  | terminated
  deriving DecidableEq

/-- The variables of the loop; `U` is the type of `unp`. -/
structure Reader (U : Type) where
  phase : Phase := .reading
  errno : ℕ := 0
  unp : U
  session : Session := {}

section Loop

variable {U : Type} (mp : Msgpack)

/-- `while (unp.next(result))` -/
def receiveAll (env : ℕ → Components) : ℕ → List Object → Handler Unit
  | _, [] => pure ()
  | i, obj :: objs => do
    Posix.receive mp (env i) obj
    receiveAll env (i + 1) objs

variable (next : U → List UInt8 → List Object × Option U)

/-- What follows a `read` that has returned bytes. `next` makes the objects of them, and the
unpacker after these unless it throws. -/
def consume (s : Reader U) (bytes : List UInt8) (env : ℕ → Components) (errno : ℕ) : Reader U :=
  match outcome (receiveAll mp env 0 (next s.unp bytes).1) s.session, (next s.unp bytes).2 with
  | (.ok _, session), some unp => { s with errno, unp, session }
  | (_, session), _ => { s with phase := .terminated, errno, session }

/-- The rest of a turn with a positive `actual_read_size`. -/
def proceed (s : Reader U) : ReadResult → Reader U
  | .data chunk env errno => consume mp next s chunk.1 env errno
  | .interrupted | .eof | .error _ => s

/-- One turn of the loop. -/
def turn (s : Reader U) (result : ReadResult) : Reader U :=
  if result.actualReadSize ≤ 0 then
    if result.errno s.errno = EINTR then { s with errno := result.errno s.errno }
    else { s with phase := .ended, errno := result.errno s.errno }
  else proceed mp next s result

/-- `read` is called as long as the loop is not left. -/
def readStep (s : Reader U) (result : ReadResult) : Option (Reader U) :=
  match s.phase with
  | .reading => some (turn mp next s result)
  | _ => none

/-- What a result of `read` should lead to. -/
def intended (phase : Phase) (result : ReadResult) : Option Phase :=
  match phase, result with
  | .reading, .data _ _ _ => some .reading
  | .reading, .interrupted => some .reading
  | .reading, .eof => some .ended
  | .reading, .error _ => some .ended
  | _, _ => none

/-- The messages in the bytes are handled without an exception. -/
structure Handles (s : Reader U) (bytes : List UInt8) (env : ℕ → Components) : Prop where
  returns : ∃ session, Returns (receiveAll mp env 0 (next s.unp bytes).1) s.session () session
  unpacks : ∃ unp, (next s.unp bytes).2 = some unp

/-- What has to be so before a turn: at the end of file `errno` is not `EINTR`, and nothing that is
done with bytes throws. -/
def Regular (s : Reader U) : ReadResult → Prop
  | .data chunk env _ => s.phase = .reading → Handles mp next s chunk.1 env
  | .eof => s.phase = .reading → s.errno ≠ EINTR
  | .interrupted | .error _ => True

variable {mp next} {s : Reader U}

lemma phase_consume_of_handles {bytes : List UInt8} {env : ℕ → Components} (errno : ℕ)
    (h : Handles mp next s bytes env) : (consume mp next s bytes env errno).phase = s.phase := by
  obtain ⟨⟨session, hreturns⟩, unp, hunp⟩ := h
  rw [consume, show outcome _ _ = _ from hreturns, hunp]

lemma phase_consume_of_not {bytes : List UInt8} {env : ℕ → Components} (errno : ℕ)
    (h : ¬ Handles mp next s bytes env) :
    (consume mp next s bytes env errno).phase = .terminated := by
  simp only [consume]
  split
  · rename_i session unp hreturns hunp
    exact absurd ⟨⟨session, hreturns⟩, unp, hunp⟩ h
  · rfl

/-- There are bytes, and so the loop gets to them. -/
lemma turn_data (chunk : Chunk) (env : ℕ → Components) (errno : ℕ) :
    turn mp next s (.data chunk env errno) = consume mp next s chunk.1 env errno := by
  have hpos : ¬ (ReadResult.data chunk env errno).actualReadSize ≤ 0 :=
    not_le.mpr (Int.natCast_pos.mpr chunk.2.1)
  rw [turn, if_neg hpos, proceed]

/-- Without bytes the loop is left exactly when `errno` is not `EINTR`. -/
lemma phase_turn {result : ReadResult} (h : result.actualReadSize ≤ 0) :
    (turn mp next s result).phase = if result.errno s.errno = EINTR then s.phase else .ended := by
  rw [turn, if_pos h]
  split_ifs
  · rfl
  · rfl

/-- One turn leads where it should exactly when it is regular. -/
lemma phase_turn_iff (hs : s.phase = .reading) (result : ReadResult) :
    some (turn mp next s result).phase = intended .reading result ↔ Regular mp next s result := by
  cases result with
  | data chunk env errno =>
    rw [turn_data, Regular, intended, Option.some.injEq]
    by_cases h : Handles mp next s chunk.1 env
    · rw [phase_consume_of_handles errno h]
      exact iff_of_true hs fun _ => h
    · rw [phase_consume_of_not errno h]
      exact iff_of_false (by decide) fun hregular => h (hregular hs)
  | interrupted =>
    rw [phase_turn (by decide)]
    exact iff_of_true (congrArg some hs) trivial
  | eof =>
    rw [phase_turn le_rfl, Regular, intended, Option.some.injEq]
    show (if s.errno = EINTR then s.phase else .ended) = .ended ↔ _
    by_cases h : s.errno = EINTR
    · rw [if_pos h, hs]
      exact iff_of_false (by decide) fun hregular => hregular rfl h
    · rw [if_neg h]
      exact iff_of_true rfl fun _ => h
  | error errno =>
    have hsize : (ReadResult.error errno).actualReadSize ≤ 0 := by
      show (-1 : ℤ) ≤ 0
      decide
    rw [phase_turn hsize]
    exact iff_of_true (congrArg some (if_neg errno.2)) trivial

lemma readStep_iff (s : Reader U) (result : ReadResult) :
    (readStep mp next s result).map Reader.phase = intended s.phase result ↔
      Regular mp next s result := by
  have hother : s.phase ≠ .reading → Regular mp next s result := by
    intro h
    cases result with
    | data => exact fun hs => absurd hs h
    | interrupted => trivial
    | eof => exact fun hs => absurd hs h
    | error => trivial
  cases hphase : s.phase with
  | reading =>
    rw [readStep, hphase]
    exact phase_turn_iff hphase result
  | ended =>
    rw [readStep, hphase]
    exact iff_of_true rfl (hother (by rw [hphase]; decide))
  | terminated =>
    rw [readStep, hphase]
    exact iff_of_true rfl (hother (by rw [hphase]; decide))

end Loop

/-- Once `errno` is `EINTR` the end of file is not noticed, however often it is reported. -/
theorem run_eof {U : Type} (mp : Msgpack) (next : U → List UInt8 → List Object × Option U)
    (s : Reader U) (hs : s.phase = .reading) (herrno : s.errno = EINTR) (n : ℕ) :
    run (readStep mp next) s (List.replicate n .eof) = some s := by
  induction n with
  | zero => rfl
  | succ n ih =>
    have hstep : readStep mp next s .eof = some s := by
      have hturn : turn mp next s .eof = s := by
        have hsize : ReadResult.eof.actualReadSize ≤ 0 := le_rfl
        rw [turn, if_pos hsize]
        exact if_pos herrno
      rw [readStep, hs, hturn]
    rw [List.replicate_succ, run_cons, hstep, Option.bind_some, ih]

/-- The loop goes on after bytes and interruptions and ends at the first end of file or other error,
with every sequence of results, exactly when all turns are regular. -/
theorem phases_iff {U : Type} (mp : Msgpack) (next : U → List UInt8 → List Object × Option U)
    (s : Reader U) (results : List ReadResult) :
    (∀ earlier, earlier <+: results →
      (run (readStep mp next) s earlier).map Reader.phase = run intended s.phase earlier) ↔
    Meets (readStep mp next) (Regular mp next) s results :=
  forall_map_run_iff_meets readStep_iff

/-- After one interruption with nothing done since, the loop does not end with the connection. -/
theorem not_phases :
    let mp : Msgpack := ⟨fun _ => "", fun _ => none, fun _ => []⟩
    let next : Unit → List UInt8 → List Object × Option Unit := fun _ _ => ([], some ())
    let s : Reader Unit := { unp := () }
    (¬ ∀ earlier, earlier <+: [.interrupted, .eof] →
      (run (readStep mp next) s earlier).map Reader.phase = run intended s.phase earlier) ∧
    ∀ n, (run (readStep mp next) s (.interrupted :: List.replicate n .eof)).map Reader.phase =
      some .reading := by
  intro mp next s
  have hruns : ∀ n, run (readStep mp next) s (.interrupted :: List.replicate n .eof) =
      some { s with errno := EINTR } := run_eof mp next { s with errno := EINTR } rfl rfl
  refine ⟨fun h => ?_, fun n => by rw [hruns]; rfl⟩
  have hend := h [.interrupted, .eof] (List.prefix_refl _)
  rw [show run (readStep mp next) s [.interrupted, .eof] = _ from hruns 1] at hend
  exact absurd hend (by decide)

end Dripcap.Server
