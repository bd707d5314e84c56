import Dripcap.Library.Ring
import Dripcap.Server.Commands

/-!
# The log buffer

`LoggerSink::log` writes into a ring that the handler of `fetch_logs` empties. Both hold `logMutex`
all the time, so a run is a list of their calls. The index survives a fetch while the slots are
cleared.
-/

namespace Dripcap.Server

/-- What `log` reads of `spdlog::details::log_msg`. -/
structure LogMsg where
  time : ℤ
  level : ℤ
  raw : String

/-- `logBuffer` and `logBufferIndex` -/
structure LogBuffer where
  logBuffer : List (Option Log)
  logBufferIndex : ℕ
  size_eq : logBuffer.length = 128
  index_lt : logBufferIndex < 128

/-- One of the calls that hold `logMutex`. -/
inductive LogCall where
  | log (msg : LogMsg)
  | fetchLogs

/-- What `log` stores of a message. -/
def LogMsg.log (msg : LogMsg) : Log := ⟨msg.level, msg.time, msg.raw⟩

/-- The message of a call of `log`. -/
def LogCall.logged : LogCall → Option LogMsg
  | .log msg => some msg
  | .fetchLogs => none

/-- Time, level and text of a message. -/
def LogMsg.fields (msg : LogMsg) : ℤ × ℤ × String := (msg.time, msg.level, msg.raw)

/-- Time, level and text of an element of a reply. -/
def Log.fields (log : Log) : ℤ × ℤ × String := (log.time, log.level, log.message)

namespace LogBuffer

/-- `Server::Private::Private` -/
def new : LogBuffer where
  logBuffer := List.replicate 128 none
  logBufferIndex := 0
  size_eq := List.length_replicate
  index_lt := by decide

/-- `Server::LoggerSink::log` -/
def log (d : LogBuffer) (msg : LogMsg) : LogBuffer where
  logBuffer := d.logBuffer.set d.logBufferIndex (some msg.log)
  logBufferIndex := (d.logBufferIndex + 1) % d.logBuffer.length
  size_eq := by rw [List.length_set, d.size_eq]
  index_lt := d.size_eq ▸ Nat.mod_lt _ (by rw [d.size_eq]; decide)

/-- The body of the loop of `fetch_logs`, with the slots and `logs`. -/
def fetchLog (logBufferIndex : ℕ) (acc : List (Option Log) × List Log) (i : ℕ) :
    List (Option Log) × List Log :=
  let index := (logBufferIndex + i) % acc.1.length
  match acc.1[index]? with
  | some (some log) => (acc.1.set index none, acc.2 ++ [log])
  | _ => acc

/-- The loop of `fetch_logs` -/
def fetchLoop (d : LogBuffer) : List (Option Log) × List Log :=
  (List.range d.logBuffer.length).foldl (fetchLog d.logBufferIndex) (d.logBuffer, [])

/-- A visit of the loop takes the log of a slot away. -/
lemma fetchLog_eq (logBufferIndex : ℕ) :
    fetchLog logBufferIndex = Ring.visit (fun _ => none) Option.toList logBufferIndex := by
  funext acc i
  rw [fetchLog, Ring.visit]
  cases h : acc.1[(logBufferIndex + i) % acc.1.length]? with
  | none => rfl
  | some slot =>
    cases slot with
    | some log => rfl
    | none =>
      obtain ⟨hlt, hget⟩ := List.getElem?_eq_some_iff.mp h
      simp only [Option.toList_none, List.append_nil]
      rw [← hget, List.set_getElem_self]

lemma flatMap_toList {α : Type} (slots : List (Option α)) :
    slots.flatMap Option.toList = slots.reduceOption := by
  induction slots with
  | nil => rfl
  | cons slot slots ih => cases slot <;> simp [List.flatMap_cons, ih]

/-- The loop leaves no log and collects them from the index on. -/
lemma fetchLoop_eq (d : LogBuffer) : d.fetchLoop =
    (List.replicate 128 none, (d.logBuffer.rotate d.logBufferIndex).reduceOption) := by
  obtain ⟨hslots, hlogs⟩ := Ring.sweep_eq (fun _ => none) Option.toList d.logBufferIndex d.logBuffer
  rw [fetchLoop, fetchLog_eq]
  refine Prod.ext (hslots.trans ?_) (hlogs.trans (flatMap_toList _))
  rw [List.map_const', d.size_eq]

/-- The handler of `fetch_logs` -/
def fetchLogs (d : LogBuffer) : List Log × LogBuffer :=
  (d.fetchLoop.2, {
    logBuffer := d.fetchLoop.1
    logBufferIndex := d.logBufferIndex
    size_eq := by rw [fetchLoop_eq, List.length_replicate]
    index_lt := d.index_lt })

end LogBuffer

/-- The server's log buffer and the replies of `fetch_logs` up to now. -/
structure Logging where
  buffer : LogBuffer := .new
  replies : List (List Log) := []

/-- One call. -/
def Logging.step (s : Logging) : LogCall → Logging
  | .log msg => { s with buffer := s.buffer.log msg }
  | .fetchLogs => ⟨s.buffer.fetchLogs.2, s.replies ++ [s.buffer.fetchLogs.1]⟩

/-- Calls one after the other, in a new server. -/
def Logging.run (calls : List LogCall) : Logging := calls.foldl Logging.step {}

/-- The messages logged, oldest first. -/
def logged (calls : List LogCall) : List LogMsg := calls.filterMap LogCall.logged

/-- The messages logged since the last fetch, oldest first. -/
def sinceFetch (calls : List LogCall) : List LogMsg :=
  logged (calls.rtakeWhile fun call => call.logged.isSome)

section Calls

variable (calls : List LogCall) (msg : LogMsg)

@[simp] lemma run_concat (call : LogCall) :
    Logging.run (calls ++ [call]) = (Logging.run calls).step call := List.foldl_concat ..

@[simp] lemma logged_log : logged (calls ++ [.log msg]) = logged calls ++ [msg] :=
  List.filterMap_append

@[simp] lemma logged_fetchLogs : logged (calls ++ [.fetchLogs]) = logged calls := by
  rw [logged, List.filterMap_append]
  exact List.append_nil _

@[simp] lemma sinceFetch_log :
    sinceFetch (calls ++ [.log msg]) = sinceFetch calls ++ [msg] := by
  rw [sinceFetch, List.rtakeWhile_concat_pos _ _ _ rfl, logged_log]
  rfl

@[simp] lemma sinceFetch_fetchLogs : sinceFetch (calls ++ [.fetchLogs]) = [] := by
  rw [sinceFetch, List.rtakeWhile_concat_neg _ _ _ Bool.false_ne_true]
  rfl

end Calls

/-! ### The ring holds the last messages -/

/-- The slots from the index on are those of a ring that the messages `pending` have been written
into since it was empty. -/
def LogBuffer.Holds (d : LogBuffer) (pending : List Log) : Prop :=
  d.logBuffer.rotate d.logBufferIndex = Ring.written 128 none (pending.map some)

namespace LogBuffer

variable {d : LogBuffer} {pending : List Log}

lemma holds_empty (hslots : d.logBuffer = List.replicate 128 none) : d.Holds [] := by
  rw [Holds, hslots, List.rotate_replicate, List.map_nil, Ring.written_nil]

lemma Holds.log (h : d.Holds pending) (msg : LogMsg) :
    (d.log msg).Holds (pending ++ [msg.log]) := by
  have hlt : d.logBufferIndex < d.logBuffer.length := d.size_eq ▸ d.index_lt
  calc (d.log msg).logBuffer.rotate (d.log msg).logBufferIndex
      = (d.logBuffer.rotate d.logBufferIndex).tail ++ [some msg.log] := Ring.rotate_write hlt _
    _ = (Ring.written 128 none (pending.map some)).tail ++ [some msg.log] := by rw [h]
    _ = Ring.written 128 none ((pending ++ [msg.log]).map some) := by
      rw [List.map_append, List.map_singleton, Ring.written_concat (by decide)]

lemma Holds.fetchLogs (h : d.Holds pending) :
    d.fetchLogs.1 = pending.rtake 128 ∧ d.fetchLogs.2.Holds [] := by
  constructor
  · calc d.fetchLogs.1 = d.fetchLoop.2 := rfl
      _ = (d.logBuffer.rotate d.logBufferIndex).reduceOption := congrArg Prod.snd d.fetchLoop_eq
      _ = pending.rtake 128 := by rw [h, Ring.reduceOption_written]
  · exact holds_empty (congrArg Prod.fst d.fetchLoop_eq)

end LogBuffer

/-- The buffer always holds what has been logged since the last fetch. -/
lemma holds_run (calls : List LogCall) :
    (Logging.run calls).buffer.Holds ((sinceFetch calls).map LogMsg.log) := by
  induction calls using List.reverseRecOn with
  | nil => exact LogBuffer.holds_empty rfl
  | append_singleton calls call ih =>
    rw [run_concat]
    cases call with
    | log msg =>
      rw [sinceFetch_log, List.map_append, List.map_singleton]
      exact ih.log msg
    | fetchLogs =>
      rw [sinceFetch_fetchLogs]
      exact ih.fetchLogs.2

/-! ### What the replies make up -/

/-- Everything that has been delivered, in the order of delivery. -/
def delivered (calls : List LogCall) : List Log := (Logging.run calls).replies.flatten

@[simp] lemma delivered_log (calls : List LogCall) (msg : LogMsg) :
    delivered (calls ++ [.log msg]) = delivered calls := by
  rw [delivered, run_concat]
  rfl

lemma map_rtake {α β : Type} (f : α → β) (n : ℕ) (l : List α) :
    (l.rtake n).map f = (l.map f).rtake n := by
  rw [List.rtake, List.rtake, List.map_drop, List.length_map]

@[simp] lemma delivered_fetchLogs (calls : List LogCall) : delivered (calls ++ [.fetchLogs]) =
    delivered calls ++ ((sinceFetch calls).rtake 128).map LogMsg.log := by
  have hreply := (holds_run calls).fetchLogs.1
  rw [delivered, run_concat, Logging.step, List.flatten_concat, hreply, delivered, map_rtake]

/-- Messages are delivered in order and once. -/
lemma delivered_sublist (calls : List LogCall) :
    (delivered calls ++ (sinceFetch calls).map LogMsg.log).Sublist ((logged calls).map LogMsg.log) := by
  induction calls using List.reverseRecOn with
  | nil => exact .slnil
  | append_singleton calls call ih =>
    cases call with
    | log msg =>
      rw [delivered_log, sinceFetch_log, logged_log, List.map_append, List.map_append,
        ← List.append_assoc]
      exact ih.append_right _
    | fetchLogs =>
      rw [delivered_fetchLogs, sinceFetch_fetchLogs, logged_fetchLogs, List.map_nil, List.append_nil]
      exact (((List.drop_sublist _ _).map _).append_left _).trans ih

lemma length_rtake {α : Type} (n : ℕ) (l : List α) : (l.rtake n).length = min n l.length := by
  rw [List.rtake, List.length_drop]
  omega

lemma rtake_of_length_le {α : Type} {n : ℕ} {l : List α} (h : l.length ≤ n) : l.rtake n = l := by
  rw [List.rtake, Nat.sub_eq_zero_of_le h, List.drop_zero]

/-- No fetch comes after more messages than there are slots. -/
def FetchedInTime (calls : List LogCall) : Prop :=
  ∀ before, before ++ [.fetchLogs] <+: calls → (sinceFetch before).length ≤ 128

lemma fetchedInTime_log (calls : List LogCall) (msg : LogMsg) :
    FetchedInTime (calls ++ [.log msg]) ↔ FetchedInTime calls := by
  refine forall_congr' fun before => imp_congr_left ?_
  rw [List.prefix_concat_iff]
  refine or_iff_right fun h => ?_
  cases List.append_inj_right' h rfl

lemma fetchedInTime_fetchLogs (calls : List LogCall) :
    FetchedInTime (calls ++ [.fetchLogs]) ↔
      FetchedInTime calls ∧ (sinceFetch calls).length ≤ 128 := by
  constructor
  · intro h
    exact ⟨fun before hbegins => h before (hbegins.trans (List.prefix_append ..)),
      h calls (List.prefix_refl _)⟩
  · rintro ⟨h, hle⟩ before hprefix
    rcases List.prefix_concat_iff.mp hprefix with heq | hprefix
    · rwa [List.append_cancel_right heq]
    · exact h before hprefix

/-- Nothing is lost exactly if every fetch comes in time. -/
lemma delivered_eq_iff (calls : List LogCall) :
    delivered calls ++ (sinceFetch calls).map LogMsg.log = (logged calls).map LogMsg.log ↔
      FetchedInTime calls := by
  induction calls using List.reverseRecOn with
  | nil => exact iff_of_true rfl fun before hprefix => absurd hprefix (by simp)
  | append_singleton calls call ih =>
    cases call with
    | log msg =>
      rw [delivered_log, sinceFetch_log, logged_log, fetchedInTime_log, List.map_append,
        List.map_append, ← List.append_assoc, ← ih]
      exact List.append_cancel_right_eq _ _ _ |>.to_iff
    | fetchLogs =>
      rw [delivered_fetchLogs, sinceFetch_fetchLogs, logged_fetchLogs, List.map_nil, List.append_nil,
        fetchedInTime_fetchLogs, ← ih]
      constructor
      · intro heq
        have hle : (sinceFetch calls).length ≤ ((sinceFetch calls).rtake 128).length := by
          have hsub := (delivered_sublist calls).length_le
          rw [← heq, List.length_append, List.length_append, List.length_map, List.length_map] at hsub
          exact Nat.le_of_add_le_add_left hsub
        rw [length_rtake] at hle
        have hshort : (sinceFetch calls).length ≤ 128 := hle.trans (Nat.min_le_left ..)
        rw [rtake_of_length_le hshort] at heq
        exact ⟨heq, hshort⟩
      · rintro ⟨heq, hshort⟩
        rw [rtake_of_length_le hshort, heq]

/-- What is stored of a message has its time, level and text. -/
lemma map_fields (msgs : List LogMsg) :
    (msgs.map LogMsg.log).map Log.fields = msgs.map LogMsg.fields := List.map_map

lemma fields_injective : Function.Injective Log.fields := by
  rintro ⟨level, time, message⟩ ⟨level', time', message'⟩ h
  simp only [Log.fields, Prod.mk.injEq] at h
  obtain ⟨rfl, rfl, rfl⟩ := h
  rfl

/-- A fetch returns the last 128 messages logged since the previous one, or all of them, each with
its time, level and text. What the fetches return is in the order of the log and holds nothing
twice, and something is missing from it exactly if more than 128 messages have been logged between
two fetches. -/
theorem log_delivery (calls : List LogCall) :
    (Logging.run calls).buffer.fetchLogs.1.map Log.fields =
        ((sinceFetch calls).rtake 128).map LogMsg.fields ∧
      (Logging.run calls).buffer.fetchLogs.1.length = min 128 (sinceFetch calls).length ∧
      ((delivered calls).map Log.fields).Sublist ((logged calls).map LogMsg.fields) ∧
      ((delivered calls).map Log.fields ++ (sinceFetch calls).map LogMsg.fields =
        (logged calls).map LogMsg.fields ↔ FetchedInTime calls) := by
  have hfetch := (holds_run calls).fetchLogs.1
  refine ⟨?_, ?_, ?_, ?_⟩
  · rw [hfetch, ← map_rtake, map_fields]
  · rw [hfetch, length_rtake, List.length_map]
  · rw [← map_fields]
    exact ((List.sublist_append_left _ _).trans (delivered_sublist calls)).map Log.fields
  · rw [← map_fields, ← map_fields, ← List.map_append,
      List.map_inj_right (fun _ _ h => fields_injective h), delivered_eq_iff]

/-- Three messages with one fetch between them. -/
def threeMessages : List LogCall :=
  [.log ⟨10, 2, "a"⟩, .fetchLogs, .log ⟨11, 4, "b"⟩, .log ⟨12, 2, "c"⟩]

theorem log_delivery_three :
    (Logging.run threeMessages).buffer.fetchLogs.1.map Log.fields = [(11, 4, "b"), (12, 2, "c")] ∧
      ((delivered threeMessages).map Log.fields).Sublist
        [(10, 2, "a"), (11, 4, "b"), (12, 2, "c")] :=
  ⟨(log_delivery threeMessages).1, (log_delivery threeMessages).2.2.1⟩

/-- The handler of the command replies with what the loop collects. -/
theorem fetchLogs_reply (d : LogBuffer) (env : Components) (id : UInt32)
    (hslots : env.logBuffer = d.logBuffer) (hindex : env.logBufferIndex = d.logBufferIndex) :
    fetchLogs env id = (do call .resetLogs; reply id (.logs d.fetchLogs.1)) := by
  have hloop : (env.logBuffer.rotate env.logBufferIndex).reduceOption = d.fetchLogs.1 := by
    rw [hslots, hindex]
    exact (congrArg Prod.snd d.fetchLoop_eq).symm
  rw [fetchLogs, hloop]

end Dripcap.Server
