import Dripcap.Library.Promise
import Dripcap.Library.Run

/-!
# Loading classes

`GoldFilter.addClass` builds a source, waits for the class added before, evaluates the source and
sends it. The promises of the `k`-th call are named by the expressions that make them.

What happens outside is an event: a build ends, the socket is connected, data comes from it, another
method sends a command. The engine's jobs are events too.
-/

namespace Dripcap.ClassPromise

open Promise

/-- What promises are fulfilled with. -/
inductive Value where
  | undefined
  | text (s : String)
  deriving DecidableEq

/-- The expressions that make promises. -/
inductive PromiseId where
  /-- `Promise.resolve()` -/
  | resolved
  /-- `this.connected` -/
  | connected
  /-- `this._build(filePath)` -/
  | build (k : ℕ)
  /-- `classPromise.then(() => source)` -/
  | released (k : ℕ)
  /-- `this._build(filePath).then((source) => classPromise.then(...))` -/
  | source (k : ℕ)
  /-- `prom` -/
  | prom (k : ℕ)
  /-- `this.connected.then(...)` in `_call` -/
  | call (k : ℕ)
  /-- `new Promise((res) => ...)` in `_call` -/
  | reply (k : ℕ)
  deriving DecidableEq

/-- `[name, this.callid, arg || {}]` -/
structure Command where
  name : String
  callid : ℕ
  arg : List (String × Value)

/-- The handlers with the variables they have captured; `k` stands for the call of `addClass`. -/
inductive Handler where
  /-- `(source) => classPromise.then(() => source)` -/
  | wait (k : ℕ) (classPromise : PromiseId)
  /-- `() => source` -/
  | release (source : Value)
  /-- the handler that evaluates the source and calls `load_module` -/
  | load (k : ℕ) (name : String)
  /-- the handler of `_call` -/
  | write (k : ℕ) (name : String) (arg : List (String × Value))

abbrev Cell : Type := Promise.Cell PromiseId Value Handler

/-- What `callbacks` holds. -/
inductive Callback where
  /-- the `res` of a promise -/
  | resolve (p : PromiseId)
  /-- that of another method -/
  | other

/-- The fields of `GoldFilter` that `addClass` and `_call` use, and the calls of `addClass` up to
now. `E` are the exports of modules. -/
structure GoldFilter (E : Type) where
  promises : PromiseId → Cell
  classPromise : PromiseId := .resolved
  added : List (String × String) := []
  msgpackClasses : String → Option E := fun _ => none
  filterClasses : String → Option Value := fun _ => none
  callid : ℕ := 0
  callbacks : ℕ → Option Callback := fun _ => none
  written : List Command := []

inductive Event where
  /-- a call of `addClass` -/
  | addClass (name filePath : String)
  /-- the build of a call resolves with a source or rejects -/
  | built (k : ℕ) (source : Option String)
  /-- the socket is connected -/
  | connect
  /-- a reply has been decoded -/
  | data (callid : ℕ) (value : Value)
  /-- another method sends a command -/
  | command (name : String) (arg : List (String × Value))
  /-- the job of a promise -/
  | job (t : PromiseId)

namespace GoldFilter

variable {E : Type}

/-- `constructor` -/
def new : GoldFilter E where
  promises
    | .resolved => .fulfilled .undefined
    | .connected => .pending
    | _ => .unborn

/-- A promise is made or changes. -/
def set (s : GoldFilter E) (p : PromiseId) (c : Cell) : GoldFilter E :=
  { s with promises := Function.update s.promises p c }

/-- `addClass` -/
def addClass (s : GoldFilter E) (name filePath : String) : GoldFilter E :=
  let k := s.added.length
  let classPromise := s.classPromise
  let built := s.set (.build k) .pending
  let waiting := built.set (.source k) (.awaits (.build k) (.wait k classPromise))
  let prom := waiting.set (.prom k) (.awaits (.source k) (.load k name))
  { prom with classPromise := .prom k, added := s.added ++ [(name, filePath)] }

/-- `this.callbacks[++this.callid] = res` and `this.sock.write(...)` -/
def write (s : GoldFilter E) (res : Callback) (name : String) (arg : List (String × Value)) :
    GoldFilter E :=
  { s with
    callid := s.callid + 1
    callbacks := Function.update s.callbacks (s.callid + 1) (some res)
    written := s.written ++ [⟨name, s.callid + 1, arg⟩] }

end GoldFilter

/-- `{ name: name, source: source }` -/
def loadArg (name : String) (source : Value) : List (String × Value) :=
  [("name", .text name), ("source", source)]

/-- The handlers. `evaluate source classes` is what the source exports when it is run and finds
these classes in `msgpackClasses`. -/
def Handler.run {E : Type} (evaluate : Value → (String → Option E) → E) (s : GoldFilter E)
    (value : Value) : Handler → GoldFilter E × Returned PromiseId Value
  | .wait k classPromise =>
    (s.set (.released k) (.awaits classPromise (.release value)), .promise (.released k))
  | .release source => (s, .value source)
  | .load k name =>
    let s' := { s with
      msgpackClasses :=
        Function.update s.msgpackClasses name (some (evaluate value s.msgpackClasses))
      filterClasses := Function.update s.filterClasses name (some value) }
    (s'.set (.call k) (.awaits .connected (.write k "load_module" (loadArg name value))),
      .promise (.call k))
  | .write k name arg =>
    ((s.set (.reply k) .pending).write (.resolve (.reply k)) name arg, .promise (.reply k))

namespace GoldFilter

variable {E : Type} (evaluate : Value → (String → Option E) → E) (s : GoldFilter E)

/-- The job of a promise is done. -/
def perform (t : PromiseId) : Job Value Handler → GoldFilter E
  | .call handler value =>
    let r := handler.run evaluate s value
    r.1.set t r.2.cell
  | .fulfill value => s.set t (.fulfilled value)
  | .reject => s.set t .rejected

/-- The handler of `data`. -/
def data (callid : ℕ) (value : Value) : GoldFilter E :=
  let s' := match s.callbacks callid with
    | some (.resolve p) => s.set p (.fulfilled value)
    | _ => s
  { s' with callbacks := Function.update s.callbacks callid none }

/-- One event. No method but `addClass` sends `load_module`. -/
def step : Event → Option (GoldFilter E)
  | .addClass name filePath => some (s.addClass name filePath)
  | .built k source => match s.promises (.build k) with
    | .pending => some (s.set (.build k) (match source with
      | some code => .fulfilled (.text code)
      | none => .rejected))
    | _ => none
  | .connect => match s.promises .connected with
    | .pending => some (s.set .connected (.fulfilled .undefined))
    | _ => none
  | .data callid value => some (s.data callid value)
  | .command name arg => match s.promises .connected with
    | .fulfilled _ => if name = "load_module" then none else some (s.write .other name arg)
    | _ => none
  | .job t => (job s.promises t).map (s.perform evaluate t)

/-- The commands that load classes. -/
def loads : List Command := s.written.filter fun c => c.name = "load_module"

lemma loads_write_load (res : Callback) (arg : List (String × Value)) :
    (s.write res "load_module" arg).loads = s.loads ++ [⟨"load_module", s.callid + 1, arg⟩] := by
  rw [loads, write, List.filter_append]
  rfl

lemma loads_write_of_ne {name : String} (hname : name ≠ "load_module") (res : Callback)
    (arg : List (String × Value)) : (s.write res name arg).loads = s.loads := by
  rw [loads, write, List.filter_append, List.filter_cons_of_neg (by simpa using hname)]
  exact List.append_nil _

/-- Nothing is left to happen unless another method is called. -/
structure Finished : Prop where
  built : ∀ k, s.promises (.build k) ≠ .pending
  connected : s.promises .connected ≠ .pending
  answered : ∀ callid, s.callbacks callid = none
  jobs : ∀ t, job s.promises t = none

end GoldFilter

end Dripcap.ClassPromise
