import Mathlib.Data.Option.Basic

/-!
# Promises

A program with promises makes each of them at one of its places `ι`, so that the promises of a run
are a function from the places to cells. `p.then(handler)` makes a promise that awaits `p`; a
handler that returns a promise lets its own promise follow that one. What comes of a settled promise
is a job of the promises that await or follow it.

The jobs may run in any order. The queue of the language is one of these orders.
-/

namespace Promise

/-- A promise: `α` are its values and `κ` the handlers. -/
inductive Cell (ι α κ : Type*) where
  /-- the place has not been reached -/
  | unborn
  /-- something outside settles it -/
  | pending
  /-- the result of `on.then(handler)` -/
  | awaits (on : ι) (handler : κ)
  /-- resolved with a promise -/
  | follows (on : ι)
  | fulfilled (value : α)
  | rejected

/-- What a handler returns. -/
inductive Returned (ι α : Type*) where
  | value (a : α)
  | promise (p : ι)

/-- What is to be done for a promise that awaits or follows a settled one. -/
inductive Job (α κ : Type*) where
  | call (handler : κ) (value : α)
  | fulfill (value : α)
  | reject

variable {ι α κ : Type*}

/-- The promise of a handler that has returned. -/
def Returned.cell : Returned ι α → Cell ι α κ
  | .value a => .fulfilled a
  | .promise p => .follows p

/-- The promise awaits or follows another one. -/
def Cell.depends : Cell ι α κ → Bool
  | .awaits _ _ | .follows _ => true
  | _ => false

/-- The job that a settled promise gives to one that depends on it. -/
def Cell.settled (onFulfilled : α → Job α κ) : Cell ι α κ → Option (Job α κ)
  | .fulfilled a => some (onFulfilled a)
  | .rejected => some .reject
  | _ => none

/-- The job of the promise at `t`. A handler for rejection is nowhere given. -/
def job (promises : ι → Cell ι α κ) (t : ι) : Option (Job α κ) :=
  match promises t with
  | .awaits on handler => (promises on).settled (.call handler)
  | .follows on => (promises on).settled .fulfill
  | _ => none

variable {promises : ι → Cell ι α κ} {t on : ι}

lemma job_of_awaits {handler : κ} (h : promises t = .awaits on handler) :
    job promises t = (promises on).settled (.call handler) := by
  rw [job, h]

lemma job_of_follows (h : promises t = .follows on) :
    job promises t = (promises on).settled .fulfill := by
  rw [job, h]

/-- A promise that depends on no other has no job. -/
lemma job_of_not_depends {c : Cell ι α κ} (h : promises t = c) (hc : c.depends = false) :
    job promises t = none := by
  rw [job, h]
  cases c with
  | awaits _ _ | follows _ => cases hc
  | unborn | pending | fulfilled _ | rejected => rfl

end Promise
