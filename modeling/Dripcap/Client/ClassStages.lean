import Dripcap.Client.AddClass

/-!
# Where a class is

The promises of one call of `addClass` go through a few stages. A step of the client moves one call
to its next stage.
-/

namespace Dripcap.ClassPromise

open Promise

/-- The stages of a call of `addClass`. -/
inductive Stage where
  /-- there is no such call yet -/
  | unborn
  | building
  | built (source : Value)
  | buildFailed
  /-- waiting for the class before -/
  | waiting (source : Value)
  | released (source : Value)
  /-- the class before has been rejected -/
  | refused (source : Value)
  | ready (source : Value)
  /-- the build has failed, and the promise of the source is rejected -/
  | lost
  /-- the class before has failed, and the promise of the source is rejected -/
  | lostBefore (source : Value)
  /-- evaluated, waiting for the socket -/
  | calling (source : Value)
  | sent (source : Value) (callid : ℕ)
  | answered (source : Value) (callid : ℕ) (answer : Value)
  | replied (source : Value) (callid : ℕ) (answer : Value)
  | loaded (source : Value) (callid : ℕ) (answer : Value)
  | failed
  | failedBefore (source : Value)

/-- The promises of one call. -/
@[ext]
structure Cells where
  build : Cell
  released : Cell
  source : Cell
  prom : Cell
  call : Cell
  reply : Cell

/-- `classPromise` for a call. -/
def before : ℕ → PromiseId
  | 0 => .resolved
  | k + 1 => .prom k

namespace Stage

/-- The class before has been loaded. -/
def passed : Stage → Prop
  | released _ | ready _ | calling _ | sent _ _ | answered _ _ _ | replied _ _ _
  | loaded _ _ _ => True
  | _ => False

/-- The source has been evaluated. -/
def evaluated : Stage → Prop
  | calling _ | sent _ _ | answered _ _ _ | replied _ _ _ | loaded _ _ _ => True
  | _ => False

/-- What has been sent. -/
def command : Stage → Option (Value × ℕ)
  | sent v id | answered v id _ | replied v id _ | loaded v id _ => some (v, id)
  | _ => none

def isLoaded : Stage → Prop
  | loaded _ _ _ => True
  | _ => False

def isFailed : Stage → Prop
  | failed | failedBefore _ => True
  | _ => False

/-- It was the class before that failed. -/
def barred : Stage → Prop
  | refused _ | lostBefore _ | failedBefore _ => True
  | _ => False

/-- The promises of the call number `k` of `addClass`, which has this name. -/
def cells (k : ℕ) (name : String) : Stage → Cells
  | unborn => ⟨.unborn, .unborn, .unborn, .unborn, .unborn, .unborn⟩
  | building => ⟨.pending, .unborn, .awaits (.build k) (.wait k (before k)),
      .awaits (.source k) (.load k name), .unborn, .unborn⟩
  | built v => ⟨.fulfilled v, .unborn, .awaits (.build k) (.wait k (before k)),
      .awaits (.source k) (.load k name), .unborn, .unborn⟩
  | buildFailed => ⟨.rejected, .unborn, .awaits (.build k) (.wait k (before k)),
      .awaits (.source k) (.load k name), .unborn, .unborn⟩
  | waiting v => ⟨.fulfilled v, .awaits (before k) (.release v), .follows (.released k),
      .awaits (.source k) (.load k name), .unborn, .unborn⟩
  | released v => ⟨.fulfilled v, .fulfilled v, .follows (.released k),
      .awaits (.source k) (.load k name), .unborn, .unborn⟩
  | refused v => ⟨.fulfilled v, .rejected, .follows (.released k),
      .awaits (.source k) (.load k name), .unborn, .unborn⟩
  | ready v => ⟨.fulfilled v, .fulfilled v, .fulfilled v,
      .awaits (.source k) (.load k name), .unborn, .unborn⟩
  | lost => ⟨.rejected, .unborn, .rejected, .awaits (.source k) (.load k name), .unborn, .unborn⟩
  | lostBefore v => ⟨.fulfilled v, .rejected, .rejected, .awaits (.source k) (.load k name),
      .unborn, .unborn⟩
  | calling v => ⟨.fulfilled v, .fulfilled v, .fulfilled v, .follows (.call k),
      .awaits .connected (.write k "load_module" (loadArg name v)), .unborn⟩
  | sent v _ => ⟨.fulfilled v, .fulfilled v, .fulfilled v, .follows (.call k),
      .follows (.reply k), .pending⟩
  | answered v _ a => ⟨.fulfilled v, .fulfilled v, .fulfilled v, .follows (.call k),
      .follows (.reply k), .fulfilled a⟩
  | replied v _ a => ⟨.fulfilled v, .fulfilled v, .fulfilled v, .follows (.call k),
      .fulfilled a, .fulfilled a⟩
  | loaded v _ a => ⟨.fulfilled v, .fulfilled v, .fulfilled v, .fulfilled a,
      .fulfilled a, .fulfilled a⟩
  | failed => ⟨.rejected, .unborn, .rejected, .rejected, .unborn, .unborn⟩
  | failedBefore v => ⟨.fulfilled v, .rejected, .rejected, .rejected, .unborn, .unborn⟩

/-- The command that has not been answered. -/
def awaiting : Stage → Option ℕ
  | sent _ id => some id
  | _ => none

/-! ### The jobs of a stage -/

/-- The job of `classPromise.then(() => source)`, where `on` is `classPromise`. -/
def releasedJob (on : Cell) : Stage → Option (Job Value Handler)
  | waiting v => on.settled (.call (.release v))
  | _ => none

def sourceJob (k : ℕ) : Stage → Option (Job Value Handler)
  | built v => some (.call (.wait k (before k)) v)
  | released v => some (.fulfill v)
  | buildFailed | refused _ => some .reject
  | _ => none

def promJob (k : ℕ) (name : String) : Stage → Option (Job Value Handler)
  | ready v => some (.call (.load k name) v)
  | replied _ _ a => some (.fulfill a)
  | lost | lostBefore _ => some .reject
  | _ => none

/-- The job of the promise that `_call` returns, where `on` is `this.connected`. -/
def callJob (k : ℕ) (name : String) (on : Cell) : Stage → Option (Job Value Handler)
  | calling v => on.settled (.call (.write k "load_module" (loadArg name v)))
  | answered _ _ a => some (.fulfill a)
  | _ => none

variable {k : ℕ} {name : String} {st : Stage}

lemma isLoaded_of_prom {a : Value} (h : (st.cells k name).prom = .fulfilled a) : st.isLoaded := by
  cases st <;> trivial

lemma isFailed_of_prom (h : (st.cells k name).prom = .rejected) : st.isFailed := by
  cases st <;> trivial

lemma exists_of_awaiting {id : ℕ} (h : st.awaiting = some id) : ∃ v, st = .sent v id := by
  cases st with
  | sent v id' => exact ⟨v, congrArg (sent v) (Option.some.inj h)⟩
  | _ => cases h

lemma command_of_isLoaded (h : st.isLoaded) : st.command.isSome = true := by
  cases st <;> trivial

lemma isLoaded.passed (h : st.isLoaded) : st.passed := by
  cases st <;> trivial

end Stage

/-- The promises of a call. -/
def cellsOf (promises : PromiseId → Cell) (k : ℕ) : Cells where
  build := promises (.build k)
  released := promises (.released k)
  source := promises (.source k)
  prom := promises (.prom k)
  call := promises (.call k)
  reply := promises (.reply k)

variable {promises : PromiseId → Cell} {k : ℕ} {name : String} {st : Stage}

/-- One of the promises is replaced. -/
def Cells.put (cs : Cells) (c : Cell) : PromiseId → Cells
  | .build _ => { cs with build := c }
  | .released _ => { cs with released := c }
  | .source _ => { cs with source := c }
  | .prom _ => { cs with prom := c }
  | .call _ => { cs with call := c }
  | .reply _ => { cs with reply := c }
  | .resolved | .connected => cs

/-- The call that makes a promise. -/
def PromiseId.owner : PromiseId → Option ℕ
  | .resolved | .connected => none
  | .build k | .released k | .source k | .prom k | .call k | .reply k => some k

lemma cellsOf_update {p : PromiseId} (hp : p.owner = some k) (c : Cell) :
    cellsOf (Function.update promises p c) k = (cellsOf promises k).put c p := by
  cases p with
  | resolved | connected => cases hp
  | build _ | released _ | source _ | prom _ | call _ | reply _ =>
    obtain rfl := Option.some.inj hp
    simp [cellsOf, Cells.put]

/-- Only promises of the call number `k` differ. -/
def Frame (k : ℕ) (promises promises' : PromiseId → Cell) : Prop :=
  ∀ p : PromiseId, p.owner ≠ some k → promises' p = promises p

lemma Frame.refl (k : ℕ) (promises : PromiseId → Cell) : Frame k promises promises := fun _ _ => rfl

lemma Frame.update {promises' : PromiseId → Cell} (h : Frame k promises promises') {p : PromiseId}
    (hp : p.owner = some k) (c : Cell) : Frame k promises (Function.update promises' p c) := by
  intro q hq
  have hne : q ≠ p := by
    rintro rfl
    exact hq hp
  rw [Function.update_of_ne hne, h q hq]

lemma Frame.cellsOf {promises' : PromiseId → Cell} (h : Frame k promises promises') {j : ℕ}
    (hj : j ≠ k) : cellsOf promises' j = cellsOf promises j := by
  have hcell : ∀ p : PromiseId, p.owner = some j → promises' p = promises p := by
    intro p hp
    refine h p fun hk => hj ?_
    rwa [hp, Option.some.injEq] at hk
  exact Cells.ext (hcell _ rfl) (hcell _ rfl) (hcell _ rfl) (hcell _ rfl) (hcell _ rfl)
    (hcell _ rfl)

/-! ### Which job a promise has -/

section Jobs

variable (hc : cellsOf promises k = st.cells k name)
include hc

lemma job_build : job promises (.build k) = none := by
  have hcell : promises (.build k) = (st.cells k name).build := congrArg Cells.build hc
  cases st <;> exact job_of_not_depends hcell rfl

lemma job_reply : job promises (.reply k) = none := by
  have hcell : promises (.reply k) = (st.cells k name).reply := congrArg Cells.reply hc
  cases st <;> exact job_of_not_depends hcell rfl

lemma job_released : job promises (.released k) = st.releasedJob (promises (before k)) := by
  have hcell : promises (.released k) = (st.cells k name).released := congrArg Cells.released hc
  cases st with
  | waiting v => exact job_of_awaits hcell
  | _ => exact job_of_not_depends hcell rfl

lemma job_source : job promises (.source k) = st.sourceJob k := by
  have hcell : promises (.source k) = (st.cells k name).source := congrArg Cells.source hc
  have hbuild : promises (.build k) = (st.cells k name).build := congrArg Cells.build hc
  have hreleased : promises (.released k) = (st.cells k name).released := congrArg Cells.released hc
  cases st with
  | building | built _ | buildFailed => rw [job_of_awaits hcell, hbuild]; rfl
  | waiting _ | released _ | refused _ => rw [job_of_follows hcell, hreleased]; rfl
  | _ => exact job_of_not_depends hcell rfl

lemma job_prom : job promises (.prom k) = st.promJob k name := by
  have hcell : promises (.prom k) = (st.cells k name).prom := congrArg Cells.prom hc
  have hsource : promises (.source k) = (st.cells k name).source := congrArg Cells.source hc
  have hcall : promises (.call k) = (st.cells k name).call := congrArg Cells.call hc
  cases st with
  | unborn | loaded _ _ _ | failed | failedBefore _ => exact job_of_not_depends hcell rfl
  | calling _ | sent _ _ | answered _ _ _ | replied _ _ _ => rw [job_of_follows hcell, hcall]; rfl
  | _ => rw [job_of_awaits hcell, hsource]; rfl

lemma job_call : job promises (.call k) = st.callJob k name (promises .connected) := by
  have hcell : promises (.call k) = (st.cells k name).call := congrArg Cells.call hc
  have hreply : promises (.reply k) = (st.cells k name).reply := congrArg Cells.reply hc
  cases st with
  | calling _ => exact job_of_awaits hcell
  | sent _ _ | answered _ _ _ => rw [job_of_follows hcell, hreply]; rfl
  | _ => exact job_of_not_depends hcell rfl

end Jobs

end Dripcap.ClassPromise
