import Dripcap.Client.ClassOrder

/-!
# Which classes are loaded

What the stages of a run say about the commands it has sent.
-/

namespace Dripcap.ClassPromise

open Promise Run

variable {E : Type} {evaluate : Value → (String → Option E) → E} {s : GoldFilter E}
  {stage : ℕ → Stage} {k : ℕ}

/-- The next job of `prom` runs the source. -/
def GoldFilter.Evaluates (s : GoldFilter E) (k : ℕ) (v : Value) : Prop :=
  ∃ name, job s.promises (.prom k) = some (.call (.load k name) v)

/-- The classes are evaluated and sent in the order of the calls of `addClass`. -/
structure InOrder (s : GoldFilter E) : Prop where
  /-- a command is that of the class at its place -/
  sent : ∀ i c, s.loads[i]? = some c → ∃ name filePath v, s.added[i]? = some (name, filePath) ∧
    s.promises (.build i) = .fulfilled v ∧ c.arg = loadArg name v
  /-- it has been answered when the next one is sent -/
  answered : ∀ i c, s.loads[i]? = some c → i + 1 < s.loads.length → s.callbacks c.callid = none
  /-- a source finds all earlier classes -/
  evaluated : ∀ k v, s.Evaluates k v → ∀ j < k, ∀ cls, s.added[j]? = some cls →
    (s.msgpackClasses cls.1).isSome
  /-- no class is sent from the first one on whose build fails -/
  stopped : ∀ k, s.promises (.build k) = .rejected → s.loads.length ≤ k
  /-- in the end all classes before that one have been sent -/
  complete : s.Finished → ∀ k ≤ s.added.length,
    (∀ j < k, s.promises (.build j) ≠ .rejected) →
    k = s.added.length ∨ s.promises (.build k) = .rejected → s.loads.length = k

namespace Stage

variable {name : String} {st : Stage} {v : Value} {id : ℕ}

lemma passed_of_command (h : st.command = some (v, id)) : st.passed := by
  cases st <;> trivial

lemma build_of_command (h : st.command = some (v, id)) :
    (st.cells k name).build = .fulfilled v := by
  cases st <;> first | cases h; rfl | cases h

lemma command_of_rejected (h : (st.cells k name).build = .rejected) : st.command = none := by
  cases st <;> first | rfl | cases h

lemma ready_of_promJob {name' : String}
    (h : st.promJob k name = some (.call (.load k name') v)) : st = .ready v := by
  cases st <;> cases h
  rfl

lemma evaluated_of_isLoaded (h : st.isLoaded) : st.evaluated := by
  cases st <;> trivial

lemma awaiting_of_isLoaded (h : st.isLoaded) : st.awaiting = none := by
  cases st <;> first | rfl | cases h

lemma not_isFailed (h : st.isLoaded) : ¬ st.isFailed := by
  cases st <;> first | exact False.elim | exact fun _ => h

end Stage

section Stages

variable (h : Staged s stage) (hr : Recorded s stage)
include h

lemma Staged.exists_added (hk : stage k ≠ .unborn) :
    ∃ cls, s.added[k]? = some cls ∧ s.nameOf k = cls.1 := by
  have hlt : k < s.added.length := Nat.lt_of_not_le fun hle => hk ((h.born k).mpr hle)
  refine ⟨s.added[k], List.getElem?_eq_getElem hlt, ?_⟩
  rw [GoldFilter.nameOf, List.getElem?_eq_getElem hlt]
  rfl

include hr

omit h in
lemma command_of_loads {c : Command} (hc : s.loads[k]? = some c) :
    ∃ v, (stage k).command = some (v, c.callid) ∧ c.arg = loadArg (s.nameOf k) v := by
  have hload := hr.loads k
  rw [hc, Option.map_some, eq_comm, Option.map_eq_some_iff] at hload
  obtain ⟨⟨v, id⟩, hcommand, heq⟩ := hload
  obtain ⟨harg, rfl⟩ := Prod.mk.inj heq
  exact ⟨v, hcommand, harg.symm⟩

lemma inOrder_sent {c : Command} (hc : s.loads[k]? = some c) :
    ∃ name filePath v, s.added[k]? = some (name, filePath) ∧
      s.promises (.build k) = .fulfilled v ∧ c.arg = loadArg name v := by
  obtain ⟨v, hcommand, harg⟩ := command_of_loads hr hc
  have hborn : stage k ≠ .unborn := fun hst => by rw [hst] at hcommand; cases hcommand
  obtain ⟨⟨name, filePath⟩, hadded, hname⟩ := h.exists_added hborn
  refine ⟨name, filePath, v, hadded, ?_, harg.trans (by rw [hname])⟩
  exact (congrArg Cells.build (h.cells k)).trans (Stage.build_of_command hcommand)

lemma inOrder_answered {c : Command} (hc : s.loads[k]? = some c) (hk : k + 1 < s.loads.length) :
    s.callbacks c.callid = none := by
  obtain ⟨v, hcommand, -⟩ := command_of_loads hr hc
  obtain ⟨v', hnext, -⟩ := command_of_loads hr (List.getElem?_eq_getElem hk)
  have hloaded := h.order (k + 1) (Stage.passed_of_command hnext) k (Nat.lt_succ_self k)
  rcases hr.closed k v c.callid hcommand with hawaiting | hnone
  · rw [Stage.awaiting_of_isLoaded hloaded] at hawaiting
    cases hawaiting
  · exact hnone

lemma inOrder_evaluated {v : Value} (hk : s.Evaluates k v) {j : ℕ} (hj : j < k)
    {cls : String × String} (hcls : s.added[j]? = some cls) :
    (s.msgpackClasses cls.1).isSome := by
  obtain ⟨name, hjob⟩ := hk
  rw [job_prom (h.cells k)] at hjob
  have hpassed : (stage k).passed := by
    rw [Stage.ready_of_promJob hjob]
    trivial
  have hevaluated := hr.evaluated j (Stage.evaluated_of_isLoaded (h.order k hpassed j hj))
  rwa [GoldFilter.nameOf, hcls] at hevaluated

lemma inOrder_stopped (hk : s.promises (.build k) = .rejected) : s.loads.length ≤ k :=
  loads_le_of_command hr
    (Stage.command_of_rejected ((congrArg Cells.build (h.cells k)).symm.trans hk))

omit hr in
/-- The class before is loaded, so its promise is fulfilled. -/
lemma Staged.before_fulfilled (hprevious : ∀ j < k, (stage j).isLoaded) :
    ∃ a, s.promises (before k) = .fulfilled a := by
  cases k with
  | zero => exact ⟨.undefined, h.resolved⟩
  | succ j =>
    have hprom : s.promises (.prom j) = ((stage j).cells j (s.nameOf j)).prom :=
      congrArg Cells.prom (h.cells j)
    have hloaded := hprevious j (Nat.lt_succ_self j)
    cases hst : stage j with
    | loaded v id a => exact ⟨a, by rw [hst] at hprom; exact hprom⟩
    | _ =>
      rw [hst] at hloaded
      cases hloaded

/-- When nothing is left to happen, a class whose build has not failed has been loaded if those
before it have. -/
lemma loaded_of_finished (hfinished : s.Finished) (hk : k < s.added.length)
    (hbuild : s.promises (.build k) ≠ .rejected) (hprevious : ∀ j < k, (stage j).isLoaded) :
    (stage k).isLoaded := by
  have hcell : s.promises (.build k) = ((stage k).cells k (s.nameOf k)).build :=
    congrArg Cells.build (h.cells k)
  have hsource := (job_source (h.cells k)).symm.trans (hfinished.jobs (.source k))
  have hprom := (job_prom (h.cells k)).symm.trans (hfinished.jobs (.prom k))
  have hcall := (job_call (h.cells k)).symm.trans (hfinished.jobs (.call k))
  have hreleased := (job_released (h.cells k)).symm.trans (hfinished.jobs (.released k))
  have hnotBarred : ¬ (stage k).barred := by
    intro hbarred
    obtain ⟨j, rfl, hj⟩ := h.barred k hbarred
    exact Stage.not_isFailed (hprevious j (Nat.lt_succ_self j)) hj
  have hconnected : s.promises .connected = .fulfilled .undefined :=
    h.connected.resolve_left hfinished.connected
  obtain ⟨a, hbefore⟩ := h.before_fulfilled hprevious
  cases hst : stage k with
  | unborn => exact absurd ((h.born k).mp hst) (Nat.not_le_of_lt hk)
  | building => exact absurd (hcell.trans (by rw [hst]; rfl)) (hfinished.built k)
  | built _ | released _ => rw [hst] at hsource; cases hsource
  | buildFailed | lost | failed => exact absurd (hcell.trans (by rw [hst]; rfl)) hbuild
  | waiting _ => rw [hst, hbefore] at hreleased; cases hreleased
  | refused _ | lostBefore _ | failedBefore _ => exact absurd (by rw [hst]; trivial) hnotBarred
  | ready _ | replied _ _ _ => rw [hst] at hprom; cases hprom
  | calling _ => rw [hst, hconnected] at hcall; cases hcall
  | answered _ _ _ => rw [hst] at hcall; cases hcall
  | sent v id =>
    have hcallback := (hr.callbacks id (.reply k)).mpr ⟨k, rfl, by rw [hst]; rfl⟩
    rw [hfinished.answered id] at hcallback
    cases hcallback
  | loaded _ _ _ => trivial

lemma inOrder_complete (hfinished : s.Finished) (hk : k ≤ s.added.length)
    (hbuilds : ∀ j < k, s.promises (.build j) ≠ .rejected)
    (hend : k = s.added.length ∨ s.promises (.build k) = .rejected) : s.loads.length = k := by
  have hloaded : ∀ j < k, (stage j).isLoaded := by
    intro j
    induction j using Nat.strongRecOn with
    | _ j ih =>
      intro hj
      exact loaded_of_finished h hr hfinished (Nat.lt_of_lt_of_le hj hk) (hbuilds j hj)
        fun i hi => ih i hi (Nat.lt_trans hi hj)
  have hcommand : (stage k).command = none := by
    rcases hend with rfl | hrejected
    · rw [(h.born _).mpr (Nat.le_refl _)]
      rfl
    · exact Stage.command_of_rejected ((congrArg Cells.build (h.cells k)).symm.trans hrejected)
  exact loads_length hr hloaded hcommand

end Stages

/-- Classes load in the order of the calls of `addClass`, one at a time, up to the first one whose
build fails. -/
theorem classes_in_order (evaluate : Value → (String → Option E) → E) {es : List Event}
    {s : GoldFilter E} (hrun : run (GoldFilter.step evaluate) .new es = some s) : InOrder s := by
  obtain ⟨stage, h, hr⟩ := described_of_run hrun
  exact {
    sent := fun _ _ hc => inOrder_sent h hr hc
    answered := fun _ _ hc hk => inOrder_answered h hr hc hk
    evaluated := fun _ _ hk _ hj _ hcls => inOrder_evaluated h hr hk hj hcls
    stopped := fun _ hk => inOrder_stopped h hr hk
    complete := fun hfinished _ hk hbuilds hend =>
      inOrder_complete h hr hfinished hk hbuilds hend }

/-- The second build ends first and the third one fails. -/
def sampleRun : List Event :=
  [.addClass "dripcap/mac" "mac.es", .addClass "dripcap/enum" "enum.es",
    .addClass "dripcap/flags" "flags.es", .addClass "dripcap/ipv4/addr" "addr.es",
    .built 1 (some "enum"), .job (.source 1), .built 0 (some "mac"), .connect, .job (.source 0),
    .job (.released 0), .job (.source 0), .job (.prom 0), .job (.call 0), .command "ping" [],
    .data 1 .undefined, .built 3 (some "addr"), .job (.call 0), .job (.prom 0), .job (.released 1),
    .job (.source 1), .job (.prom 1), .job (.call 1), .built 2 none, .data 2 .undefined,
    .job (.source 2), .data 3 .undefined, .job (.prom 2), .job (.source 3), .job (.call 1),
    .job (.prom 1), .job (.released 3), .job (.source 3), .job (.prom 3)]

/-- The two classes before the failed build are loaded, and nothing more happens. -/
theorem classes_in_order_sample : ∃ s, run (GoldFilter.step fun _ _ => ()) .new sampleRun = some s ∧
    s.loads.map Command.arg =
      [loadArg "dripcap/mac" (.text "mac"), loadArg "dripcap/enum" (.text "enum")] ∧
    s.Finished ∧ s.promises (.build 2) = .rejected ∧ InOrder s := by
  refine ⟨_, rfl, rfl, ⟨fun k => ?_, nofun, fun callid => ?_, fun t => ?_⟩, rfl,
    @classes_in_order _ (fun _ _ => ()) sampleRun _ rfl⟩
  · match k with
    | 0 | 1 | 2 | 3 => exact nofun
    | k + 4 => exact nofun
  · match callid with
    | 0 | 1 | 2 | 3 => rfl
    | callid + 4 => rfl
  · -- no promise has a job, of the four calls or of any later one
    cases t with
    | resolved | connected => rfl
    | build k | released k | source k | prom k | call k | reply k =>
      match k with
      | 0 | 1 | 2 | 3 => rfl
      | k + 4 => rfl

end Dripcap.ClassPromise
