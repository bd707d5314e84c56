import Dripcap.Client.ClassStages

/-!
# The order of the classes

`Staged` says which stage every call of `addClass` has reached and `Recorded` what the client has
recorded of it. A class passes the one before only when that one has been loaded, so the classes are
evaluated and sent one by one.
-/

namespace Dripcap.ClassPromise

open Promise Run

variable {E : Type} {evaluate : Value → (String → Option E) → E} {s s' : GoldFilter E}
  {stage : ℕ → Stage} {k : ℕ} {st' : Stage}

/-- The name of the `k`-th class. -/
def GoldFilter.nameOf (s : GoldFilter E) (k : ℕ) : String := (s.added[k]?.map Prod.fst).getD ""

/-- The calls of `addClass` are in these stages. -/
structure Staged (s : GoldFilter E) (stage : ℕ → Stage) : Prop where
  cells : ∀ k, cellsOf s.promises k = (stage k).cells k (s.nameOf k)
  born : ∀ k, stage k = .unborn ↔ s.added.length ≤ k
  resolved : s.promises .resolved = .fulfilled .undefined
  connected : s.promises .connected = .pending ∨ s.promises .connected = .fulfilled .undefined
  classPromise : s.classPromise = before s.added.length
  order : ∀ k, (stage k).passed → ∀ j < k, (stage j).isLoaded
  barred : ∀ k, (stage k).barred → ∃ j, k = j + 1 ∧ (stage j).isFailed

/-- What the client has recorded of the calls in these stages. -/
structure Recorded (s : GoldFilter E) (stage : ℕ → Stage) : Prop where
  evaluated : ∀ k, (stage k).evaluated → (s.msgpackClasses (s.nameOf k)).isSome
  loads : ∀ i, s.loads[i]?.map (fun c => (c.arg, c.callid)) =
    (stage i).command.map fun p => (loadArg (s.nameOf i) p.1, p.2)
  callbacks : ∀ id p, s.callbacks id = some (.resolve p) ↔
    ∃ k, p = .reply k ∧ (stage k).awaiting = some id
  closed : ∀ k v id, (stage k).command = some (v, id) →
    (stage k).awaiting = some id ∨ s.callbacks id = none
  fresh : ∀ id, s.callid < id → s.callbacks id = none
  ids : ∀ k v id, (stage k).command = some (v, id) → id ≤ s.callid

/-! ### Moves -/

/-- What every move of a call respects. -/
structure Moves (stage : ℕ → Stage) (k : ℕ) (st st' : Stage) : Prop where
  born : st ≠ .unborn
  born' : st' ≠ .unborn
  notLoaded : ¬ st.isLoaded
  notFailed : ¬ st.isFailed
  passed : st'.passed → st.passed ∨ ∀ j, k = j + 1 → (stage j).isLoaded
  barred : st'.barred → st.barred ∨ ∃ j, k = j + 1 ∧ (stage j).isFailed

lemma Staged.move (h : Staged s stage) (hm : Moves stage k (stage k) st')
    (hframe : Frame k s.promises s'.promises)
    (hcells : cellsOf s'.promises k = st'.cells k (s.nameOf k)) (hadded : s'.added = s.added)
    (hclass : s'.classPromise = s.classPromise) : Staged s' (Function.update stage k st') := by
  have hname : s'.nameOf = s.nameOf := by
    funext i
    rw [GoldFilter.nameOf, GoldFilter.nameOf, hadded]
  have hloaded : ∀ j, (stage j).isLoaded → (Function.update stage k st' j).isLoaded := by
    intro j hj
    have hne : j ≠ k := by
      rintro rfl
      exact hm.notLoaded hj
    rwa [Function.update_of_ne hne]
  have hfailed : ∀ j, (stage j).isFailed → (Function.update stage k st' j).isFailed := by
    intro j hj
    have hne : j ≠ k := by
      rintro rfl
      exact hm.notFailed hj
    rwa [Function.update_of_ne hne]
  refine ⟨fun i => ?_, fun i => ?_, ?_, ?_, ?_, fun i hi j hj => hloaded j ?_, fun i hi => ?_⟩
  · rw [hname]
    by_cases hik : i = k
    · subst hik
      rw [hcells, Function.update_self]
    · rw [hframe.cellsOf hik, h.cells, Function.update_of_ne hik]
  · rw [hadded, ← h.born]
    by_cases hik : i = k
    · subst hik
      rw [Function.update_self]
      exact iff_of_false hm.born' hm.born
    · rw [Function.update_of_ne hik]
  · rw [hframe .resolved nofun, h.resolved]
  · rw [hframe .connected nofun]
    exact h.connected
  · rw [hclass, hadded, h.classPromise]
  · by_cases hik : i = k
    · subst hik
      rw [Function.update_self] at hi
      rcases hm.passed hi with hpassed | hprevious
      · exact h.order i hpassed j hj
      · obtain ⟨m, rfl⟩ := Nat.exists_eq_succ_of_ne_zero (Nat.ne_zero_of_lt hj)
        have hm' := hprevious m rfl
        rcases Nat.lt_succ_iff_lt_or_eq.mp hj with hlt | rfl
        · exact h.order m hm'.passed j hlt
        · exact hm'
    · rw [Function.update_of_ne hik] at hi
      exact h.order i hi j hj
  · have hold : (stage i).barred ∨ ∃ j, i = j + 1 ∧ (stage j).isFailed := by
      by_cases hik : i = k
      · subst hik
        rw [Function.update_self] at hi
        exact hm.barred hi
      · rw [Function.update_of_ne hik] at hi
        exact .inl hi
    obtain ⟨j, rfl, hj⟩ := hold.elim (h.barred i) id
    exact ⟨j, rfl, hfailed j hj⟩

/-- A move keeps what it keeps of the call that it moves. -/
lemma update_congr {β : Type} {f : Stage → β} (h : f st' = f (stage k)) (i : ℕ) :
    f (Function.update stage k st' i) = f (stage i) := by
  by_cases hik : i = k
  · rw [hik, Function.update_self, h]
  · rw [Function.update_of_ne hik]

/-- Nothing is recorded of these moves. -/
structure Silent (st st' : Stage) : Prop where
  evaluated : st'.evaluated ↔ st.evaluated
  command : st'.command = st.command
  awaiting : st'.awaiting = st.awaiting

lemma Silent.update (h : Silent (stage k) st') (i : ℕ) :
    Silent (stage i) (Function.update stage k st' i) where
  evaluated := iff_of_eq (update_congr (propext h.evaluated) i)
  command := update_congr h.command i
  awaiting := update_congr h.awaiting i

lemma Recorded.silent {stage' : ℕ → Stage} (h : Recorded s stage)
    (hsilent : ∀ i, Silent (stage i) (stage' i)) (promises : PromiseId → Cell) :
    Recorded { s with promises := promises } stage' where
  evaluated i hi := h.evaluated i ((hsilent i).evaluated.mp hi)
  loads i := (hsilent i).command ▸ h.loads i
  callbacks id p := (h.callbacks id p).trans
    (exists_congr fun i => and_congr_right fun _ => by rw [(hsilent i).awaiting])
  closed i v id hi := by
    rw [(hsilent i).command] at hi
    rw [(hsilent i).awaiting]
    exact h.closed i v id hi
  fresh := h.fresh
  ids i v id hi := h.ids i v id ((hsilent i).command ▸ hi)

/-- The moves of which nothing is recorded. -/
inductive Advance (stage : ℕ → Stage) (k : ℕ) : Stage → Stage → Prop where
  | build (v : Value) : Advance stage k .building (.built v)
  | failBuild : Advance stage k .building .buildFailed
  | wait (v : Value) : Advance stage k (.built v) (.waiting v)
  | release (v : Value) : (∀ j, k = j + 1 → (stage j).isLoaded) →
      Advance stage k (.waiting v) (.released v)
  | refuse (v : Value) : (∃ j, k = j + 1 ∧ (stage j).isFailed) →
      Advance stage k (.waiting v) (.refused v)
  | ready (v : Value) : Advance stage k (.released v) (.ready v)
  | lose : Advance stage k .buildFailed .lost
  | loseBefore (v : Value) : Advance stage k (.refused v) (.lostBefore v)
  | fail : Advance stage k .lost .failed
  | failBefore (v : Value) : Advance stage k (.lostBefore v) (.failedBefore v)
  | reply (v : Value) (id : ℕ) (a : Value) : Advance stage k (.answered v id a) (.replied v id a)
  | load (v : Value) (id : ℕ) (a : Value) : Advance stage k (.replied v id a) (.loaded v id a)

lemma Advance.silent {st : Stage} (h : Advance stage k st st') : Silent st st' := by
  cases h <;> exact ⟨Iff.rfl, rfl, rfl⟩

lemma Advance.moves {st : Stage} (h : Advance stage k st st') : Moves stage k st st' := by
  constructor
  · cases h <;> nofun
  · cases h <;> nofun
  · cases h <;> exact id
  · cases h <;> exact id
  · cases h with
    | release v hprevious => exact fun _ => .inr hprevious
    | ready _ | reply _ _ _ | load _ _ _ => exact fun _ => .inl trivial
    | _ => exact False.elim
  · cases h with
    | refuse v hprevious => exact fun _ => .inr hprevious
    | loseBefore _ | failBefore _ => exact fun _ => .inl trivial
    | _ => exact False.elim

/-- The callback of a command is used up. -/
lemma Recorded.answer {stage' : ℕ → Stage} (hr : Recorded s stage) {id : ℕ}
    (promises : PromiseId → Cell) (hevaluated : ∀ i, (stage' i).evaluated ↔ (stage i).evaluated)
    (hcommand : ∀ i, (stage' i).command = (stage i).command)
    (hawaiting : ∀ i id', (stage' i).awaiting = some id' ↔
      (stage i).awaiting = some id' ∧ id' ≠ id) :
    Recorded { s with promises := promises, callbacks := Function.update s.callbacks id none }
      stage' := by
  refine ⟨fun i hi => hr.evaluated i ((hevaluated i).mp hi), fun i => hcommand i ▸ hr.loads i,
    fun id' p => ?_, fun i v id' hi => ?_, fun id' hid' => ?_, fun i v id' hi => ?_⟩
  · show Function.update s.callbacks id none id' = _ ↔ _
    by_cases heq : id' = id
    · rw [heq, Function.update_self]
      refine iff_of_false nofun ?_
      rintro ⟨i, -, hi⟩
      exact ((hawaiting i id).mp hi).2 rfl
    · rw [Function.update_of_ne heq, hr.callbacks]
      refine exists_congr fun i => and_congr_right fun _ => ?_
      rw [hawaiting, and_iff_left heq]
  · rw [hcommand] at hi
    show _ ∨ Function.update s.callbacks id none id' = none
    by_cases heq : id' = id
    · rw [heq, Function.update_self]
      exact .inr rfl
    · rw [Function.update_of_ne heq, hawaiting, and_iff_left heq]
      exact hr.closed i v id' hi
  · show Function.update s.callbacks id none id' = none
    by_cases heq : id' = id
    · rw [heq, Function.update_self]
    · rw [Function.update_of_ne heq]
      exact hr.fresh id' hid'
  · exact hr.ids i v id' (hcommand i ▸ hi)

lemma moves_calling (v : Value) : Moves stage k (.ready v) (.calling v) :=
  ⟨nofun, nofun, fun h => h, fun h => h, fun _ => .inl trivial, False.elim⟩

lemma moves_sent (v : Value) (id : ℕ) : Moves stage k (.calling v) (.sent v id) :=
  ⟨nofun, nofun, fun h => h, fun h => h, fun _ => .inl trivial, False.elim⟩

lemma moves_answered (v : Value) (id : ℕ) (a : Value) :
    Moves stage k (.sent v id) (.answered v id a) :=
  ⟨nofun, nofun, fun h => h, fun h => h, fun _ => .inl trivial, False.elim⟩

/-! ### Steps -/

/-- Some stages describe the client. -/
def Described (s : GoldFilter E) : Prop := ∃ stage, Staged s stage ∧ Recorded s stage

lemma Staged.fulfilled_before (h : Staged s stage) {a : Value}
    (hbefore : s.promises (before k) = .fulfilled a) : ∀ j, k = j + 1 → (stage j).isLoaded := by
  rintro j rfl
  have hprom : ((stage j).cells j (s.nameOf j)).prom = .fulfilled a := by
    rw [← h.cells j]
    exact hbefore
  exact Stage.isLoaded_of_prom hprom

lemma Staged.rejected_before (h : Staged s stage) (hbefore : s.promises (before k) = .rejected) :
    ∃ j, k = j + 1 ∧ (stage j).isFailed := by
  cases k with
  | zero =>
    have hresolved := hbefore.symm.trans h.resolved
    cases hresolved
  | succ j =>
    have hprom : ((stage j).cells j (s.nameOf j)).prom = .rejected := by
      rw [← h.cells j]
      exact hbefore
    exact ⟨j, rfl, Stage.isFailed_of_prom hprom⟩

/-- A handler makes one promise and another one follows it. -/
lemma Staged.update_two (h : Staged s stage) {st : Stage} (hst : stage k = st) (st' : Stage)
    {p q : PromiseId}
    (hp : p.owner = some k) (hq : q.owner = some k) {c d : Cell}
    (hput : ((st.cells k (s.nameOf k)).put c p).put d q = st'.cells k (s.nameOf k)) :
    Frame k s.promises (Function.update (Function.update s.promises p c) q d) ∧
      cellsOf (Function.update (Function.update s.promises p c) q d) k =
        st'.cells k (s.nameOf k) := by
  refine ⟨((Frame.refl k _).update hp c).update hq d, ?_⟩
  rw [cellsOf_update hq, cellsOf_update hp, h.cells, hst, hput]

section Step

variable (h : Staged s stage) (hr : Recorded s stage) {st : Stage}
include h hr

lemma Advance.described (hadvance : Advance stage k (stage k) st') {promises : PromiseId → Cell}
    (hframe : Frame k s.promises promises)
    (hcells : cellsOf promises k = st'.cells k (s.nameOf k)) :
    Described { s with promises := promises } :=
  ⟨Function.update stage k st', h.move hadvance.moves hframe hcells rfl rfl,
    hr.silent (fun i => hadvance.silent.update i) promises⟩

/-- One promise changes. -/
lemma Advance.set (hst : stage k = st) (hadvance : Advance stage k st st') {p : PromiseId}
    (hp : p.owner = some k) {c : Cell}
    (hput : (st.cells k (s.nameOf k)).put c p = st'.cells k (s.nameOf k)) :
    Described (s.set p c) := by
  refine (hst ▸ hadvance).described h hr ((Frame.refl k _).update hp c) ?_
  rw [cellsOf_update hp, h.cells, hst, hput]

lemma step_built {source : Option String} (hs : s.step evaluate (.built k source) = some s') :
    Described s' := by
  have hcell : s.promises (.build k) = ((stage k).cells k (s.nameOf k)).build :=
    congrArg Cells.build (h.cells k)
  cases hst : stage k with
  | building =>
    simp only [GoldFilter.step, hcell, hst, Stage.cells, Option.some.injEq] at hs
    subst hs
    cases source with
    | some code => exact (Advance.build (.text code)).set h hr hst rfl rfl
    | none => exact Advance.failBuild.set h hr hst rfl rfl
  | _ =>
    simp only [GoldFilter.step, hcell, hst, Stage.cells] at hs
    cases hs

lemma step_released (hs : s.step evaluate (.job (.released k)) = some s') : Described s' := by
  rw [GoldFilter.step, job_released (h.cells k)] at hs
  cases hst : stage k with
  | waiting v =>
    rw [hst, Stage.releasedJob] at hs
    cases hbefore : s.promises (before k) with
    | fulfilled a =>
      rw [hbefore] at hs
      obtain rfl := Option.some.inj hs
      exact (Advance.release v (h.fulfilled_before hbefore)).set h hr hst rfl rfl
    | rejected =>
      rw [hbefore] at hs
      obtain rfl := Option.some.inj hs
      exact (Advance.refuse v (h.rejected_before hbefore)).set h hr hst rfl rfl
    | _ =>
      rw [hbefore] at hs
      cases hs
  | _ =>
    rw [hst] at hs
    cases hs

lemma step_source (hs : s.step evaluate (.job (.source k)) = some s') : Described s' := by
  rw [GoldFilter.step, job_source (h.cells k)] at hs
  cases hst : stage k with
  | built v =>
    rw [hst] at hs
    obtain rfl := Option.some.inj hs
    obtain ⟨hframe, hcells⟩ := h.update_two hst (.waiting v) (p := .released k) rfl
      (q := .source k) rfl (c := .awaits (before k) (.release v)) (d := .follows (.released k)) rfl
    exact (hst ▸ Advance.wait v).described h hr hframe hcells
  | buildFailed =>
    rw [hst] at hs
    obtain rfl := Option.some.inj hs
    exact Advance.lose.set h hr hst rfl rfl
  | released v =>
    rw [hst] at hs
    obtain rfl := Option.some.inj hs
    exact (Advance.ready v).set h hr hst rfl rfl
  | refused v =>
    rw [hst] at hs
    obtain rfl := Option.some.inj hs
    exact (Advance.loseBefore v).set h hr hst rfl rfl
  | _ =>
    rw [hst] at hs
    cases hs

/-- The source is evaluated after all earlier classes. -/
lemma described_evaluated {v : Value} (hst : stage k = .ready v) (exports : E)
    (filterClasses : String → Option Value) :
    Described { s with
      promises := Function.update (Function.update s.promises (.call k)
        (.awaits .connected (.write k "load_module" (loadArg (s.nameOf k) v)))) (.prom k)
        (.follows (.call k))
      msgpackClasses := Function.update s.msgpackClasses (s.nameOf k) (some exports)
      filterClasses := filterClasses } := by
  obtain ⟨hframe, hcells⟩ := h.update_two hst (.calling v) (p := .call k) rfl (q := .prom k) rfl
    (c := .awaits .connected (.write k "load_module" (loadArg (s.nameOf k) v)))
    (d := .follows (.call k)) rfl
  have hother : ∀ i, (Function.update stage k (.calling v) i).command = (stage i).command ∧
      (Function.update stage k (.calling v) i).awaiting = (stage i).awaiting := by
    intro i
    constructor
    · exact update_congr (by rw [hst]; rfl) i
    · exact update_congr (by rw [hst]; rfl) i
  refine ⟨_, h.move (hst ▸ moves_calling v) hframe hcells rfl rfl, ?_⟩
  refine ⟨fun i hi => ?_, fun i => ?_, fun id p => ?_, fun i w id hi => ?_, hr.fresh,
    fun i w id hi => ?_⟩
  · show (Function.update s.msgpackClasses (s.nameOf k) (some exports) (s.nameOf i)).isSome = true
    by_cases hname : s.nameOf i = s.nameOf k
    · rw [hname, Function.update_self]
      rfl
    · rw [Function.update_of_ne hname]
      have hik : i ≠ k := fun hik => hname (congrArg s.nameOf hik)
      rw [Function.update_of_ne hik] at hi
      exact hr.evaluated i hi
  · rw [(hother i).1]
    exact hr.loads i
  · refine (hr.callbacks id p).trans (exists_congr fun i => ?_)
    rw [(hother i).2]
  · rw [(hother i).1] at hi
    rw [(hother i).2]
    exact hr.closed i w id hi
  · exact hr.ids i w id ((hother i).1 ▸ hi)

omit h hr in
lemma getElem?_concat_of_ne {α : Type} {l : List α} {i : ℕ} (hi : i ≠ l.length) (a : α) :
    (l ++ [a])[i]? = l[i]? := by
  rcases Nat.lt_or_gt_of_ne hi with hlt | hgt
  · exact List.getElem?_append_left hlt
  · rw [List.getElem?_eq_none (Nat.le_of_lt hgt), List.getElem?_eq_none]
    rw [List.length_append, List.length_singleton]
    exact hgt

omit h in
lemma loads_le_of_command (hcommand : (stage k).command = none) : s.loads.length ≤ k := by
  have hload := hr.loads k
  rw [hcommand, Option.map_none, Option.map_eq_none_iff] at hload
  exact List.getElem?_eq_none_iff.mp hload

omit h in
/-- As many commands have been sent as there are loaded classes before the first one that has not
been sent. -/
lemma loads_length (hloaded : ∀ j < k, (stage j).isLoaded) (hcommand : (stage k).command = none) :
    s.loads.length = k := by
  refine Nat.le_antisymm (loads_le_of_command hr hcommand) (Nat.le_of_not_lt fun hlt => ?_)
  have hsent := Stage.command_of_isLoaded (hloaded _ hlt)
  have hload := hr.loads s.loads.length
  rw [List.getElem?_eq_none (Nat.le_refl _), Option.map_none, eq_comm,
    Option.map_eq_none_iff] at hload
  rw [hload] at hsent
  cases hsent

omit h in
lemma not_awaiting_next (i : ℕ) : (stage i).awaiting ≠ some (s.callid + 1) := by
  intro hi
  obtain ⟨v, hst⟩ := Stage.exists_of_awaiting hi
  have hle := hr.ids i v (s.callid + 1) (by rw [hst]; rfl)
  exact absurd hle (Nat.not_succ_le_self _)

omit h in
/-- A command is written with a number that has not been used. -/
lemma callbacks_write {id : ℕ} {v : Value} (hcommand : (stage k).command = some (v, id))
    (res : Callback) (name : String) (arg : List (String × Value)) :
    (stage k).awaiting = some id ∨ (s.write res name arg).callbacks id = none := by
  refine (hr.closed k v id hcommand).imp_right fun hnone => ?_
  have hid : id ≠ s.callid + 1 := Nat.ne_of_lt (Nat.lt_succ_of_le (hr.ids k v id hcommand))
  exact (Function.update_of_ne hid ..).trans hnone

omit h in
lemma fresh_write {id : ℕ} (hid : s.callid + 1 < id) (res : Callback) (name : String)
    (arg : List (String × Value)) : (s.write res name arg).callbacks id = none :=
  (Function.update_of_ne (Nat.ne_of_gt hid) ..).trans (hr.fresh id (Nat.lt_of_succ_lt hid))

/-- The command is sent after those of all earlier classes. -/
lemma described_sent {v : Value} (hst : stage k = .calling v) :
    Described (({ s with
      promises := Function.update (Function.update s.promises (.reply k) .pending) (.call k)
        (.follows (.reply k)) } : GoldFilter E).write (.resolve (.reply k)) "load_module"
        (loadArg (s.nameOf k) v)) := by
  obtain ⟨hframe, hcells⟩ := h.update_two hst (.sent v (s.callid + 1)) (p := .reply k) rfl
    (q := .call k) rfl (c := .pending) (d := .follows (.reply k)) rfl
  have hlength : s.loads.length = k :=
    loads_length hr (h.order k (by rw [hst]; trivial)) (by rw [hst]; rfl)
  refine ⟨_, h.move (hst ▸ moves_sent v (s.callid + 1)) hframe hcells rfl rfl, ?_⟩
  refine ⟨fun i hi => ?_, fun i => ?_, fun id p => ?_, fun i w id hi => ?_, fun id hid => ?_,
    fun i w id hi => ?_⟩
  · refine hr.evaluated i ?_
    by_cases hik : i = k
    · rw [hik, hst]
      trivial
    · rwa [Function.update_of_ne hik] at hi
  · rw [GoldFilter.loads_write_load]
    by_cases hik : i = k
    · rw [hik, ← hlength, Function.update_self]
      exact congrArg (Option.map _) (List.getElem?_concat_length ..)
    · rw [Function.update_of_ne hik]
      refine (congrArg (Option.map _) (getElem?_concat_of_ne ?_ _)).trans (hr.loads i)
      exact fun heq => hik (heq.trans hlength)
  · by_cases hid : id = s.callid + 1
    · subst hid
      show Function.update s.callbacks _ _ _ = _ ↔ _
      rw [Function.update_self]
      constructor
      · rintro hp
        cases hp
        exact ⟨k, rfl, by rw [Function.update_self]; rfl⟩
      · rintro ⟨i, rfl, hi⟩
        by_cases hik : i = k
        · rw [hik]
        · rw [Function.update_of_ne hik] at hi
          exact absurd hi (not_awaiting_next hr i)
    · show Function.update s.callbacks _ _ _ = _ ↔ _
      rw [Function.update_of_ne hid, hr.callbacks]
      refine exists_congr fun i => and_congr_right fun _ => ?_
      by_cases hik : i = k
      · rw [hik, Function.update_self, hst]
        exact iff_of_false nofun fun h => hid (Option.some.inj h).symm
      · rw [Function.update_of_ne hik]
  · by_cases hik : i = k
    · subst hik
      rw [Function.update_self] at hi ⊢
      exact .inl (congrArg (Option.map Prod.snd) hi)
    · rw [Function.update_of_ne hik] at hi ⊢
      exact callbacks_write hr hi (.resolve (.reply k)) "load_module" (loadArg (s.nameOf k) v)
  · exact fresh_write hr hid (.resolve (.reply k)) "load_module" (loadArg (s.nameOf k) v)
  · by_cases hik : i = k
    · subst hik
      rw [Function.update_self] at hi
      exact Nat.le_of_eq (congrArg Prod.snd (Option.some.inj hi)).symm
    · rw [Function.update_of_ne hik] at hi
      exact Nat.le_succ_of_le (hr.ids i w id hi)

lemma step_prom (hs : s.step evaluate (.job (.prom k)) = some s') : Described s' := by
  rw [GoldFilter.step, job_prom (h.cells k)] at hs
  cases hst : stage k with
  | ready v =>
    rw [hst] at hs
    obtain rfl := Option.some.inj hs
    exact described_evaluated h hr hst _ _
  | lost =>
    rw [hst] at hs
    obtain rfl := Option.some.inj hs
    exact Advance.fail.set h hr hst rfl rfl
  | lostBefore v =>
    rw [hst] at hs
    obtain rfl := Option.some.inj hs
    exact (Advance.failBefore v).set h hr hst rfl rfl
  | replied v id a =>
    rw [hst] at hs
    obtain rfl := Option.some.inj hs
    exact (Advance.load v id a).set h hr hst rfl rfl
  | _ =>
    rw [hst] at hs
    cases hs

lemma step_call (hs : s.step evaluate (.job (.call k)) = some s') : Described s' := by
  rw [GoldFilter.step, job_call (h.cells k)] at hs
  cases hst : stage k with
  | calling v =>
    rcases h.connected with hconnected | hconnected
    · rw [hst, hconnected] at hs
      cases hs
    · rw [hst, hconnected] at hs
      obtain rfl := Option.some.inj hs
      exact described_sent h hr hst
  | answered v id a =>
    rw [hst] at hs
    obtain rfl := Option.some.inj hs
    exact (Advance.reply v id a).set h hr hst rfl rfl
  | _ =>
    rw [hst] at hs
    cases hs

lemma step_connect (hs : s.step evaluate .connect = some s') : Described s' := by
  rcases h.connected with hconnected | hconnected
  · simp only [GoldFilter.step, hconnected, Option.some.injEq] at hs
    subst hs
    have hcells : ∀ i, cellsOf (Function.update s.promises .connected (.fulfilled .undefined)) i =
        cellsOf s.promises i := fun i => by simp [cellsOf]
    refine ⟨stage, ⟨fun i => (hcells i).trans (h.cells i), h.born, ?_, .inr ?_, h.classPromise,
      h.order, h.barred⟩, hr.silent (fun _ => ⟨Iff.rfl, rfl, rfl⟩) _⟩
    · simpa [GoldFilter.set] using h.resolved
    · simp [GoldFilter.set]
  · simp only [GoldFilter.step, hconnected] at hs
    cases hs

lemma step_data {id : ℕ} {value : Value} (hs : s.step evaluate (.data id value) = some s') :
    Described s' := by
  obtain rfl := Option.some.inj hs
  have hstray : (∀ p, s.callbacks id ≠ some (.resolve p)) →
      Described { s with callbacks := Function.update s.callbacks id none } := by
    intro hnone
    refine ⟨stage, ⟨h.cells, h.born, h.resolved, h.connected, h.classPromise, h.order, h.barred⟩,
      hr.answer s.promises (fun _ => Iff.rfl) (fun _ => rfl) fun i id' => ?_⟩
    refine (and_iff_left_of_imp ?_).symm
    rintro hi rfl
    exact hnone _ ((hr.callbacks id' _).mpr ⟨i, rfl, hi⟩)
  cases hcallback : s.callbacks id with
  | none =>
    rw [GoldFilter.data, hcallback]
    exact hstray fun p hp => nomatch hcallback.symm.trans hp
  | some res =>
    cases res with
    | other =>
      rw [GoldFilter.data, hcallback]
      exact hstray fun p hp => nomatch hcallback.symm.trans hp
    | resolve p =>
      rw [GoldFilter.data, hcallback]
      obtain ⟨k, rfl, hk⟩ := (hr.callbacks id p).mp hcallback
      obtain ⟨v, hst⟩ := Stage.exists_of_awaiting hk
      have hcells : cellsOf (Function.update s.promises (.reply k) (.fulfilled value)) k =
          (Stage.answered v id value).cells k (s.nameOf k) := by
        rw [cellsOf_update rfl, h.cells, hst]
        rfl
      have hframe := (Frame.refl k s.promises).update (p := .reply k) rfl (.fulfilled value)
      refine ⟨Function.update stage k (.answered v id value),
        h.move (hst ▸ moves_answered v id value) hframe hcells rfl rfl,
        hr.answer _ (fun i => ?_) (fun i => ?_) fun i id' => ?_⟩
      · exact iff_of_eq (update_congr (by rw [hst]; rfl) i)
      · exact update_congr (by rw [hst]; rfl) i
      · by_cases hik : i = k
        · rw [hik, Function.update_self, hst]
          exact iff_of_false nofun fun hne => hne.2 (Option.some.inj hne.1).symm
        · rw [Function.update_of_ne hik]
          refine (and_iff_left_of_imp ?_).symm
          rintro hi rfl
          have hsame := ((hr.callbacks id' (.reply i)).mpr ⟨i, rfl, hi⟩).symm.trans hcallback
          simp only [Option.some.injEq, Callback.resolve.injEq, PromiseId.reply.injEq] at hsame
          exact hik hsame

lemma step_command {name : String} {arg : List (String × Value)}
    (hs : s.step evaluate (.command name arg) = some s') : Described s' := by
  have hs' : name ≠ "load_module" ∧ s' = s.write .other name arg := by
    rcases h.connected with hconnected | hconnected
    · simp only [GoldFilter.step, hconnected] at hs
      cases hs
    · simp only [GoldFilter.step, hconnected] at hs
      split_ifs at hs with hname
      exact ⟨hname, (Option.some.inj hs).symm⟩
  obtain ⟨hname, rfl⟩ := hs'
  refine ⟨stage, ⟨h.cells, h.born, h.resolved, h.connected, h.classPromise, h.order, h.barred⟩,
    hr.evaluated, fun i => ?_, fun id p => ?_,
    fun i v id hi => callbacks_write hr hi .other name arg,
    fun id hid => fresh_write hr hid .other name arg,
    fun i v id hi => Nat.le_succ_of_le (hr.ids i v id hi)⟩
  · rw [GoldFilter.loads_write_of_ne s hname]
    exact hr.loads i
  · show Function.update s.callbacks _ _ _ = _ ↔ _
    by_cases hid : id = s.callid + 1
    · rw [hid, Function.update_self]
      refine iff_of_false nofun ?_
      rintro ⟨i, -, hi⟩
      exact not_awaiting_next hr i hi
    · rw [Function.update_of_ne hid]
      exact hr.callbacks id p

omit h hr in
lemma nameOf_addClass {i : ℕ} (hi : i ≠ s.added.length) (name filePath : String) :
    (s.addClass name filePath).nameOf i = s.nameOf i :=
  congrArg (fun cls : Option (String × String) => (cls.map Prod.fst).getD "")
    (getElem?_concat_of_ne hi _)

omit h hr in
lemma nameOf_addClass_self (s : GoldFilter E) (name filePath : String) :
    (s.addClass name filePath).nameOf s.added.length = name := by
  rw [GoldFilter.nameOf, GoldFilter.addClass, List.getElem?_concat_length]
  rfl

omit h hr in
/-- What a new call has not is had by old calls only. -/
lemma of_update_building {P : Stage → Prop} (hP : ¬ P .building) {i : ℕ}
    (hi : P (Function.update stage k .building i)) : i ≠ k ∧ P (stage i) := by
  have hne : i ≠ k := by
    rintro rfl
    rw [Function.update_self] at hi
    exact hP hi
  rw [Function.update_of_ne hne] at hi
  exact ⟨hne, hi⟩

omit h hr in
/-- What is had by old calls is kept. -/
lemma update_building {P : Stage → Prop} (hP : ¬ P .unborn) (hunborn : stage k = .unborn) {i : ℕ}
    (hi : P (stage i)) : P (Function.update stage k .building i) := by
  have hne : i ≠ k := by
    rintro rfl
    exact hP (hunborn ▸ hi)
  rwa [Function.update_of_ne hne]

omit hr in
lemma staged_addClass (name filePath : String) : Staged (s.addClass name filePath)
    (Function.update stage s.added.length .building) := by
  have hunborn : stage s.added.length = .unborn := (h.born _).mpr (Nat.le_refl _)
  have hlength : (s.addClass name filePath).added.length = s.added.length + 1 := List.length_append
  refine ⟨fun i => ?_, fun i => ?_, h.resolved, h.connected, ?_, fun i hi j hj => ?_,
    fun i hi => ?_⟩
  · by_cases hik : i = s.added.length
    · subst hik
      rw [nameOf_addClass_self, Function.update_self]
      show cellsOf (Function.update (Function.update (Function.update _ _ _) _ _) _ _) _ = _
      rw [cellsOf_update rfl, cellsOf_update rfl, cellsOf_update rfl, h.cells, hunborn,
        h.classPromise]
      rfl
    · have hframe := (((Frame.refl s.added.length s.promises).update (p := .build _) rfl
        .pending).update (p := .source _) rfl (.awaits (.build s.added.length)
          (.wait s.added.length s.classPromise))).update (p := .prom _) rfl
          (.awaits (.source s.added.length) (.load s.added.length name))
      rw [nameOf_addClass hik, Function.update_of_ne hik, ← h.cells]
      exact hframe.cellsOf hik
  · rw [hlength]
    by_cases hik : i = s.added.length
    · subst hik
      rw [Function.update_self]
      exact iff_of_false nofun (Nat.not_succ_le_self _)
    · rw [Function.update_of_ne hik, h.born]
      omega
  · rw [hlength]
    rfl
  · obtain ⟨-, hpassed⟩ := of_update_building (P := Stage.passed) id hi
    exact update_building (P := Stage.isLoaded) id hunborn (h.order i hpassed j hj)
  · obtain ⟨-, hbarred⟩ := of_update_building (P := Stage.barred) id hi
    obtain ⟨j, rfl, hj⟩ := h.barred i hbarred
    exact ⟨j, rfl, update_building (P := Stage.isFailed) id hunborn hj⟩

/-- Nothing is recorded of a call that begins but its name. -/
lemma recorded_addClass (name filePath : String) : Recorded (s.addClass name filePath)
    (Function.update stage s.added.length .building) := by
  have hunborn : stage s.added.length = .unborn := (h.born _).mpr (Nat.le_refl _)
  have hbuilding : Silent (stage s.added.length) .building := by
    rw [hunborn]
    exact ⟨Iff.rfl, rfl, rfl⟩
  refine ⟨fun i hi => ?_, fun i => ?_, fun id p => ?_, fun i v id hi => ?_, hr.fresh,
    fun i v id hi => hr.ids i v id ((hbuilding.update i).command ▸ hi)⟩
  · obtain ⟨hne, hevaluated⟩ := of_update_building (P := Stage.evaluated) id hi
    rw [nameOf_addClass hne]
    exact hr.evaluated i hevaluated
  · rw [(hbuilding.update i).command]
    by_cases hik : i = s.added.length
    · subst hik
      rw [hunborn]
      exact (hr.loads s.added.length).trans (by rw [hunborn]; rfl)
    · rw [nameOf_addClass hik]
      exact hr.loads i
  · refine (hr.callbacks id p).trans (exists_congr fun i => and_congr_right fun _ => ?_)
    rw [(hbuilding.update i).awaiting]
  · rw [(hbuilding.update i).command] at hi
    rw [(hbuilding.update i).awaiting]
    exact hr.closed i v id hi

lemma step_described {e : Event} (hs : s.step evaluate e = some s') : Described s' := by
  cases e with
  | addClass name filePath =>
    obtain rfl := Option.some.inj hs
    exact ⟨_, staged_addClass h name filePath, recorded_addClass h hr name filePath⟩
  | built k source => exact step_built h hr hs
  | connect => exact step_connect h hr hs
  | data id value => exact step_data h hr hs
  | command name arg => exact step_command h hr hs
  | job t =>
    cases t with
    | resolved =>
      rw [GoldFilter.step, job_of_not_depends h.resolved rfl] at hs
      cases hs
    | connected =>
      rcases h.connected with hconnected | hconnected
      all_goals
        rw [GoldFilter.step, job_of_not_depends hconnected rfl] at hs
        cases hs
    | build k =>
      rw [GoldFilter.step, job_build (h.cells k)] at hs
      cases hs
    | reply k =>
      rw [GoldFilter.step, job_reply (h.cells k)] at hs
      cases hs
    | released k => exact step_released h hr hs
    | source k => exact step_source h hr hs
    | prom k => exact step_prom h hr hs
    | call k => exact step_call h hr hs

end Step

lemma described_new : Described (GoldFilter.new : GoldFilter E) := by
  refine ⟨fun _ => .unborn, ⟨fun _ => rfl, fun k => ?_, rfl, .inl rfl, rfl, nofun, nofun⟩,
    ⟨nofun, fun _ => rfl, fun id p => ?_, nofun, fun _ _ => rfl, nofun⟩⟩
  · exact iff_of_true rfl (Nat.zero_le k)
  · refine iff_of_false nofun ?_
    rintro ⟨_, -, hi⟩
    cases hi

lemma described_of_run {es : List Event}
    (hrun : run (GoldFilter.step evaluate) .new es = some s) : Described s :=
  run_invariant (I := Described) described_new
    (fun _ _ _ ⟨_, h, hr⟩ hs => step_described h hr hs) hrun

end Dripcap.ClassPromise
