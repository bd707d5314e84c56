import Mathlib.Data.List.Induction
import Mathlib.Data.Option.Basic

/-!
# Runs of a labelled step function

A system is given by a partial function `step : σ → ε → Option σ`: in state `s` the label `e`
either is not enabled or leads to one next state. Everything a system may choose (which thread
moves, what its environment answers) is part of the label, so the runs of the system are the
label sequences that are enabled one after the other.

`run` performs such a sequence, `observe` collects what an observer sees along it, and `Meets`
says that every step of it satisfies a condition on the label and the state before it. The
induction rules go from the left end of a run to its right end, because an invariant speaks
about the state reached and about the labels already performed.
-/

namespace Run

variable {σ ε α : Type*} {step : σ → ε → Option σ}

/-- Perform the labels of a list one after the other. -/
def run (step : σ → ε → Option σ) (s : σ) : List ε → Option σ
  | [] => some s
  | e :: es => (step s e).bind fun s' => run step s' es

/-- What an observer sees along a run: `obs` is asked once for every step performed. -/
def observe (step : σ → ε → Option σ) (obs : σ → ε → σ → List α) (s : σ) : List ε → List α
  | [] => []
  | e :: es => match step s e with
    | none => []
    | some s' => obs s e s' ++ observe step obs s' es

/-- Every step of a run satisfies `P`, which sees the labels performed before (`h` to begin
with), the state before the step and the label. -/
def MeetsAlong (step : σ → ε → Option σ) (P : List ε → σ → ε → Prop) (h : List ε) (s : σ) :
    List ε → Prop
  | [] => True
  | e :: es => P h s e ∧ ∀ s', step s e = some s' → MeetsAlong step P (h ++ [e]) s' es

/-- Every step of a run satisfies `P`, which sees the state before the step and the label. -/
abbrev Meets (step : σ → ε → Option σ) (P : σ → ε → Prop) (s : σ) (es : List ε) : Prop :=
  MeetsAlong step (fun _ => P) [] s es

/-- The states that some run leads to. -/
def Reachable (step : σ → ε → Option σ) (s₀ s : σ) : Prop :=
  ∃ es, run step s₀ es = some s

@[simp] lemma run_nil (s : σ) : run step s [] = some s := rfl

@[simp] lemma run_cons (s : σ) (e : ε) (es : List ε) :
    run step s (e :: es) = (step s e).bind fun s' => run step s' es := rfl

/-- A run of a concatenation performs its two parts one after the other. -/
lemma run_append (s : σ) (es es' : List ε) :
    run step s (es ++ es') = (run step s es).bind fun s' => run step s' es' := by
  induction es generalizing s with
  | nil => rfl
  | cons e es ih =>
    simp only [List.cons_append, run_cons, Option.bind_assoc]
    exact congrArg _ (funext ih)

lemma run_append_iff {s s' : σ} {es es' : List ε} :
    run step s (es ++ es') = some s' ↔
      ∃ m, run step s es = some m ∧ run step m es' = some s' := by
  rw [run_append, Option.bind_eq_some_iff]

lemma run_concat_iff {s s' : σ} {es : List ε} {e : ε} :
    run step s (es ++ [e]) = some s' ↔ ∃ m, run step s es = some m ∧ step m e = some s' := by
  rw [run_append_iff]
  simp

/-- Runs compose. -/
lemma run_trans {s m s' : σ} {es es' : List ε} (h : run step s es = some m)
    (h' : run step m es' = some s') : run step s (es ++ es') = some s' :=
  run_append_iff.mpr ⟨m, h, h'⟩

/-- Where every label is enabled in every state, every list of labels is a run. -/
lemma exists_run (enabled : ∀ s e, ∃ s', step s e = some s') (s : σ) (es : List ε) :
    ∃ s', run step s es = some s' := by
  induction es generalizing s with
  | nil => exact ⟨s, rfl⟩
  | cons e es ih =>
    obtain ⟨m, hm⟩ := enabled s e
    rw [run_cons, hm]
    exact ih m

/-! ### Induction from the left end to the right end -/

/-- A property of the labels performed and the state reached holds along every run when the
empty run has it and one more step keeps it. -/
theorem run_induction {s₀ : σ} {motive : List ε → σ → Prop} (nil : motive [] s₀)
    (concat : ∀ es s e s', run step s₀ es = some s → motive es s → step s e = some s' →
      motive (es ++ [e]) s') :
    ∀ {es s}, run step s₀ es = some s → motive es s := by
  intro es
  induction es using List.reverseRecOn with
  | nil =>
    intro s h
    obtain rfl : s₀ = s := by simpa using h
    exact nil
  | append_singleton es e ih =>
    intro s h
    obtain ⟨m, hm, hstep⟩ := run_concat_iff.mp h
    exact concat es m e s hm (ih hm) hstep

/-- An invariant: true at the start and kept by every step. -/
theorem run_invariant {s₀ : σ} {I : σ → Prop} (init : I s₀)
    (keep : ∀ s e s', I s → step s e = some s' → I s') {es : List ε} {s : σ}
    (h : run step s₀ es = some s) : I s :=
  run_induction (motive := fun _ s => I s) init (fun _ s e s' _ hI hs => keep s e s' hI hs) h

/-- A preorder that every step respects is respected by runs. -/
theorem run_mono {R : σ → σ → Prop} (refl : ∀ s, R s s) (trans : ∀ a b c, R a b → R b c → R a c)
    (mono : ∀ s e s', step s e = some s' → R s s') {s s' : σ} {es : List ε}
    (h : run step s es = some s') : R s s' :=
  run_induction (motive := fun _ t => R s t) (refl s)
    (fun _ t e t' _ hR hs => trans s t t' hR (mono t e t' hs)) h

/-! ### Observations -/

lemma observe_append (obs : σ → ε → σ → List α) {s m : σ} {es : List ε}
    (h : run step s es = some m) (es' : List ε) :
    observe step obs s (es ++ es') = observe step obs s es ++ observe step obs m es' := by
  induction es generalizing s with
  | nil =>
    obtain rfl : s = m := by simpa using h
    rfl
  | cons e es ih =>
    obtain ⟨t, ht, hm⟩ := Option.bind_eq_some_iff.mp h
    simp only [List.cons_append, observe, ht, ih hm, List.append_assoc]

/-- One more step adds its own observation at the end. -/
lemma observe_concat (obs : σ → ε → σ → List α) {s m s' : σ} {es : List ε} {e : ε}
    (h : run step s es = some m) (hs : step m e = some s') :
    observe step obs s (es ++ [e]) = observe step obs s es ++ obs m e s' := by
  rw [observe_append obs h]
  simp [observe, hs]

/-- What is observed along a run is observed at one of its steps. -/
lemma mem_observe {obs : σ → ε → σ → List α} {s : σ} {es : List ε} {a : α}
    (ha : a ∈ observe step obs s es) :
    ∃ e ∈ es, ∃ t t', step t e = some t' ∧ a ∈ obs t e t' := by
  induction es generalizing s with
  | nil => cases ha
  | cons e es ih =>
    simp only [observe] at ha
    split at ha
    · cases ha
    · rename_i s' hs
      rcases List.mem_append.mp ha with ha | ha
      · exact ⟨e, List.mem_cons_self, s, s', hs, ha⟩
      · obtain ⟨e', he', h⟩ := ih ha
        exact ⟨e', List.mem_cons_of_mem e he', h⟩

/-- An observer that sees less at every step sees less of a run. -/
lemma observe_sublist {obs obs' : σ → ε → σ → List α} (h : ∀ s e s', (obs s e s').Sublist (obs' s e s'))
    (s : σ) (es : List ε) : (observe step obs s es).Sublist (observe step obs' s es) := by
  induction es generalizing s with
  | nil => exact .slnil
  | cons e es ih =>
    simp only [observe]
    split
    · exact .slnil
    · exact (h _ _ _).append (ih _)

lemma map_observe {β : Type*} (f : α → β) (obs : σ → ε → σ → List α) (s : σ) (es : List ε) :
    (observe step obs s es).map f = observe step (fun s e s' => (obs s e s').map f) s es := by
  induction es generalizing s with
  | nil => rfl
  | cons e es ih =>
    simp only [observe]
    split
    · rfl
    · rw [List.map_append, ih]

/-! ### Runs whose steps all meet a condition -/

variable {P : List ε → σ → ε → Prop} {h : List ε}

lemma meets_cons {s s' : σ} {e : ε} {es : List ε} (hs : step s e = some s') :
    MeetsAlong step P h s (e :: es) ↔ P h s e ∧ MeetsAlong step P (h ++ [e]) s' es := by
  simp only [MeetsAlong, hs, Option.some.injEq, forall_eq']

lemma meets_append {s m : σ} {es : List ε} (hm : run step s es = some m) (es' : List ε) :
    MeetsAlong step P h s (es ++ es') ↔
      MeetsAlong step P h s es ∧ MeetsAlong step P (h ++ es) m es' := by
  induction es generalizing s h with
  | nil =>
    obtain rfl : s = m := by simpa using hm
    simp [MeetsAlong]
  | cons e es ih =>
    obtain ⟨t, ht, hm⟩ := Option.bind_eq_some_iff.mp hm
    rw [List.cons_append, meets_cons ht, meets_cons ht, ih hm, and_assoc, List.append_assoc,
      List.singleton_append]

lemma meets_concat {s m s' : σ} {es : List ε} {e : ε} (hm : run step s es = some m)
    (hs : step m e = some s') :
    MeetsAlong step P h s (es ++ [e]) ↔ MeetsAlong step P h s es ∧ P (h ++ es) m e := by
  rw [meets_append hm, meets_cons hs]
  simp [MeetsAlong]

/-- Induction along a run whose steps all meet a condition. -/
theorem meets_induction {s₀ : σ} {motive : List ε → σ → Prop} (nil : motive [] s₀)
    (concat : ∀ es s e s', run step s₀ es = some s → motive es s → P es s e →
      step s e = some s' → motive (es ++ [e]) s') :
    ∀ {es s}, MeetsAlong step P [] s₀ es → run step s₀ es = some s → motive es s := by
  intro es s hP hrun
  refine run_induction (motive := fun es s => MeetsAlong step P [] s₀ es → motive es s)
    (fun _ => nil) ?_ hrun hP
  intro es s e s' hrun ih hs hP'
  obtain ⟨hes, he⟩ := (meets_concat hrun hs).mp hP'
  exact concat es s e s' hrun (ih hes) he hs

/-- The condition `C` is exact for the property `T`: steps that meet it keep an invariant that
implies `T`, and a step that leads from `T` to `T` meets it. Then `T` holds in all states along a
run exactly when all its steps meet `C`. -/
theorem forall_prefix_iff_meets {s₀ : σ} {I T : σ → Prop} {C : σ → ε → Prop} (init : I s₀)
    (imp : ∀ s, I s → T s) (keep : ∀ s e s', I s → C s e → step s e = some s' → I s')
    (tight : ∀ s e s', T s → step s e = some s' → T s' → C s e) {es : List ε} {s : σ}
    (hrun : run step s₀ es = some s) :
    (∀ es' s', es' <+: es → run step s₀ es' = some s' → T s') ↔ Meets step C s₀ es := by
  constructor
  · refine run_induction (motive := fun es _ =>
      (∀ es' s', es' <+: es → run step s₀ es' = some s' → T s') → Meets step C s₀ es)
      (fun _ => trivial) ?_ hrun
    intro es s e s' hes ih hstep hall
    have hprefix : es <+: es ++ [e] := List.prefix_append es [e]
    have hs : T s := hall es s hprefix hes
    have hs' : T s' := hall (es ++ [e]) s' (List.prefix_refl _) (run_concat_iff.mpr ⟨s, hes, hstep⟩)
    refine (meets_concat hes hstep).mpr ⟨ih fun es' t ht => ?_, tight s e s' hs hstep hs'⟩
    exact hall es' t (ht.trans hprefix)
  · intro hmeets es' s' hprefix hrun'
    obtain ⟨rest, rfl⟩ := hprefix
    apply imp
    exact meets_induction (motive := fun _ s => I s) init
      (fun _ s e s' _ hI hC hstep => keep s e s' hI hC hstep)
      ((meets_append hrun' rest).mp hmeets).1 hrun'

/-- The condition `C` is exact for `T`, and what satisfies `T` is enabled. Then every label of a
list comes in a state that a run leads to and satisfies `T` there, exactly when the list
meets `C`. -/
theorem forall_label_iff_meets {T C : σ → ε → Prop} (hexact : ∀ s e, T s e ↔ C s e)
    (enabled : ∀ s e, T s e → ∃ s', step s e = some s') {s : σ} {es : List ε} :
    (∀ es' e, es' ++ [e] <+: es → ∃ t, run step s es' = some t ∧ T t e) ↔
      MeetsAlong step (fun _ => C) h s es := by
  induction es generalizing s h with
  | nil => simp [MeetsAlong]
  | cons e es ih =>
    constructor
    · intro hall
      obtain ⟨t, ht, hT⟩ := hall [] e (by simp)
      obtain rfl : s = t := by simpa using ht
      refine ⟨(hexact s e).mp hT, fun s' hs => ih.mp fun es' e' hprefix => ?_⟩
      obtain ⟨u, hu, hT'⟩ := hall (e :: es') e' (List.cons_prefix_cons.mpr ⟨rfl, hprefix⟩)
      rw [run_cons, hs, Option.bind_some] at hu
      exact ⟨u, hu, hT'⟩
    · rintro ⟨hC, hrest⟩ es' e' hprefix
      have hT := (hexact s e).mpr hC
      obtain ⟨s', hs⟩ := enabled s e hT
      cases es' with
      | nil =>
        obtain ⟨rfl, -⟩ := List.cons_prefix_cons.mp hprefix
        exact ⟨s, rfl, hT⟩
      | cons first es' =>
        obtain ⟨rfl, hprefix'⟩ := List.cons_prefix_cons.mp hprefix
        obtain ⟨t, ht, hT'⟩ := ih.mpr (hrest s' hs) es' e' hprefix'
        refine ⟨t, ?_, hT'⟩
        rw [run_cons, hs, Option.bind_some, ht]

/-- What is seen of a state through `f` should follow another step function `spec`, and `C` is exact
for one step to do so. Then a run and all its beginnings do so exactly when its steps meet `C`. -/
theorem forall_map_run_iff_meets {τ : Type*} {f : σ → τ} {spec : τ → ε → Option τ}
    {C : σ → ε → Prop} (hexact : ∀ s e, (step s e).map f = spec (f s) e ↔ C s e) {s : σ}
    {es : List ε} :
    (∀ es', es' <+: es → (run step s es').map f = run spec (f s) es') ↔
      MeetsAlong step (fun _ => C) h s es := by
  induction es generalizing s h with
  | nil =>
    refine iff_of_true (fun es' hprefix => ?_) trivial
    rw [List.prefix_nil.mp hprefix]
    rfl
  | cons e es ih =>
    constructor
    · intro hall
      have hstep : (step s e).map f = spec (f s) e := by
        have hone := hall [e] (List.cons_prefix_cons.mpr ⟨rfl, List.nil_prefix⟩)
        simpa using hone
      refine ⟨(hexact s e).mp hstep, fun s' hs => ih.mp fun es' hprefix => ?_⟩
      have hmore := hall (e :: es') (List.cons_prefix_cons.mpr ⟨rfl, hprefix⟩)
      rwa [run_cons, run_cons, ← hstep, hs, Option.map_some, Option.bind_some,
        Option.bind_some] at hmore
    · rintro ⟨hC, hrest⟩ es' hprefix
      cases es' with
      | nil => rfl
      | cons first es' =>
        obtain ⟨rfl, hprefix'⟩ := List.cons_prefix_cons.mp hprefix
        rw [run_cons, run_cons, ← (hexact s first).mpr hC]
        cases hs : step s first with
        | none => rfl
        | some s' => exact ih.mpr (hrest s' hs) es' hprefix'

/-! ### Properties of the labels performed -/

/-- What one more label does to a property decides whether all beginnings of a list have it. -/
theorem forall_prefix_iff {T : List ε → Prop} {C : List ε → ε → Prop} (nil : T [])
    (concat : ∀ es e, T es → (T (es ++ [e]) ↔ C es e)) (es : List ε) :
    (∀ es', es' <+: es → T es') ↔ ∀ es' e, es' ++ [e] <+: es → C es' e := by
  constructor
  · intro h es' e hprefix
    exact (concat es' e (h es' ((List.prefix_append es' [e]).trans hprefix))).mp
      (h (es' ++ [e]) hprefix)
  · intro h es'
    induction es' using List.reverseRecOn with
    | nil => exact fun _ => nil
    | append_singleton es' e ih =>
      intro hprefix
      exact (concat es' e (ih ((List.prefix_append es' [e]).trans hprefix))).mpr (h es' e hprefix)

end Run
