import Mathlib.Data.List.Forall2
import Mathlib.Tactic.Cases

/-!
# Computations with a state and exceptions

A computation of `ExceptT ε (StateM σ)` changes a state, and it returns a value or throws an
exception. The changes before an exception are kept.

`outcome` is what a computation comes to in a state, and `Returns` says that it returns a value. The
rules go through a computation from its first step to its last.
-/

namespace Outcome

universe u

variable {σ ε α β : Type u}

/-- What a computation comes to in a state. -/
def outcome (x : ExceptT ε (StateM σ) α) (s : σ) : Except ε α × σ := x.run.run s

/-- In the state `s` a computation returns `a` and leaves the state `s'`. -/
def Returns (x : ExceptT ε (StateM σ) α) (s : σ) (a : α) (s' : σ) : Prop :=
  outcome x s = (.ok a, s')

/-- A computation leaves the state as it is. -/
def Quiet (x : ExceptT ε (StateM σ) α) (s : σ) : Prop := (outcome x s).2 = s

lemma outcome_pure (a : α) (s : σ) :
    outcome (pure a : ExceptT ε (StateM σ) α) s = (.ok a, s) := rfl

lemma outcome_bind (x : ExceptT ε (StateM σ) α) (f : α → ExceptT ε (StateM σ) β) (s : σ) :
    outcome (x >>= f) s = match outcome x s with
      | (.ok a, t) => outcome (f a) t
      | (.error e, t) => (.error e, t) := by
  unfold outcome
  rw [ExceptT.run_bind, StateT.run_bind]
  show (match x.run.run s with | (r, t) => _) = _
  rcases x.run.run s with ⟨e | a, t⟩
  · rfl
  · rfl

lemma outcome_tryCatch (x : ExceptT ε (StateM σ) α) (handle : ε → ExceptT ε (StateM σ) α) (s : σ) :
    outcome (tryCatch x handle) s = match outcome x s with
      | (.ok a, t) => (.ok a, t)
      | (.error e, t) => outcome (handle e) t := by
  show ((x.run >>= fun r => match r with
    | .ok a => pure (.ok a)
    | .error e => handle e).run s : Except ε α × σ) = _
  unfold outcome
  rw [StateT.run_bind]
  rcases x.run.run s with ⟨e | a, t⟩
  · rfl
  · rfl

lemma returns_pure {a b : α} {s s' : σ} :
    Returns (pure a : ExceptT ε (StateM σ) α) s b s' ↔ a = b ∧ s = s' := by
  unfold Returns
  rw [outcome_pure, Prod.mk.injEq, Except.ok.injEq]

/-- One computation after the other returns if both do. -/
lemma returns_bind {x : ExceptT ε (StateM σ) α} {f : α → ExceptT ε (StateM σ) β} {s s' : σ} {b : β} :
    Returns (x >>= f) s b s' ↔ ∃ a t, Returns x s a t ∧ Returns (f a) t b s' := by
  unfold Returns
  rw [outcome_bind]
  constructor
  · intro h
    rcases hx : outcome x s with ⟨e | a, t⟩
    · rw [hx] at h
      cases h
    · rw [hx] at h
      exact ⟨a, t, rfl, h⟩
  · rintro ⟨a, t, hx, hf⟩
    rw [hx]
    exact hf

lemma Returns.bind {x : ExceptT ε (StateM σ) α} {f : α → ExceptT ε (StateM σ) β} {s t u : σ} {a : α}
    {b : β} (hx : Returns x s a t) (hf : Returns (f a) t b u) : Returns (x >>= f) s b u :=
  returns_bind.mpr ⟨a, t, hx, hf⟩

/-- A computation has one outcome. -/
lemma Returns.unique {x : ExceptT ε (StateM σ) α} {s s' t : σ} {a b : α} (h : Returns x s a s')
    (h' : Returns x s b t) : a = b ∧ s' = t := by
  obtain ⟨hok, ht⟩ := Prod.mk.inj (h.symm.trans h')
  exact ⟨Except.ok.inj hok, ht⟩

/-- What has the same outcome is caught alike. -/
lemma outcome_tryCatch_congr {x y : ExceptT ε (StateM σ) α} {s t : σ}
    (h : outcome x s = outcome y t) (handle : ε → ExceptT ε (StateM σ) α) :
    outcome (tryCatch x handle) s = outcome (tryCatch y handle) t := by
  rw [outcome_tryCatch, outcome_tryCatch, h]

/-- What is returned quietly leaves the state as it is. -/
lemma Returns.quiet {x : ExceptT ε (StateM σ) α} {s s' : σ} {a : α} (h : Returns x s a s')
    (hquiet : Quiet x s) : s' = s := by
  unfold Quiet at hquiet
  rwa [h] at hquiet

/-- A quiet computation returns in the same state, or it throws an exception there. -/
lemma Quiet.cases {x : ExceptT ε (StateM σ) α} {s : σ} (h : Quiet x s) :
    (∃ a, Returns x s a s) ∨ ∃ e, outcome x s = (.error e, s) := by
  unfold Quiet at h
  rcases hx : outcome x s with ⟨e | a, t⟩
  · rw [hx] at h
    exact .inr ⟨e, by rw [show t = s from h]⟩
  · rw [hx] at h
    exact .inl ⟨a, hx.trans (by rw [show t = s from h])⟩

/-- Two computations with the same outcome go on alike. -/
lemma outcome_bind_congr {x y : ExceptT ε (StateM σ) α} {s : σ} (h : outcome x s = outcome y s)
    (f : α → ExceptT ε (StateM σ) β) : outcome (x >>= f) s = outcome (y >>= f) s := by
  rw [outcome_bind, outcome_bind, h]

/-- After a computation that returns, the outcome is that of the rest. -/
lemma Returns.outcome_bind {x : ExceptT ε (StateM σ) α} {s t : σ} {a : α} (h : Returns x s a t)
    (f : α → ExceptT ε (StateM σ) β) : outcome (x >>= f) s = outcome (f a) t := by
  rw [Outcome.outcome_bind, h]

/-- An exception ends the computation. -/
lemma outcome_bind_error {x : ExceptT ε (StateM σ) α} {s t : σ} {e : ε}
    (h : outcome x s = (.error e, t)) (f : α → ExceptT ε (StateM σ) β) :
    outcome (x >>= f) s = (.error e, t) := by
  rw [outcome_bind, h]

/-- The same for exceptions without a state. -/
lemma exists_of_except_bind {x : Except ε α} {f : α → Except ε β} {b : β} (h : x >>= f = .ok b) :
    ∃ a, x = .ok a ∧ f a = .ok b := by
  cases x with
  | error e => cases h
  | ok a => exact ⟨a, rfl, h⟩

/-! ### Computations that return in every state or in none -/

section Uniform

variable {κ : Type*} {view : σ → κ} {x : ExceptT ε (StateM σ) α} {P P' : α → Prop}

/-- Whatever the state is, `x` returns `a` exactly if `P a`, and it leaves the view of the state,
also when it throws. -/
structure Uniform (view : σ → κ) (x : ExceptT ε (StateM σ) α) (P : α → Prop) : Prop where
  returns_iff : ∀ s a, (∃ t, Returns x s a t) ↔ P a
  keeps : ∀ s, view (outcome x s).2 = view s

lemma Uniform.congr (h : Uniform view x P) (hP : ∀ a, P a ↔ P' a) : Uniform view x P' :=
  ⟨fun s a => (h.returns_iff s a).trans (hP a), h.keeps⟩

lemma Uniform.returns (h : Uniform view x P) {s t : σ} {a : α} (hx : Returns x s a t) :
    view t = view s := by
  have hkeeps := h.keeps s
  rwa [show outcome x s = _ from hx] at hkeeps

lemma Uniform.throws (h : Uniform view x P) {s t : σ} {e : ε} (hx : outcome x s = (.error e, t)) :
    view t = view s := by
  have hkeeps := h.keeps s
  rwa [hx] at hkeeps

lemma uniform_pure (a : α) :
    Uniform view (pure a : ExceptT ε (StateM σ) α) fun b => a = b := by
  constructor
  · intro s b
    simp only [returns_pure, exists_and_left, exists_eq', and_true]
  · intro s
    rfl

lemma uniform_throw (e : ε) :
    Uniform view (throw e : ExceptT ε (StateM σ) α) fun _ => False := by
  constructor
  · intro s a
    refine ⟨fun ⟨t, h⟩ => ?_, False.elim⟩
    cases h
  · intro s
    rfl

lemma returns_modify {f : σ → σ} {s t : σ} {u : PUnit} :
    Returns (modify f : ExceptT ε (StateM σ) PUnit) s u t ↔ f s = t := by
  constructor
  · intro h
    exact (Prod.mk.inj h).2
  · rintro rfl
    rfl

lemma uniform_modify {f : σ → σ} (hf : ∀ s, view (f s) = view s) :
    Uniform view (modify f : ExceptT ε (StateM σ) PUnit) fun _ => True := by
  constructor
  · intro s u
    simp only [returns_modify, exists_eq']
  · exact hf

/-- The rest is asked about every value that the first part can return. -/
lemma Uniform.bind {f : α → ExceptT ε (StateM σ) β} {Q : α → β → Prop} (hx : Uniform view x P)
    (hf : ∀ a, Uniform view (f a) (Q a)) : Uniform view (x >>= f) fun b => ∃ a, P a ∧ Q a b := by
  constructor
  · intro s b
    constructor
    · rintro ⟨u, h⟩
      obtain ⟨a, t, ha, hb⟩ := returns_bind.mp h
      exact ⟨a, (hx.returns_iff s a).mp ⟨t, ha⟩, ((hf a).returns_iff t b).mp ⟨u, hb⟩⟩
    · rintro ⟨a, hP, hQ⟩
      obtain ⟨t, ha⟩ := (hx.returns_iff s a).mpr hP
      obtain ⟨u, hb⟩ := ((hf a).returns_iff t b).mpr hQ
      exact ⟨u, returns_bind.mpr ⟨a, t, ha, hb⟩⟩
  · intro s
    rw [outcome_bind]
    rcases h : outcome x s with ⟨e | a, t⟩
    · exact hx.throws h
    · exact ((hf a).keeps t).trans (hx.returns h)

/-- The elements of a list one after the other. -/
lemma uniform_mapM {f : α → ExceptT ε (StateM σ) β} {Q : α → β → Prop}
    (hf : ∀ a, Uniform view (f a) (Q a)) (as : List α) :
    Uniform view (as.mapM f) (List.Forall₂ Q as) := by
  induction as with
  | nil =>
    rw [List.mapM_nil]
    exact (uniform_pure []).congr fun bs => eq_comm.trans List.forall₂_nil_left_iff.symm
  | cons a as ih =>
    rw [List.mapM_cons]
    refine ((hf a).bind fun b => ih.bind fun bs => uniform_pure (b :: bs)).congr fun bs => ?_
    rw [List.forall₂_cons_left_iff]
    simp only [eq_comm, exists_and_left]

end Uniform

/-! ### Computations that return the same -/

section Alike

/-- Where both of two computations return, they return the same and leave the same state. -/
def Alike (x y : ExceptT ε (StateM σ) α) : Prop :=
  ∀ s a b t u, Returns x s a t → Returns y s b u → a = b ∧ t = u

lemma alike_refl (x : ExceptT ε (StateM σ) α) : Alike x x :=
  fun _ _ _ _ _ h h' => h.unique h'

lemma Alike.bind {x y : ExceptT ε (StateM σ) α} {f g : α → ExceptT ε (StateM σ) β} (h : Alike x y)
    (hf : ∀ a, Alike (f a) (g a)) : Alike (x >>= f) (y >>= g) := by
  intro s c d t u hc hd
  obtain ⟨a, t', ha, hc⟩ := returns_bind.mp hc
  obtain ⟨b, u', hb, hd⟩ := returns_bind.mp hd
  obtain ⟨rfl, rfl⟩ := h s a b t' u' ha hb
  exact hf a t' c d t u hc hd

lemma alike_mapM {f g : α → ExceptT ε (StateM σ) β} (h : ∀ a, Alike (f a) (g a)) (as : List α) :
    Alike (as.mapM f) (as.mapM g) := by
  induction as with
  | nil => exact alike_refl _
  | cons a as ih =>
    rw [List.mapM_cons, List.mapM_cons]
    exact (h a).bind fun b => ih.bind fun bs => alike_refl _

end Alike

/-! ### Computations that fail -/

section Fails

variable {x : ExceptT ε (StateM σ) α} {f : α → ExceptT ε (StateM σ) β} {P : α → Prop}

/-- In every state `x` throws an exception. -/
def Fails (x : ExceptT ε (StateM σ) α) : Prop := ∀ s, ∃ e t, outcome x s = (.error e, t)

/-- Whatever `x` returns is in `P`. -/
def Yields (x : ExceptT ε (StateM σ) α) (P : α → Prop) : Prop := ∀ s a t, Returns x s a t → P a

lemma yields_true : Yields x fun _ => True := fun _ _ _ _ => trivial

lemma yields_pure {a : α} (h : P a) : Yields (pure a : ExceptT ε (StateM σ) α) P := by
  intro s b t hret
  obtain ⟨rfl, -⟩ := returns_pure.mp hret
  exact h

lemma Yields.bind {Q : β → Prop} (hx : Yields x P) (hf : ∀ a, P a → Yields (f a) Q) :
    Yields (x >>= f) Q := by
  intro s b u h
  obtain ⟨a, t, ha, hb⟩ := returns_bind.mp h
  exact hf a (hx s a t ha) t b u hb

lemma fails_throw (e : ε) : Fails (throw e : ExceptT ε (StateM σ) α) := fun s => ⟨e, s, rfl⟩

/-- The first part fails. -/
lemma Fails.bind (hx : Fails x) : Fails (x >>= f) := by
  intro s
  obtain ⟨e, t, h⟩ := hx s
  exact ⟨e, t, outcome_bind_error h f⟩

/-- The rest fails after whatever the first part returns. -/
lemma Yields.fails_bind (hx : Yields x P) (hf : ∀ a, P a → Fails (f a)) : Fails (x >>= f) := by
  intro s
  rcases hout : outcome x s with ⟨e | a, t⟩
  · exact ⟨e, t, outcome_bind_error hout f⟩
  · rw [Returns.outcome_bind hout]
    exact hf a (hx s a t hout) t

lemma fails_bind (hf : ∀ a, Fails (f a)) : Fails (x >>= f) := yields_true.fails_bind fun a _ => hf a

end Fails

/-! ### Parts of the state that are kept -/

section Keeps

variable {κ : Type*} {view : σ → κ} {x : ExceptT ε (StateM σ) α} {f : α → ExceptT ε (StateM σ) β}

/-- However `x` ends, it leaves the view of the state. -/
def Keeps (view : σ → κ) (x : ExceptT ε (StateM σ) α) : Prop := ∀ s, view (outcome x s).2 = view s

@[simp] lemma keeps_pure (a : α) : Keeps view (pure a : ExceptT ε (StateM σ) α) := fun _ => rfl

@[simp] lemma keeps_throw (e : ε) : Keeps view (throw e : ExceptT ε (StateM σ) α) := fun _ => rfl

@[simp] lemma keeps_ofExcept (r : Except ε α) :
    Keeps view (MonadExcept.ofExcept r : ExceptT ε (StateM σ) α) := by
  cases r with
  | error e => exact keeps_throw e
  | ok a => exact keeps_pure a

@[simp] lemma keeps_bind (hx : Keeps view x) (hf : ∀ a, Keeps view (f a)) :
    Keeps view (x >>= f) := by
  intro s
  have hview := hx s
  rw [outcome_bind]
  rcases hout : outcome x s with ⟨e | a, t⟩
  · rwa [hout] at hview
  · rw [hout] at hview
    exact (hf a t).trans hview

@[simp] lemma keeps_map {g : α → β} (hx : Keeps view x) : Keeps view (g <$> x) := by
  rw [map_eq_pure_bind]
  exact keeps_bind hx fun a => keeps_pure (g a)

end Keeps

/-! ### Triples -/

section Triple

variable {x : ExceptT ε (StateM σ) α} {I J : σ → Prop} {Q : α → σ → Prop} {E : ε → σ → Prop}

/-- From a state in `I`, what `x` returns is in `Q` with the state then, and what it throws is in
`E`. -/
def Triple (I : σ → Prop) (x : ExceptT ε (StateM σ) α) (Q : α → σ → Prop) (E : ε → σ → Prop) : Prop :=
  ∀ s, I s → (∀ a t, outcome x s = (.ok a, t) → Q a t) ∧ ∀ e t, outcome x s = (.error e, t) → E e t

lemma triple_pure {a : α} (h : ∀ s, I s → Q a s) : Triple I (pure a) Q E := by
  intro s hs
  rw [outcome_pure]
  constructor
  · rintro b t ⟨⟩
    exact h s hs
  · rintro e t ⟨⟩

lemma triple_throw {e : ε} (h : ∀ s, I s → E e s) :
    Triple I (throw e : ExceptT ε (StateM σ) α) Q E := by
  intro s hs
  constructor
  · rintro b t ⟨⟩
  · rintro e t ⟨⟩
    exact h s hs

/-- A computation that returns. -/
lemma triple_of_returns (h : ∀ s, I s → ∃ a t, Returns x s a t ∧ Q a t) : Triple I x Q E := by
  intro s hs
  obtain ⟨a, t, hret, hQ⟩ := h s hs
  rw [hret]
  constructor
  · rintro b u ⟨⟩
    exact hQ
  · rintro e u ⟨⟩

lemma Triple.bind {f : α → ExceptT ε (StateM σ) β} {R : β → σ → Prop} (hx : Triple I x Q E)
    (hf : ∀ a, Triple (Q a) (f a) R E) : Triple I (x >>= f) R E := by
  intro s hs
  obtain ⟨hok, herror⟩ := hx s hs
  rw [Outcome.outcome_bind]
  rcases hout : outcome x s with ⟨e | a, t⟩
  · constructor
    · rintro b u ⟨⟩
    · rintro e u ⟨⟩
      exact herror e t hout
  · exact hf a t (hok a t hout)

/-- The first part returns `a` and leaves the state as it is. -/
lemma triple_bind_of_returns {f : α → ExceptT ε (StateM σ) β} {R : β → σ → Prop} {a : α}
    (hx : ∀ s, I s → Returns x s a s) (hf : Triple I (f a) R E) : Triple I (x >>= f) R E := by
  intro s hs
  rw [(hx s hs).outcome_bind]
  exact hf s hs

lemma Triple.mono {Q' : α → σ → Prop} {E' : ε → σ → Prop} (h : Triple I x Q E) (hI : ∀ s, J s → I s)
    (hQ : ∀ a s, Q a s → Q' a s) (hE : ∀ e s, E e s → E' e s) : Triple J x Q' E' := by
  intro s hs
  obtain ⟨hok, herror⟩ := h s (hI s hs)
  exact ⟨fun a t hout => hQ a t (hok a t hout), fun e t hout => hE e t (herror e t hout)⟩

end Triple

end Outcome
