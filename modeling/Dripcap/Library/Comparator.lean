import Mathlib.Data.Int.ModEq
import Mathlib.Order.WellFoundedSet
import Mathlib.Tactic.Linarith

/-!
# Comparison functions

A comparison function returns a number whose sign tells how its arguments are ordered. `TotalOn`
says that on a set of keys these signs are those of a total order.

Where the number is a difference modulo `2 * n`, taken between `-n` and `n`, this is so exactly when
the residues of the keys are different and lie in one half of the circle of residues.
-/

namespace Comparator

variable {α : Type*} {S : Set α} {cmp : α → α → ℤ}

/-- The laws of a comparison function on the keys in `S`. -/
structure TotalOn (S : Set α) (cmp : α → α → ℤ) : Prop where
  zero_iff : ∀ a ∈ S, ∀ b ∈ S, (cmp a b = 0 ↔ a = b)
  opposite : ∀ a ∈ S, ∀ b ∈ S, (cmp a b).sign = -(cmp b a).sign
  trans : ∀ a ∈ S, ∀ b ∈ S, ∀ c ∈ S, cmp a b < 0 → cmp b c < 0 → cmp a c < 0

/-- The difference of keys that are different numbers is such a function. -/
lemma totalOn_of_key {key : α → ℤ} (hinj : Set.InjOn key S)
    (hcmp : ∀ a ∈ S, ∀ b ∈ S, cmp a b = key a - key b) : TotalOn S cmp where
  zero_iff a ha b hb := by
    rw [hcmp a ha b hb, sub_eq_zero]
    exact hinj.eq_iff ha hb
  opposite a ha b hb := by
    rw [hcmp a ha b hb, hcmp b hb a ha, ← Int.sign_neg, neg_sub]
  trans a ha b hb c hc hab hbc := by
    rw [hcmp a ha b hb] at hab
    rw [hcmp b hb c hc] at hbc
    rw [hcmp a ha c hc]
    linarith

namespace TotalOn

variable {a b : α}

lemma pos_of_neg (h : TotalOn S cmp) (ha : a ∈ S) (hb : b ∈ S) (hab : cmp a b < 0) :
    0 < cmp b a := by
  have hsign := h.opposite b hb a ha
  rw [Int.sign_eq_neg_one_of_neg hab, neg_neg] at hsign
  exact Int.sign_eq_one_iff_pos.mp hsign

lemma neg_or_neg (h : TotalOn S cmp) (ha : a ∈ S) (hb : b ∈ S) (hne : a ≠ b) :
    cmp a b < 0 ∨ cmp b a < 0 := by
  rcases lt_trichotomy (cmp a b) 0 with hlt | heq | hgt
  · exact Or.inl hlt
  · exact absurd ((h.zero_iff a ha b hb).mp heq) hne
  · right
    have hsign := h.opposite b hb a ha
    rw [Int.sign_eq_one_of_pos hgt] at hsign
    exact Int.sign_eq_neg_one_iff_neg.mp hsign

/-- A finite set of keys has a least one. -/
lemma exists_least (h : TotalOn S cmp) (hfin : S.Finite) (hne : S.Nonempty) :
    ∃ r ∈ S, ∀ k ∈ S, k ≠ r → cmp r k < 0 := by
  let lt : α → α → Prop := fun a b => a ∈ S ∧ b ∈ S ∧ cmp a b < 0
  have hirrefl : ∀ a, ¬ lt a a := by
    intro a ⟨ha, _, hlt⟩
    exact absurd ((h.zero_iff a ha a ha).mpr rfl) hlt.ne
  have htrans : ∀ a b c, lt a b → lt b c → lt a c := by
    intro a b c ⟨ha, hb, hab⟩ ⟨_, hc, hbc⟩
    exact ⟨ha, hc, h.trans a ha b hb c hc hab hbc⟩
  have horder : IsStrictOrder α lt := { irrefl := hirrefl, trans := htrans }
  obtain ⟨k₀, hk₀⟩ := hne
  obtain ⟨⟨r, hr⟩, -, hmin⟩ :=
    (hfin.wellFoundedOn (r := lt)).has_min Set.univ ⟨⟨k₀, hk₀⟩, trivial⟩
  refine ⟨r, hr, fun k hk hkr => ?_⟩
  rcases h.neg_or_neg hr hk (Ne.symm hkr) with hlt | hlt
  · exact hlt
  · exact absurd ⟨hk, hr, hlt⟩ (hmin ⟨k, hk⟩ trivial)

end TotalOn

/-! ### Differences modulo an even number -/

section Bmod

variable {n : ℕ} {x y : ℤ}

lemma emod_lt_of_bmod_pos (hx : 0 < x.bmod (2 * n)) (hn : 0 < n) : x % (2 * n : ℕ) < n := by
  by_contra hge
  have hlt : x % (2 * n : ℕ) < (2 * n : ℕ) := Int.emod_lt_of_pos x (by omega)
  rw [Int.bmod_neg x (2 * n) (by omega)] at hx
  linarith

/-- In one half of the circle the difference of two residues is the one that is compared. -/
lemma bmod_sub_eq (hn : 0 < n) (hx : x % (2 * n : ℕ) < n) (hy : y % (2 * n : ℕ) < n) :
    (x - y).bmod (2 * n) = x % (2 * n : ℕ) - y % (2 * n : ℕ) := by
  have hx₀ : 0 ≤ x % (2 * n : ℕ) := Int.emod_nonneg x (by omega)
  have hy₀ : 0 ≤ y % (2 * n : ℕ) := Int.emod_nonneg y (by omega)
  rw [← Int.emod_sub_bmod, ← Int.sub_emod_bmod]
  apply Int.bmod_eq_of_le
  · omega
  · omega

/-- Keys that are compared by such a difference are ordered exactly when their residues are
different and in the half of the circle that starts at some `r`. -/
theorem totalOn_bmod_iff (hfin : S.Finite) (hn : 0 < n) (f : α → ℤ) :
    TotalOn S (fun a b => (f a - f b).bmod (2 * n)) ↔
      Set.InjOn (fun k => f k % (2 * n : ℕ)) S ∧ ∃ r, ∀ k ∈ S, (f k - r) % (2 * n : ℕ) < n := by
  constructor
  · intro h
    refine ⟨fun a ha b hb hab => ?_, ?_⟩
    · apply (h.zero_iff a ha b hb).mp
      exact Int.bmod_eq_zero_of_dvd (Int.ModEq.dvd hab.symm)
    · rcases S.eq_empty_or_nonempty with rfl | hne
      · exact ⟨0, fun k hk => absurd hk (Set.notMem_empty k)⟩
      · obtain ⟨l, hl, hleast⟩ := h.exists_least hfin hne
        refine ⟨f l, fun k hk => ?_⟩
        rcases eq_or_ne k l with rfl | hkl
        · rw [sub_self, Int.zero_emod]
          exact Int.natCast_pos.mpr hn
        · exact emod_lt_of_bmod_pos (h.pos_of_neg hl hk (hleast k hk hkl)) hn
  · rintro ⟨hinj, r, hr⟩
    have hcmp : ∀ a ∈ S, ∀ b ∈ S, (f a - f b).bmod (2 * n) =
        (f a - r) % (2 * n : ℕ) - (f b - r) % (2 * n : ℕ) := by
      intro a ha b hb
      rw [← bmod_sub_eq hn (hr a ha) (hr b hb), sub_sub_sub_cancel_right]
    refine totalOn_of_key (fun a ha b hb hab => ?_) hcmp
    apply hinj ha hb
    exact Int.ModEq.add_right_cancel' (-r) hab

end Bmod

end Comparator
