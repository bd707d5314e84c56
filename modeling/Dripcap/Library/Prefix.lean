import Mathlib.Order.Bounds.Basic
import Mathlib.Data.List.Sort

/-!
# Prefixes of the natural numbers

Items numbered `1, 2, 3, ...` are finished in any order and published in order. What can be
published is a prefix `1..n`: `Complete done n` says that it is finished, and `advance` is the
loop that extends it one item at a time. The second half compares the published list with the
list `1..n` it has to be.
-/

namespace Prefix

/-- All items `1..n` are finished. -/
def Complete (done : ℕ → Prop) (n : ℕ) : Prop :=
  ∀ i, 1 ≤ i → i ≤ n → done i

/-- The loop `while done(m + 1) do m := m + 1`, for at most `fuel` rounds. -/
def advance (done : ℕ → Bool) : ℕ → ℕ → ℕ
  | 0, m => m
  | fuel + 1, m => if done (m + 1) then advance done fuel (m + 1) else m

variable {done : ℕ → Prop} {n m : ℕ}

@[simp] lemma complete_zero : Complete done 0 := by
  intro i h1 h0
  omega

lemma complete_succ (h : Complete done n) (hn : done (n + 1)) : Complete done (n + 1) := by
  intro i h1 hi
  rcases Nat.lt_or_ge n i with hlt | hle
  · obtain rfl : i = n + 1 := by omega
    exact hn
  · exact h i h1 hle

lemma Complete.mono (h : Complete done n) (hmn : m ≤ n) : Complete done m :=
  fun i h1 hi => h i h1 (hi.trans hmn)

lemma Complete.imp {done' : ℕ → Prop} (h : Complete done n) (himp : ∀ i, done i → done' i) :
    Complete done' n :=
  fun i h1 hi => himp i (h i h1 hi)

/-- A complete prefix that cannot be extended is the longest one. -/
theorem isGreatest_complete (h : Complete done n) (hstop : ¬ done (n + 1)) :
    IsGreatest {n | Complete done n} n := by
  refine ⟨h, fun k hk => ?_⟩
  by_contra hlt
  exact hstop (hk (n + 1) (by omega) (by omega))

section Advance

variable {done : ℕ → Bool}

lemma le_advance (fuel m : ℕ) : m ≤ advance done fuel m := by
  induction fuel generalizing m with
  | zero => exact le_rfl
  | succ fuel ih =>
    rw [advance]
    split_ifs
    · exact (Nat.le_succ m).trans (ih (m + 1))
    · exact le_rfl

lemma complete_advance (fuel : ℕ) (h : Complete (done · = true) m) :
    Complete (done · = true) (advance done fuel m) := by
  induction fuel generalizing m with
  | zero => exact h
  | succ fuel ih =>
    rw [advance]
    split_ifs with hm
    · exact ih (complete_succ h hm)
    · exact h

/-- With fuel for all finished items the loop ends because its condition fails. -/
lemma advance_stop (fuel : ℕ) (hb : ∀ i, done i = true → i ≤ m + fuel) :
    done (advance done fuel m + 1) = false := by
  induction fuel generalizing m with
  | zero =>
    by_contra h
    have := hb (m + 1) (by simpa [advance] using h)
    omega
  | succ fuel ih =>
    rw [advance]
    split_ifs with hm
    · exact ih fun i hi => (hb i hi).trans (by omega)
    · simpa using hm

/-- The loop extends a complete prefix to the longest one. -/
theorem isGreatest_advance (fuel : ℕ) (h : Complete (done · = true) m)
    (hb : ∀ i, done i = true → i ≤ m + fuel) :
    IsGreatest {n | Complete (done · = true) n} (advance done fuel m) :=
  isGreatest_complete (complete_advance fuel h) (by simp [advance_stop fuel hb])

end Advance

/-! ### Lists of published items -/

/-- A range that is continued where it ends. -/
lemma range'_append {m n : ℕ} (h : m ≤ n) :
    List.range' 1 m ++ List.range' (m + 1) (n - m) = List.range' 1 n := by
  rw [Nat.add_comm m 1, List.range'_append_1, Nat.add_sub_cancel' h]

end Prefix
