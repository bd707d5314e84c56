import Mathlib.Data.Finset.Card
import Mathlib.Data.Finset.Range
import Mathlib.Data.Nat.Find

/-!
# Exploring paths that become more

A set of paths is searched again and again for a key that has not been found before and stands
behind keys that have. Between two searches the set may grow. If there are finitely many keys then
the searches come to an end, and by then they have found every key once.
-/

namespace Exploration

variable {α : Type*}

/-- The key stands behind known keys, and is not known itself. -/
def Open (paths : Set (List α)) (known : Set α) (k : α) : Prop :=
  ∃ path, path ++ [k] ∈ paths ∧ (∀ a ∈ path, a ∈ known) ∧ k ∉ known

/-- The keys on paths. -/
def keys (paths : Set (List α)) : Set α := {k | ∃ path ∈ paths, k ∈ path}

/-- What has been found by the first `n` searches. -/
def known (found : ℕ → Option α) (n : ℕ) : Set α := {k | ∃ m < n, found m = some k}

/-- Every search finds an open key if there is one. -/
structure Explores (paths : ℕ → Set (List α)) (found : ℕ → Option α) : Prop where
  closed : ∀ n path rest, path ++ rest ∈ paths n → path ∈ paths n
  grows : ∀ n, paths n ⊆ paths (n + 1)
  opens : ∀ n k, found n = some k → Open (paths n) (known found n) k
  exhausted : ∀ n, found n = none → ∀ k, ¬ Open (paths n) (known found n) k

lemma Open.mem_keys {paths : Set (List α)} {known : Set α} {k : α} (h : Open paths known k) :
    k ∈ keys paths := by
  obtain ⟨path, hpath, -⟩ := h
  exact ⟨_, hpath, List.mem_append_right _ List.mem_cons_self⟩

namespace Explores

variable {paths : ℕ → Set (List α)} {found : ℕ → Option α} {n m : ℕ} {k : α}

lemma mono (h : Explores paths found) (hle : m ≤ n) : paths m ⊆ paths n :=
  monotone_nat_of_le_succ h.grows hle

/-- When a search finds nothing, all keys are known: the first one on a path that is not would be
open. -/
lemma complete (h : Explores paths found) (hnone : found n = none) :
    keys (paths n) ⊆ known found n := by
  rintro k ⟨path, hpath, hk⟩
  induction path using List.reverseRecOn generalizing k with
  | nil => cases hk
  | append_singleton path a ih =>
    have hbefore : ∀ b ∈ path, b ∈ known found n := fun b => ih (h.closed n path [a] hpath)
    rcases List.mem_append.mp hk with hmem | hmem
    · exact hbefore k hmem
    · obtain rfl := List.mem_singleton.mp hmem
      by_contra hunknown
      exact h.exhausted n hnone k ⟨path, hpath, hbefore, hunknown⟩

/-- What has been found is a key of every later set. -/
lemma sound (h : Explores paths found) (hle : m ≤ n) (hfound : found m = some k) :
    k ∈ keys (paths n) := by
  obtain ⟨path, hpath, hk⟩ := (h.opens m k hfound).mem_keys
  exact ⟨path, h.mono hle hpath, hk⟩

/-- Nothing is found twice. -/
lemma eq_of_found (h : Explores paths found) (hm : found m = some k) (hn : found n = some k) :
    m = n := by
  have hle : ∀ {i j}, found i = some k → found j = some k → ¬ i < j := by
    intro i j hi hj hlt
    obtain ⟨-, -, -, hunknown⟩ := h.opens j k hj
    exact hunknown ⟨i, hlt, hi⟩
  exact Nat.le_antisymm (Nat.le_of_not_lt (hle hn hm)) (Nat.le_of_not_lt (hle hm hn))

/-- The keys found by the first searches are different ones, so there are not more searches than
keys. -/
theorem ends (h : Explores paths found) {all : Finset α} (hall : ∀ n, keys (paths n) ⊆ all) :
    ∃ n ≤ all.card, found n = none ∧ ∀ m < n, found m ≠ none := by
  have hexists : ∃ n ≤ all.card, found n = none := by
    by_contra hnever
    push Not at hnever
    have hsome : ∀ n ∈ Finset.range (all.card + 1), ∃ k ∈ all, found n = some k := by
      intro n hn
      have hle := Nat.lt_succ_iff.mp (Finset.mem_range.mp hn)
      obtain ⟨k, hk⟩ := Option.ne_none_iff_exists'.mp (hnever n hle)
      exact ⟨k, hall n (h.sound le_rfl hk), hk⟩
    have hmaps : ∀ n ∈ Finset.range (all.card + 1), found n ∈ all.map .some := by
      intro n hn
      obtain ⟨k, hk, hfound⟩ := hsome n hn
      exact Finset.mem_map.mpr ⟨k, hk, hfound.symm⟩
    have hinj : Set.InjOn found (Finset.range (all.card + 1) : Set ℕ) := by
      intro m hm n hn heq
      obtain ⟨k, -, hfound⟩ := hsome n (Finset.mem_coe.mp hn)
      exact h.eq_of_found (heq.trans hfound) hfound
    have hcard := Finset.card_le_card_of_injOn found hmaps hinj
    rw [Finset.card_map] at hcard
    rw [Finset.card_range] at hcard
    exact absurd hcard (Nat.not_succ_le_self _)
  obtain ⟨n, hle, hnone⟩ := hexists
  have hend : ∃ n, found n = none := ⟨n, hnone⟩
  refine ⟨Nat.find hend, (Nat.find_min' hend hnone).trans hle, Nat.find_spec hend, fun m hm => ?_⟩
  exact Nat.find_min hend hm

end Explores

end Exploration
