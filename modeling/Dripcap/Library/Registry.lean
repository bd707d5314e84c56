import Mathlib.Data.List.Induction
import Mathlib.Data.Set.Insert

/-!
# Registries

Entries are registered at the end of a list and unregistered by a key. A key may have been
registered more than once, and then any one of its entries may be removed. What the lists have in
common that the same calls can lead to is how often each key occurs in them.
-/

namespace Registry

inductive Call (α κ : Type*) where
  | register (e : α)
  | unregister (p : κ)

variable {α κ : Type*} {key : α → κ}

/-- What a call may do to the entries. -/
inductive Edits (key : α → κ) : Call α κ → List α → List α → Prop where
  | register (e : α) (l : List α) : Edits key (.register e) l (l ++ [e])
  | unknown {p : κ} {l : List α} : (∀ e ∈ l, key e ≠ p) → Edits key (.unregister p) l l
  | removed {p : κ} {e : α} (l l' : List α) : key e = p →
      Edits key (.unregister p) (l ++ e :: l') (l ++ l')

/-- The entries that calls may lead to. -/
def possible (key : α → κ) (calls : List (Call α κ)) : Set (List α) :=
  calls.foldl (fun ls call => {l' | ∃ l ∈ ls, Edits key call l l'}) {[]}

lemma mem_possible_nil : [] ∈ possible key [] := Set.mem_singleton []

lemma mem_possible_concat {calls : List (Call α κ)} {call : Call α κ} {l' : List α} :
    l' ∈ possible key (calls ++ [call]) ↔ ∃ l ∈ possible key calls, Edits key call l l' := by
  rw [possible, List.foldl_append]
  exact Iff.rfl

section Count

variable [DecidableEq κ]

/-- How often a key occurs. -/
def count (key : α → κ) (l : List α) (p : κ) : ℕ := l.countP fun e => key e = p

/-- What a call does to the number of entries with a key. -/
def recount (key : α → κ) (n : κ → ℕ) : Call α κ → κ → ℕ
  | .register e, p => if key e = p then n p + 1 else n p
  | .unregister q, p => if q = p then n p - 1 else n p

lemma count_append (l l' : List α) (p : κ) :
    count key (l ++ l') p = count key l p + count key l' p := List.countP_append

lemma count_cons (e : α) (l : List α) (p : κ) :
    count key (e :: l) p = count key l p + if key e = p then 1 else 0 := by
  rw [count, count, List.countP_cons]
  simp only [decide_eq_true_eq]

lemma count_eq_zero {l : List α} {p : κ} : count key l p = 0 ↔ ∀ e ∈ l, key e ≠ p := by
  rw [count, List.countP_eq_zero]
  simp only [decide_eq_true_eq, ne_eq]

/-- All ways to do a call lead to the same numbers. -/
lemma Edits.count {call : Call α κ} {l l' : List α} (h : Edits key call l l') :
    count key l' = recount key (count key l) call := by
  funext p
  cases h with
  | register e =>
    rw [count_append, count_cons, recount]
    split_ifs
    · rfl
    · rfl
  | @unknown q _ hunknown =>
    rw [recount]
    split_ifs with hq
    · rw [← hq, count_eq_zero.mpr hunknown]
    · rfl
  | @removed q e l l' hkey =>
    rw [recount, count_append, count_append, count_cons, hkey]
    split_ifs
    · rfl
    · rfl

lemma count_of_possible {calls : List (Call α κ)} {l l' : List α} (h : l ∈ possible key calls)
    (h' : l' ∈ possible key calls) : count key l = count key l' := by
  induction calls using List.reverseRecOn generalizing l l' with
  | nil =>
    obtain rfl : l = [] := h
    obtain rfl : l' = [] := h'
    rfl
  | append_singleton calls call ih =>
    obtain ⟨m, hm, hedit⟩ := mem_possible_concat.mp h
    obtain ⟨m', hm', hedit'⟩ := mem_possible_concat.mp h'
    rw [hedit.count, hedit'.count, ih hm hm']

/-- A list that one more call can lead to has the numbers that the call makes of those before. -/
lemma count_of_mem_concat {calls : List (Call α κ)} {call : Call α κ} {l l' : List α}
    (h : l ∈ possible key calls) (h' : l' ∈ possible key (calls ++ [call])) :
    count key l' = recount key (count key l) call := by
  obtain ⟨m, hm, hedit⟩ := mem_possible_concat.mp h'
  rw [hedit.count, count_of_possible hm h]

end Count

end Registry
