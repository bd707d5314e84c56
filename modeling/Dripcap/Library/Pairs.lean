import Mathlib.Algebra.Group.Nat.Even
import Mathlib.Data.List.Basic

/-!
# Lists two elements at a time

`InPairs P l` says that `l` is made of pairs with the property `P`. Loops that take the elements
`2 i` and `2 i + 1` in every round go by it.
-/

namespace Pairs

variable {α β : Type*}

/-- The list consists of pairs with the property `P`. -/
def InPairs (P : α → α → Prop) : List α → Prop
  | [] => True
  | [_] => False
  | c :: d :: l => P c d ∧ InPairs P l

variable {P Q : α → α → Prop} {l : List α}

@[simp] lemma inPairs_nil : InPairs P [] := trivial

@[simp] lemma inPairs_singleton (c : α) : ¬ InPairs P [c] := id

@[simp] lemma inPairs_cons (c d : α) : InPairs P (c :: d :: l) ↔ P c d ∧ InPairs P l := Iff.rfl

/-- Induction over a list by its pairs. -/
lemma pairs_induction {motive : List α → Prop} (nil : motive []) (single : ∀ c, motive [c])
    (pair : ∀ c d l, motive l → motive (c :: d :: l)) : ∀ l, motive l
  | [] => nil
  | [c] => single c
  | c :: d :: l => pair c d l (pairs_induction nil single pair l)

lemma even_length_cons_cons (c d : α) : Even (c :: d :: l).length ↔ Even l.length := by
  simp [Nat.even_add_one]

lemma InPairs.even (h : InPairs P l) : Even l.length := by
  induction l using pairs_induction with
  | nil => exact Even.zero
  | single c => exact absurd h (inPairs_singleton c)
  | pair c d l ih =>
    rw [even_length_cons_cons]
    exact ih h.2

/-- A property of pairs that is one of their elements. -/
lemma inPairs_and_iff (p : α → Prop) :
    InPairs (fun c d => p c ∧ p d) l ↔ Even l.length ∧ ∀ c ∈ l, p c := by
  induction l using pairs_induction with
  | nil => simp
  | single c => simp
  | pair c d l ih =>
    rw [inPairs_cons, ih, even_length_cons_cons]
    simp only [List.forall_mem_cons]
    tauto

lemma InPairs.imp (h : InPairs P l) (himp : ∀ c d, P c d → Q c d) : InPairs Q l := by
  induction l using pairs_induction with
  | nil => trivial
  | single c => exact h
  | pair c d l ih => exact ⟨himp c d h.1, ih h.2⟩

/-- The rounds of a loop over the pairs, the first one split off. -/
lemma map_range_pairs (f : List α → β) (c d : α) (l : List α) :
    (List.range ((c :: d :: l).length / 2)).map (fun i => f (((c :: d :: l).drop (i * 2)).take 2)) =
      f [c, d] :: (List.range (l.length / 2)).map fun i => f ((l.drop (i * 2)).take 2) := by
  have hlen : (c :: d :: l).length / 2 = l.length / 2 + 1 := by
    rw [List.length_cons, List.length_cons]
    omega
  rw [hlen, List.range_succ_eq_map, List.map_cons, List.map_map]
  congr 1
  apply List.map_congr_left
  intro i _
  show f (((c :: d :: l).drop ((i + 1) * 2)).take 2) = f ((l.drop (i * 2)).take 2)
  rw [Nat.succ_mul]
  rfl

end Pairs
