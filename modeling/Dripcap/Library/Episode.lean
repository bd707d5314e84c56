import Mathlib.Data.List.Basic

/-!
# Episodes of a growing list

A list of events is cut into episodes: one begins with the first event and after every event that
satisfies `p`, and goes on up to the next such event or as long as the list does. The lemmas say
how the episodes change when an event is added at the end.
-/

namespace Episode

variable {α : Type*} {p : α → Bool}

/-- No episode is open. -/
def Closed (p : α → Bool) (l : List α) : Bool := l.getLast?.all p

/-- The positions at which episodes begin. -/
def starts (p : α → Bool) (l : List α) : List ℕ :=
  (List.range l.length).filter fun i => Closed p (l.take i)

/-- The episode at the front of a list. -/
def first (p : α → Bool) : List α → List α
  | [] => []
  | a :: l => if p a then [a] else a :: first p l

@[simp] lemma closed_nil : Closed p [] = true := rfl

@[simp] lemma closed_concat (l : List α) (a : α) : Closed p (l ++ [a]) = p a := by
  rw [Closed, List.getLast?_append]
  rfl

/-- A new event begins an episode if none is open. -/
theorem starts_concat (l : List α) (a : α) :
    starts p (l ++ [a]) = starts p l ++ if Closed p l then [l.length] else [] := by
  have hprefix : ∀ i ∈ List.range l.length, Closed p ((l ++ [a]).take i) = Closed p (l.take i) := by
    intro i hi
    rw [List.take_append_of_le_length (Nat.le_of_lt (List.mem_range.mp hi))]
  rw [starts, List.length_append, List.length_singleton, List.range_succ, List.filter_append,
    List.filter_congr hprefix, List.filter_singleton, List.take_left, Bool.cond_eq_ite]
  rfl

lemma lt_of_mem_starts {l : List α} {i : ℕ} (h : i ∈ starts p l) : i < l.length :=
  List.mem_range.mp (List.mem_filter.mp h).1

/-- A new event belongs to the first episode if that one is still open. -/
theorem first_concat (l : List α) (a : α) :
    first p (l ++ [a]) = if l.any p then first p l else first p l ++ [a] := by
  induction l with
  | nil => cases hp : p a <;> simp [first, hp]
  | cons b l ih =>
    rw [List.cons_append, first, first, List.any_cons]
    cases hb : p b with
    | true => rfl
    | false =>
      rw [ih, Bool.false_or]
      split_ifs <;> simp_all

end Episode
