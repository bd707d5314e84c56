import Mathlib.Data.List.TakeDrop
import Mathlib.Order.Nat

/-!
# Writing in pieces

A write accepts a beginning of what it is given, which is not empty, or nothing at all if it is
interrupted. Someone who writes pieces one after the other and does not look at what has been
accepted gets all of them through exactly when each one is accepted whole.
-/

namespace Delivery

variable {α : Type*}

/-- How much is accepted by the write with a number of that many elements; `none` if it is
interrupted. -/
structure Behaviour where
  accepts : ℕ → ℕ → Option ℕ
  le_length : ∀ i length n, accepts i length = some n → n ≤ length
  positive : ∀ i length n, accepts i length = some n → 0 < length → 0 < n

namespace Behaviour

variable (b : Behaviour)

/-- What the write with the number `i` takes of a piece. -/
def taken (i : ℕ) (piece : List α) : List α :=
  match b.accepts i piece.length with
  | some n => piece.take n
  | none => []

/-- What is taken of pieces that are written once each, the first one with the number `i`. -/
def sent (i : ℕ) : List (List α) → List α
  | [] => []
  | piece :: pieces => b.taken i piece ++ sent (i + 1) pieces

/-- Each piece that is not empty is accepted whole. -/
def Whole (i : ℕ) : List (List α) → Prop
  | [] => True
  | piece :: pieces =>
    (piece = [] ∨ b.accepts i piece.length = some piece.length) ∧ Whole (i + 1) pieces

variable {b}

lemma taken_eq_iff {i : ℕ} {piece : List α} :
    b.taken i piece = piece ↔ piece = [] ∨ b.accepts i piece.length = some piece.length := by
  rw [taken]
  cases h : b.accepts i piece.length with
  | none => simp [eq_comm]
  | some n =>
    have hle := b.le_length i piece.length n h
    simp only [List.take_eq_self_iff, Option.some.injEq]
    constructor
    · intro hge
      exact Or.inr (le_antisymm hle hge)
    · rintro (rfl | rfl)
      · exact Nat.zero_le n
      · exact le_rfl

lemma taken_sublist (i : ℕ) (piece : List α) : (b.taken i piece).Sublist piece := by
  rw [taken]
  cases b.accepts i piece.length with
  | none => exact List.nil_sublist piece
  | some n => exact List.take_sublist n piece

/-- Nothing is sent that was not written. -/
lemma sent_sublist (i : ℕ) (pieces : List (List α)) :
    (b.sent i pieces).Sublist pieces.flatten := by
  induction pieces generalizing i with
  | nil => exact .slnil
  | cons piece pieces ih =>
    rw [sent, List.flatten_cons]
    exact (taken_sublist i piece).append (ih (i + 1))

/-- All is sent exactly when each piece is accepted whole. -/
theorem sent_eq_iff {i : ℕ} {pieces : List (List α)} :
    b.sent i pieces = pieces.flatten ↔ b.Whole i pieces := by
  induction pieces generalizing i with
  | nil => exact iff_of_true rfl trivial
  | cons piece pieces ih =>
    rw [sent, Whole, List.flatten_cons, ← taken_eq_iff, ← ih]
    constructor
    · intro h
      -- neither part can make up for what is missing of the other
      have hlength := congrArg List.length h
      rw [List.length_append, List.length_append] at hlength
      have hfirst := (taken_sublist (b := b) i piece).length_le
      have hrest := (sent_sublist (b := b) (i + 1) pieces).length_le
      exact List.append_inj h (by omega)
    · rintro ⟨hfirst, hrest⟩
      rw [hfirst, hrest]

end Behaviour

end Delivery
