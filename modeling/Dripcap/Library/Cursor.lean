import Mathlib.Data.List.Infix

/-!
# Reading a growing list by pieces

A reader takes pieces from the front of a list to which others append. Every piece is recorded
with the number of elements asked for and the list as it was when the piece was taken.
-/

namespace Cursor

variable {α : Type*}

/-- One piece; the result is `none` where the reader has nothing to give. -/
structure Piece (α : Type*) where
  size : ℕ
  stored : List α
  result : Option (List α)

/-- The elements of a piece. -/
def Piece.items (p : Piece α) : List α := p.result.getD []

/-- The elements of all pieces. -/
def items (ps : List (Piece α)) : List α := ps.flatMap Piece.items

/-- The piece begins at `pos` and is as long as it may be. -/
structure Piece.Exact (p : Piece α) (pos : ℕ) : Prop where
  items_eq : p.items = (p.stored.drop pos).take p.size
  none_iff : p.result = none ↔ p.stored.drop pos = []

/-- Every piece begins where the one before has ended, the first one at `pos`. -/
def Follows (pos : ℕ) : List (Piece α) → Prop
  | [] => True
  | p :: ps => p.Exact pos ∧ Follows (pos + p.items.length) ps

@[simp] lemma items_nil : items ([] : List (Piece α)) = [] := rfl

@[simp] lemma items_append (ps qs : List (Piece α)) : items (ps ++ qs) = items ps ++ items qs :=
  List.flatMap_append

lemma items_singleton (p : Piece α) : items [p] = p.items := by simp [items]

lemma follows_append {pos : ℕ} {ps qs : List (Piece α)} :
    Follows pos (ps ++ qs) ↔ Follows pos ps ∧ Follows (pos + (items ps).length) qs := by
  induction ps generalizing pos with
  | nil => simp [Follows]
  | cons p ps ih =>
    have hlen : pos + p.items.length + (items ps).length = pos + (items (p :: ps)).length := by
      simp [items, Nat.add_assoc]
    simp only [List.cons_append, Follows, ih, hlen, and_assoc]

/-- The number of elements is the number asked for, or what is left. -/
lemma Piece.Exact.length {p : Piece α} {pos : ℕ} (h : p.Exact pos) :
    p.items.length = min p.size (p.stored.length - pos) := by
  rw [h.items_eq, List.length_take, List.length_drop]

/-- Pieces of lists that all begin `l` lie in `l` one after the other. -/
theorem Follows.items_eq {pos : ℕ} {ps : List (Piece α)} {l : List α} (h : Follows pos ps)
    (hl : ∀ p ∈ ps, p.stored <+: l) : items ps = (l.drop pos).take (items ps).length := by
  induction ps generalizing pos with
  | nil => simp
  | cons p ps ih =>
    obtain ⟨hp, hps⟩ := h
    have htail := ih hps fun q hq => hl q (List.mem_cons_of_mem p hq)
    have hhead : p.items = (l.drop pos).take p.items.length := by
      have hbegins : p.items <+: l.drop pos := by
        rw [hp.items_eq]
        have htake := List.take_prefix p.size (p.stored.drop pos)
        exact htake.trans (List.IsPrefix.drop (hl p List.mem_cons_self) pos)
      exact List.prefix_iff_eq_take.mp hbegins
    have hsplit : items (p :: ps) = p.items ++ items ps := rfl
    rw [hsplit, List.length_append, List.take_add, ← hhead, List.drop_drop, ← htail]

/-- Nothing is skipped and nothing is repeated. -/
theorem Follows.items_begin {ps : List (Piece α)} {l : List α} (h : Follows 0 ps)
    (hl : ∀ p ∈ ps, p.stored <+: l) : items ps <+: l := by
  rw [h.items_eq hl, List.drop_zero]
  exact List.take_prefix _ _

/-- What reading by pieces should give, `l` being the list in the end: a beginning of `l`, with as
many elements in every piece as there could be, and nothing only where nothing was left. -/
structure Whole (ps : List (Piece α)) (l : List α) : Prop where
  items_begin : items ps <+: l
  length : ∀ qs p rs, ps = qs ++ p :: rs →
    p.items.length = min p.size (p.stored.length - (items qs).length)
  none_iff : ∀ qs p rs, ps = qs ++ p :: rs →
    (p.result = none ↔ p.stored.length ≤ (items qs).length)

theorem Follows.whole {ps : List (Piece α)} {l : List α} (h : Follows 0 ps)
    (hl : ∀ p ∈ ps, p.stored <+: l) : Whole ps l := by
  have hexact : ∀ qs p rs, ps = qs ++ p :: rs → p.Exact (items qs).length := by
    rintro qs p rs rfl
    have htail := (follows_append.mp h).2
    rw [Nat.zero_add] at htail
    exact htail.1
  refine ⟨h.items_begin hl, fun qs p rs hps => (hexact qs p rs hps).length, fun qs p rs hps => ?_⟩
  rw [(hexact qs p rs hps).none_iff, List.drop_eq_nil_iff]

end Cursor
