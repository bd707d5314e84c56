import Mathlib.Order.Bounds.Basic
import Mathlib.Data.List.Infix

/-!
# Occurrences of a list in a list

`At sub str i` says that `sub` stands in `str` from position `i` on, and `Free sub str i n` that
no occurrence begins at one of the `n` positions from `i` on. A search that moves over free
positions only cannot miss an occurrence, so the first one it meets is the least one.
-/

namespace Occurrence

variable {α : Type*} {sub str : List α} {i k m n : ℕ}

/-- `sub` stands in `str` from position `i` on. -/
def At (sub str : List α) (i : ℕ) : Prop := sub <+: str.drop i

/-- No occurrence begins at one of the `n` positions from `i` on. -/
def Free (sub str : List α) (i n : ℕ) : Prop := ∀ d < n, ¬ At sub str (i + d)

lemma at_iff : At sub str i ↔ ∀ k < sub.length, str[i + k]? = sub[k]? := by
  rw [At, List.prefix_iff_getElem?]
  constructor
  · intro h k hk
    rw [← List.getElem?_drop, h k hk, List.getElem?_eq_getElem hk]
  · intro h k hk
    rw [List.getElem?_drop, h k hk, List.getElem?_eq_getElem hk]

@[simp] lemma at_nil : At ([] : List α) str i := List.nil_prefix

/-- A list that is not empty has to end inside. -/
lemma At.add_length_le (h : At sub str i) (hne : sub ≠ []) : i + sub.length ≤ str.length := by
  have hle := h.length_le
  have hpos := List.length_pos_iff.mpr hne
  rw [List.length_drop] at hle
  omega

@[simp] lemma free_zero : Free sub str i 0 := by
  intro d hd
  exact absurd hd (Nat.not_lt_zero d)

lemma Free.mono (h : Free sub str i n) (hmn : m ≤ n) : Free sub str i m :=
  fun d hd => h d (hd.trans_le hmn)

lemma Free.append (hm : Free sub str i m) (hn : Free sub str (i + m) n) :
    Free sub str i (m + n) := by
  intro d hd
  rcases Nat.lt_or_ge d m with hlt | hge
  · exact hm d hlt
  · obtain ⟨d', rfl⟩ := Nat.exists_eq_add_of_le hge
    rw [← Nat.add_assoc]
    exact hn d' (Nat.lt_of_add_lt_add_left hd)

/-- One element of `str` is enough to exclude the occurrences that would have another element
there. -/
lemma free_of_ne (hk : k < sub.length) (hn : n ≤ k + 1)
    (h : ∀ d < n, str[i + k]? ≠ sub[k - d]?) : Free sub str i n := by
  intro d hd hat
  have hdk : d ≤ k := Nat.le_of_lt_succ (hd.trans_le hn)
  apply h d hd
  rw [← at_iff.mp hat (k - d) ((Nat.sub_le k d).trans_lt hk), Nat.add_assoc,
    Nat.add_sub_cancel' hdk]

/-- The first occurrence behind free positions is the least one. -/
lemma isLeast_of_free (h : Free sub str 0 i) (hat : At sub str i) :
    IsLeast {i | At sub str i} i := by
  refine ⟨hat, fun j hj => ?_⟩
  by_contra hlt
  apply h j (Nat.lt_of_not_le hlt)
  rwa [Nat.zero_add]

/-- There is no occurrence when every position where one could end is free. -/
lemma not_at_of_free (hne : sub ≠ []) (h : Free sub str 0 n) (hn : str.length < n + sub.length) :
    ∀ j, ¬ At sub str j := by
  intro j hj
  apply h j
  · exact Nat.lt_of_add_lt_add_right ((hj.add_length_le hne).trans_lt hn)
  · rwa [Nat.zero_add]

end Occurrence
