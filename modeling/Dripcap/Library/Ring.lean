import Mathlib.Data.List.DropRight
import Mathlib.Data.List.ReduceOption
import Mathlib.Data.List.Rotate
import Mathlib.Data.Nat.ModEq

/-!
# Slots in a ring

A list of slots is written at an index that goes round. Seen from the index on, the slots form a
window that moves by one element with every write. A sweep visits all slots from the index on and
may leave another content in each.
-/

namespace Ring

variable {α β : Type*}

/-- One visit of a sweep: at the place `i` after the start, `next` says what is left in the slot and
`out` what is taken from it. -/
def visit (next : β → β) (out : β → List α) (start : ℕ) (acc : List β × List α) (i : ℕ) :
    List β × List α :=
  match acc.1[(start + i) % acc.1.length]? with
  | some b => (acc.1.set ((start + i) % acc.1.length) (next b), acc.2 ++ out b)
  | none => acc

/-- All slots are visited once. -/
def sweep (next : β → β) (out : β → List α) (start : ℕ) (slots : List β) : List β × List α :=
  (List.range slots.length).foldl (visit next out start) (slots, [])

/-- A slot that is written is written in the window. -/
lemma rotate_set {slots : List β} {start i : ℕ} (hi : i < slots.length) (b : β) :
    (slots.set ((start + i) % slots.length) b).rotate start = (slots.rotate start).set i b := by
  apply List.ext_getElem
  · simp only [List.length_rotate, List.length_set]
  intro k hk _
  have hk' : k < slots.length := by simpa only [List.length_rotate, List.length_set] using hk
  have hplace : (start + i) % slots.length = (k + start) % slots.length ↔ i = k := by
    rw [Nat.add_comm k start]
    refine ⟨fun h => ?_, fun h => by rw [h]⟩
    have hmod : i % slots.length = k % slots.length := Nat.ModEq.add_left_cancel' start h
    rwa [Nat.mod_eq_of_lt hi, Nat.mod_eq_of_lt hk'] at hmod
  simp only [List.getElem_rotate, List.getElem_set, List.length_set, hplace]

/-- After a write the index goes on, and the window has lost its first element and got a new last
one. -/
lemma rotate_write {slots : List β} {index : ℕ} (h : index < slots.length) (b : β) :
    (slots.set index b).rotate ((index + 1) % slots.length) =
      (slots.rotate index).tail ++ [b] := by
  have hpos : 0 < slots.length := Nat.zero_lt_of_lt h
  have hset := @rotate_set β slots index 0 hpos b
  rw [Nat.add_zero, Nat.mod_eq_of_lt h] at hset
  have hlength : (slots.set index b).length = slots.length := List.length_set
  rw [← hlength, List.rotate_mod, ← List.rotate_rotate, hset]
  have hne : slots.rotate index ≠ [] := by
    rw [← List.length_pos_iff, List.length_rotate]
    exact hpos
  obtain ⟨first, rest, hwindow⟩ := List.exists_cons_of_ne_nil hne
  rw [hwindow, List.set_cons_zero, List.tail_cons, List.rotate_cons_succ, List.rotate_zero]

/-- The slots before place `k` of the window have been visited. -/
lemma foldl_visit (next : β → β) (out : β → List α) (start : ℕ) (slots : List β) {k : ℕ}
    (hk : k ≤ slots.length) :
    let acc := (List.range k).foldl (visit next out start) (slots, [])
    acc.1.rotate start =
        ((slots.rotate start).take k).map next ++ (slots.rotate start).drop k ∧
      acc.2 = ((slots.rotate start).take k).flatMap out := by
  induction k with
  | zero => simp
  | succ k ih =>
    obtain ⟨hslots, hout⟩ := ih (Nat.le_of_succ_le hk)
    rw [List.range_succ, List.foldl_concat]
    generalize (List.range k).foldl (visit next out start) (slots, []) = acc at hslots hout ⊢
    have hlength : acc.1.length = slots.length := by
      rw [← List.length_rotate acc.1 start, hslots]
      simp only [List.length_append, List.length_map, List.length_take, List.length_drop,
        List.length_rotate]
      omega
    have hwindow : k < (slots.rotate start).length := by rwa [List.length_rotate]
    have htake : (((slots.rotate start).take k).map next).length = k := by
      rw [List.length_map, List.length_take_of_le (Nat.le_of_lt hwindow)]
    have hget : acc.1[(start + k) % acc.1.length]? = some (slots.rotate start)[k] := by
      rw [Nat.add_comm, ← List.getElem?_rotate (hlength ▸ hk), hslots,
        List.getElem?_append_right htake.le, List.getElem?_drop, htake, Nat.sub_self, Nat.add_zero,
        List.getElem?_eq_getElem hwindow]
    have hvisit : visit next out start acc k = (acc.1.set ((start + k) % acc.1.length)
        (next (slots.rotate start)[k]), acc.2 ++ out (slots.rotate start)[k]) := by
      rw [visit, hget]
    rw [hvisit, List.take_succ_eq_append_getElem hwindow]
    constructor
    · rw [rotate_set (hlength ▸ hk), hslots, List.drop_eq_getElem_cons hwindow,
        List.map_append, List.append_assoc, List.set_append_right _ _ htake.le, htake, Nat.sub_self,
        List.set_cons_zero]
      rfl
    · rw [hout, List.flatMap_append, List.flatMap_singleton]

/-- What a sweep takes and what it leaves. -/
lemma sweep_eq (next : β → β) (out : β → List α) (start : ℕ) (slots : List β) :
    (sweep next out start slots).1 = slots.map next ∧
      (sweep next out start slots).2 = (slots.rotate start).flatMap out := by
  obtain ⟨hslots, hout⟩ := foldl_visit next out start slots le_rfl
  rw [List.take_of_length_le (List.length_rotate ..).le] at hslots hout
  rw [List.drop_eq_nil_of_le (List.length_rotate ..).le, List.append_nil, List.map_rotate] at hslots
  exact ⟨List.rotate_injective start hslots, hout⟩

/-- The window after the elements `xs` have been written into slots that held `b` each. -/
def written (size : ℕ) (b : β) (xs : List β) : List β :=
  (List.replicate size b ++ xs).drop xs.length

lemma written_nil (size : ℕ) (b : β) : written size b [] = List.replicate size b :=
  List.append_nil _

lemma written_concat {size : ℕ} (hsize : 0 < size) (b : β) (xs : List β) (x : β) :
    written size b (xs ++ [x]) = (written size b xs).tail ++ [x] := by
  rw [written, written, List.tail_drop, List.length_append, List.length_singleton,
    ← List.append_assoc, List.drop_append_of_le_length]
  simp only [List.length_append, List.length_replicate]
  omega

/-- The elements that are still there are the last ones. -/
lemma reduceOption_written (size : ℕ) (xs : List α) :
    (written size none (xs.map some)).reduceOption = xs.rtake size := by
  rw [written, List.drop_append, List.reduceOption_append, List.drop_replicate,
    List.reduceOption_replicate_none, List.nil_append, List.length_map, List.length_replicate,
    ← List.map_drop, List.rtake]
  induction xs.drop (xs.length - size) with
  | nil => rfl
  | cons x xs ih => rw [List.map_cons, List.reduceOption_cons_of_some, ih]

end Ring
