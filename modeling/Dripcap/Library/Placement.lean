import Mathlib.Data.Set.Insert

/-!
# Items in exactly one place

A relation `R : ι → π → Prop` says at which place an item is. `Partitions R D` is the invariant
of a pipeline that neither loses nor duplicates its items: the items of `D` have exactly one
place each and nothing else has a place. It survives the two things a pipeline does: a new item
enters at some place, or an item goes from one place to another.
-/

namespace Placement

variable {ι π : Type*} {R R' : ι → π → Prop} {D : Set ι} {i : ι} {p q : π}

/-- The items of `D` are at exactly one place each, other items are nowhere. -/
def Partitions (R : ι → π → Prop) (D : Set ι) : Prop :=
  ∀ i, (i ∈ D → ∃! p, R i p) ∧ ∀ p, R i p → i ∈ D

/-- Item `i` enters at place `p`. -/
def Enters (R R' : ι → π → Prop) (i : ι) (p : π) : Prop :=
  ∀ j q, R' j q ↔ (j = i ∧ q = p) ∨ R j q

/-- Item `i` goes from place `p` to place `q`. -/
structure Transfers (R R' : ι → π → Prop) (i : ι) (p q : π) : Prop where
  source : R i p
  places : ∀ j r, R' j r ↔ (j = i ∧ r = q) ∨ (R j r ∧ ¬ (j = i ∧ r = p))

lemma Partitions.mem (h : Partitions R D) (hp : R i p) : i ∈ D := (h i).2 p hp

/-- No item is at two places. -/
lemma Partitions.unique (h : Partitions R D) (hp : R i p) (hq : R i q) : p = q :=
  ((h i).1 (h.mem hp)).unique hp hq

/-- Changing nothing about the places changes nothing about the partition. -/
lemma Partitions.congr (h : Partitions R D) (he : ∀ j q, R' j q ↔ R j q) : Partitions R' D := by
  obtain rfl : R' = R := funext fun j => funext fun q => propext (he j q)
  exact h

/-- A new item may enter at any place. -/
theorem Partitions.enters (h : Partitions R D) (hi : i ∉ D) (he : Enters R R' i p) :
    Partitions R' (insert i D) := by
  intro j
  by_cases hj : j = i
  · subst hj
    refine ⟨fun _ => ⟨p, (he j p).mpr (Or.inl ⟨rfl, rfl⟩), ?_⟩, fun q _ => Set.mem_insert _ _⟩
    intro q hq
    rcases (he j q).mp hq with ⟨-, rfl⟩ | hR
    · rfl
    · exact absurd (h.mem hR) hi
  · have hiff : ∀ q, R' j q ↔ R j q := fun q => by simpa [hj] using he j q
    refine ⟨fun hD => ?_, fun q hq => Set.mem_insert_of_mem _ (h.mem ((hiff q).mp hq))⟩
    obtain ⟨q, hq, huniq⟩ := (h j).1 (hD.resolve_left hj)
    exact ⟨q, (hiff q).mpr hq, fun q' hq' => huniq q' ((hiff q').mp hq')⟩

/-- An item may go from its place to any other. -/
theorem Partitions.transfers (h : Partitions R D) (ht : Transfers R R' i p q) :
    Partitions R' D := by
  intro j
  by_cases hj : j = i
  · subst hj
    refine ⟨fun _ => ⟨q, (ht.places j q).mpr (Or.inl ⟨rfl, rfl⟩), ?_⟩, fun r _ => h.mem ht.source⟩
    intro r hr
    rcases (ht.places j r).mp hr with ⟨-, rfl⟩ | ⟨hR, hne⟩
    · rfl
    · exact absurd ⟨rfl, h.unique hR ht.source⟩ hne
  · have hiff : ∀ r, R' j r ↔ R j r := fun r => by simpa [hj] using ht.places j r
    refine ⟨fun hD => ?_, fun r hr => h.mem ((hiff r).mp hr)⟩
    obtain ⟨r, hr, huniq⟩ := (h j).1 hD
    exact ⟨r, (hiff r).mpr hr, fun r' hr' => huniq r' ((hiff r').mp hr')⟩

end Placement
