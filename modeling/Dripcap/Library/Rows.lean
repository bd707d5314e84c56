import Mathlib.Data.Nat.Notation
import Mathlib.Data.Option.Basic
import Mathlib.Logic.Function.Basic
import Mathlib.Tactic.SplitIfs

/-!
# Tables of shared rows

An object whose values are objects is a table from names to references, and the rows are behind the
references. A shallow copy of a table has the same references, so that writing through the copy also
writes into the original, but only into rows that the original has.
-/

namespace Rows

variable {ι κ β : Type*}

/-- The rows; those from `fresh` on have not been made yet. -/
structure Heap (κ β : Type*) where
  row : ℕ → κ → Option β
  fresh : ℕ

abbrev Table (ι : Type*) : Type _ := ι → Option ℕ

/-- `t[i][k]` -/
def Heap.read (h : Heap κ β) (t : Table ι) (i : ι) (k : κ) : Option β :=
  (t i).bind fun r => h.row r k

/-- A new row, without entries. -/
def Heap.alloc (h : Heap κ β) : Heap κ β :=
  { row := Function.update h.row h.fresh fun _ => none, fresh := h.fresh + 1 }

/-- The rows of a table have been made, and it has each row once. -/
structure Separate (h : Heap κ β) (t : Table ι) : Prop where
  made : ∀ i r, t i = some r → r < h.fresh
  once : ∀ i j r, t i = some r → t j = some r → i = j

/-- A table has the rows of another one, under the same names. -/
def Extends (t u : Table ι) : Prop := ∀ i r, u i = some r → t i = some r

variable {h : Heap κ β} {t u : Table ι} {i : ι}

lemma Extends.refl (t : Table ι) : Extends t t := fun _ _ h => h

lemma Extends.trans {v : Table ι} (htu : Extends t u) (huv : Extends u v) : Extends t v :=
  fun i r h => htu i r (huv i r h)

lemma Separate.part (ht : Separate h t) (hu : Extends t u) : Separate h u where
  made j r hj := ht.made j r (hu j r hj)
  once j j' r hj hj' := ht.once j j' r (hu j r hj) (hu j' r hj')

lemma read_of_some {r : ℕ} (hi : t i = some r) (k : κ) : h.read t i k = h.row r k := by
  rw [Heap.read, hi, Option.bind_some]

lemma read_of_none (hi : t i = none) (k : κ) : h.read t i k = none := by
  rw [Heap.read, hi, Option.bind_none]

lemma row_alloc {r : ℕ} (hr : r < h.fresh) : h.alloc.row r = h.row r :=
  Function.update_of_ne (Nat.ne_of_lt hr) ..

lemma row_alloc_fresh (h : Heap κ β) : h.alloc.row h.fresh = fun _ => none :=
  Function.update_self h.fresh _ h.row

lemma read_alloc (hu : Separate h u) (j : ι) (l : κ) : h.alloc.read u j l = h.read u j l := by
  cases hj : u j with
  | none => rw [read_of_none hj, read_of_none hj]
  | some r => rw [read_of_some hj, read_of_some hj, row_alloc (hu.made j r hj)]

/-! ### Writing -/

variable [DecidableEq ι] [DecidableEq κ]

/-- An entry of a row is set or deleted. -/
def Heap.set (h : Heap κ β) (r : ℕ) (k : κ) (v : Option β) : Heap κ β :=
  { h with row := Function.update h.row r (Function.update (h.row r) k v) }

/-- `t[i][k] = v`, where `t[i]` is made if it is not there. -/
def Heap.put (h : Heap κ β) (t : Table ι) (i : ι) (k : κ) (v : β) : Heap κ β × Table ι :=
  match t i with
  | some r => (h.set r k (some v), t)
  | none => (h.alloc.set h.fresh k (some v), Function.update t i (some h.fresh))

lemma put_of_some {r : ℕ} (hi : t i = some r) (k : κ) (v : β) :
    h.put t i k v = (h.set r k (some v), t) := by
  rw [Heap.put, hi]

lemma put_of_none (hi : t i = none) (k : κ) (v : β) : h.put t i k v =
    (h.alloc.set h.fresh k (some v), Function.update t i (some h.fresh)) := by
  rw [Heap.put, hi]

lemma table_put_of_some {r : ℕ} (hi : t i = some r) (k : κ) (v : β) : (h.put t i k v).2 = t :=
  congrArg Prod.snd (put_of_some hi k v)

lemma table_put_of_none (hi : t i = none) (k : κ) (v : β) :
    (h.put t i k v).2 = Function.update t i (some h.fresh) :=
  congrArg Prod.snd (put_of_none hi k v)

omit [DecidableEq ι] in
lemma row_set (h : Heap κ β) (r : ℕ) (k : κ) (v : Option β) (r' : ℕ) (l : κ) :
    (h.set r k v).row r' l = if r' = r ∧ l = k then v else h.row r' l := by
  simp only [Heap.set, Function.update_apply]
  split_ifs <;> simp_all

/-- What a table reads after a row that it may have has been written. -/
lemma read_set {r : ℕ} (hi : ∀ j, u j = some r → j = i) (k : κ) (v : Option β)
    (j : ι) (l : κ) : (h.set r k v).read u j l =
      if j = i ∧ l = k ∧ u i = some r then v else h.read u j l := by
  cases hj : u j with
  | none =>
    rw [read_of_none hj, read_of_none hj, if_neg]
    rintro ⟨rfl, -, hsome⟩
    cases hj.symm.trans hsome
  | some r' =>
    rw [read_of_some hj, read_of_some hj, row_set]
    refine if_congr ⟨?_, ?_⟩ rfl rfl
    · rintro ⟨rfl, rfl⟩
      obtain rfl := hi j hj
      exact ⟨rfl, rfl, hj⟩
    · rintro ⟨rfl, rfl, hsome⟩
      exact ⟨Option.some.inj (hj.symm.trans hsome), rfl⟩

/-- What is put into a table is put into those with the same rows as well, as far as they have the
row. -/
lemma read_put_part (ht : Separate h t) (hu : Extends t u) (i : ι) (k : κ) (v : β) (j : ι) (l : κ) :
    (h.put t i k v).1.read u j l =
      if j = i ∧ l = k ∧ (u i).isSome then some v else h.read u j l := by
  have hmade : Separate h u := ht.part hu
  cases hi : t i with
  | some r =>
    rw [put_of_some hi, read_set (fun j hj => ht.once j i r (hu j r hj) hi)]
    refine if_congr (and_congr_right fun _ => and_congr_right fun _ => ?_) rfl rfl
    refine ⟨fun hsome => by rw [hsome]; rfl, fun hsome => ?_⟩
    obtain ⟨r', hr'⟩ := Option.isSome_iff_exists.mp hsome
    rw [hr', ← hu i r' hr', hi]
  | none =>
    have hnone : u i = none := by
      cases hui : u i with
      | none => rfl
      | some r => exact absurd (hi.symm.trans (hu i r hui)) nofun
    have hfresh : ∀ j, u j ≠ some h.fresh :=
      fun j hj => Nat.lt_irrefl _ (hmade.made j h.fresh hj)
    rw [put_of_none hi, read_set (fun j hj => absurd hj (hfresh j)), read_alloc hmade, hnone]
    rw [if_neg (fun hand => nomatch hand.2.2), if_neg (fun hand => nomatch hand.2.2)]

/-- The table itself has the entry afterwards. -/
lemma read_put (ht : Separate h t) (i : ι) (k : κ) (v : β) (j : ι) (l : κ) :
    (h.put t i k v).1.read (h.put t i k v).2 j l =
      if j = i ∧ l = k then some v else h.read t j l := by
  have hpart := read_put_part ht (Extends.refl t) i k v j l
  cases hi : t i with
  | some r =>
    rw [table_put_of_some hi, hpart, hi]
    simp only [Option.isSome_some, and_true]
  | none =>
    rw [table_put_of_none hi]
    by_cases hj : j = i
    · subst hj
      rw [read_of_some (Function.update_self ..), put_of_none hi, row_set, read_of_none hi]
      have hempty : h.alloc.row h.fresh l = none := by rw [row_alloc_fresh]
      rw [hempty]
      exact if_congr (and_congr_left fun _ => iff_of_true rfl rfl) rfl rfl
    · have hupdate : Function.update t i (some h.fresh) j = t j := Function.update_of_ne hj ..
      rw [if_neg (fun hand => hj hand.1)] at hpart
      rw [if_neg (fun hand => hj hand.1), ← hpart, Heap.read, Heap.read, hupdate]

lemma put_extends (h : Heap κ β) (t : Table ι) (i : ι) (k : κ) (v : β) :
    Extends (h.put t i k v).2 t := by
  intro j r hj
  cases hi : t i with
  | some r' => rwa [Heap.put, hi]
  | none =>
    have hne : j ≠ i := by
      rintro rfl
      cases hj.symm.trans hi
    rw [Heap.put, hi]
    exact (Function.update_of_ne hne ..).trans hj

/-- Putting makes one row at most. -/
lemma put_isSome (h : Heap κ β) (t : Table ι) (i : ι) (k : κ) (v : β) (j : ι) :
    ((h.put t i k v).2 j).isSome ↔ (t j).isSome ∨ j = i := by
  cases hi : t i with
  | some r =>
    rw [table_put_of_some hi]
    refine (or_iff_left_of_imp ?_).symm
    rintro rfl
    rw [hi]
    rfl
  | none =>
    rw [table_put_of_none hi]
    by_cases hj : j = i
    · subst hj
      rw [Function.update_self]
      exact iff_of_true rfl (.inr rfl)
    · rw [Function.update_of_ne hj, or_iff_left hj]

lemma Separate.put (ht : Separate h t) (i : ι) (k : κ) (v : β) :
    Separate (h.put t i k v).1 (h.put t i k v).2 := by
  rw [Heap.put]
  cases hi : t i with
  | some r => exact ⟨ht.made, ht.once⟩
  | none =>
    have hold : ∀ j r, Function.update t i (some h.fresh) j = some r →
        j = i ∧ r = h.fresh ∨ j ≠ i ∧ t j = some r := by
      intro j r hj
      by_cases hji : j = i
      · rw [hji, Function.update_self] at hj
        exact .inl ⟨hji, (Option.some.inj hj).symm⟩
      · rw [Function.update_of_ne hji] at hj
        exact .inr ⟨hji, hj⟩
    refine ⟨fun j r hj => ?_, fun j j' r hj hj' => ?_⟩
    · rcases hold j r hj with ⟨-, rfl⟩ | ⟨-, hr⟩
      · exact Nat.lt_succ_self _
      · exact Nat.lt_succ_of_lt (ht.made j r hr)
    · rcases hold j r hj with ⟨rfl, rfl⟩ | ⟨-, hr⟩
      · rcases hold j' h.fresh hj' with ⟨rfl, -⟩ | ⟨-, hr'⟩
        · rfl
        · exact absurd (ht.made j' _ hr') (Nat.lt_irrefl _)
      · rcases hold j' r hj' with ⟨-, rfl⟩ | ⟨-, hr'⟩
        · exact absurd (ht.made j _ hr) (Nat.lt_irrefl _)
        · exact ht.once j j' r hr hr'

end Rows
