import Dripcap.Dispatcher.ObjectCache
import Mathlib.Data.Set.Card
import Mathlib.Data.Set.Finite.Range

/-!
# The object cache as a map

What an `ObjectCache` is for: a map from keys to values. The table and the ring are not seen from
outside, whatever has been evicted and read back. Values are compared as values here, so reading
one back needs no state of its creator.
-/

namespace Dripcap.ObjectCache

variable {K V S : Type*}

/-- A call of a public member function that can change something. `has` changes nothing. -/
inductive Call (K V : Type*) where
  | set (id : K) (obj : V)
  | get (id : K)
  | has (id : K)
  | remove (id : K)

section Calls

variable [DecidableEq K] (pack : V → S) (unpack : S → V)

/-- `get`, for values that are known by what they are equal to. -/
def getValue (c : ObjectCache K V S) (id : K) : Option V × ObjectCache K V S :=
  let r := c.get (fun s (_ : Unit) => (unpack s, ())) id ()
  (r.1, r.2.1)

/-- The cache after a call. -/
def perform (c : ObjectCache K V S) : Call K V → ObjectCache K V S
  | .set id obj => c.set id obj (pack obj)
  | .get id => (c.getValue unpack id).2
  | .has _ => c
  | .remove id => c.remove id

/-- The cache after a sequence of calls. -/
def after [Inhabited K] (calls : List (Call K V)) : ObjectCache K V S :=
  calls.foldl (perform pack unpack) empty

/-! ### The map -/

/-- What a call does to the map from keys to values. -/
def update (m : K → Option V) : Call K V → K → Option V
  | .set id obj => Function.update m id (some obj)
  | .get _ => m
  | .has _ => m
  | .remove id => Function.update m id none

/-- The map after a sequence of calls. -/
def current (calls : List (Call K V)) : K → Option V :=
  calls.foldl update fun _ => none

lemma current_concat (calls : List (Call K V)) (call : Call K V) :
    current (calls ++ [call]) = update (current calls) call := by
  rw [current, List.foldl_append]
  rfl

/-- The call decides about the key. -/
def Call.Decides (k : K) : Call K V → Prop
  | .set id _ => id = k
  | .get _ => False
  | .has _ => False
  | .remove id => id = k

lemma update_of_not_decides {m : K → Option V} {call : Call K V} {k : K} (h : ¬ call.Decides k) :
    update m call k = m k := by
  cases call with
  | set id obj => exact Function.update_of_ne (fun heq => h heq.symm) _ _
  | get id => rfl
  | has id => rfl
  | remove id => exact Function.update_of_ne (fun heq => h heq.symm) _ _

omit [DecidableEq K] in
/-- A call in a sequence is the last one or stands further to the front. -/
lemma concat_eq_iff {calls earlier later : List (Call K V)} {call call' : Call K V} :
    calls ++ [call] = earlier ++ call' :: later ↔
      (later = [] ∧ calls = earlier ∧ call = call') ∨
      ∃ later', later = later' ++ [call] ∧ calls = earlier ++ call' :: later' := by
  constructor
  · intro h
    rcases List.eq_nil_or_concat later with rfl | ⟨later', last, rfl⟩
    · obtain ⟨rfl, hlast⟩ := List.append_inj' h rfl
      exact Or.inl ⟨rfl, rfl, List.singleton_inj.mp hlast⟩
    · rw [List.concat_eq_append, ← List.cons_append, ← List.append_assoc] at h
      obtain ⟨rfl, hlast⟩ := List.append_inj' h rfl
      refine Or.inr ⟨later', ?_, rfl⟩
      rw [List.concat_eq_append, hlast]
  · rintro (⟨rfl, rfl, rfl⟩ | ⟨later', rfl, rfl⟩)
    · rfl
    · simp

/-- The last `set` of the key stores the value, and no `remove` follows. -/
def LastSet (calls : List (Call K V)) (k : K) (v : V) : Prop :=
  ∃ earlier later, calls = earlier ++ .set k v :: later ∧ ∀ call ∈ later, ¬ call.Decides k

omit [DecidableEq K] in
/-- A last call that decides about the key is the one that counts. -/
lemma lastSet_concat_of_decides {calls : List (Call K V)} {call : Call K V} {k : K} {v : V}
    (h : call.Decides k) : LastSet (calls ++ [call]) k v ↔ call = .set k v := by
  simp only [LastSet, concat_eq_iff]
  constructor
  · rintro ⟨earlier, later, ⟨-, -, rfl⟩ | ⟨later', rfl, -⟩, hall⟩
    · rfl
    · exact absurd h (hall call (by simp))
  · rintro rfl
    exact ⟨calls, [], Or.inl ⟨rfl, rfl, rfl⟩, fun _ h => by cases h⟩

omit [DecidableEq K] in
/-- A last call that does not decide about the key can be left out. -/
lemma lastSet_concat_of_not_decides {calls : List (Call K V)} {call : Call K V} {k : K} {v : V}
    (h : ¬ call.Decides k) : LastSet (calls ++ [call]) k v ↔ LastSet calls k v := by
  simp only [LastSet, concat_eq_iff]
  constructor
  · rintro ⟨earlier, later, ⟨-, -, rfl⟩ | ⟨later', rfl, rfl⟩, hall⟩
    · exact absurd rfl h
    · exact ⟨earlier, later', rfl, fun call' h => hall call' (List.mem_append_left _ h)⟩
  · rintro ⟨earlier, later, rfl, hall⟩
    refine ⟨earlier, later ++ [call], Or.inr ⟨later, rfl, rfl⟩, ?_⟩
    intro call' hcall'
    rcases List.mem_append.mp hcall' with hlater | hlast
    · exact hall call' hlater
    · rwa [List.mem_singleton.mp hlast]

/-- `current` is what it is called. -/
lemma current_eq_some_iff {calls : List (Call K V)} {k : K} {v : V} :
    current calls k = some v ↔ LastSet calls k v := by
  induction calls using List.reverseRecOn with
  | nil =>
    refine iff_of_false (fun h => by cases h) ?_
    rintro ⟨earlier, later, h, _⟩
    simp at h
  | append_singleton calls call ih =>
    rw [current_concat]
    by_cases hdecides : call.Decides k
    · rw [lastSet_concat_of_decides hdecides]
      cases call with
      | set id obj =>
        obtain rfl : id = k := hdecides
        simp [update]
      | get id => cases hdecides
      | has id => cases hdecides
      | remove id =>
        obtain rfl : id = k := hdecides
        simp [update]
    · rw [update_of_not_decides hdecides, ih, lastSet_concat_of_not_decides hdecides]

/-! ### The cache refines the map -/

/-- The database holds the map and the table a part of it. -/
structure Refines (c : ObjectCache K V S) (m : K → Option V) : Prop where
  stored : ∀ k, c.db k = (m k).map pack
  cached : ∀ k v, c.cache k = some v → m k = some v

variable {pack unpack} {c : ObjectCache K V S} {m : K → Option V}

omit [DecidableEq K] in
lemma refines_empty [Inhabited K] : Refines pack (empty : ObjectCache K V S) fun _ => none where
  stored _ := rfl
  cached _ _ h := by cases h

/-- Entries of the table survive or leave it, whatever `insert` throws out. -/
lemma Refines.insert {id : K} {obj : V} (h : Refines pack c m) (hstored : (c.db id).isSome)
    (hobj : m id = some obj) : Refines pack (c.insert id obj hstored) m where
  stored := h.stored
  cached k v hk := by
    rcases cache_of_insert hk with ⟨rfl, rfl⟩ | hk
    · exact hobj
    · exact h.cached k v hk

lemma Refines.set (h : Refines pack c m) (id : K) (obj : V) :
    Refines pack (c.set id obj (pack obj)) (Function.update m id (some obj)) where
  stored k := by
    rw [set_db, Function.update_apply, Function.update_apply]
    split_ifs
    · rfl
    · exact h.stored k
  cached k v hk := by
    rw [set_cache] at hk
    split_ifs at hk with hid hev
    · rw [hid, Function.update_self]
      exact hk
    · rw [Function.update_of_ne hid]
      exact h.cached k v hk

lemma Refines.remove (h : Refines pack c m) (id : K) :
    Refines pack (c.remove id) (Function.update m id none) where
  stored k := by
    show Function.update c.db id none k = _
    rw [Function.update_apply, Function.update_apply]
    split_ifs
    · rfl
    · exact h.stored k
  cached k v hk := by
    have hk' : Function.update c.cache id none k = some v := hk
    rw [Function.update_apply] at hk' ⊢
    split_ifs at hk' ⊢
    exact h.cached k v hk'

/-- `get` finds the value of the map, in the table or in the database, and changes nothing that can
be seen. -/
lemma Refines.get (h : Refines pack c m) (hpack : ∀ v, unpack (pack v) = v) (id : K) :
    (c.getValue unpack id).1 = m id ∧ Refines pack (c.getValue unpack id).2 m := by
  cases hcache : c.cache id with
  | some obj =>
    rw [getValue, get_of_cached hcache]
    exact ⟨(h.cached id obj hcache).symm, h⟩
  | none =>
    cases hm : m id with
    | none =>
      have hdb : c.db id = none := by rw [h.stored, hm]; rfl
      rw [getValue, get_of_absent hdb]
      exact ⟨rfl, h⟩
    | some v =>
      have hdb : c.db id = some (pack v) := by rw [h.stored, hm]; rfl
      rw [getValue, get_of_stored hcache hdb]
      have hstored : (c.db id).isSome := by rw [hdb]; rfl
      refine ⟨congrArg some (hpack v), h.insert hstored ?_⟩
      rw [hm, hpack]

omit [DecidableEq K] in
lemma Refines.has (h : Refines pack c m) (id : K) : c.has id = (m id).isSome := by
  rw [has_eq, h.stored, Option.isSome_map]

/-- Every call does to the cache what it does to the map. -/
lemma Refines.perform (h : Refines pack c m) (hpack : ∀ v, unpack (pack v) = v)
    (call : Call K V) : Refines pack (c.perform pack unpack call) (update m call) := by
  cases call with
  | set id obj => exact h.set id obj
  | get id => exact (h.get hpack id).2
  | has id => exact h
  | remove id => exact h.remove id

lemma refines_after [Inhabited K] (hpack : ∀ v, unpack (pack v) = v) (calls : List (Call K V)) :
    Refines pack (after pack unpack calls) (current calls) := by
  induction calls using List.reverseRecOn with
  | nil => exact refines_empty
  | append_singleton calls call ih =>
    rw [current_concat, after, List.foldl_append]
    exact ih.perform hpack call

end Calls

/-- The table has at most as many entries as the ring has places. -/
lemma ncard_cached_le (c : ObjectCache K V S) :
    {k | (c.cache k).isSome}.Finite ∧ {k | (c.cache k).isSome}.ncard ≤ cacheSize := by
  have hsubset : {k | (c.cache k).isSome} ⊆ Set.range c.cacheBuffer :=
    fun k hk => c.ring_of_cached k hk
  have hfinite : (Set.range c.cacheBuffer).Finite := Set.finite_range _
  refine ⟨hfinite.subset hsubset, (Set.ncard_le_ncard hsubset hfinite).trans ?_⟩
  rw [← Set.image_univ]
  apply (Set.ncard_image_le Set.finite_univ).trans
  rw [Set.ncard_univ, Nat.card_eq_fintype_card, Fintype.card_fin]

/-- A cache is a map: after any calls `get` and `has` answer for the last `set` of the key that no
`remove` has followed. The keys of the table are in the ring, so there are at most 1024, and the
values in it are those of the database. -/
theorem cache_is_map [DecidableEq K] [Inhabited K] [Inhabited V] {pack : V → S} {unpack : S → V}
    (hpack : ∀ v, unpack (pack v) = v) (calls : List (Call K V)) :
    let c := after pack unpack calls
    (∀ k v, LastSet calls k v → (c.getValue unpack k).1.getD default = v) ∧
    (∀ k, (∀ v, ¬ LastSet calls k v) → (c.getValue unpack k).1.getD default = default) ∧
    (∀ k, c.has k = true ↔ ∃ v, LastSet calls k v) ∧
    (∀ k, (c.cache k).isSome → ∃ i, c.cacheBuffer i = k) ∧
    ({k | (c.cache k).isSome}.Finite ∧ {k | (c.cache k).isSome}.ncard ≤ 1024) ∧
    ∀ k v, c.cache k = some v → ∃ value, c.db k = some value ∧ unpack value = v := by
  have href := refines_after hpack calls
  refine ⟨fun k v hlast => ?_, fun k hnone => ?_, fun k => ?_, ring_of_cached _,
    ncard_cached_le _, fun k v hk => ?_⟩
  · rw [(href.get hpack k).1, current_eq_some_iff.mpr hlast]
    rfl
  · rw [(href.get hpack k).1]
    cases hcurrent : current calls k with
    | none => rfl
    | some v => exact absurd (current_eq_some_iff.mp hcurrent) (hnone v)
  · simp only [href.has, Option.isSome_iff_exists, current_eq_some_iff]
  · refine ⟨pack v, ?_, hpack v⟩
    rw [href.stored, href.cached k v hk]
    rfl

/-- Key 0 is set, looked up and removed in a cache of numbers that are stored as they are. -/
theorem cache_is_map_removed :
    let calls : List (Call ℕ ℕ) := [.set 0 7, .get 0, .remove 0]
    let c := after (fun n : ℕ => n) (fun n : ℕ => n) calls
    (∀ k v, LastSet calls k v → (c.getValue (fun n : ℕ => n) k).1.getD default = v) ∧
    (∀ k, (∀ v, ¬ LastSet calls k v) → (c.getValue (fun n : ℕ => n) k).1.getD default = default) ∧
    (∀ k, c.has k = true ↔ ∃ v, LastSet calls k v) ∧
    (∀ k, (c.cache k).isSome → ∃ i, c.cacheBuffer i = k) ∧
    ({k | (c.cache k).isSome}.Finite ∧ {k | (c.cache k).isSome}.ncard ≤ 1024) ∧
    ∀ k v, c.cache k = some v → ∃ value, c.db k = some value ∧ value = v :=
  cache_is_map (fun _ => rfl) [.set 0 7, .get 0, .remove 0]

end Dripcap.ObjectCache
