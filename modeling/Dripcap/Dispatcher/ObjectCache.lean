import Mathlib.Logic.Function.Basic
import Mathlib.Data.Option.Basic
import Mathlib.Algebra.Group.Fin.Basic

/-!
# The object cache

`ObjectCache<K, V>` of `object_cache.hpp`: a RocksDB database of serialized values behind a
table of at most 1024 live ones. The database is taken to be a correct map on the keys.

`V` is the type of the live values and `S` the type of the serialized ones. Reading a value
back converts it to a new live value, which may depend on and change the state `σ` of whoever
creates it (a shared pointer is allocated), so `get` threads such a state.
-/

namespace Dripcap

/-- Number of elements of `cacheBuffer`. -/
abbrev cacheSize : ℕ := 1024

/-- `ObjectCache`. Both fields that are propositions hold of every cache the code builds:
a live value is always stored as well, and its key is in the ring of the last keys inserted. -/
structure ObjectCache (K V S : Type*) where
  cacheIndex : Fin cacheSize
  cacheBuffer : Fin cacheSize → K
  cache : K → Option V
  db : K → Option S
  stored_of_cached : ∀ k, (cache k).isSome → (db k).isSome
  ring_of_cached : ∀ k, (cache k).isSome → ∃ i, cacheBuffer i = k

namespace ObjectCache

variable {K V S σ : Type*}

/-- A new cache over an empty database. The array of keys is value-initialized. -/
def empty [Inhabited K] : ObjectCache K V S where
  cacheIndex := 0
  cacheBuffer := fun _ => default
  cache := fun _ => none
  db := fun _ => none
  stored_of_cached := by simp
  ring_of_cached := by simp

/-- `ObjectCache::has` -/
def has (c : ObjectCache K V S) (id : K) : Bool :=
  if (c.cache id).isSome then true else (c.db id).isSome

/-- `cacheBuffer[cacheIndex]`, the key that the next `insert` erases from the table. -/
def cacheId (c : ObjectCache K V S) : K := c.cacheBuffer c.cacheIndex

variable [DecidableEq K]

/-- `ObjectCache::insert`: the key at `cacheIndex` leaves the table, `id` takes its place in
the ring. Both callers have found or put `id` in the database before. -/
def insert (c : ObjectCache K V S) (id : K) (obj : V) (h : (c.db id).isSome) :
    ObjectCache K V S where
  cacheIndex := c.cacheIndex + 1
  cacheBuffer := Function.update c.cacheBuffer c.cacheIndex id
  cache := Function.update (Function.update c.cache c.cacheId none) id (some obj)
  db := c.db
  stored_of_cached := by
    intro k hk
    simp only [Function.update_apply] at hk
    split_ifs at hk with hid hev
    · exact hid ▸ h
    · simp at hk
    · exact c.stored_of_cached k hk
  ring_of_cached := by
    intro k hk
    simp only [Function.update_apply] at hk
    split_ifs at hk with hid hev
    · exact ⟨c.cacheIndex, by simp [hid]⟩
    · simp at hk
    · obtain ⟨i, hi⟩ := c.ring_of_cached k hk
      have hne : i ≠ c.cacheIndex := by
        rintro rfl
        exact hev hi.symm
      exact ⟨i, by rw [Function.update_of_ne hne, hi]⟩

/-- The database write of `ObjectCache::set`. -/
def put (c : ObjectCache K V S) (id : K) (value : S) : ObjectCache K V S where
  cacheIndex := c.cacheIndex
  cacheBuffer := c.cacheBuffer
  cache := c.cache
  db := Function.update c.db id (some value)
  stored_of_cached := by
    intro k hk
    by_cases hid : k = id
    · simp [hid]
    · rw [Function.update_of_ne hid]
      exact c.stored_of_cached k hk
  ring_of_cached := c.ring_of_cached

/-- `ObjectCache::set`; `value` is the serialization of `obj`. -/
def set (c : ObjectCache K V S) (id : K) (obj : V) (value : S) : ObjectCache K V S :=
  (c.put id value).insert id obj (by simp [put])

/-- `ObjectCache::remove`. The ring keeps the key. -/
def remove (c : ObjectCache K V S) (id : K) : ObjectCache K V S where
  cacheIndex := c.cacheIndex
  cacheBuffer := c.cacheBuffer
  cache := Function.update c.cache id none
  db := Function.update c.db id none
  stored_of_cached := by
    intro k hk
    by_cases hid : k = id
    · simp [hid] at hk
    · rw [Function.update_of_ne hid] at hk ⊢
      exact c.stored_of_cached k hk
  ring_of_cached := by
    intro k hk
    by_cases hid : k = id
    · simp [hid] at hk
    · rw [Function.update_of_ne hid] at hk
      exact c.ring_of_cached k hk

/-- `ObjectCache::get`. The result is `none` where the code returns `V()`. -/
def get (c : ObjectCache K V S) (convert : S → σ → V × σ) (id : K) (st : σ) :
    Option V × ObjectCache K V S × σ :=
  match c.cache id with
  | some obj => (some obj, c, st)
  | none =>
    if h : (c.db id).isSome then
      let r := convert ((c.db id).get h) st
      (some r.1, c.insert id r.1 h, r.2)
    else (none, c, st)

omit [DecidableEq K] in
@[simp] lemma empty_cache [Inhabited K] (k : K) :
    (empty : ObjectCache K V S).cache k = none := rfl

omit [DecidableEq K] in
@[simp] lemma empty_db [Inhabited K] (k : K) : (empty : ObjectCache K V S).db k = none := rfl

@[simp] lemma insert_db (c : ObjectCache K V S) (id : K) (obj : V) (h : (c.db id).isSome) :
    (c.insert id obj h).db = c.db := rfl

@[simp] lemma set_db (c : ObjectCache K V S) (id : K) (obj : V) (value : S) :
    (c.set id obj value).db = Function.update c.db id (some value) := rfl

omit [DecidableEq K] in
/-- A key is present exactly when it is in the database, cached or not. -/
lemma has_eq (c : ObjectCache K V S) (id : K) : c.has id = (c.db id).isSome := by
  unfold has
  split_ifs with h
  · exact (c.stored_of_cached id h).symm
  · rfl

/-- What `insert` leaves in the table: the new entry, and the old ones except for the key that
the ring has come round to. -/
lemma insert_cache (c : ObjectCache K V S) (id : K) (obj : V) (h : (c.db id).isSome) (k : K) :
    (c.insert id obj h).cache k = if k = id then some obj
      else if k = c.cacheId then none else c.cache k := by
  simp only [insert, Function.update_apply]

lemma set_cache (c : ObjectCache K V S) (id : K) (obj : V) (value : S) (k : K) :
    (c.set id obj value).cache k = if k = id then some obj
      else if k = c.cacheId then none else c.cache k :=
  insert_cache _ _ _ _ _

/-- An entry present after `insert` is the new one or was there before. -/
lemma cache_of_insert {c : ObjectCache K V S} {id k : K} {obj v : V} {h : (c.db id).isSome}
    (hk : (c.insert id obj h).cache k = some v) : k = id ∧ v = obj ∨ c.cache k = some v := by
  rw [insert_cache] at hk
  split_ifs at hk with hid
  · exact Or.inl ⟨hid, (Option.some.inj hk).symm⟩
  · exact Or.inr hk

lemma cache_of_set {c : ObjectCache K V S} {id k : K} {obj v : V} {value : S}
    (hk : (c.set id obj value).cache k = some v) : k = id ∧ v = obj ∨ c.cache k = some v :=
  cache_of_insert (c := c.put id value) (h := by simp [put]) hk

/-! ### The three outcomes of `get` -/

variable {convert : S → σ → V × σ}

lemma get_of_cached {c : ObjectCache K V S} {id : K} {obj : V} (h : c.cache id = some obj)
    (st : σ) : c.get convert id st = (some obj, c, st) := by
  simp [get, h]

lemma get_of_stored {c : ObjectCache K V S} {id : K} {value : S} (h : c.cache id = none)
    (hdb : c.db id = some value) (st : σ) :
    c.get convert id st = (some (convert value st).1,
      c.insert id (convert value st).1 (by simp [hdb]), (convert value st).2) := by
  have hs : (c.db id).isSome := by simp [hdb]
  have hv : (c.db id).get hs = value := by simp [hdb]
  simp only [get, h, dif_pos hs, hv]

lemma get_of_absent {c : ObjectCache K V S} {id : K} (hdb : c.db id = none) (st : σ) :
    c.get convert id st = (none, c, st) := by
  have h : c.cache id = none := by
    by_contra hne
    have := c.stored_of_cached id (Option.isSome_iff_ne_none.mpr hne)
    simp [hdb] at this
  simp [get, h, hdb]

/-- Looking a key up never touches the database. -/
@[simp] lemma get_db (c : ObjectCache K V S) (id : K) (st : σ) :
    (c.get convert id st).2.1.db = c.db := by
  cases h : c.cache id with
  | some obj => rw [get_of_cached h]
  | none =>
    cases hdb : c.db id with
    | some value => rw [get_of_stored h hdb, insert_db]
    | none => rw [get_of_absent hdb]

/-! ### Eviction -/

/-- Of the `m` places of the ring from `start` up to `cacheIndex` none holds the key. -/
def Passed (c : ObjectCache K V S) (start : Fin cacheSize) (m : ℕ) (id : K) : Prop :=
  c.cacheIndex = start + Fin.ofNat cacheSize m ∧
    ∀ j < m, c.cacheBuffer (start + Fin.ofNat cacheSize j) ≠ id

omit [DecidableEq K] in
lemma passed_zero (c : ObjectCache K V S) (id : K) : c.Passed c.cacheIndex 0 id := by
  refine ⟨?_, fun j hj => absurd hj (Nat.not_lt_zero j)⟩
  simp

/-- Setting another key moves on by one place. -/
lemma Passed.set {c : ObjectCache K V S} {start : Fin cacheSize} {m : ℕ} {id k : K}
    (h : c.Passed start m id) (hk : k ≠ id) (obj : V) (value : S) :
    (c.set k obj value).Passed start (m + 1) id := by
  have hindex : (c.set k obj value).cacheIndex = c.cacheIndex + 1 := rfl
  have hbuffer : (c.set k obj value).cacheBuffer =
      Function.update c.cacheBuffer c.cacheIndex k := rfl
  constructor
  · rw [hindex, h.1, add_assoc, Fin.ofNat_add]
    rfl
  · intro j hj
    rw [hbuffer, Function.update_apply]
    split_ifs with hpos
    · exact hk
    · refine h.2 j (Nat.lt_of_le_of_ne (Nat.le_of_lt_succ hj) ?_)
      rintro rfl
      exact hpos h.1.symm

omit [DecidableEq K] in
/-- Once the ring has been passed as a whole the key is not in the table any more. -/
theorem Passed.evicted {c : ObjectCache K V S} {start : Fin cacheSize} {id : K}
    (h : c.Passed start cacheSize id) : c.cache id = none := by
  by_contra hne
  obtain ⟨i, hi⟩ := c.ring_of_cached id (Option.isSome_iff_ne_none.mpr hne)
  have hpos : start + Fin.ofNat cacheSize (i - start).val = i := by
    simp
  exact h.2 _ (i - start).isLt (by rw [hpos, hi])

end ObjectCache

end Dripcap
