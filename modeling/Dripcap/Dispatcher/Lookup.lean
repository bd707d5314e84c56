import Dripcap.Dispatcher.State

/-!
# Reading packets back

Looking up a packet may create a packet object and rearranges the table of the object cache; it
changes nothing else. `Reads s s'` says this of any number of lookups.
-/

namespace Dripcap

namespace Heap

/-- There is a packet behind the pointer. Those passed to `insert` exist from the start. -/
def Valid (h : Heap) : PacketPtr → Prop
  | .made _ => True
  | .loaded k => k < h.loads

/-- `h'` has all the packets of `h` with the same content. -/
structure Extends (h h' : Heap) : Prop where
  loads : h.loads ≤ h'.loads
  packet : ∀ p, h.Valid p → h'.packet p = h.packet p

/-- Between `h` and `h'` the packet `p` has been created with this content. -/
structure Created (h h' : Heap) (p : PacketPtr) (value : Packet) : Prop where
  new : ¬ h.Valid p
  valid : h'.Valid p
  packet : h'.packet p = value

variable {h h' h'' : Heap} {p : PacketPtr} {value : Packet}

lemma Extends.refl (h : Heap) : h.Extends h := ⟨le_rfl, fun _ _ => rfl⟩

lemma Extends.valid (he : h.Extends h') (hp : h.Valid p) : h'.Valid p := by
  cases p with
  | made n => trivial
  | loaded k => exact Nat.lt_of_lt_of_le hp he.loads

lemma Extends.trans (he : h.Extends h') (he' : h'.Extends h'') : h.Extends h'' where
  loads := he.loads.trans he'.loads
  packet p hp := (he'.packet p (he.valid hp)).trans (he.packet p hp)

lemma Created.trans_left (hc : h.Created h' p value) (he : h'.Extends h'') :
    h.Created h'' p value :=
  ⟨hc.new, he.valid hc.valid, (he.packet p hc.valid).trans hc.packet⟩

lemma Created.trans_right (he : h.Extends h') (hc : h'.Created h'' p value) :
    h.Created h'' p value :=
  ⟨fun hp => hc.new (he.valid hp), hc.valid, hc.packet⟩

lemma extends_load (value : Packet) (h : Heap) : h.Extends (load value h).2 where
  loads := Nat.le_succ _
  packet p hp := by
    apply Function.update_of_ne
    rintro rfl
    exact Nat.lt_irrefl _ hp

lemma created_load (value : Packet) (h : Heap) :
    h.Created (load value h).2 (load value h).1 value :=
  ⟨Nat.lt_irrefl _, Nat.lt_succ_self _, Function.update_self _ _ _⟩

@[simp] lemma modify_loads (h : Heap) (p : PacketPtr) (f : Packet → Packet) :
    (h.modify p f).loads = h.loads := rfl

lemma modify_packet (h : Heap) (p q : PacketPtr) (f : Packet → Packet) :
    (h.modify p f).packet q = if q = p then f (h.packet p) else h.packet q := by
  simp only [modify, Function.update_apply]

end Heap

namespace State

variable {hardware : ℕ}

/-- `s'` comes from `s` by looking up packets. -/
structure Reads (s s' : State hardware) : Prop where
  heap : s.heap.Extends s'.heap
  db : s'.packets.db = s.packets.db
  cache : ∀ i p, s'.packets.cache i = some p → s.packets.cache i = some p ∨
    ∃ value, s.packets.db i = some value ∧ s.heap.Created s'.heap p value
  rest : s' = { s with heap := s'.heap, packets := s'.packets }

variable {s s' s'' : State hardware}

lemma Reads.refl (s : State hardware) : s.Reads s where
  heap := .refl _
  db := rfl
  cache _ _ hp := Or.inl hp
  rest := rfl

lemma Reads.trans (h : s.Reads s') (h' : s'.Reads s'') : s.Reads s'' where
  heap := h.heap.trans h'.heap
  db := h'.db.trans h.db
  cache i p hp := by
    rcases h'.cache i p hp with hold | ⟨value, hv, hc⟩
    · refine (h.cache i p hold).imp id ?_
      rintro ⟨value, hv, hc⟩
      exact ⟨value, hv, hc.trans_left h'.heap⟩
    · exact Or.inr ⟨value, h.db ▸ hv, Heap.Created.trans_right h.heap hc⟩
  rest := by
    rw [h'.rest, h.rest]

lemma Reads.has (h : s.Reads s') (i : ℕ) : s'.packets.has i = s.packets.has i := by
  rw [ObjectCache.has_eq, ObjectCache.has_eq, h.db]

lemma lookup_reads (s : State hardware) (i : ℕ) : s.Reads (s.lookup i).2 := by
  cases hc : s.packets.cache i with
  | some p =>
    simp only [lookup, ObjectCache.get_of_cached hc]
    exact .refl s
  | none =>
    cases hdb : s.packets.db i with
    | none =>
      simp only [lookup, ObjectCache.get_of_absent hdb]
      exact .refl s
    | some value =>
      simp only [lookup, ObjectCache.get_of_stored hc hdb]
      refine ⟨Heap.extends_load _ _, rfl, fun k p hp => ?_, rfl⟩
      rcases ObjectCache.cache_of_insert (h := by simp [hdb]) hp with ⟨rfl, rfl⟩ | hold
      · exact Or.inr ⟨value, hdb, Heap.created_load value s.heap⟩
      · exact Or.inl hold

/-- What `get` returns is what it leaves in the table. -/
lemma lookup_eq (s : State hardware) (i : ℕ) :
    (s.lookup i).1 = (s.lookup i).2.packets.cache i := by
  cases hc : s.packets.cache i with
  | some p => simp only [lookup, ObjectCache.get_of_cached hc, hc]
  | none =>
    cases hdb : s.packets.db i with
    | none => simp only [lookup, ObjectCache.get_of_absent hdb, hc]
    | some value =>
      simp only [lookup, ObjectCache.get_of_stored hc hdb, ObjectCache.insert_cache, if_true]

/-- A lookup finds a packet exactly when the packet is stored. -/
lemma lookup_isSome (s : State hardware) (i : ℕ) : (s.lookup i).1.isSome = s.packets.has i := by
  rw [ObjectCache.has_eq]
  cases hc : s.packets.cache i with
  | some p =>
    have hdb := s.packets.stored_of_cached i (by simp [hc])
    simp only [lookup, ObjectCache.get_of_cached hc, Option.isSome_some, hdb]
  | none =>
    cases hdb : s.packets.db i with
    | none => simp only [lookup, ObjectCache.get_of_absent hdb, Option.isSome_none]
    | some value => simp only [lookup, ObjectCache.get_of_stored hc hdb, Option.isSome_some]

lemma lookups_reads (s : State hardware) (ids : List ℕ) : s.Reads (s.lookups ids).2 := by
  induction ids generalizing s with
  | nil => exact .refl s
  | cons i ids ih => exact (s.lookup_reads i).trans (ih _)

lemma getList_reads (s : State hardware) (ids : List ℕ) : s.Reads (s.getList ids).2 :=
  s.lookups_reads ids

lemma getLoop_reads (s : State hardware) (i n : ℕ) : s.Reads (s.getLoop i n).2 := by
  induction n generalizing s i with
  | zero => exact .refl s
  | succ n ih =>
    rw [getLoop]
    split_ifs
    · exact .refl s
    · exact (s.lookup_reads i).trans (ih _ _)

/-- The loop of `get` looks up the ids it is asked for until it comes to one that is not published
yet. -/
lemma getLoop_eq (s : State hardware) (i n : ℕ) :
    s.getLoop i n = s.lookups ((List.range' i n).takeWhile (· ≤ s.streamMaxID)) := by
  induction n generalizing s i with
  | zero => rfl
  | succ n ih =>
    have hmax : (s.lookup i).2.streamMaxID = s.streamMaxID := by rw [(s.lookup_reads i).rest]
    rw [getLoop, List.range'_succ, List.takeWhile_cons]
    by_cases hi : i > s.streamMaxID
    · rw [if_pos hi, if_neg (by simpa using hi)]
      rfl
    · rw [if_neg hi, if_pos (by simpa using hi), lookups]
      simp only [ih, hmax]

lemma get_reads (s : State hardware) (start fin : ℕ) : s.Reads (s.get start fin).2 := by
  unfold get
  split_ifs
  · exact .refl s
  · exact getLoop_reads _ _ _

end State

end Dripcap
