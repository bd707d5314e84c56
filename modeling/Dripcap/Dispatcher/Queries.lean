import Dripcap.Dispatcher.Ids

/-!
# The two queries

`get(start, end)` stops at `streamMaxID`, `get(list)` looks up whatever it is asked for. Between
the end of dissection and the end of stream analysis a packet is stored and not published, and
then the two differ.
-/

namespace Dripcap

namespace State

variable {hardware : ℕ} {s s' : State hardware}

/-- The id list `[start, start + 1, ..., end]`. -/
abbrev idRange (start fin : ℕ) : List ℕ := List.range' start (fin + 1 - start)

/-- The packets that are sent to the caller of a query. -/
def contents (r : List PacketPtr × State hardware) : List Packet := r.1.map r.2.heap.packet

/-! ### Looking up lists -/

lemma lookup_absent {i : ℕ} (h : s.packets.has i = false) : s.lookup i = (none, s) := by
  have hdb : s.packets.db i = none := by
    rw [ObjectCache.has_eq] at h
    simpa using h
  simp only [lookup, ObjectCache.get_of_absent hdb]

lemma lookups_append (s : State hardware) (ids ids' : List ℕ) :
    s.lookups (ids ++ ids') =
      ((s.lookups ids).1 ++ ((s.lookups ids).2.lookups ids').1,
        ((s.lookups ids).2.lookups ids').2) := by
  induction ids generalizing s with
  | nil => rfl
  | cons i ids ih => simp only [List.cons_append, lookups, ih, List.append_assoc]

/-- Ids that are not stored leave no trace. -/
lemma lookups_absent {ids : List ℕ} (h : ∀ i ∈ ids, s.packets.has i = false) :
    s.lookups ids = ([], s) := by
  induction ids with
  | nil => rfl
  | cons i ids ih =>
    rw [lookups, lookup_absent (h i List.mem_cons_self),
      ih fun j hj => h j (List.mem_cons_of_mem i hj)]
    rfl

/-- A query returns one packet for every stored id it asks for. -/
lemma lookups_length (s : State hardware) (ids : List ℕ) :
    (s.lookups ids).1.length = (ids.filter s.packets.has).length := by
  induction ids generalizing s with
  | nil => rfl
  | cons i ids ih =>
    have hhas : (s.lookup i).2.packets.has = s.packets.has := funext (s.lookup_reads i).has
    rw [lookups, List.length_append, ih, hhas, List.filter_cons, ← lookup_isSome]
    cases (s.lookup i).1 with
    | none => simp
    | some p => simp [Nat.add_comm]

/-- `get` looks up the part of the interval that is published. -/
lemma get_eq_lookups {a b : ℕ} (ha : 1 ≤ a) (hab : a ≤ b) :
    s.get a b = s.lookups ((idRange a b).takeWhile (· ≤ s.streamMaxID)) := by
  have hguard : ¬ (a = 0 ∨ b = 0 ∨ a > b) := by omega
  rw [get, if_neg hguard, getLoop_eq]

lemma contents_ids (r : List PacketPtr × State hardware) :
    (contents r).map Packet.id = r.1.map r.2.idOf := by
  rw [contents, List.map_map]
  rfl

/-! ### Where the queries agree -/

/-- No packet of the interval is stored ahead of the stream thread. -/
def Caught (s : State hardware) (a b : ℕ) : Prop :=
  ∀ i, a ≤ i → i ≤ b → s.packets.has i = true → i ≤ s.streamMaxID

lemma mem_idRange {a b i : ℕ} : i ∈ idRange a b ↔ a ≤ i ∧ i ≤ b := by
  rw [List.mem_range'_1]
  omega

/-- What follows the published part of an interval is not published. -/
lemma not_published_of_mem_dropWhile {a n m i : ℕ}
    (hi : i ∈ (List.range' a n).dropWhile (· ≤ m)) : m < i := by
  induction n generalizing a with
  | zero => simp at hi
  | succ n ih =>
    rw [List.range'_succ, List.dropWhile_cons] at hi
    split_ifs at hi with ha
    · exact ih hi
    · rcases List.mem_cons.mp hi with rfl | hi
      · simpa using ha
      · have hle : a + 1 ≤ i := (List.mem_range'_1.mp hi).1
        simp only [decide_eq_true_eq, not_le] at ha
        omega

/-- If nothing is stored ahead both queries look up the same packets, with the same effect on the
cache. -/
lemma Caught.lookups {a b : ℕ} (h : s.Caught a b) (ha : 1 ≤ a) (hab : a ≤ b) :
    s.lookups (idRange a b) = s.get a b := by
  have hsplit := List.takeWhile_append_dropWhile (p := (· ≤ s.streamMaxID)) (l := idRange a b)
  have hrest : ∀ i ∈ (idRange a b).dropWhile (· ≤ s.streamMaxID),
      (s.get a b).2.packets.has i = false := by
    intro i hi
    rw [(s.get_reads a b).has]
    by_contra hne
    obtain ⟨hai, hib⟩ := mem_idRange.mp ((List.dropWhile_sublist _).subset hi)
    have hle := h i hai hib (by simpa using hne)
    exact absurd hle (not_le.mpr (not_published_of_mem_dropWhile hi))
  rw [get_eq_lookups ha hab] at hrest ⊢
  conv_lhs => rw [← hsplit]
  rw [lookups_append, lookups_absent hrest, List.append_nil]

/-- Both queries return the same number of packets only if nothing is stored ahead. -/
lemma caught_of_length {a b : ℕ} (ha : 1 ≤ a) (hab : a ≤ b)
    (h : (s.lookups (idRange a b)).1.length = (s.get a b).1.length) : s.Caught a b := by
  intro i hai hib hi
  by_contra hlt
  have hsplit := List.takeWhile_append_dropWhile (p := (· ≤ s.streamMaxID)) (l := idRange a b)
  have hmem : i ∈ (idRange a b).dropWhile (· ≤ s.streamMaxID) := by
    have hall : i ∈ idRange a b := mem_idRange.mpr ⟨hai, hib⟩
    rw [← hsplit] at hall
    rcases List.mem_append.mp hall with hpub | hrest
    · have hle := List.mem_takeWhile_imp hpub
      exact absurd (by simpa using hle) hlt
    · exact hrest
  have hpos : 0 < (((idRange a b).dropWhile (· ≤ s.streamMaxID)).filter s.packets.has).length :=
    List.length_pos_of_mem (List.mem_filter.mpr ⟨hmem, hi⟩)
  rw [get_eq_lookups ha hab, lookups_length, lookups_length] at h
  conv at h => lhs; rw [← hsplit]
  rw [List.filter_append, List.length_append] at h
  omega

/-- The ids of the packets a range query returns increase, so the sort of the other query leaves
them where they are. -/
lemma Caught.getList {inserted : List ℕ} {a b : ℕ} (h : s.Caught a b)
    (hc : s.Consistent inserted) (ha : 1 ≤ a) (hab : a ≤ b) :
    s.getList (idRange a b) = s.get a b := by
  have hsorted : (s.get a b).1.Pairwise fun p q => (s.get a b).2.idOf p ≤ (s.get a b).2.idOf q := by
    rw [← List.pairwise_map (R := (· ≤ ·)) (f := (s.get a b).2.idOf), get_ids hc ha hab]
    exact List.pairwise_le_range' 1
  rw [State.getList, h.lookups ha hab]
  refine Prod.ext ?_ rfl
  apply List.mergeSort_of_pairwise
  exact hsorted.imp fun hle => by simpa using hle

/-- No packet returned by a range query is ahead of the stream thread. -/
lemma Consistent.get_le {inserted : List ℕ} {a b : ℕ} (hc : s.Consistent inserted) (ha : 1 ≤ a)
    (hab : a ≤ b) {pkt : Packet} (hpkt : pkt ∈ contents (s.get a b)) :
    pkt.id ≤ s.streamMaxID := by
  have hid : pkt.id ∈ (contents (s.get a b)).map Packet.id := List.mem_map_of_mem hpkt
  rw [contents_ids, get_ids hc ha hab, List.mem_range'_1] at hid
  omega

/-- Sorting loses no packet. -/
lemma contents_getList (s : State hardware) (ids : List ℕ) :
    (contents (s.getList ids)).Perm (contents (s.lookups ids)) := by
  show ((s.getList ids).1.map (s.lookups ids).2.heap.packet).Perm _
  exact (List.mergeSort_perm _ _).map _

/-- The queries return the same packets exactly when nothing is stored ahead. -/
lemma perm_iff_caught {a b : ℕ} (ha : 1 ≤ a) (hab : a ≤ b) :
    (contents (s.getList (idRange a b))).Perm (contents (s.get a b)) ↔ s.Caught a b := by
  have hperm := s.contents_getList (idRange a b)
  constructor
  · intro h
    apply caught_of_length ha hab
    simpa only [contents, List.length_map] using (hperm.symm.trans h).length_eq
  · intro h
    rw [← h.lookups ha hab]
    exact hperm

/-- The two queries agree, and neither of them is ahead of the stream thread, as long as no packet
of the interval is stored and not yet published. When a packet object has been inserted twice the
sort may still arrange the same packets in another order. -/
theorem queries_agree_iff {load : List (String × String) → String → Bool}
    {packet : PacketPtr → Packet} {es : List (Event hardware)}
    (hrun : Run.run (step load) (init packet) es = some s) (a b : ℕ) (ha : 1 ≤ a) (hab : a ≤ b) :
    ((contents (s.getList (idRange a b))).Perm (contents (s.get a b)) ↔ s.Caught a b) ∧
      ((insertedBy es).Nodup →
        (contents (s.getList (idRange a b)) = contents (s.get a b) ∧
          (∀ pkt ∈ contents (s.getList (idRange a b)), pkt.id ≤ s.streamMaxID) ∧
          (∀ pkt ∈ contents (s.get a b), pkt.id ≤ s.streamMaxID) ↔ s.Caught a b)) := by
  refine ⟨perm_iff_caught ha hab, fun hnodup => ?_⟩
  have hc := consistent_run hrun hnodup
  constructor
  · rintro ⟨heq, -, -⟩
    apply (perm_iff_caught ha hab).mp
    rw [heq]
  · intro h
    rw [h.getList hc ha hab]
    exact ⟨rfl, fun pkt => hc.get_le ha hab, fun pkt => hc.get_le ha hab⟩

/-- One packet that the stream thread has finished with and one that it has not. -/
def aheadRun : List (Event 1) :=
  [.insert 0 (some 0), .push 0, .notify 0, .wake 0, .dissected 0 [], .streamWake, .analyzed [],
    .insert 0 (some 1), .push 0, .wake 0, .dissected 0 []]

theorem queries_agree_iff_first : ∃ s : State 1,
    Run.run (step fun _ _ => true) (init fun _ => default) aheadRun = some s ∧ s.Caught 1 1 ∧
    contents (s.getList (idRange 1 1)) = contents (s.get 1 1) := by
  have h : ∀ s : State 1,
      Run.run (step fun _ _ => true) (init fun _ => default) aheadRun = some s → s.Caught 1 1 →
      contents (s.getList (idRange 1 1)) = contents (s.get 1 1) := by
    intro s hrun hcaught
    exact (((queries_agree_iff hrun 1 1 le_rfl le_rfl).2 (by decide)).mpr hcaught).1
  have hcaught : ∀ i, 1 ≤ i → i ≤ 1 → i ≤ 1 := fun _ _ hi => hi
  exact ⟨_, rfl, fun i h1 hi _ => hcaught i h1 hi, h _ rfl fun i h1 hi _ => hcaught i h1 hi⟩

/-- The list query returns the packet that the stream thread has not looked at. -/
theorem getList_ahead : ∃ s : State 1,
    Run.run (step fun _ _ => true) (init fun _ => default) aheadRun = some s ∧
    contents (s.getList (idRange 2 2)) ≠ contents (s.get 2 2) ∧
    ∃ pkt ∈ contents (s.getList (idRange 2 2)), s.streamMaxID < pkt.id := by
  refine ⟨_, rfl, ?_, ?_⟩
  · intro h
    have hlen := (contents_getList _ _).length_eq.symm.trans (congrArg List.length h)
    exact absurd hlen (by decide)
  · refine ⟨{ (default : Packet) with id := 2 }, ?_, by decide⟩
    apply (contents_getList _ _).mem_iff.mpr
    exact List.mem_singleton_self _

end State

end Dripcap
