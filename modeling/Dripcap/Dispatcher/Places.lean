import Dripcap.Dispatcher.Lookup
import Dripcap.Dispatcher.Step
import Dripcap.Library.Placement
import Mathlib.Order.Interval.Set.SuccPred
import Mathlib.Data.Nat.SuccPred

/-!
# Every packet is in one place

The ids given out so far are the items of a pipeline with four kinds of places: between the two
locked sections of `insert`, the queue, a dissector worker, and the store. `Pipeline` is the
invariant; a step either is `Quiet` or moves one id.
-/

namespace Dripcap

/-- Where a packet id can be. -/
inductive Place (hardware : ℕ) where
  | inserting (t : ℕ)
  | waiting
  | dissecting (w : Core hardware)
  | stored
  deriving DecidableEq

/-- The pointer is one of those passed to `insert` or has been created by the cache. -/
def Heap.Known (h : Heap) (inserted : List ℕ) : PacketPtr → Prop
  | .made n => n ∈ inserted
  | .loaded k => k < h.loads

/-- The packet object an `insert` call passes. -/
def Event.inserted {hardware : ℕ} : Event hardware → Option ℕ
  | .insert _ pkt => pkt
  | _ => none

namespace Heap

variable {h h' : Heap} {inserted : List ℕ} {p : PacketPtr}

lemma Known.valid (hk : h.Known inserted p) : h.Valid p := by
  cases p with
  | made n => trivial
  | loaded k => exact hk

lemma Known.mono {inserted' : List ℕ} (hk : h.Known inserted p) (hl : h.loads ≤ h'.loads)
    (hi : inserted ⊆ inserted') : h'.Known inserted' p := by
  cases p with
  | made n => exact hi hk
  | loaded k => exact Nat.lt_of_lt_of_le hk hl

lemma Created.known {value : Packet} (hc : h.Created h' p value) : h'.Known inserted p := by
  cases p with
  | made n => exact absurd trivial hc.new
  | loaded k => exact hc.valid

end Heap

namespace State

variable {hardware : ℕ}

/-- Packet id `i` is at a place. -/
def At (s : State hardware) (i : ℕ) : Place hardware → Prop
  | .inserting t => ∃ p, s.calls t = .inserting p ∧ s.idOf p = i
  | .waiting => ∃ p ∈ s.waitingPackets, s.idOf p = i
  | .dissecting w => ∃ p, (s.workers w).phase = .dissecting p ∧ s.idOf p = i
  | .stored => s.packets.has i = true

/-- The packet is between `insert` and the store. -/
def InFlight (s : State hardware) (p : PacketPtr) : Prop :=
  (∃ t, s.calls t = .inserting p) ∨ p ∈ s.waitingPackets ∨
    ∃ w, (s.workers w).phase = .dissecting p

/-- No thread is about to store the packet, and it is not in the table of the cache. -/
def Unused (s : State hardware) (p : PacketPtr) : Prop :=
  ¬ s.InFlight p ∧ ∀ i, s.packets.cache i ≠ some p

/-- The pointers in use are known and the ids of their packets account for `1..count`. -/
structure Pipeline (inserted : List ℕ) (s : State hardware) : Prop where
  places : Placement.Partitions s.At (Set.Icc 1 s.count)
  queue : (s.waitingPackets.map s.idOf).Nodup
  inserting : ∀ t p, s.calls t = .inserting p → s.heap.Known inserted p
  waiting : ∀ p ∈ s.waitingPackets, s.heap.Known inserted p
  dissecting : ∀ w p, (s.workers w).phase = .dissecting p → s.heap.Known inserted p
  cached : ∀ i p, s.packets.cache i = some p → s.heap.Known inserted p ∧ s.idOf p = i
  stored : ∀ i value, s.packets.db i = some value → value.id = i

/-- A step that leaves every packet as it is and every id where it is. It may still read packets
back and let threads fall asleep and wake up. -/
structure Quiet (s s' : State hardware) : Prop where
  heap : s.heap.Extends s'.heap
  db : s'.packets.db = s.packets.db
  cache : ∀ i p, s'.packets.cache i = some p → s.packets.cache i = some p ∨
    ∃ value, s.packets.db i = some value ∧ s.heap.Created s'.heap p value
  queue : s'.waitingPackets = s.waitingPackets
  calls : ∀ t p, s'.calls t = .inserting p ↔ s.calls t = .inserting p
  workers : ∀ w p, (s'.workers w).phase = .dissecting p ↔ (s.workers w).phase = .dissecting p
  count : s'.count = s.count

variable {inserted : List ℕ} {s s' : State hardware}

lemma Quiet.ids (q : s.Quiet s') {p : PacketPtr} (hp : s.heap.Valid p) : s'.idOf p = s.idOf p :=
  congrArg Packet.id (q.heap.packet p hp)

lemma Quiet.has (q : s.Quiet s') (i : ℕ) : s'.packets.has i = s.packets.has i := by
  rw [ObjectCache.has_eq, ObjectCache.has_eq, q.db]

/-- In a quiet step nothing changes its place. -/
lemma Quiet.at_iff (q : s.Quiet s') (h : s.Pipeline inserted) (i : ℕ) (pl : Place hardware) :
    s'.At i pl ↔ s.At i pl := by
  cases pl with
  | inserting t =>
    refine exists_congr fun p => ?_
    rw [q.calls]
    refine and_congr_right fun hp => ?_
    rw [q.ids (h.inserting t p hp).valid]
  | waiting =>
    refine exists_congr fun p => ?_
    rw [q.queue]
    refine and_congr_right fun hp => ?_
    rw [q.ids (h.waiting p hp).valid]
  | dissecting w =>
    refine exists_congr fun p => ?_
    rw [q.workers]
    refine and_congr_right fun hp => ?_
    rw [q.ids (h.dissecting w p hp).valid]
  | stored => simp only [At, q.has]

lemma Quiet.known (q : s.Quiet s') {p : PacketPtr} (hp : s.heap.Known inserted p) :
    s'.heap.Known inserted p :=
  hp.mono q.heap.loads fun _ => id

theorem Pipeline.quiet (h : s.Pipeline inserted) (q : s.Quiet s') : s'.Pipeline inserted where
  places := by
    rw [q.count]
    exact h.places.congr (q.at_iff h)
  queue := by
    have hids : s'.waitingPackets.map s'.idOf = s.waitingPackets.map s.idOf := by
      rw [q.queue]
      exact List.map_congr_left fun p hp => q.ids (h.waiting p hp).valid
    rw [hids]
    exact h.queue
  inserting t p hp := q.known (h.inserting t p ((q.calls t p).mp hp))
  waiting p hp := q.known (h.waiting p (q.queue ▸ hp))
  dissecting w p hp := q.known (h.dissecting w p ((q.workers w p).mp hp))
  cached i p hp := by
    rcases q.cache i p hp with hold | ⟨value, hdb, hc⟩
    · obtain ⟨hk, hid⟩ := h.cached i p hold
      exact ⟨q.known hk, (q.ids hk.valid).trans hid⟩
    · refine ⟨hc.known, ?_⟩
      rw [idOf, hc.packet, h.stored i value hdb]
  stored i value hv := h.stored i value (q.db ▸ hv)

lemma Pipeline.mono {inserted' : List ℕ} (h : s.Pipeline inserted) (hi : inserted ⊆ inserted') :
    s.Pipeline inserted' where
  places := h.places
  queue := h.queue
  inserting t p hp := (h.inserting t p hp).mono le_rfl hi
  waiting p hp := (h.waiting p hp).mono le_rfl hi
  dissecting w p hp := (h.dissecting w p hp).mono le_rfl hi
  cached i p hp := ⟨(h.cached i p hp).1.mono le_rfl hi, (h.cached i p hp).2⟩
  stored := h.stored

lemma Pipeline.stored_le (h : s.Pipeline inserted) {i : ℕ} (hi : s.packets.has i = true) :
    1 ≤ i ∧ i ≤ s.count := by
  have hat : s.At i .stored := hi
  exact h.places.mem hat

/-- A packet in flight is not stored yet. -/
lemma Pipeline.not_stored (h : s.Pipeline inserted) {p : PacketPtr} (hp : s.InFlight p) :
    s.packets.has (s.idOf p) = false := by
  by_contra hne
  have hst : s.At (s.idOf p) .stored := by
    rwa [Bool.not_eq_false] at hne
  rcases hp with ⟨t, ht⟩ | hq | ⟨w, hw⟩
  · have hat : s.At (s.idOf p) (.inserting t) := ⟨p, ht, rfl⟩
    cases h.places.unique hat hst
  · have hat : s.At (s.idOf p) .waiting := ⟨p, hq, rfl⟩
    cases h.places.unique hat hst
  · have hat : s.At (s.idOf p) (.dissecting w) := ⟨p, hw, rfl⟩
    cases h.places.unique hat hst

lemma Reads.quiet (r : s.Reads s') : s.Quiet s' where
  heap := r.heap
  db := r.db
  cache := r.cache
  queue := by rw [r.rest]
  calls t p := by rw [r.rest]
  workers w p := by rw [r.rest]
  count := by rw [r.rest]

/-! ### Quiet steps -/

/-- Nothing that `Quiet` speaks about changes. -/
lemma Quiet.of_eq (heap : s'.heap = s.heap) (packets : s'.packets = s.packets)
    (queue : s'.waitingPackets = s.waitingPackets)
    (calls : ∀ t p, s'.calls t = .inserting p ↔ s.calls t = .inserting p)
    (workers : ∀ w p, (s'.workers w).phase = .dissecting p ↔ (s.workers w).phase = .dissecting p)
    (count : s'.count = s.count) : s.Quiet s' where
  heap := heap ▸ .refl _
  db := by rw [packets]
  cache i p hp := Or.inl (packets ▸ hp)
  queue := queue
  calls := calls
  workers := workers
  count := count

lemma Quiet.trans {s'' : State hardware} (q : s.Quiet s') (q' : s'.Quiet s'') : s.Quiet s'' where
  heap := q.heap.trans q'.heap
  db := q'.db.trans q.db
  cache i p hp := by
    rcases q'.cache i p hp with hold | ⟨value, hdb, hc⟩
    · refine (q.cache i p hold).imp id ?_
      rintro ⟨value, hdb, hc⟩
      exact ⟨value, hdb, hc.trans_left q'.heap⟩
    · exact Or.inr ⟨value, q.db ▸ hdb, hc.trans_right q.heap⟩
  queue := q'.queue.trans q.queue
  calls t p := (q'.calls t p).trans (q.calls t p)
  workers w p := (q'.workers w p).trans (q.workers w p)
  count := q'.count.trans q.count

lemma quiet_setFilter (s : State hardware) (name : String) (f : Option (Filter hardware)) :
    s.Quiet (s.setFilter name f) :=
  .of_eq rfl rfl rfl (fun _ _ => Iff.rfl) (fun _ _ => Iff.rfl) rfl

/-- A call that is not between the sections of `insert` goes on to such a point. -/
lemma quiet_setCall {t : ℕ} {c : Call} (h : ∀ p, s.calls t ≠ .inserting p)
    (hc : ∀ p, c ≠ .inserting p) : s.Quiet (s.setCall t c) := by
  refine .of_eq rfl rfl rfl (fun u p => ?_) (fun _ _ => Iff.rfl) rfl
  rw [setCall_calls, Function.update_apply]
  split_ifs with hu
  · rw [hu]
    exact iff_of_false (hc p) (h p)
  · rfl

/-- A worker changes without beginning or ending to dissect a packet. -/
lemma quiet_setWorker {w : Core hardware} {x : DissectorWorker}
    (hx : ∀ p, x.phase = .dissecting p ↔ (s.workers w).phase = .dissecting p) :
    s.Quiet (s.setWorker w x) := by
  refine .of_eq rfl rfl rfl (fun _ _ => Iff.rfl) (fun v p => ?_) rfl
  rw [setWorker_workers, Function.update_apply]
  split_ifs with hv
  · rw [hv]
    exact hx p
  · rfl

lemma quiet_notifyWorkers (s : State hardware) : s.Quiet s.notifyWorkers := by
  refine .of_eq rfl rfl rfl (fun _ _ => Iff.rfl) (fun w p => ?_) rfl
  simp only [notifyWorkers_workers, DissectorWorker.notified]
  split_ifs with h
  · simp [h]
  · rfl

lemma quiet_notifyFilters (s : State hardware) : s.Quiet s.notifyFilters :=
  .of_eq rfl rfl rfl (fun _ _ => Iff.rfl) (fun _ _ => Iff.rfl) rfl

lemma quiet_publish (s : State hardware) : s.Quiet s.publish :=
  .of_eq (by simp) (by simp) (by simp) (by simp) (by simp) (by simp)

lemma notify_quiet {t : ℕ} (h : s.notify t = some s') : s.Quiet s' := by
  rcases notify_cases h with ⟨hc, rfl⟩ | ⟨hc, rfl⟩
  · refine (s.quiet_notifyWorkers).trans (quiet_setCall ?_ ?_)
    · simp [hc]
    · simp
  · refine (s.quiet_notifyFilters).trans (quiet_setCall ?_ ?_)
    · simp [hc]
    · simp

lemma streamWake_quiet (h : s.streamWake = some s') : s.Quiet s' := by
  obtain ⟨-, ⟨-, p, -, rfl⟩ | ⟨-, rfl⟩⟩ := streamWake_cases h
  · refine (s.lookup_reads (s.streamThread.maxID + 1)).quiet.trans ?_
    exact .of_eq rfl rfl rfl (fun _ _ => Iff.rfl) (fun _ _ => Iff.rfl) rfl
  · exact .of_eq rfl rfl rfl (fun _ _ => Iff.rfl) (fun _ _ => Iff.rfl) rfl

lemma filterStart_quiet {name : String} {w : Core hardware} (h : s.filterStart name w = some s') :
    s.Quiet s' := by
  obtain ⟨f, -, -, rfl⟩ := filterStart_cases h
  exact s.quiet_setFilter _ _

lemma filterWake_quiet {name : String} {w : Core hardware} (h : s.filterWake name w = some s') :
    s.Quiet s' := by
  obtain ⟨f, -, -, ⟨-, rfl⟩ | ⟨-, -, p, -, rfl⟩ | ⟨-, -, rfl⟩⟩ := filterWake_cases h
  · exact s.quiet_setFilter _ _
  · exact (s.lookup_reads _).quiet.trans (quiet_setFilter _ _ _)
  · exact s.quiet_setFilter _ _

lemma filterDone_quiet {name : String} {w : Core hardware} (h : s.filterDone name w = some s') :
    s.Quiet s' := by
  obtain ⟨f, p, -, -, rfl⟩ := filterDone_cases h
  exact s.quiet_setFilter _ _

lemma loadDissector_quiet {t : ℕ} {w : Core hardware} {src : DissectorSource}
    (h : s.loadDissector t w src = some s') : s.Quiet s' := by
  obtain ⟨hc, rfl⟩ := loadDissector_cases h
  refine (quiet_setWorker ?_).trans (quiet_setCall ?_ ?_)
  · exact fun p => Iff.rfl
  · simp [hc]
  · simp

lemma loadModule_quiet {t : ℕ} {w : Core hardware} {name source : String}
    (h : s.loadModule t w name source = some s') : s.Quiet s' := by
  obtain ⟨-, rfl⟩ := loadModule_cases h
  exact quiet_setWorker fun p => Iff.rfl

lemma exitFilter_quiet {t : ℕ} {name : String} (h : s.exitFilter t name = some s') :
    s.Quiet s' := by
  obtain ⟨hc, ⟨-, rfl⟩ | ⟨f, -, rfl⟩⟩ := exitFilter_cases h
  · exact (Reads.refl _).quiet
  · refine (s.quiet_setFilter _ _).trans (quiet_setCall ?_ ?_)
    · simp [hc]
    · simp

lemma installFilter_quiet {t : ℕ} {name source : String} {loaded : Bool}
    {accepts : Packet → Bool} (h : s.installFilter t name source loaded accepts = some s') :
    s.Quiet s' := by
  obtain ⟨-, -, rfl⟩ := installFilter_cases h
  exact s.quiet_setFilter _ _

/-! ### Steps that change a packet or move an id -/

lemma modify_layers_idOf {h : Heap} {layers : LayerList} (p q : PacketPtr) :
    ((h.modify p fun pkt => { pkt with layers := layers }).packet q).id = (h.packet q).id := by
  rw [Heap.modify_packet]
  split_ifs with hq
  · rw [hq]
  · rfl

/-- Replacing the layers of a packet concerns no id. -/
lemma Pipeline.setLayers (h : s.Pipeline inserted) (p : PacketPtr) (layers : LayerList) :
    (s.setLayers p layers).Pipeline inserted := by
  have hids : (s.setLayers p layers).idOf = s.idOf := funext fun q => modify_layers_idOf p q
  have hat : (s.setLayers p layers).At = s.At := by
    funext i pl
    cases pl <;> simp only [At, hids] <;> rfl
  refine ⟨?_, ?_, h.inserting, h.waiting, h.dissecting, ?_, h.stored⟩
  · rw [hat]
    exact h.places
  · rw [hids]
    exact h.queue
  · rw [hids]
    exact h.cached

lemma Pipeline.finish (h : s.Pipeline inserted) (p : PacketPtr) (layers : LayerList) :
    (s.finish p layers).Pipeline inserted :=
  (h.setLayers p layers).quiet
    (.of_eq rfl rfl rfl (fun _ _ => Iff.rfl) (fun _ _ => Iff.rfl) rfl)

/-- A packet object that has not been inserted yet is not in use. -/
lemma Pipeline.unused (h : s.Pipeline inserted) {n : ℕ} (hn : n ∉ inserted) :
    s.Unused (.made n) := by
  refine ⟨?_, fun i hi => hn (h.cached i _ hi).1⟩
  rintro (⟨t, ht⟩ | hq | ⟨w, hw⟩)
  · exact hn (h.inserting t _ ht)
  · exact hn (h.waiting _ hq)
  · exact hn (h.dissecting w _ hw)

/-- A new id begins in the call that made it. -/
theorem Pipeline.accept (h : s.Pipeline inserted) {t n : ℕ} (ht : s.calls t = .idle)
    (hn : s.Unused (.made n)) : (s.accept t n).Pipeline (inserted ++ [n]) := by
  have hids : ∀ p, p ≠ .made n → (s.accept t n).idOf p = s.idOf p := by
    intro p hne
    simp only [idOf, accept_heap, Heap.modify_packet, if_neg hne]
  have hflight : ∀ p, s.InFlight p → (s.accept t n).idOf p = s.idOf p := by
    intro p hp
    apply hids
    rintro rfl
    exact hn.1 hp
  have hself : (s.accept t n).idOf (.made n) = s.count + 1 := by
    simp only [idOf, accept_heap, Heap.modify_packet, if_true]
  have hknown : ∀ p, s.heap.Known inserted p →
      (s.accept t n).heap.Known (inserted ++ [n]) p :=
    fun p hp => hp.mono le_rfl (List.subset_append_left _ _)
  refine ⟨?_, ?_, ?_, ?_, ?_, ?_, h.stored⟩
  · have henter : Placement.Enters s.At (s.accept t n).At (s.count + 1) (.inserting t) := by
      intro j pl
      cases pl with
      | inserting u =>
        simp only [At, accept_calls, Function.update_apply]
        by_cases hu : u = t
        · subst hu
          simp [ht, hself, eq_comm]
        · simp only [Place.inserting.injEq, hu, if_false, and_false, false_or]
          exact exists_congr fun p => and_congr_right fun hp => by
            rw [hflight p (Or.inl ⟨u, hp⟩)]
      | waiting =>
        simp only [reduceCtorEq, and_false, false_or]
        exact exists_congr fun p => and_congr_right fun hp => by
          rw [hflight p (Or.inr (Or.inl hp))]
      | dissecting w =>
        simp only [reduceCtorEq, and_false, false_or]
        exact exists_congr fun p => and_congr_right fun hp => by
          rw [hflight p (Or.inr (Or.inr ⟨w, hp⟩))]
      | stored => simp [At]
    have hnew : s.count + 1 ∉ Set.Icc 1 s.count := by simp
    have hset := Set.insert_Icc_right_eq_Icc_succ (a := 1) (b := s.count) (by simp)
    rw [accept_count, ← Nat.succ_eq_add_one, ← Nat.succ_eq_succ, ← hset]
    exact h.places.enters hnew henter
  · rw [accept_waitingPackets, List.map_congr_left fun p hp => hflight p (Or.inr (Or.inl hp))]
    exact h.queue
  · intro u p hp
    rw [accept_calls, Function.update_apply] at hp
    split_ifs at hp with hu
    · obtain rfl : PacketPtr.made n = p := by simpa using hp
      exact List.mem_append_right _ (List.mem_singleton_self n)
    · exact hknown p (h.inserting u p hp)
  · exact fun p hp => hknown p (h.waiting p hp)
  · exact fun w p hp => hknown p (h.dissecting w p hp)
  · intro i p hp
    obtain ⟨hk, hid⟩ := h.cached i p hp
    refine ⟨hknown p hk, (hids p ?_).trans hid⟩
    rintro rfl
    exact hn.2 i hp

lemma enqueue_idOf (s : State hardware) (t : ℕ) (p : PacketPtr) :
    (s.enqueue t p).idOf = s.idOf := by
  funext q
  simp only [idOf, enqueue_heap, Heap.modify_packet, addRawLayer]
  split_ifs with hq
  · rw [hq]
  · rw [hq]
  · rfl

/-- The id of a call goes to the end of the queue. -/
theorem Pipeline.enqueue (h : s.Pipeline inserted) {t : ℕ} {p : PacketPtr}
    (ht : s.calls t = .inserting p) : (s.enqueue t p).Pipeline inserted := by
  have hids := s.enqueue_idOf t p
  have hat : s.At (s.idOf p) (.inserting t) := ⟨p, ht, rfl⟩
  refine ⟨?_, ?_, ?_, ?_, h.dissecting, ?_, h.stored⟩
  · refine h.places.transfers (p := Place.inserting t) (q := Place.waiting) ⟨hat, fun j pl => ?_⟩
    cases pl with
    | inserting u =>
      simp only [At, enqueue_calls, Function.update_apply, hids]
      by_cases hu : u = t
      · subst hu
        simp [ht, eq_comm]
      · simp [hu]
    | waiting =>
      simp only [At, enqueue_waitingPackets, List.mem_append, List.mem_singleton, hids]
      constructor
      · rintro ⟨q, hq | rfl, rfl⟩
        · exact Or.inr ⟨⟨q, hq, rfl⟩, by simp⟩
        · exact Or.inl ⟨rfl, trivial⟩
      · rintro (⟨rfl, -⟩ | ⟨⟨q, hq, rfl⟩, -⟩)
        · exact ⟨p, Or.inr rfl, rfl⟩
        · exact ⟨q, Or.inl hq, rfl⟩
    | dissecting w => simp [At, hids]
    | stored => simp [At]
  · simp only [enqueue_waitingPackets, List.map_append, List.map_cons, List.map_nil, hids]
    refine List.Nodup.append h.queue (List.nodup_singleton _) ?_
    rw [List.disjoint_singleton]
    intro hmem
    obtain ⟨q, hq, hid⟩ := List.mem_map.mp hmem
    have hwait : s.At (s.idOf p) .waiting := ⟨q, hq, hid⟩
    cases h.places.unique hat hwait
  · intro u q hq
    rw [enqueue_calls, Function.update_apply] at hq
    split_ifs at hq
    exact h.inserting u q hq
  · intro q hq
    rcases List.mem_append.mp hq with hq | hq
    · exact h.waiting q hq
    · exact List.mem_singleton.mp hq ▸ h.inserting t p ht
  · exact fun i q hq => (h.cached i q hq).imp id (congrFun hids q).trans

/-- The id at the front of the queue goes to a worker. -/
theorem Pipeline.take (h : s.Pipeline inserted) {w : Core hardware}
    (hw : ∀ p, (s.workers w).phase ≠ .dissecting p) : (s.take w).Pipeline inserted := by
  rcases take_cases s w with ⟨-, htake⟩ | ⟨p, ps, hqueue, htake⟩
  · rw [htake]
    refine h.quiet (quiet_setWorker fun p => iff_of_false ?_ (hw p))
    simp
  rw [htake]
  have hat : s.At (s.idOf p) .waiting := ⟨p, by simp [hqueue], rfl⟩
  have hnodup : s.idOf p ∉ ps.map s.idOf ∧ (ps.map s.idOf).Nodup := by
    have := h.queue
    rwa [hqueue, List.map_cons, List.nodup_cons] at this
  refine ⟨?_, hnodup.2, h.inserting, ?_, ?_, h.cached, h.stored⟩
  · refine h.places.transfers (p := Place.waiting) (q := Place.dissecting w) ⟨hat, fun j pl => ?_⟩
    cases pl with
    | inserting u => simp [At, idOf]
    | waiting =>
      simp only [At, setWorker_waitingPackets, reduceCtorEq, and_false, false_or, and_true, hqueue]
      constructor
      · rintro ⟨q, hq, rfl⟩
        refine ⟨⟨q, List.mem_cons_of_mem _ hq, rfl⟩, fun hid => hnodup.1 ?_⟩
        exact List.mem_map.mpr ⟨q, hq, hid⟩
      · rintro ⟨⟨q, hq, rfl⟩, hne⟩
        rcases List.mem_cons.mp hq with rfl | hq
        · exact absurd rfl hne
        · exact ⟨q, hq, rfl⟩
    | dissecting v =>
      simp only [At, setWorker_workers, Function.update_apply]
      by_cases hv : v = w
      · subst hv
        simp [hw, idOf, eq_comm]
      · simp [hv, idOf]
    | stored => simp [At]
  · exact fun q hq => h.waiting q (hqueue ▸ List.mem_cons_of_mem _ hq)
  · intro v q hq
    rw [setWorker_workers, Function.update_apply] at hq
    split_ifs at hq with hv
    · obtain rfl : p = q := by simpa using hq
      exact h.waiting p (by simp [hqueue])
    · exact h.dissecting v q hq

/-- The id of a worker goes to the store. -/
theorem Pipeline.store (h : s.Pipeline inserted) {w : Core hardware} {p : PacketPtr}
    (hw : (s.workers w).phase = .dissecting p) :
    ((s.store p).setWorker w { s.workers w with phase := .ready }).Pipeline inserted := by
  have hat : s.At (s.idOf p) (.dissecting w) := ⟨p, hw, rfl⟩
  refine ⟨?_, h.queue, h.inserting, h.waiting, ?_, ?_, ?_⟩
  · refine h.places.transfers (p := Place.dissecting w) (q := Place.stored) ⟨hat, fun j pl => ?_⟩
    cases pl with
    | inserting u => simp [At, idOf]
    | waiting => simp [At, idOf]
    | dissecting v =>
      simp only [At, setWorker_workers, Function.update_apply]
      by_cases hv : v = w
      · subst hv
        simp [hw, idOf, eq_comm]
      · simp [hv, idOf]
    | stored =>
      simp only [At, setWorker_packets, store_packets, ObjectCache.has_eq, ObjectCache.set_db,
        Function.update_apply, and_true, reduceCtorEq, and_false, not_false_eq_true]
      by_cases hj : j = s.idOf p
      · simp [hj]
      · simp [hj]
  · intro v q hq
    rw [setWorker_workers, Function.update_apply] at hq
    split_ifs at hq
    exact h.dissecting v q hq
  · intro i q hq
    rcases ObjectCache.cache_of_set hq with ⟨rfl, rfl⟩ | hold
    · exact ⟨h.dissecting w q hw, rfl⟩
    · exact h.cached i q hold
  · intro i value hv
    simp only [setWorker_packets, store_packets, ObjectCache.set_db, Function.update_apply] at hv
    split_ifs at hv with hi
    · rw [← Option.some.inj hv, hi, idOf]
    · exact h.stored i value hv

/-! ### Whole steps -/

lemma pipeline_init (packet : PacketPtr → Packet) :
    (init packet : State hardware).Pipeline [] where
  places i := by
    refine ⟨fun hi => absurd hi (by simp [init]), fun pl hpl => ?_⟩
    cases pl <;> simp [At, init, ObjectCache.has_eq] at hpl
  queue := List.nodup_nil
  inserting t p hp := by simp [init] at hp
  waiting p hp := by simp [init] at hp
  dissecting w p hp := by simp [init] at hp
  cached i p hp := by simp [init] at hp
  stored i value hv := by simp [init] at hv

/-- What a step does to the ids. -/
inductive Outcome (load : List (String × String) → String → Bool) (s : State hardware) :
    Event hardware → State hardware → Prop where
  | quiet {e : Event hardware} {s' : State hardware} : s.Quiet s' → Outcome load s e s'
  | accept (t n : ℕ) : s.calls t = .idle → s.waitingPackets.length < 32 →
      Outcome load s (.insert t (some n)) (s.accept t n)
  | enqueue (t : ℕ) (p : PacketPtr) : s.calls t = .inserting p →
      Outcome load s (.push t) (s.enqueue t p)
  | take (w : Core hardware) : (s.workers w).phase = .ready →
      Outcome load s (.wake w) ((s.setWorker w ((s.workers w).loadSources load)).take w)
  | analyze (layers : LayerList) (p : PacketPtr) : s.streamThread.phase = .analyzing p →
      Outcome load s (.analyzed layers) (s.finish p layers)
  | store (w : Core hardware) (layers : LayerList) (p : PacketPtr) :
      (s.workers w).phase = .dissecting p →
      Outcome load s (.dissected w layers) (((s.setLayers p layers).store p).publish.take w)

variable {load : List (String × String) → String → Bool} {e : Event hardware}

theorem step_outcome (hs : s.step load e = some s') : Outcome load s e s' := by
  cases e with
  | insert t pkt =>
    obtain ⟨hc, ⟨rfl, rfl⟩ | ⟨n, rfl, ⟨-, rfl⟩ | ⟨hq, rfl⟩⟩⟩ := insert_cases hs
    · exact .quiet (Reads.refl _).quiet
    · exact .quiet (.of_eq rfl rfl rfl (fun _ _ => Iff.rfl) (fun _ _ => Iff.rfl) rfl)
    · exact .accept t n hc hq
  | push t =>
    obtain ⟨p, hp, rfl⟩ := push_cases hs
    exact .enqueue t p hp
  | notify t => exact .quiet (notify_quiet hs)
  | wake w =>
    obtain ⟨hp, ⟨-, -, rfl⟩ | ⟨-, rfl⟩⟩ := wake_cases hs
    · exact .quiet (quiet_setWorker (by simp [hp]))
    · exact .take w hp
  | dissected w layers =>
    obtain ⟨p, hp, rfl⟩ := dissected_cases hs
    exact .store w layers p hp
  | streamWake => exact .quiet (streamWake_quiet hs)
  | analyzed layers =>
    obtain ⟨p, hp, rfl⟩ := analyzed_cases hs
    exact .analyze layers p hp
  | filterStart name w => exact .quiet (filterStart_quiet hs)
  | filterWake name w => exact .quiet (filterWake_quiet hs)
  | filterDone name w => exact .quiet (filterDone_quiet hs)
  | loadDissector t w src => exact .quiet (loadDissector_quiet hs)
  | loadModule t w name source => exact .quiet (loadModule_quiet hs)
  | exitFilter t name => exact .quiet (exitFilter_quiet hs)
  | installFilter t name source loaded accepts => exact .quiet (installFilter_quiet hs)
  | get start fin =>
    obtain rfl := Option.some.inj hs
    exact .quiet (s.get_reads start fin).quiet
  | getList ids =>
    obtain rfl := Option.some.inj hs
    exact .quiet (s.getList_reads ids).quiet

/-- The packet object of an `insert` that is accepted is not in use. -/
def InsertsUnused (s : State hardware) (e : Event hardware) : Prop :=
  s.waitingPackets.length < 32 → ∀ n, e.inserted = some n → s.Unused (.made n)

/-- Every step keeps the pipeline in order if packet objects in use are not inserted again. -/
theorem Pipeline.step_of_unused (h : s.Pipeline inserted) (hs : s.step load e = some s')
    (hunused : s.InsertsUnused e) : s'.Pipeline (inserted ++ e.inserted.toList) := by
  cases step_outcome hs with
  | quiet q => exact (h.quiet q).mono (List.subset_append_left _ _)
  | accept t n hc hq => exact h.accept hc (hunused hq n rfl)
  | enqueue t p hp => simpa [Event.inserted] using h.enqueue hp
  | take w hp =>
    simp only [Event.inserted, Option.toList_none, List.append_nil]
    refine (h.quiet (quiet_setWorker fun p => ?_)).take fun p => ?_
    · rfl
    · simp [DissectorWorker.loadSources, hp]
  | analyze layers p _ => simpa [Event.inserted] using h.finish p layers
  | store w layers p hp =>
    simp only [Event.inserted, Option.toList_none, List.append_nil]
    have hstore := (h.setLayers p layers).store (w := w) hp
    rw [← take_setWorker_phase _ w .ready, publish_workers, ← publish_setWorker]
    refine (hstore.quiet (quiet_publish _)).take fun q => ?_
    simp

/-- Every step keeps the pipeline in order if packets are inserted once. -/
theorem Pipeline.step (h : s.Pipeline inserted) (hs : s.step load e = some s')
    (hnew : (inserted ++ e.inserted.toList).Nodup) :
    s'.Pipeline (inserted ++ e.inserted.toList) := by
  refine h.step_of_unused hs fun _ n hn => h.unused fun hmem => ?_
  rw [hn] at hnew
  exact List.disjoint_of_nodup_append hnew hmem (List.mem_singleton_self n)

/-- A packet keeps the id it has been given. -/
theorem step_ids (hs : s.step load e = some s') (hnew : (inserted ++ e.inserted.toList).Nodup)
    {p : PacketPtr} (hp : s.heap.Known inserted p) :
    s'.heap.Known (inserted ++ e.inserted.toList) p ∧ s'.idOf p = s.idOf p := by
  have hsub : inserted ⊆ inserted ++ e.inserted.toList := List.subset_append_left _ _
  cases step_outcome hs with
  | quiet q => exact ⟨hp.mono q.heap.loads hsub, q.ids hp.valid⟩
  | accept t n _ _ =>
    refine ⟨hp.mono le_rfl hsub, ?_⟩
    have hne : p ≠ .made n := by
      rintro rfl
      exact List.disjoint_of_nodup_append hnew hp (List.mem_singleton_self n)
    simp only [idOf, accept_heap, Heap.modify_packet, if_neg hne]
  | enqueue t q hq =>
    refine ⟨hp.mono le_rfl hsub, ?_⟩
    rw [enqueue_idOf]
  | take w _ =>
    refine ⟨hp.mono ?_ hsub, ?_⟩
    · simp
    · simp [idOf]
  | analyze layers q _ => exact ⟨hp.mono le_rfl hsub, modify_layers_idOf q p⟩
  | store w layers q _ =>
    refine ⟨hp.mono ?_ hsub, ?_⟩
    · simp
    · rw [idOf, idOf, take_heap, publish_heap]
      exact modify_layers_idOf q p

end State

end Dripcap
