import Dripcap.Dispatcher.Places

/-!
# Ids are given out, stored and published in order

`maxID` is the length of the longest stored prefix, the stream thread follows it one packet at
a time, and `get` hands out what the stream thread has finished.
-/

namespace Dripcap

namespace State

variable {hardware : ℕ} {s s' : State hardware} {load : List (String × String) → String → Bool}
  {e : Event hardware} {inserted : List ℕ}

/-! ### What a step leaves alone -/

/-- The counters and the store belong to one kind of step each. -/
structure Frame (s s' : State hardware) (e : Event hardware) : Prop where
  store : (∀ w layers, e ≠ .dissected w layers) →
    s'.packets.db = s.packets.db ∧ s'.maxID = s.maxID
  stream : e ≠ .streamWake → (∀ layers, e ≠ .analyzed layers) →
    s'.streamMaxID = s.streamMaxID ∧
      (s'.streamThread = s.streamThread ∨ s'.streamThread = s.streamThread.notified)
  counts : (∀ t pkt, e ≠ .insert t pkt) → s'.count = s.count ∧ s'.dropped = s.dropped

/-- A step that changes nothing the frame speaks about. -/
lemma Frame.of_eq (db : s'.packets.db = s.packets.db) (maxID : s'.maxID = s.maxID)
    (streamMaxID : s'.streamMaxID = s.streamMaxID) (streamThread : s'.streamThread = s.streamThread)
    (count : s'.count = s.count) (dropped : s'.dropped = s.dropped) : s.Frame s' e where
  store _ := ⟨db, maxID⟩
  stream _ _ := ⟨streamMaxID, Or.inl streamThread⟩
  counts _ := ⟨count, dropped⟩

lemma Reads.frame (r : s.Reads s') : s.Frame s' e :=
  .of_eq r.db (by rw [r.rest]) (by rw [r.rest]) (by rw [r.rest]) (by rw [r.rest]) (by rw [r.rest])

lemma publish_streamThread (s : State hardware) :
    s.publish.streamThread = s.streamThread ∨ s.publish.streamThread = s.streamThread.notified := by
  rcases publish_cases s with ⟨-, -, h⟩ | ⟨-, h⟩
  · exact Or.inl (by rw [h])
  · exact Or.inr (by rw [h]; rfl)

theorem step_frame (hs : s.step load e = some s') : s.Frame s' e := by
  cases e with
  | insert t pkt =>
    obtain ⟨-, ⟨-, rfl⟩ | ⟨n, -, ⟨-, rfl⟩ | ⟨-, rfl⟩⟩⟩ := insert_cases hs
    all_goals exact ⟨fun _ => ⟨rfl, rfl⟩, fun _ _ => ⟨rfl, Or.inl rfl⟩, fun h => absurd rfl (h _ _)⟩
  | push t =>
    obtain ⟨p, -, rfl⟩ := push_cases hs
    exact .of_eq rfl rfl rfl rfl rfl rfl
  | notify t =>
    rcases notify_cases hs with ⟨-, rfl⟩ | ⟨-, rfl⟩
    all_goals exact .of_eq rfl rfl rfl rfl rfl rfl
  | wake w =>
    obtain ⟨-, ⟨-, -, rfl⟩ | ⟨-, rfl⟩⟩ := wake_cases hs
    all_goals exact .of_eq (by simp) (by simp) (by simp) (by simp) (by simp) (by simp)
  | dissected w layers =>
    obtain ⟨p, -, rfl⟩ := dissected_cases hs
    refine ⟨fun h => absurd rfl (h w layers), fun _ _ => ⟨by simp, ?_⟩, fun _ => by simp⟩
    simpa using publish_streamThread ((s.setLayers p layers).store p)
  | streamWake =>
    obtain ⟨-, ⟨-, p, -, rfl⟩ | ⟨-, rfl⟩⟩ := streamWake_cases hs
    · exact ⟨fun _ => ⟨(s.lookup_reads _).db, rfl⟩, fun h => absurd rfl h, fun _ => ⟨rfl, rfl⟩⟩
    · exact ⟨fun _ => ⟨rfl, rfl⟩, fun h => absurd rfl h, fun _ => ⟨rfl, rfl⟩⟩
  | analyzed layers =>
    obtain ⟨p, -, rfl⟩ := analyzed_cases hs
    exact ⟨fun _ => ⟨rfl, rfl⟩, fun _ h => absurd rfl (h layers), fun _ => ⟨rfl, rfl⟩⟩
  | filterStart name w =>
    obtain ⟨f, -, -, rfl⟩ := filterStart_cases hs
    exact .of_eq rfl rfl rfl rfl rfl rfl
  | filterWake name w =>
    obtain ⟨f, -, -, ⟨-, rfl⟩ | ⟨-, -, p, -, rfl⟩ | ⟨-, -, rfl⟩⟩ := filterWake_cases hs
    · exact .of_eq rfl rfl rfl rfl rfl rfl
    · exact .of_eq (s.lookup_reads _).db rfl rfl rfl rfl rfl
    · exact .of_eq rfl rfl rfl rfl rfl rfl
  | filterDone name w =>
    obtain ⟨f, p, -, -, rfl⟩ := filterDone_cases hs
    exact .of_eq rfl rfl rfl rfl rfl rfl
  | loadDissector t w src =>
    obtain ⟨-, rfl⟩ := loadDissector_cases hs
    exact .of_eq rfl rfl rfl rfl rfl rfl
  | loadModule t w name source =>
    obtain ⟨-, rfl⟩ := loadModule_cases hs
    exact .of_eq rfl rfl rfl rfl rfl rfl
  | exitFilter t name =>
    obtain ⟨-, ⟨-, rfl⟩ | ⟨f, -, rfl⟩⟩ := exitFilter_cases hs
    all_goals exact .of_eq rfl rfl rfl rfl rfl rfl
  | installFilter t name source loaded accepts =>
    obtain ⟨-, -, rfl⟩ := installFilter_cases hs
    exact .of_eq rfl rfl rfl rfl rfl rfl
  | get start fin =>
    obtain rfl := Option.some.inj hs
    exact (s.get_reads start fin).frame
  | getList ids =>
    obtain rfl := Option.some.inj hs
    exact (s.getList_reads ids).frame

/-- The steps that neither are about a worker nor wake any. -/
def Apart : Event hardware → Prop
  | .insert _ _ | .push _ | .streamWake | .analyzed _ | .get _ _ | .getList _ => True
  | _ => False

lemma apart_frame (hs : s.step load e = some s') (he : Apart e) :
    s'.workers = s.workers ∧ s'.filters = s.filters := by
  cases e with
  | insert t pkt =>
    obtain ⟨-, ⟨-, rfl⟩ | ⟨n, -, ⟨-, rfl⟩ | ⟨-, rfl⟩⟩⟩ := insert_cases hs
    all_goals exact ⟨rfl, rfl⟩
  | push t =>
    obtain ⟨p, -, rfl⟩ := push_cases hs
    exact ⟨rfl, rfl⟩
  | streamWake =>
    obtain ⟨-, ⟨-, p, -, rfl⟩ | ⟨-, rfl⟩⟩ := streamWake_cases hs
    all_goals exact ⟨rfl, rfl⟩
  | analyzed layers =>
    obtain ⟨p, -, rfl⟩ := analyzed_cases hs
    exact ⟨rfl, rfl⟩
  | get start fin =>
    obtain rfl := Option.some.inj hs
    rw [(s.get_reads start fin).rest]
    exact ⟨rfl, rfl⟩
  | getList ids =>
    obtain rfl := Option.some.inj hs
    rw [(s.getList_reads ids).rest]
    exact ⟨rfl, rfl⟩
  | _ => exact absurd he id

/-! ### `maxID` -/

/-- `maxID` is the length of the longest prefix of stored ids. -/
def Published (s : State hardware) : Prop :=
  IsGreatest {n | Prefix.Complete (s.packets.has · = true) n} s.maxID

lemma published_init (packet : PacketPtr → Packet) : (init packet : State hardware).Published := by
  apply Prefix.isGreatest_complete
  · exact Prefix.complete_zero
  · simp [init, ObjectCache.has_eq]

/-- The end of a worker's round finds the longest prefix again, also as long as packet 1 is
missing and the loop is not reached. -/
lemma published_publish (hc : Prefix.Complete (s.packets.has · = true) s.maxID)
    (hb : ∀ i, s.packets.has i = true → i ≤ s.count) : s.publish.Published := by
  rcases publish_cases s with ⟨h0, h1, hs⟩ | ⟨h1, hs⟩
  · rw [hs, Published, h0]
    exact Prefix.isGreatest_complete Prefix.complete_zero (by simp [h1])
  · rw [hs]
    refine Prefix.isGreatest_advance s.count ?_ fun i hi => (hb i hi).trans (Nat.le_add_left _ _)
    split_ifs with h0
    · exact Prefix.complete_succ Prefix.complete_zero (h1 h0)
    · exact hc

lemma Published.store (h : s.Published) (p : PacketPtr) :
    Prefix.Complete ((s.store p).packets.has · = true) (s.store p).maxID := by
  refine h.1.imp fun i hi => ?_
  rw [ObjectCache.has_eq] at hi
  simp only [store_packets, ObjectCache.has_eq, ObjectCache.set_db, Function.update_apply]
  split_ifs
  · rfl
  · exact hi

theorem Published.step (h : s.Published) (hp : s.Pipeline inserted)
    (hs : s.step load e = some s') : s'.Published := by
  by_cases he : ∃ w layers, e = .dissected w layers
  · obtain ⟨w, layers, rfl⟩ := he
    obtain ⟨p, hw, rfl⟩ := dissected_cases hs
    have hq := (hp.setLayers p layers).store (w := w) hw
    have hpub : ((s.setLayers p layers).store p).publish.Published := by
      apply published_publish
      · exact Published.store (s := s.setLayers p layers) h p
      · exact fun i hi => (hq.stored_le hi).2
    simpa [Published] using hpub
  · have hf := (step_frame hs).store fun w layers hw => he ⟨w, layers, hw⟩
    simp only [Published, ObjectCache.has_eq, hf.1, hf.2] at h ⊢
    exact h

lemma maxID_le_nextMaxID (s : State hardware) : s.maxID ≤ s.nextMaxID := by
  refine le_trans ?_ (Prefix.le_advance _ _)
  split_ifs with h
  · simp [h]
  · exact le_rfl

/-- `maxID` never decreases. -/
lemma step_maxID_le (hs : s.step load e = some s') : s.maxID ≤ s'.maxID := by
  by_cases he : ∃ w layers, e = .dissected w layers
  · obtain ⟨w, layers, rfl⟩ := he
    obtain ⟨p, -, rfl⟩ := dissected_cases hs
    rw [take_maxID]
    rcases publish_cases ((s.setLayers p layers).store p) with ⟨-, -, h⟩ | ⟨-, h⟩
    · rw [h]
      exact le_rfl
    · rw [h]
      exact maxID_le_nextMaxID ((s.setLayers p layers).store p)
  · exact ((step_frame hs).store fun w layers hw => he ⟨w, layers, hw⟩).2.ge

/-! ### The stream thread -/

/-- The stream thread is at most one packet ahead of `streamMaxID`, namely while it works. -/
structure Streaming (s : State hardware) : Prop where
  le : s.streamMaxID ≤ s.streamThread.maxID
  le_maxID : s.streamThread.maxID ≤ s.maxID
  ahead : ∀ p, s.streamThread.phase = .analyzing p → s.streamThread.maxID = s.streamMaxID + 1
  resting : (∀ p, s.streamThread.phase ≠ .analyzing p) → s.streamThread.maxID = s.streamMaxID

/-- It works on the packet whose id it has counted. -/
def Analyzing (inserted : List ℕ) (s : State hardware) : Prop :=
  ∀ p, s.streamThread.phase = .analyzing p →
    s.heap.Known inserted p ∧ s.idOf p = s.streamThread.maxID

lemma streaming_init (packet : PacketPtr → Packet) : (init packet : State hardware).Streaming :=
  ⟨le_rfl, le_rfl, by simp [init], fun _ => rfl⟩

lemma analyzing_init (packet : PacketPtr → Packet) :
    (init packet : State hardware).Analyzing [] := by
  intro p hp
  simp [init] at hp

/-- Being woken up matters neither for the counter nor for the packet in work. -/
lemma notified_eq {x y : StreamThread} (h : x = y ∨ x = y.notified) :
    x.maxID = y.maxID ∧ ∀ p, x.phase = .analyzing p ↔ y.phase = .analyzing p := by
  rcases h with rfl | rfl
  · exact ⟨rfl, fun _ => Iff.rfl⟩
  · unfold StreamThread.notified
    split_ifs with h
    · exact ⟨rfl, by simp [h]⟩
    · exact ⟨rfl, fun _ => Iff.rfl⟩

/-- The three kinds of steps, seen from the stream thread. -/
lemma stream_cases (hs : s.step load e = some s') :
    e = .streamWake ∨ (∃ layers, e = .analyzed layers) ∨
      (e ≠ .streamWake ∧ (∀ layers, e ≠ .analyzed layers) ∧ s'.streamMaxID = s.streamMaxID ∧
        s'.streamThread.maxID = s.streamThread.maxID ∧
        ∀ p, s'.streamThread.phase = .analyzing p ↔ s.streamThread.phase = .analyzing p) := by
  by_cases hw : e = .streamWake
  · exact Or.inl hw
  by_cases ha : ∃ layers, e = .analyzed layers
  · exact Or.inr (Or.inl ha)
  obtain ⟨hmax, hthread⟩ := (step_frame hs).stream hw fun layers hl => ha ⟨layers, hl⟩
  exact Or.inr (Or.inr ⟨hw, fun layers hl => ha ⟨layers, hl⟩, hmax, notified_eq hthread⟩)

/-- Only the end of an analysis publishes. -/
lemma streamMaxID_eq (hs : s.step load e = some s') (he : ∀ layers, e ≠ .analyzed layers) :
    s'.streamMaxID = s.streamMaxID := by
  rcases stream_cases hs with rfl | ⟨layers, rfl⟩ | ⟨-, -, hmax, -⟩
  · obtain ⟨-, ⟨-, p, -, rfl⟩ | ⟨-, rfl⟩⟩ := streamWake_cases hs
    all_goals rfl
  · exact absurd rfl (he layers)
  · exact hmax

theorem Streaming.step (h : s.Streaming) (hs : s.step load e = some s') : s'.Streaming := by
  rcases stream_cases hs with rfl | ⟨layers, rfl⟩ | ⟨-, -, hmax, hlocal, hphase⟩
  · obtain ⟨hready, ⟨hlt, p, -, rfl⟩ | ⟨-, rfl⟩⟩ := streamWake_cases hs
    · have hrest : s.streamThread.maxID = s.streamMaxID := h.resting (by simp [hready])
      exact ⟨Nat.le_succ_of_le h.le, hlt, fun _ _ => congrArg (· + 1) hrest,
        fun hq => absurd rfl (hq p)⟩
    · exact ⟨h.le, h.le_maxID, by simp, fun _ => h.resting (by simp [hready])⟩
  · obtain ⟨p, -, rfl⟩ := analyzed_cases hs
    exact ⟨le_rfl, h.le_maxID, by simp, fun _ => rfl⟩
  · refine ⟨?_, ?_, fun p hp => ?_, fun hp => ?_⟩
    · rw [hmax, hlocal]
      exact h.le
    · rw [hlocal]
      exact h.le_maxID.trans (step_maxID_le hs)
    · rw [hmax, hlocal]
      exact h.ahead p ((hphase p).mp hp)
    · rw [hmax, hlocal]
      exact h.resting fun p hp' => hp p ((hphase p).mpr hp')

/-- `streamMaxID` never decreases. -/
lemma Streaming.step_le (h : s.Streaming) (hs : s.step load e = some s') :
    s.streamMaxID ≤ s'.streamMaxID := by
  rcases stream_cases hs with rfl | ⟨layers, rfl⟩ | ⟨-, -, hmax, -⟩
  · obtain ⟨-, ⟨-, p, -, rfl⟩ | ⟨-, rfl⟩⟩ := streamWake_cases hs
    · exact le_rfl
    · exact le_rfl
  · obtain ⟨p, -, rfl⟩ := analyzed_cases hs
    exact h.le
  · exact hmax.ge

theorem Analyzing.step (h : s.Analyzing inserted) (hp : s.Pipeline inserted)
    (hs : s.step load e = some s') (hnew : (inserted ++ e.inserted.toList).Nodup) :
    s'.Analyzing (inserted ++ e.inserted.toList) := by
  rcases stream_cases hs with rfl | ⟨layers, rfl⟩ | ⟨-, -, -, hlocal, hphase⟩
  · obtain ⟨-, ⟨-, p, hfound, rfl⟩ | ⟨-, rfl⟩⟩ := streamWake_cases hs
    · intro q hq
      obtain rfl : p = q := by simpa using hq
      have hp' := hp.quiet (s.lookup_reads (s.streamThread.maxID + 1)).quiet
      have hcache := (s.lookup_eq _).symm.trans hfound
      simp only [Event.inserted, Option.toList_none, List.append_nil]
      exact hp'.cached _ p hcache
    · intro q hq
      simp at hq
  · obtain ⟨p, -, rfl⟩ := analyzed_cases hs
    intro q hq
    simp at hq
  · intro p hph
    obtain ⟨hk, hid⟩ := h p ((hphase p).mp hph)
    obtain ⟨hk', hid'⟩ := step_ids hs hnew hk
    exact ⟨hk', by rw [hid', hlocal, hid]⟩

/-! ### Whole runs -/

/-- Everything the ids rely on, for a state reached with these insertions. -/
structure Consistent (inserted : List ℕ) (s : State hardware) : Prop where
  pipeline : s.Pipeline inserted
  published : s.Published
  streaming : s.Streaming
  analyzing : s.Analyzing inserted

theorem consistent_init (packet : PacketPtr → Packet) :
    (init packet : State hardware).Consistent [] :=
  ⟨pipeline_init packet, published_init packet, streaming_init packet, analyzing_init packet⟩

theorem Consistent.step (h : s.Consistent inserted) (hs : s.step load e = some s')
    (hnew : (inserted ++ e.inserted.toList).Nodup) :
    s'.Consistent (inserted ++ e.inserted.toList) where
  pipeline := h.pipeline.step hs hnew
  published := h.published.step h.pipeline hs
  streaming := h.streaming.step hs
  analyzing := h.analyzing.step h.pipeline hs hnew

lemma Consistent.streamMaxID_le (h : s.Consistent inserted) : s.streamMaxID ≤ s.maxID :=
  h.streaming.le.trans h.streaming.le_maxID

/-- What the stream thread has published is stored. -/
lemma Consistent.stored (h : s.Consistent inserted) {i : ℕ} (h1 : 1 ≤ i)
    (hi : i ≤ s.streamMaxID) : s.packets.has i = true :=
  h.published.1 i h1 (hi.trans h.streamMaxID_le)

/-- A packet in flight has not been published. -/
lemma Consistent.idOf_ne (h : s.Consistent inserted) {p : PacketPtr} (hp : s.InFlight p) {i : ℕ}
    (h1 : 1 ≤ i) (hi : i ≤ s.maxID) : s.idOf p ≠ i := by
  rintro rfl
  have hst : s.packets.has (s.idOf p) = true := h.published.1 (s.idOf p) h1 hi
  rw [h.pipeline.not_stored hp] at hst
  cases hst

/-- The packet objects inserted by the steps of a run. -/
def insertedBy (es : List (Event hardware)) : List ℕ := es.filterMap Event.inserted

lemma insertedBy_concat (es : List (Event hardware)) (e : Event hardware) :
    insertedBy (es ++ [e]) = insertedBy es ++ e.inserted.toList := by
  rw [insertedBy, insertedBy, List.filterMap_append]
  cases h : e.inserted with
  | none => simp [h]
  | some n => simp [h]

variable {packet : PacketPtr → Packet} {es : List (Event hardware)}

theorem consistent_run (hrun : Run.run (step load) (init packet) es = some s)
    (hes : (insertedBy es).Nodup) : s.Consistent (insertedBy es) := by
  refine Run.run_induction
    (motive := fun es s => (insertedBy es).Nodup → s.Consistent (insertedBy es))
    (fun _ => consistent_init packet) ?_ hrun hes
  intro es s e s' _ ih hs hnew
  rw [insertedBy_concat] at hnew ⊢
  exact (ih hnew.of_append_left).step hs hnew

theorem streaming_run (hrun : Run.run (step load) (init packet) es = some s) : s.Streaming :=
  Run.run_invariant (streaming_init packet) (fun _ _ _ h hs => h.step hs) hrun

/-- The counters of published ids never decrease along a run. -/
theorem run_mono (h : s.Streaming) (hrun : Run.run (step load) s es = some s') :
    s.maxID ≤ s'.maxID ∧ s.streamMaxID ≤ s'.streamMaxID := by
  have hmono : s'.Streaming ∧ s.maxID ≤ s'.maxID ∧ s.streamMaxID ≤ s'.streamMaxID := by
    refine Run.run_invariant
      (I := fun t => t.Streaming ∧ s.maxID ≤ t.maxID ∧ s.streamMaxID ≤ t.streamMaxID)
      ⟨h, le_rfl, le_rfl⟩ ?_ hrun
    rintro t e t' ⟨ht, hmax, hstream⟩ hs
    exact ⟨ht.step hs, hmax.trans (step_maxID_le hs), hstream.trans (ht.step_le hs)⟩
  exact hmono.2

/-! ### Counting -/

/-- The id written to the packet of an `insert` call that is accepted. -/
def handedOut (_ : State hardware) (e : Event hardware) (s' : State hardware) : List ℕ :=
  match e with
  | .insert t (some n) => if s'.calls t = .inserting (.made n) then [s'.idOf (.made n)] else []
  | _ => []

/-- The id of the packet the stream thread takes. -/
def taken (_ : State hardware) (e : Event hardware) (s' : State hardware) : List ℕ :=
  match e, s'.streamThread.phase with
  | .streamWake, .analyzing p => [s'.idOf p]
  | _, _ => []

/-- A call is either counted and given the next id, or counted as dropped. -/
lemma step_counted (hs : s.step load e = some s') :
    s.count + s.dropped + e.inserted.toList.length = s'.count + s'.dropped ∧
      s.count ≤ s'.count ∧
      handedOut s e s' = List.range' (s.count + 1) (s'.count - s.count) := by
  by_cases he : ∃ t pkt, e = .insert t pkt
  · obtain ⟨t, pkt, rfl⟩ := he
    obtain ⟨hc, ⟨rfl, rfl⟩ | ⟨n, rfl, ⟨-, rfl⟩ | ⟨-, rfl⟩⟩⟩ := insert_cases hs
    · simp [Event.inserted, handedOut]
    · simp [Event.inserted, handedOut, hc, Nat.add_assoc]
    · simp [Event.inserted, handedOut, idOf, Heap.modify_packet, Nat.add_right_comm]
  · obtain ⟨hcount, hdropped⟩ := (step_frame hs).counts fun t pkt h => he ⟨t, pkt, h⟩
    have hi : e.inserted = none ∧ handedOut s e s' = [] := by
      cases e with
      | insert t pkt => exact absurd ⟨t, pkt, rfl⟩ he
      | _ => exact ⟨rfl, rfl⟩
    simp [hi.1, hi.2, hcount, hdropped]

theorem counted_run (hrun : Run.run (step load) (init packet) es = some s) :
    (insertedBy es).length = s.count + s.dropped ∧
      Run.observe (step load) handedOut (init packet) es = List.range' 1 s.count := by
  refine Run.run_induction
    (motive := fun es s => (insertedBy es).length = s.count + s.dropped ∧
      Run.observe (step load) handedOut (init packet) es = List.range' 1 s.count) ⟨rfl, rfl⟩ ?_ hrun
  rintro es s e s' hes ⟨hlen, hobs⟩ hs
  obtain ⟨hcount, hle, hout⟩ := step_counted hs
  rw [insertedBy_concat, Run.observe_concat handedOut hes hs, List.length_append, hlen, hobs, hout]
  exact ⟨hcount, Prefix.range'_append hle⟩

/-- The stream thread goes on by one packet or not at all. -/
lemma step_taken (h : s.Consistent inserted) (hs : s.step load e = some s')
    (hnew : (inserted ++ e.inserted.toList).Nodup) :
    s.streamThread.maxID ≤ s'.streamThread.maxID ∧ taken s e s' =
      List.range' (s.streamThread.maxID + 1) (s'.streamThread.maxID - s.streamThread.maxID) := by
  rcases stream_cases hs with rfl | ⟨layers, rfl⟩ | ⟨hne, -, -, hlocal, -⟩
  · have h' := h.step hs hnew
    obtain ⟨-, ⟨-, p, -, rfl⟩ | ⟨-, rfl⟩⟩ := streamWake_cases hs
    · refine ⟨Nat.le_succ _, ?_⟩
      have hid := (h'.analyzing p rfl).2
      simp only [taken, hid, Nat.add_sub_cancel_left, List.range'_one]
    · exact ⟨le_rfl, by simp [taken]⟩
  · obtain ⟨p, -, rfl⟩ := analyzed_cases hs
    exact ⟨le_rfl, by simp [taken]⟩
  · refine ⟨hlocal.ge, ?_⟩
    rw [hlocal, Nat.sub_self]
    cases e with
    | streamWake => exact absurd rfl hne
    | _ => rfl

theorem taken_run (hrun : Run.run (step load) (init packet) es = some s)
    (hes : (insertedBy es).Nodup) :
    Run.observe (step load) taken (init packet) es = List.range' 1 s.streamThread.maxID := by
  refine Run.run_induction (motive := fun es s => (insertedBy es).Nodup →
    Run.observe (step load) taken (init packet) es = List.range' 1 s.streamThread.maxID)
    (fun _ => rfl) ?_ hrun hes
  intro es s e s' hes ih hs hnew
  rw [insertedBy_concat] at hnew
  have hnew' := hnew.of_append_left
  obtain ⟨hle, hout⟩ := step_taken (consistent_run hes hnew') hs hnew
  rw [Run.observe_concat taken hes hs, ih hnew', hout]
  exact Prefix.range'_append hle

/-! ### `get` -/

/-- A stored packet is found under its id, which later lookups do not change. -/
lemma Pipeline.lookup (h : s.Pipeline inserted) {i : ℕ} (hi : s.packets.has i = true) :
    ∃ p, (s.lookup i).1 = some p ∧
      ∀ s', (s.lookup i).2.Reads s' → s'.idOf p = i := by
  have hsome : (s.lookup i).1.isSome := by rw [lookup_isSome, hi]
  obtain ⟨p, hp⟩ := Option.isSome_iff_exists.mp hsome
  refine ⟨p, hp, fun s' hr => ?_⟩
  have hcache := (s.lookup_eq i).symm.trans hp
  obtain ⟨hk, hid⟩ := (h.quiet (s.lookup_reads i).quiet).cached i p hcache
  rw [hr.quiet.ids hk.valid, hid]

lemma getLoop_ids (h : s.Pipeline inserted)
    (hstored : Prefix.Complete (s.packets.has · = true) s.streamMaxID) {i : ℕ} (hi : 1 ≤ i)
    (n : ℕ) : (s.getLoop i n).1.map (s.getLoop i n).2.idOf =
      List.range' i (min n (s.streamMaxID + 1 - i)) := by
  induction n generalizing s i with
  | zero => simp [getLoop]
  | succ n ih =>
    rw [getLoop]
    split_ifs with hlt
    · have h0 : s.streamMaxID + 1 - i = 0 := by omega
      simp [h0]
    · have hr := s.lookup_reads i
      obtain ⟨p, hp, hid⟩ := h.lookup (hstored i hi (by omega))
      have hlen : min (n + 1) (s.streamMaxID + 1 - i) =
          min n (s.streamMaxID + 1 - (i + 1)) + 1 := by omega
      have htail := ih (s := (s.lookup i).2) (h.quiet hr.quiet)
        (hstored.imp fun j hj => (hr.has j).trans hj) (Nat.le_succ_of_le hi)
      simp only [hp, Option.toList_some, List.singleton_append, List.map_cons, hlen,
        List.range'_succ]
      rw [hid _ (getLoop_reads _ _ _), htail]
      rfl

/-- `get` returns the published packets of the interval, in order and without gaps. -/
theorem get_ids (h : s.Consistent inserted) {a b : ℕ} (ha : 1 ≤ a) (hab : a ≤ b) :
    (s.get a b).1.map (s.get a b).2.idOf = List.range' a (min b s.streamMaxID + 1 - a) := by
  have hstored : Prefix.Complete (s.packets.has · = true) s.streamMaxID :=
    h.published.1.mono h.streamMaxID_le
  have hlen : min (b + 1 - a) (s.streamMaxID + 1 - a) = min b s.streamMaxID + 1 - a := by omega
  have hguard : ¬ (a = 0 ∨ b = 0 ∨ a > b) := by omega
  rw [get, if_neg hguard, getLoop_ids h.pipeline hstored ha, hlen]

/-- The account of the ids after the run `es`. -/
structure Accounted (load : List (String × String) → String → Bool) (packet : PacketPtr → Packet)
    (es : List (Event hardware)) (s : State hardware) : Prop where
  calls : (insertedBy es).length = s.count + s.dropped
  handedOut : Run.observe (step load) handedOut (init packet) es = List.range' 1 s.count
  /-- every id is in exactly one place, and in the queue only once -/
  place : ∀ i, 1 ≤ i → i ≤ s.count → ∃! pl, s.At i pl
  place_le : ∀ i pl, s.At i pl → 1 ≤ i ∧ i ≤ s.count
  queue : (s.waitingPackets.map s.idOf).Nodup
  maxID : IsGreatest {n | ∀ i, 1 ≤ i → i ≤ n → s.packets.has i = true} s.maxID
  streamMaxID_le : s.streamMaxID ≤ s.maxID
  maxID_le : s.maxID ≤ s.count
  mono : ∀ es' s', Run.run (step load) s es' = some s' →
    s.maxID ≤ s'.maxID ∧ s.streamMaxID ≤ s'.streamMaxID
  taken : Run.observe (step load) taken (init packet) es = List.range' 1 s.streamThread.maxID
  get : ∀ a b, 1 ≤ a → a ≤ b →
    (s.get a b).1.map (s.get a b).2.idOf = List.range' a (min b s.streamMaxID + 1 - a)

lemma Consistent.maxID_le (h : s.Consistent inserted) : s.maxID ≤ s.count := by
  rcases Nat.eq_zero_or_pos s.maxID with h0 | hpos
  · rw [h0]
    exact Nat.zero_le _
  · exact (h.pipeline.stored_le (h.published.1 s.maxID hpos le_rfl)).2

/-- However the threads interleave, no id is lost, duplicated or published out of order. -/
theorem ids_accounted (hrun : Run.run (step load) (init packet) es = some s)
    (hes : (insertedBy es).Nodup) : Accounted load packet es s := by
  have h := consistent_run hrun hes
  obtain ⟨hcalls, hout⟩ := counted_run hrun
  exact {
    calls := hcalls
    handedOut := hout
    place := fun i h1 hi => (h.pipeline.places i).1 ⟨h1, hi⟩
    place_le := fun i pl hpl => h.pipeline.places.mem hpl
    queue := h.pipeline.queue
    maxID := h.published
    streamMaxID_le := h.streamMaxID_le
    maxID_le := h.maxID_le
    mono := fun es' s' hrun' => run_mono h.streaming hrun'
    taken := taken_run hrun hes
    get := fun a b ha hab => get_ids h ha hab }

/-- Two packets, the second one stored first. -/
theorem ids_accounted_two : ∃ s : State 2,
    Run.run (step fun _ _ => true) (init fun _ => default)
      [.insert 0 (some 7), .push 0, .notify 0, .insert 1 (some 3), .push 1, .wake 0, .wake 1,
        .dissected 1 [], .dissected 0 [], .streamWake, .analyzed []] = some s ∧
    (s.count = 2 ∧ s.maxID = 2 ∧ s.streamMaxID = 1) ∧
    Accounted (fun _ _ => true) (fun _ => default)
      [.insert 0 (some 7), .push 0, .notify 0, .insert 1 (some 3), .push 1, .wake 0, .wake 1,
        .dissected 1 [], .dissected 0 [], .streamWake, .analyzed []] s :=
  ⟨_, rfl, by decide, ids_accounted rfl (by decide)⟩

end State

end Dripcap
