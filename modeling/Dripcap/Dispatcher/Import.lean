import Dripcap.Dispatcher.Wakeup

/-!
# Importing packets

The `analyze` command inserts the packets of a list one after the other, whatever the workers
do in the meantime. A call that finds a full queue drops its packet; every other packet of the
list reaches the store.
-/

namespace Dripcap

/-- What a packet is apart from its id and its layers. -/
def Packet.body (pkt : Packet) : Packet := { pkt with id := 0, layers := [] }

/-- The packet that thread `t` passes to `insert`. -/
def Event.passedBy {hardware : ℕ} (t : ℕ) : Event hardware → Option ℕ
  | .insert u pkt => if u = t then pkt else none
  | _ => none

namespace State

variable {hardware : ℕ} {s s' : State hardware} {load : List (String × String) → String → Bool}
  {e : Event hardware} {inserted : List ℕ} {packet : PacketPtr → Packet}

/-- An accepted packet object with the id written to it. -/
def accepted (_ : State hardware) (e : Event hardware) (s' : State hardware) : List (ℕ × ℕ) :=
  match e with
  | .insert t (some n) =>
    if s'.calls t = .inserting (.made n) then [(n, s'.idOf (.made n))] else []
  | _ => []

/-- The same for the calls of thread `t` only. -/
def imported (t : ℕ) (s : State hardware) (e : Event hardware) (s' : State hardware) :
    List (ℕ × ℕ) :=
  if (e.passedBy t).isSome then accepted s e s' else []

/-- A packet object that a call of thread `t` has dropped. -/
def refused (t : ℕ) (s : State hardware) (e : Event hardware) (s' : State hardware) : List ℕ :=
  if accepted s e s' = [] then (e.passedBy t).toList else []

/-- A packet object that a call of any thread has dropped. -/
def lost (s : State hardware) (e : Event hardware) (s' : State hardware) : List ℕ :=
  if accepted s e s' = [] then e.inserted.toList else []

/-! ### The content of stored packets -/

/-- The packets in flight are those accepted, and the store has their content under their
ids. -/
structure Kept (packet : PacketPtr → Packet) (log : List (ℕ × ℕ)) (s : State hardware) :
    Prop where
  body : ∀ n, (s.heap.packet (.made n)).body = (packet (.made n)).body
  flying : ∀ p, s.InFlight p → ∃ n, p = .made n ∧ (n, s.idOf p) ∈ log
  stored : ∀ i value, s.packets.db i = some value →
    ∃ n, (n, i) ∈ log ∧ value.body = (packet (.made n)).body

variable {log : List (ℕ × ℕ)}

lemma kept_init (packet : PacketPtr → Packet) : (init packet : State hardware).Kept packet [] where
  body _ := rfl
  flying p hp := by simp [InFlight, init] at hp
  stored i value hv := by simp [init] at hv

/-- Steps in which no packet is accepted and none moves. -/
lemma Kept.congr (h : s.Kept packet log)
    (hbody : ∀ n, (s'.heap.packet (.made n)).body = (s.heap.packet (.made n)).body)
    (hids : ∀ n, s'.idOf (.made n) = s.idOf (.made n))
    (hfly : ∀ p, s'.InFlight p → s.InFlight p) (hdb : s'.packets.db = s.packets.db) :
    s'.Kept packet log where
  body n := (hbody n).trans (h.body n)
  flying p hp := by
    obtain ⟨n, rfl, hlog⟩ := h.flying p (hfly p hp)
    exact ⟨n, rfl, by rw [hids]; exact hlog⟩
  stored i value hv := h.stored i value (hdb ▸ hv)

lemma Kept.quiet (h : s.Kept packet log) (q : s.Quiet s') : s'.Kept packet log := by
  refine h.congr (fun n => ?_) (fun n => q.ids trivial) (fun p hp => ?_) q.db
  · rw [q.heap.packet (.made n) trivial]
  · rcases hp with ⟨t, ht⟩ | hq | ⟨w, hw⟩
    · exact Or.inl ⟨t, (q.calls t p).mp ht⟩
    · exact Or.inr (Or.inl (q.queue ▸ hq))
    · exact Or.inr (Or.inr ⟨w, (q.workers w p).mp hw⟩)

lemma modify_body (h : Heap) {f : Packet → Packet} (p q : PacketPtr)
    (hf : ∀ pkt, (f pkt).body = pkt.body) :
    ((h.modify p f).packet q).body = (h.packet q).body := by
  rw [Heap.modify_packet]
  split_ifs with hq
  · rw [hf, hq]
  · rfl

lemma addRawLayer_body (pkt : Packet) : (addRawLayer pkt).body = pkt.body := by
  unfold addRawLayer
  split_ifs <;> rfl

lemma Kept.accept (h : s.Kept packet log) (t n : ℕ) :
    (s.accept t n).Kept packet (log ++ [(n, s.count + 1)]) := by
  have hself : (s.accept t n).idOf (.made n) = s.count + 1 := by
    simp [idOf, Heap.modify_packet]
  refine ⟨fun m => ?_, fun p hfly => ?_, fun i value hv => ?_⟩
  · rw [accept_heap, modify_body]
    · exact h.body m
    · exact fun _ => rfl
  · -- only the new packet is in flight in addition to the old ones
    by_cases hpn : p = .made n
    · subst hpn
      exact ⟨n, rfl, by rw [hself]; simp⟩
    · have hold : s.InFlight p := by
        rcases hfly with ⟨u, hu⟩ | hq | hw
        · rw [accept_calls, Function.update_apply] at hu
          split_ifs at hu
          · exact absurd (by simpa using hu.symm) hpn
          · exact Or.inl ⟨u, hu⟩
        · exact Or.inr (Or.inl hq)
        · exact Or.inr (Or.inr hw)
      obtain ⟨m, rfl, hlog⟩ := h.flying p hold
      refine ⟨m, rfl, List.mem_append_left _ ?_⟩
      simp only [idOf, accept_heap, Heap.modify_packet, if_neg hpn]
      exact hlog
  · obtain ⟨m, hlog, hbody⟩ := h.stored i value hv
    exact ⟨m, List.mem_append_left _ hlog, hbody⟩

lemma Kept.enqueue (h : s.Kept packet log) {t : ℕ} {p : PacketPtr}
    (ht : s.calls t = .inserting p) : (s.enqueue t p).Kept packet log := by
  refine h.congr (fun n => modify_body _ _ _ addRawLayer_body)
    (fun n => congrFun (s.enqueue_idOf t p) _) (fun q hq => ?_) rfl
  rcases hq with ⟨u, hu⟩ | hq | hw
  · rw [enqueue_calls, Function.update_apply] at hu
    split_ifs at hu
    exact Or.inl ⟨u, hu⟩
  · rcases List.mem_append.mp hq with hq | hq
    · exact Or.inr (Or.inl hq)
    · obtain rfl := List.mem_singleton.mp hq
      exact Or.inl ⟨t, ht⟩
  · exact Or.inr (Or.inr hw)

lemma Kept.take (h : s.Kept packet log) (w : Core hardware) : (s.take w).Kept packet log := by
  refine h.congr (fun n => by rw [take_heap]) (fun n => by rw [idOf, take_heap]; rfl)
    (fun q hq => ?_) (by rw [take_packets])
  rcases take_cases s w with ⟨-, htake⟩ | ⟨p, ps, hqueue, htake⟩
  · rw [htake] at hq
    rcases hq with ht | hq | ⟨v, hv⟩
    · exact Or.inl ht
    · exact Or.inr (Or.inl hq)
    · simp only [setWorker_workers, Function.update_apply] at hv
      split_ifs at hv
      exact Or.inr (Or.inr ⟨v, hv⟩)
  · rw [htake] at hq
    rcases hq with ht | hq | ⟨v, hv⟩
    · exact Or.inl ht
    · exact Or.inr (Or.inl (hqueue ▸ List.mem_cons_of_mem _ hq))
    · simp only [setWorker_workers, Function.update_apply] at hv
      split_ifs at hv
      · obtain rfl : p = q := by simpa using hv
        exact Or.inr (Or.inl (by simp [hqueue]))
      · exact Or.inr (Or.inr ⟨v, hv⟩)

lemma Kept.finish (h : s.Kept packet log) (p : PacketPtr) (layers : LayerList) :
    (s.finish p layers).Kept packet log := by
  refine h.congr (fun n => ?_) (fun n => modify_layers_idOf p _) (fun _ hq => hq) rfl
  rw [finish_heap, modify_body]
  exact fun _ => rfl

lemma Kept.store (h : s.Kept packet log) {w : Core hardware} {p : PacketPtr}
    (hw : (s.workers w).phase = .dissecting p) : (s.store p).Kept packet log := by
  refine ⟨h.body, h.flying, fun i value hv => ?_⟩
  simp only [store_packets, ObjectCache.set_db, Function.update_apply] at hv
  split_ifs at hv with hi
  · obtain ⟨n, rfl, hlog⟩ := h.flying p (Or.inr (Or.inr ⟨w, hw⟩))
    refine ⟨n, hi ▸ hlog, ?_⟩
    rw [← Option.some.inj hv]
    exact h.body n
  · exact h.stored i value hv

lemma Kept.setLayers (h : s.Kept packet log) (p : PacketPtr) (layers : LayerList) :
    (s.setLayers p layers).Kept packet log := by
  refine h.congr (fun n => ?_) (fun n => modify_layers_idOf p _) (fun _ hq => hq) rfl
  rw [setLayers_heap, modify_body]
  exact fun _ => rfl

/-- A call is accepted exactly when it finds less than 32 packets waiting. -/
lemma insert_accepted {t n : ℕ} (hs : s.insert t (some n) = some s') :
    (s.waitingPackets.length < 32 ∧ accepted s (.insert t (some n)) s' = [(n, s.count + 1)]) ∨
      (32 ≤ s.waitingPackets.length ∧ accepted s (.insert t (some n)) s' = []) := by
  obtain ⟨hc, ⟨hnone, -⟩ | ⟨m, hm, ⟨hq, rfl⟩ | ⟨hq, rfl⟩⟩⟩ := insert_cases hs
  · cases hnone
  · exact Or.inr ⟨hq, by simp [accepted, hc]⟩
  · obtain rfl := Option.some.inj hm
    exact Or.inl ⟨hq, by simp [accepted, idOf, Heap.modify_packet]⟩

theorem Kept.step (h : s.Kept packet log) (hs : s.step load e = some s') :
    s'.Kept packet (log ++ accepted s e s') := by
  cases step_outcome hs with
  | quiet q =>
    have hnil : accepted s e s' = [] := by
      cases e with
      | insert t pkt =>
        cases pkt with
        | none => rfl
        | some n =>
          have hidle := (insert_cases (show s.insert t (some n) = some s' from hs)).1
          have hc : s'.calls t ≠ .inserting (.made n) := by
            rw [Ne, q.calls]
            simp [hidle]
          simp [accepted, hc]
      | _ => rfl
    simpa [hnil] using h.quiet q
  | accept t n _ hq =>
    rcases insert_accepted hs with ⟨-, hlog⟩ | ⟨hfull, -⟩
    · rw [hlog]
      exact h.accept t n
    · exact absurd hq (not_lt.mpr hfull)
  | enqueue t p ht => simpa [accepted] using h.enqueue ht
  | take w hw =>
    have hquiet : s.Quiet (s.setWorker w ((s.workers w).loadSources load)) :=
      quiet_setWorker fun _ => Iff.rfl
    simpa [accepted] using (h.quiet hquiet).take w
  | analyze layers p _ => simpa [accepted] using h.finish p layers
  | store w layers p hw =>
    have hstore := (h.setLayers p layers).store (w := w) hw
    simpa [accepted] using (hstore.quiet (quiet_publish _)).take w

/-! ### The calls of one thread -/

/-- The packets that thread `t` passes to `insert`, one after the other. -/
def insertCalls (t : ℕ) (es : List (Event hardware)) : List ℕ := es.filterMap (Event.passedBy t)

variable {t n : ℕ} {es : List (Event hardware)}

lemma passedBy_eq_some : e.passedBy t = some n ↔ e = .insert t (some n) := by
  cases e with
  | insert u pkt =>
    simp only [Event.passedBy, Event.insert.injEq]
    split_ifs with hu
    · simp [hu]
    · simp [hu]
  | _ => simp [Event.passedBy]

lemma inserted_of_passedBy (h : e.passedBy t = some n) : e.inserted = some n := by
  rw [passedBy_eq_some.mp h]
  rfl

lemma mem_insertedBy_of_refused {s₀ : State hardware}
    (h : n ∈ Run.observe (step load) (refused t) s₀ es) : n ∈ insertedBy es := by
  obtain ⟨e, he, s, s', -, hn⟩ := Run.mem_observe h
  unfold refused at hn
  split_ifs at hn
  · exact List.mem_filterMap.mpr ⟨e, he, inserted_of_passedBy (by simpa using hn)⟩
  · cases hn

/-- A step is no call of the thread, or a call that is accepted, or one that drops its packet. -/
lemma step_imported (hs : s.step load e = some s') :
    (e.passedBy t = none ∧ imported t s e s' = [] ∧ refused t s e s' = []) ∨
      ∃ n, e = .insert t (some n) ∧
        ((s.waitingPackets.length < 32 ∧ imported t s e s' = [(n, s.count + 1)] ∧
            refused t s e s' = []) ∨
          (32 ≤ s.waitingPackets.length ∧ imported t s e s' = [] ∧ refused t s e s' = [n])) := by
  cases hp : e.passedBy t with
  | none => exact Or.inl ⟨rfl, by simp [imported, hp], by simp [refused, hp]⟩
  | some n =>
    have he := passedBy_eq_some.mp hp
    refine Or.inr ⟨n, he, ?_⟩
    subst he
    rcases insert_accepted hs with ⟨hq, hacc⟩ | ⟨hq, hacc⟩
    · exact Or.inl ⟨hq, by simp [imported, hp, hacc], by simp [refused, hacc]⟩
    · exact Or.inr ⟨hq, by simp [imported, hacc], by simp [refused, hp, hacc]⟩

/-- The packets of a thread that are accepted are those not dropped, in the order of its
calls. -/
lemma imported_order {s₀ : State hardware} (hrun : Run.run (step load) s₀ es = some s)
    (hes : (insertedBy es).Nodup) :
    (Run.observe (step load) (imported t) s₀ es).map Prod.fst = (insertCalls t es).filter
      fun n => n ∉ Run.observe (step load) (refused t) s₀ es := by
  refine Run.run_induction (motive := fun es s => (insertedBy es).Nodup →
    (Run.observe (step load) (imported t) s₀ es).map Prod.fst = (insertCalls t es).filter
      fun n => n ∉ Run.observe (step load) (refused t) s₀ es) (fun _ => rfl) ?_ hrun hes
  intro es s e s' hrun ih hs hnew
  rw [insertedBy_concat] at hnew
  have ih' := ih hnew.of_append_left
  have hcalls : insertCalls t (es ++ [e]) = insertCalls t es ++ (e.passedBy t).toList := by
    rw [insertCalls, insertCalls, List.filterMap_append]
    cases h : e.passedBy t <;> simp [h]
  have hold : ∀ n ∈ insertCalls t es, n ∈ insertedBy es := by
    intro n hn
    obtain ⟨e', he', hp⟩ := List.mem_filterMap.mp hn
    exact List.mem_filterMap.mpr ⟨e', he', inserted_of_passedBy hp⟩
  rw [Run.observe_concat (imported t) hrun hs, Run.observe_concat (refused t) hrun hs, hcalls,
    List.map_append, List.filter_append, ih']
  rcases step_imported (t := t) hs with ⟨hp, hi, hr⟩ | ⟨n, rfl, ⟨-, hi, hr⟩ | ⟨-, hi, hr⟩⟩
  · simp [hp, hi, hr]
  · have hn : n ∉ Run.observe (step load) (refused t) s₀ es := fun hmem =>
      List.disjoint_of_nodup_append hnew (mem_insertedBy_of_refused hmem)
        (List.mem_singleton_self n)
    simp [hi, hr, hn, Event.passedBy]
  · have hn : ∀ m ∈ insertCalls t es, m ≠ n := by
      rintro m hm rfl
      exact List.disjoint_of_nodup_append hnew (hold m hm) (List.mem_singleton_self m)
    simp only [hi, hr, List.mem_append, List.mem_singleton, not_or, Event.passedBy, if_true,
      Option.toList_some, List.map_nil, List.append_nil]
    rw [List.filter_cons_of_neg (by simp), List.filter_nil, List.append_nil]
    exact List.filter_congr fun m hm => by simp [hn m hm]

lemma kept_run (hrun : Run.run (step load) (init packet) es = some s) :
    s.Kept packet (Run.observe (step load) accepted (init packet) es) := by
  refine Run.run_induction (motive := fun es s =>
    s.Kept packet (Run.observe (step load) accepted (init packet) es)) (kept_init packet) ?_ hrun
  intro es s e s' hes ih hs
  rw [Run.observe_concat accepted hes hs]
  exact ih.step hs

/-- The ids of the accepted packets are the ids given out. -/
lemma accepted_ids (hrun : Run.run (step load) (init packet) es = some s) :
    (Run.observe (step load) accepted (init packet) es).map Prod.snd = List.range' 1 s.count := by
  rw [Run.map_observe, ← (counted_run hrun).2]
  congr 1
  funext s e s'
  cases e with
  | insert t pkt =>
    cases pkt with
    | none => rfl
    | some n =>
      simp only [accepted, handedOut]
      split_ifs <;> rfl
  | _ => rfl

/-- When everything is asleep the ids given out are all stored. -/
lemma stored_of_quiescent (hrun : Run.run (step load) (init packet) es = some s)
    (hes : (insertedBy es).Nodup) (hq : s.Quiescent) {i : ℕ} (h1 : 1 ≤ i) (hi : i ≤ s.count) :
    s.packets.has i = true := by
  obtain ⟨pl, hpl, -⟩ := ((consistent_run hrun hes).pipeline.places i).1 ⟨h1, hi⟩
  cases pl with
  | inserting t =>
    obtain ⟨p, hp, -⟩ := hpl
    rw [hq.calls t] at hp
    cases hp
  | waiting =>
    obtain ⟨p, hp, -⟩ := hpl
    rw [(quiescent_drained hrun hq).1] at hp
    cases hp
  | dissecting w =>
    obtain ⟨p, hp, -⟩ := hpl
    rw [hq.workers w] at hp
    cases hp
  | stored => exact hpl

/-- A packet that is passed to `insert` once is dropped exactly when its call finds 32 packets
waiting. -/
lemma mem_refused {s₀ m : State hardware} {es' es'' : List (Event hardware)}
    (hrun : Run.run (step load) s₀ (es' ++ .insert t (some n) :: es'') = some s)
    (hm : Run.run (step load) s₀ es' = some m)
    (hes : (insertedBy (es' ++ .insert t (some n) :: es'')).Nodup) :
    n ∈ Run.observe (step load) (refused t) s₀ (es' ++ .insert t (some n) :: es'') ↔
      32 ≤ m.waitingPackets.length := by
  obtain ⟨m', hm', htail⟩ := Run.run_append_iff.mp hrun
  obtain rfl : m = m' := by
    rw [hm] at hm'
    exact Option.some.inj hm'
  obtain ⟨m'', hstep, -⟩ := Option.bind_eq_some_iff.mp htail
  -- the packet is passed in this call only
  have hsplit : insertedBy (es' ++ .insert t (some n) :: es'') =
      insertedBy es' ++ n :: insertedBy es'' := by
    simp [insertedBy, Event.inserted]
  rw [hsplit, List.nodup_append] at hes
  have hleft : n ∉ Run.observe (step load) (refused t) s₀ es' := fun hmem =>
    hes.2.2 n (mem_insertedBy_of_refused hmem) n List.mem_cons_self rfl
  have hright : n ∉ Run.observe (step load) (refused t) m'' es'' := fun hmem =>
    (List.nodup_cons.mp hes.2.1).1 (mem_insertedBy_of_refused hmem)
  rw [Run.observe_append (refused t) hm]
  simp only [Run.observe, hstep, List.mem_append, hleft, hright, false_or, or_false]
  rcases step_imported (t := t) hstep with ⟨hp, -, -⟩ | ⟨n', he, ⟨hq, -, hr⟩ | ⟨hq, -, hr⟩⟩
  · simp [Event.passedBy] at hp
  · simp [hr, hq]
  · obtain rfl : n = n' := by simpa using he
    simp [hr, hq]

/-- What one thread imports is part of what all calls insert. -/
lemma imported_sublist {es₀ : List (Event hardware)} {s₀ : State hardware}
    (hrun₀ : Run.run (step load) (init packet) es₀ = some s₀) (t : ℕ) (es : List (Event hardware)) :
    (Run.observe (step load) (imported t) s₀ es).Sublist
      (Run.observe (step load) accepted (init packet) (es₀ ++ es)) := by
  rw [Run.observe_append accepted hrun₀]
  refine (Run.observe_sublist (fun s e s' => ?_) s₀ es).trans (List.sublist_append_right _ _)
  unfold imported
  split_ifs
  · exact List.Sublist.refl _
  · exact List.nil_sublist _

/-- An accepted packet is stored under its id once the pipeline is idle. -/
lemma stored_of_accepted (hrun : Run.run (step load) (init packet) es = some s)
    (hes : (insertedBy es).Nodup) (hq : s.Quiescent) {i : ℕ}
    (hmem : (n, i) ∈ Run.observe (step load) accepted (init packet) es) :
    ∃ value, s.packets.db i = some value ∧ value.id = i ∧
      value.body = (packet (.made n)).body := by
  have hids := accepted_ids hrun
  have hi : i ∈ List.range' 1 s.count := hids ▸ List.mem_map_of_mem hmem
  rw [List.mem_range'_1] at hi
  have hhas := stored_of_quiescent hrun hes hq hi.1 (by omega)
  rw [ObjectCache.has_eq] at hhas
  obtain ⟨value, hv⟩ := Option.isSome_iff_exists.mp hhas
  obtain ⟨n', hlog, hbody⟩ := (kept_run hrun).stored i value hv
  -- an id is given to one packet only
  have hn : n' = n := by
    have hnodup : ((Run.observe (step load) accepted (init packet) es).map Prod.snd).Nodup := by
      rw [hids]
      exact List.nodup_range'
    exact congrArg Prod.fst (List.inj_on_of_nodup_map hnodup hlog hmem rfl)
  exact ⟨value, hv, (consistent_run hrun hes).pipeline.stored i value hv, hn ▸ hbody⟩

/-! ### The counter of dropped packets -/

/-- The counter `dropped` goes up by one in a call that drops its packet, and in no other step. -/
lemma step_lost (hs : s.step load e = some s') : s'.dropped = s.dropped + (lost s e s').length := by
  by_cases he : ∃ t pkt, e = .insert t pkt
  · obtain ⟨t, pkt, rfl⟩ := he
    obtain ⟨hc, ⟨rfl, rfl⟩ | ⟨n, rfl, ⟨-, rfl⟩ | ⟨-, rfl⟩⟩⟩ := insert_cases hs
    · simp [lost, Event.inserted]
    · simp [lost, accepted, hc, Event.inserted]
    · simp [lost, accepted]
  · have hdropped := ((step_frame hs).counts fun t pkt h => he ⟨t, pkt, h⟩).2
    have hi : e.inserted = none := by
      cases e with
      | insert t pkt => exact absurd ⟨t, pkt, rfl⟩ he
      | _ => rfl
    simp [lost, hi, hdropped]

lemma dropped_run {s₀ : State hardware} (hrun : Run.run (step load) s₀ es = some s) :
    s.dropped = s₀.dropped + (Run.observe (step load) lost s₀ es).length := by
  refine Run.run_induction (motive := fun es s =>
    s.dropped = s₀.dropped + (Run.observe (step load) lost s₀ es).length) rfl ?_ hrun
  intro es s e s' hrun ih hs
  rw [Run.observe_concat lost hrun hs, List.length_append, step_lost hs, ih, Nat.add_assoc]

/-- The packets that thread `t` loses are among those lost by all threads. -/
lemma refused_sublist (t : ℕ) (s : State hardware) (e : Event hardware) (s' : State hardware) :
    (refused t s e s').Sublist (lost s e s') := by
  unfold refused lost
  split_ifs
  · cases hp : e.passedBy t with
    | none => exact List.nil_sublist _
    | some n => rw [inserted_of_passedBy hp]
  · exact List.nil_sublist _

/-- What becomes of the packets that thread `t` inserts with the steps `es` from `s₀` on. -/
structure Imports (load : List (String × String) → String → Bool) (packet : PacketPtr → Packet)
    (t : ℕ) (pkts : List ℕ) (s₀ : State hardware) (es : List (Event hardware))
    (s : State hardware) : Prop where
  /-- a packet is dropped exactly when its call finds 32 packets waiting -/
  refused : ∀ es' n es'' m, es = es' ++ .insert t (some n) :: es'' →
    Run.run (step load) s₀ es' = some m →
    (n ∈ Run.observe (step load) (refused t) s₀ es ↔ 32 ≤ m.waitingPackets.length)
  /-- the counter goes up by one for each of them, and for each packet other threads lose -/
  counted : (Run.observe (step load) (State.refused t) s₀ es).Sublist
      (Run.observe (step load) lost s₀ es) ∧
    s.dropped = s₀.dropped + (Run.observe (step load) lost s₀ es).length
  /-- the others are accepted in the order of the list -/
  order : (Run.observe (step load) (imported t) s₀ es).map Prod.fst =
    pkts.filter fun n => n ∉ Run.observe (step load) (State.refused t) s₀ es
  ids : ((Run.observe (step load) (imported t) s₀ es).map Prod.snd).Pairwise (· < ·)
  /-- and stored under their ids once the pipeline is idle -/
  stored : s.Quiescent → ∀ n i, (n, i) ∈ Run.observe (step load) (imported t) s₀ es →
    ∃ value, s.packets.db i = some value ∧ value.id = i ∧
      value.body = (packet (.made n)).body

/-- The `analyze` command, executed by thread `t` for the packets `pkts`. -/
theorem analyze_imports {es₀ : List (Event hardware)} {s₀ : State hardware} {pkts : List ℕ}
    (hrun₀ : Run.run (step load) (init packet) es₀ = some s₀)
    (hrun : Run.run (step load) s₀ es = some s) (hcalls : insertCalls t es = pkts)
    (hes : (insertedBy (es₀ ++ es)).Nodup) : Imports load packet t pkts s₀ es s := by
  have hwhole := Run.run_trans hrun₀ hrun
  have hnew : (insertedBy es).Nodup := by
    rw [insertedBy, List.filterMap_append] at hes
    exact hes.of_append_right
  have hsub := imported_sublist hrun₀ t es
  refine ⟨fun es' n es'' m hsplit hm => ?_,
    ⟨Run.observe_sublist (refused_sublist t) s₀ es, dropped_run hrun⟩, ?_, ?_,
    fun hq n i hmem => ?_⟩
  · subst hsplit
    exact mem_refused hrun hm hnew
  · rw [← hcalls]
    exact imported_order hrun hnew
  · refine List.Pairwise.sublist (hsub.map Prod.snd) ?_
    rw [accepted_ids hwhole]
    exact List.pairwise_lt_range' 1
  · exact stored_of_accepted hwhole hes hq (hsub.subset hmem)

/-- One round of the loop of the `analyze` command. -/
def importOne (n : ℕ) : List (Event 1) := [.insert 0 (some n), .push 0, .notify 0]

/-- Packets told apart by their lengths. -/
def lengths : PacketPtr → Packet
  | .made n => { len := n }
  | .loaded _ => {}

/-- Thread 1 is in the middle of a call when thread 0 imports two packets. A worker takes the
packets in between, and in the end all threads sleep. -/
def importTwo : List (Event 1) :=
  [.insert 0 (some 5), .push 1, .push 0, .notify 0, .wake 0, .insert 0 (some 4), .push 0, .notify 1,
    .notify 0, .dissected 0 [], .dissected 0 [], .streamWake, .analyzed [], .dissected 0 [],
    .wake 0, .streamWake, .analyzed [], .streamWake, .analyzed [], .streamWake]

/-- Both packets of the list are stored, after the packet of the other thread. -/
theorem analyze_imports_two : ∃ s₀ s : State 1,
    Run.run (step fun _ _ => true) (init lengths) [.insert 1 (some 9)] = some s₀ ∧
    Run.run (step fun _ _ => true) s₀ importTwo = some s ∧
    Imports (fun _ _ => true) lengths 0 [5, 4] s₀ importTwo s ∧ s.dropped = 0 ∧ s.Quiescent ∧
    (∃ value, s.packets.db 2 = some value ∧ value.id = 2 ∧ value.body = ({ len := 5 } : Packet)) ∧
    ∃ value, s.packets.db 3 = some value ∧ value.id = 3 ∧ value.body = ({ len := 4 } : Packet) := by
  have hrun₀ : Run.run (step fun _ _ => true) (init lengths : State 1) [.insert 1 (some 9)] =
      some _ := rfl
  have himports : Imports (fun _ _ => true) lengths 0 [5, 4] _ importTwo _ :=
    analyze_imports hrun₀ rfl rfl (by decide)
  refine ⟨_, _, hrun₀, rfl, himports, rfl, ?hq, himports.stored ?hq 5 2 ?_,
    himports.stored ?hq 4 3 ?_⟩
  case hq =>
    refine ⟨fun t => ?_, fun w => ?_, rfl, fun name f hf => nomatch hf⟩
    · match t with
      | 0 => rfl
      | 1 => rfl
      | t + 2 => rfl
    · match w with
      | 0 => rfl
  · decide
  · decide

/-- A list of 33 packets, inserted before any worker gets to run. -/
def importAll : List (Event 1) := (List.range 32).flatMap importOne ++ [.insert 0 (some 32)]

/-- The last packet of that list is dropped. -/
theorem analyze_drops : ∃ s : State 1,
    Run.run (step fun _ _ => true) (init fun _ => default) importAll = some s ∧
      insertCalls 0 importAll = List.range 33 ∧
      Run.observe (step fun _ _ => true) (refused 0) (init fun _ => default) importAll = [32] ∧
      s.dropped = 1 := by
  have hdropped : (Run.run (step fun _ _ => true) (init fun _ => default) importAll).map
      State.dropped = some 1 := by decide +kernel
  obtain ⟨s, hs, hd⟩ := Option.map_eq_some_iff.mp hdropped
  exact ⟨s, hs, by decide +kernel, by decide +kernel, hd⟩

end State

end Dripcap
