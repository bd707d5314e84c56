import Dripcap.Dispatcher.Analyzed

/-!
# Eviction from the object cache

What the stream thread has changed is lost when the object leaves the table of the cache. Every
object that enters the table makes another one leave it, so whether an analysis is kept can be
told from the states before the steps.
-/

namespace Dripcap

namespace State

variable {hardware : ℕ} {s s' : State hardware} {load : List (String × String) → String → Bool}
  {e : Event hardware} {inserted : List ℕ} {done : List (PacketPtr × LayerList)}
  {packet : PacketPtr → Packet} {es : List (Event hardware)} {p : PacketPtr} {i : ℕ}

/-! ### Steps that keep the analyses -/

/-- The packets a step looks up, one after the other. -/
def lookedUp (s : State hardware) : Event hardware → List ℕ
  | .streamWake =>
    if s.streamThread.maxID < s.maxID then [s.streamThread.maxID + 1] else []
  | .filterWake name _ => match s.filters name with
    | none => []
    | some f => if f.exiting = false ∧ f.ctx.fetchedMaxID < s.streamMaxID then
        [f.ctx.fetchedMaxID + 1] else []
  | .get start fin =>
    if start = 0 ∨ fin = 0 ∨ start > fin then []
    else (List.range' start (fin + 1 - start)).takeWhile (· ≤ s.streamMaxID)
  | .getList ids => ids
  | _ => []

/-- An object in the table whose layers are not those that have been serialized. -/
def Unsaved (s : State hardware) (i : ℕ) (p : PacketPtr) : Prop :=
  s.packets.cache i = some p ∧ s.storedLayers i ≠ some (s.layersOf p)

/-- The place of the table that is filled next does not hold such an object. -/
def NextSaved (s : State hardware) : Prop :=
  ∀ p, ¬ s.Unsaved s.packets.cacheId p

/-- Nor does any place that is filled while the packets of a list are looked up: a place is filled
with each packet that is read back. -/
def Spares (s : State hardware) : List ℕ → Prop
  | [] => True
  | id :: ids => (s.packets.cache id = none → s.packets.has id = true → s.NextSaved) ∧
      (s.lookup id).2.Spares ids

/-- What a step finds if it loses no analysis: the stream thread changes the layers only of an
object that is still in the table, and no place of the table is filled that holds an object with
other layers than the serialized ones. -/
def KeepsAnalyses (s : State hardware) : Event hardware → Prop
  | .analyzed layers => ∀ p, s.streamThread.phase = .analyzing p →
      s.packets.cache s.streamThread.maxID = some p ∨ layers = s.layersOf p
  | .dissected _ _ => s.NextSaved
  | e => s.Spares (s.lookedUp e)

/-! ### What leaves the table -/

lemma step_packets (hs : s.step load e = some s') (he : ∀ w layers, e ≠ .dissected w layers) :
    s'.packets = (s.lookups (s.lookedUp e)).2.packets := by
  cases e with
  | insert t pkt =>
    obtain ⟨-, ⟨-, rfl⟩ | ⟨n, -, ⟨-, rfl⟩ | ⟨-, rfl⟩⟩⟩ := insert_cases hs
    all_goals rfl
  | push t =>
    obtain ⟨p, -, rfl⟩ := push_cases hs
    rfl
  | notify t =>
    rcases notify_cases hs with ⟨-, rfl⟩ | ⟨-, rfl⟩
    all_goals rfl
  | wake w =>
    obtain ⟨-, ⟨-, -, rfl⟩ | ⟨-, rfl⟩⟩ := wake_cases hs
    · rfl
    · exact take_packets _ _
  | dissected w layers => exact absurd rfl (he w layers)
  | streamWake =>
    obtain ⟨-, ⟨hlt, p, -, rfl⟩ | ⟨hle, rfl⟩⟩ := streamWake_cases hs
    · rw [lookedUp, if_pos hlt]
      rfl
    · rw [lookedUp, if_neg (not_lt.mpr hle)]
      rfl
  | analyzed layers =>
    obtain ⟨p, -, rfl⟩ := analyzed_cases hs
    rfl
  | filterStart name w =>
    obtain ⟨f, -, -, rfl⟩ := filterStart_cases hs
    rfl
  | filterWake name w =>
    obtain ⟨f, hf, -, ⟨hexit, rfl⟩ | ⟨hexit, hlt, p, -, rfl⟩ | ⟨hexit, hle, rfl⟩⟩ :=
      filterWake_cases hs
    all_goals simp only [lookedUp, hf, hexit]
    · rfl
    · rw [if_pos ⟨trivial, hlt⟩]
      rfl
    · rw [if_neg fun h => not_lt.mpr hle h.2]
      rfl
  | filterDone name w =>
    obtain ⟨f, p, -, -, rfl⟩ := filterDone_cases hs
    rfl
  | loadDissector t w src =>
    obtain ⟨-, rfl⟩ := loadDissector_cases hs
    rfl
  | loadModule t w name source =>
    obtain ⟨-, rfl⟩ := loadModule_cases hs
    rfl
  | exitFilter t name =>
    obtain ⟨-, ⟨-, rfl⟩ | ⟨f, -, rfl⟩⟩ := exitFilter_cases hs
    all_goals rfl
  | installFilter t name source loaded accepts =>
    obtain ⟨-, -, rfl⟩ := installFilter_cases hs
    rfl
  | get start fin =>
    obtain rfl := Option.some.inj hs
    simp only [get, lookedUp]
    split_ifs
    · rfl
    · rw [getLoop_eq]
  | getList ids =>
    obtain rfl := Option.some.inj hs
    rfl

/-- While packets are looked up the unsaved objects are those still in the table. -/
lemma Reads.unsaved_iff (r : s.Reads s') (h : s.Pipeline inserted) :
    s'.Unsaved i p ↔ s.Unsaved i p ∧ s'.packets.cache i = some p := by
  have hst : s'.storedLayers = s.storedLayers := by
    funext j
    rw [storedLayers, storedLayers, r.db]
  have hlay : s.packets.cache i = some p → s'.layersOf p = s.layersOf p := fun hc =>
    congrArg Packet.layers (r.heap.packet p (h.cached i p hc).1.valid)
  constructor
  · rintro ⟨hc, hne⟩
    rcases r.cache i p hc with hold | ⟨value, hv, hcr⟩
    · rw [hst, hlay hold] at hne
      exact ⟨⟨hold, hne⟩, hc⟩
    · refine absurd ?_ hne
      rw [hst, storedLayers, hv, layersOf, hcr.packet]
      rfl
  · rintro ⟨⟨hold, hne⟩, hc⟩
    rw [← hst, ← hlay hold] at hne
    exact ⟨hc, hne⟩

lemma Unsaved.ne (hu : s.Unsaved i p) {id : ℕ} (hc : s.packets.cache id = none) : i ≠ id := by
  rintro rfl
  have hp := hu.1
  rw [hc] at hp
  cases hp

lemma nextSaved_iff_lookup {id : ℕ} :
    (s.packets.cache id = none → s.packets.has id = true → s.NextSaved) ↔
      ∀ i p, s.Unsaved i p → (s.lookup id).2.packets.cache i = some p := by
  cases hc : s.packets.cache id with
  | some q =>
    simp only [lookup, ObjectCache.get_of_cached hc]
    exact ⟨fun _ i p hu => hu.1, fun _ h => by cases h⟩
  | none =>
    rw [ObjectCache.has_eq]
    cases hdb : s.packets.db id with
    | none =>
      simp only [lookup, ObjectCache.get_of_absent hdb]
      exact ⟨fun _ i p hu => hu.1, fun _ _ h => by cases h⟩
    | some value =>
      simp only [lookup, ObjectCache.get_of_stored hc hdb, ObjectCache.insert_cache]
      constructor
      · intro hsaved i p hu
        have hid : i ≠ id := hu.ne hc
        have hnext : i ≠ s.packets.cacheId := by
          rintro rfl
          exact hsaved trivial rfl p hu
        rw [if_neg hid, if_neg hnext]
        exact hu.1
      · intro hall _ _ p hu
        have hid : s.packets.cacheId ≠ id := hu.ne hc
        have hgone := hall _ p hu
        rw [if_neg hid, if_pos rfl] at hgone
        cases hgone

/-- The unsaved objects stay in the table during the lookups exactly when no place that is filled
holds one. -/
theorem spares_iff (h : s.Pipeline inserted) (ids : List ℕ) :
    s.Spares ids ↔ ∀ i p, s.Unsaved i p → (s.lookups ids).2.packets.cache i = some p := by
  induction ids generalizing s with
  | nil => exact ⟨fun _ i p hu => hu.1, fun _ => trivial⟩
  | cons id ids ih =>
    have r := s.lookup_reads id
    rw [Spares, nextSaved_iff_lookup, ih (h.quiet r.quiet)]
    constructor
    · rintro ⟨hone, hrest⟩ i p hu
      exact hrest i p ((r.unsaved_iff h).mpr ⟨hu, hone i p hu⟩)
    · intro hall
      refine ⟨fun i p hu => ?_, fun i p hu => hall i p ((r.unsaved_iff h).mp hu).1⟩
      -- an object that has left the table never comes back
      rcases ((s.lookup id).2.lookups_reads ids).cache i p (hall i p hu) with hold | ⟨value, -, hcr⟩
      · exact hold
      · exact absurd (r.heap.valid (h.cached i p hu.1).1.valid) hcr.new

lemma nextSaved_iff_store (h : s.Pipeline inserted) {w : Core hardware}
    (hw : (s.workers w).phase = .dissecting p) (layers : LayerList) :
    s.NextSaved ↔ ∀ i q, s.Unsaved i q →
      (((s.setLayers p layers).store p).publish.take w).packets.cache i = some q := by
  have hids : (s.setLayers p layers).idOf = s.idOf := funext fun q => modify_layers_idOf p q
  have hnew : s.packets.cache (s.idOf p) = none := by
    have hnot := h.not_stored (Or.inr (Or.inr ⟨w, hw⟩))
    rw [ObjectCache.has_eq] at hnot
    by_contra hne
    rw [s.packets.stored_of_cached _ (Option.isSome_iff_ne_none.mpr hne)] at hnot
    cases hnot
  simp only [take_packets, publish_packets, store_packets, setLayers_packets, hids,
    ObjectCache.set_cache]
  constructor
  · intro hsaved i q hu
    have hid : i ≠ s.idOf p := hu.ne hnew
    have hnext : i ≠ s.packets.cacheId := by
      rintro rfl
      exact hsaved q hu
    rw [if_neg hid, if_neg hnext]
    exact hu.1
  · intro hall q hu
    have hid : s.packets.cacheId ≠ s.idOf p := hu.ne hnew
    have hgone := hall _ q hu
    rw [if_neg hid, if_pos rfl] at hgone
    cases hgone

/-- The condition, seen from the state that the step leads to. -/
theorem keepsAnalyses_iff (h : s.Pipeline inserted) (hs : s.step load e = some s') :
    s.KeepsAnalyses e ↔
      (∀ layers p, e = .analyzed layers → s.streamThread.phase = .analyzing p →
        s.packets.cache s.streamThread.maxID = some p ∨ layers = s.layersOf p) ∧
      ∀ i p, s.Unsaved i p → s'.packets.cache i = some p := by
  cases e with
  | analyzed layers =>
    obtain ⟨p, -, rfl⟩ := analyzed_cases hs
    constructor
    · intro hkeep
      refine ⟨fun layers' p' he => ?_, fun i q hu => hu.1⟩
      obtain rfl : layers = layers' := by simpa using he
      exact hkeep p'
    · rintro ⟨hkeep, -⟩ p'
      exact hkeep layers p' rfl
  | dissected w layers =>
    obtain ⟨p, hw, rfl⟩ := dissected_cases hs
    have hiff := nextSaved_iff_store h hw layers
    exact ⟨fun hkeep => ⟨by simp, hiff.mp hkeep⟩, fun hkeep => hiff.mpr hkeep.2⟩
  | _ =>
    refine (spares_iff h _).trans ?_
    rw [← step_packets hs (by simp)]
    exact ⟨fun hkeep => ⟨by simp, hkeep⟩, And.right⟩

/-! ### Runs -/

theorem remembered_run (hrun : Run.run (step load) (init packet) es = some s)
    (hes : (insertedBy es).Nodup) :
    s.Remembered (insertedBy es) (Run.observe (step load) analyses (init packet) es) := by
  refine Run.run_induction (motive := fun es s => (insertedBy es).Nodup →
    s.Remembered (insertedBy es) (Run.observe (step load) analyses (init packet) es))
    (fun _ => remembered_init packet) ?_ hrun hes
  intro es s e s' hes ih hs hnew
  rw [insertedBy_concat] at hnew
  rw [insertedBy_concat, Run.observe_concat analyses hes hs]
  have hold := hnew.of_append_left
  exact (ih hold).step (consistent_run hes hold) hs hnew

/-- What is stored is not written a second time. -/
lemma step_storedLayers (hc : s.Consistent inserted) (hs : s.step load e = some s')
    (hi : s.packets.has i = true) : s'.storedLayers i = s.storedLayers i := by
  by_cases he : ∃ w layers, e = .dissected w layers
  · obtain ⟨w, layers, rfl⟩ := he
    obtain ⟨p, hw, rfl⟩ := dissected_cases hs
    have hne : i ≠ s.idOf p := by
      rintro rfl
      rw [hc.pipeline.not_stored (Or.inr (Or.inr ⟨w, hw⟩))] at hi
      cases hi
    have hids : (s.setLayers p layers).idOf = s.idOf := funext fun q => modify_layers_idOf p q
    simp only [storedLayers, take_packets, publish_packets, store_packets, ObjectCache.set_db, hids]
    rw [Function.update_of_ne hne]
    rfl
  · have hdb := ((step_frame hs).store fun w layers h => he ⟨w, layers, h⟩).1
    rw [storedLayers, storedLayers, hdb]

/-- The condition of `preserved_iff` is kept by a step that loses no analysis. -/
lemma preserved_step (h : s.Remembered inserted done) (hc : s.Consistent inserted)
    (hs : s.step load e = some s') (hkeep : s.KeepsAnalyses e)
    (hold : ∀ i p layers, 1 ≤ i → done[i - 1]? = some (p, layers) →
      s.packets.cache i = some p ∨ s.storedLayers i = some layers) :
    ∀ i p layers, 1 ≤ i → (done ++ analyses s e s')[i - 1]? = some (p, layers) →
      s'.packets.cache i = some p ∨ s'.storedLayers i = some layers := by
  intro i p layers h1 hk
  obtain ⟨hfinish, htable⟩ := (keepsAnalyses_iff hc.pipeline hs).mp hkeep
  have hstored : i ≤ s.maxID → s'.storedLayers i = s.storedLayers i := fun hi =>
    step_storedLayers hc hs (hc.published.1 i h1 hi)
  have hmax := hc.streamMaxID_le
  rw [List.getElem?_append] at hk
  split_ifs at hk with hlt
  · -- an earlier analysis
    have hst := hstored (by rw [h.length] at hlt; omega)
    rcases hold i p layers h1 hk with hcache | hst'
    · by_cases hsame : s.storedLayers i = some (s.layersOf p)
      · refine Or.inr ?_
        rw [hst, hsame, (h.entry _ p layers hk).2.2]
      · exact Or.inl (htable i p ⟨hcache, hsame⟩)
    · exact Or.inr (hst.trans hst')
  · -- the analysis of this step
    cases e with
    | analyzed l =>
      obtain ⟨q, hq, rfl⟩ := analyzed_cases hs
      simp only [analyses, hq] at hk
      have hi : i - 1 - done.length = 0 := by
        have := (List.getElem?_eq_some_iff.mp hk).1
        simpa using this
      rw [hi] at hk
      obtain ⟨rfl, rfl⟩ : q = p ∧ l = layers := by simpa using hk
      have hahead := hc.streaming.ahead q hq
      have hlocal : i = s.streamThread.maxID := by
        rw [h.length] at hi hlt
        omega
      rcases hfinish l q rfl hq with hcache | hsame
      · exact Or.inl (hlocal ▸ hcache)
      · refine Or.inr ?_
        rw [hstored (hlocal ▸ hc.streaming.le_maxID), hlocal, h.analyzing q hq, hsame]
    | _ => simp [analyses] at hk

/-- A step that loses an analysis shows at once: the state it leads to is not as the analyses
left it. -/
lemma keepsAnalyses_of_preserved (h : s.Remembered inserted done) (hc : s.Consistent inserted)
    (hs : s.step load e = some s')
    (hnew : ∀ i p layers, 1 ≤ i → (done ++ analyses s e s')[i - 1]? = some (p, layers) →
      s'.packets.cache i = some p ∨ s'.storedLayers i = some layers) :
    s.KeepsAnalyses e := by
  refine (keepsAnalyses_iff hc.pipeline hs).mpr ⟨?_, ?_⟩
  · rintro layers p rfl hp
    obtain ⟨q, hq, rfl⟩ := analyzed_cases hs
    obtain rfl : p = q := by simpa [hp] using hq
    have hahead := hc.streaming.ahead p hp
    have hk : (done ++ analyses s (.analyzed layers) (s.finish p layers))[s.streamThread.maxID - 1]?
        = some (p, layers) := by
      simp [analyses, hp, hahead, h.length]
    refine (hnew s.streamThread.maxID p layers (by omega) hk).imp id fun hst => ?_
    have hsame : s.storedLayers s.streamThread.maxID = some layers := hst
    rw [h.analyzing p hp] at hsame
    exact (Option.some.inj hsame).symm
  · rintro i p ⟨hcache, hdiff⟩
    rcases h.cached i p hcache with hst | ⟨h1, hk⟩
    · exact absurd hst hdiff
    · have hlt := (List.getElem?_eq_some_iff.mp hk).1
      rcases hnew i p _ h1 (by rw [List.getElem?_append_left hlt, hk]) with hp | hst
      · exact hp
      · have hhas : s.packets.has i = true := by
          rw [ObjectCache.has_eq]
          exact s.packets.stored_of_cached i (Option.isSome_iff_exists.mpr ⟨p, hcache⟩)
        rw [step_storedLayers hc hs hhas] at hst
        exact absurd hst hdiff

/-- What the stream thread has left is preserved along a run exactly when no step of it loses
an analysis. -/
theorem preserved_iff_keepsAnalyses (hrun : Run.run (step load) (init packet) es = some s)
    (hes : (insertedBy es).Nodup) :
    Run.Meets (step load) KeepsAnalyses (init packet) es ↔
      ∀ es' es'' t, es = es' ++ es'' → Run.run (step load) (init packet) es' = some t →
        t.Preserved (Run.observe (step load) analyses (init packet) es') := by
  constructor
  · rintro hkeep es' es'' t rfl ht
    have hes' : (insertedBy es').Nodup := by
      rw [insertedBy, List.filterMap_append] at hes
      exact hes.of_append_left
    have hkeep' := ((Run.meets_append ht es'').mp hkeep).1
    refine (preserved_iff (remembered_run ht hes') (consistent_run ht hes')).mpr ?_
    refine Run.meets_induction (motive := fun es s => (insertedBy es).Nodup →
      ∀ i p layers, 1 ≤ i →
        (Run.observe (step load) analyses (init packet) es)[i - 1]? = some (p, layers) →
        s.packets.cache i = some p ∨ s.storedLayers i = some layers)
      (fun _ i p layers _ hk => by simp [Run.observe] at hk) ?_ hkeep' ht hes'
    intro es s e s' hes ih he hs hnew
    rw [insertedBy_concat] at hnew
    rw [Run.observe_concat analyses hes hs]
    have hold := hnew.of_append_left
    exact preserved_step (remembered_run hes hold) (consistent_run hes hold) hs he (ih hold)
  · intro hpres
    refine Run.run_induction (motive := fun es s => (insertedBy es).Nodup →
      (∀ es' es'' t, es = es' ++ es'' → Run.run (step load) (init packet) es' = some t →
        t.Preserved (Run.observe (step load) analyses (init packet) es')) →
      Run.Meets (step load) KeepsAnalyses (init packet) es)
      (fun _ _ => trivial) ?_ hrun hes hpres
    intro es s e s' hes ih hs hnew hpres
    have hnew' := hnew
    rw [insertedBy_concat] at hnew'
    have hold := hnew'.of_append_left
    refine (Run.meets_concat hes hs).mpr ⟨ih hold fun es' es'' t he ht => ?_, ?_⟩
    · exact hpres es' (es'' ++ [e]) t (by rw [he, List.append_assoc]) ht
    · have hrun' := Run.run_concat_iff.mpr ⟨s, hes, hs⟩
      have hnext := (preserved_iff (remembered_run hrun' hnew) (consistent_run hrun' hnew)).mp
        (hpres (es ++ [e]) [] s' (by simp) hrun')
      rw [Run.observe_concat analyses hes hs] at hnext
      exact keepsAnalyses_of_preserved (remembered_run hes hold) (consistent_run hes hold) hs hnext

/-! ### An analysis that is lost -/

/-- One packet on its way from `insert` to the store. -/
def feed (n : ℕ) : List (Event 1) :=
  [.insert 0 (some n), .push 0, .notify 0, .wake 0, .dissected 0 []]

/-- The dispatcher waits for the next packet. -/
structure Rested (s : State 1) : Prop where
  call : s.calls 0 = .idle
  queue : s.waitingPackets = []
  phase : (s.workers 0).phase = .ready

variable (load) in
lemma run_feed {s : State 1} (h : s.Rested) (n : ℕ) :
    ∃ s' value, Run.run (step load) s (feed n) = some s' ∧ s'.Rested ∧ s'.count = s.count + 1 ∧
      s'.streamMaxID = s.streamMaxID ∧
      s'.packets = s.packets.set (s.count + 1) (.made n) value := by
  obtain ⟨hcall, hqueue, hphase⟩ := h
  have h1 : s.step load (.insert 0 (some n)) = some (s.accept 0 n) := by
    simp [step, insert, hcall, hqueue]
  have h2 : (s.accept 0 n).step load (.push 0) = some ((s.accept 0 n).enqueue 0 (.made n)) := by
    simp [step, push]
  have h3 : ((s.accept 0 n).enqueue 0 (.made n)).step load (.notify 0) =
      some (((s.accept 0 n).enqueue 0 (.made n)).notifyWorkers.setCall 0 .idle) := by
    simp [step, notify]
  obtain ⟨t, ht⟩ : ∃ t, t = ((s.accept 0 n).enqueue 0 (.made n)).notifyWorkers.setCall 0 .idle :=
    ⟨_, rfl⟩
  rw [← ht] at h3
  have htq : t.waitingPackets = [.made n] := by simp [ht, hqueue]
  have htp : (t.workers 0).phase = .ready := by
    simp [ht, DissectorWorker.notified, hphase]
  have h4 : t.step load (.wake 0) = some ((t.setWorker 0 ((t.workers 0).loadSources load)).take 0) := by
    simp [step, wake, htp, htq]
  obtain ⟨u, hu⟩ : ∃ u, u = (t.setWorker 0 ((t.workers 0).loadSources load)).take 0 := ⟨_, rfl⟩
  rw [← hu] at h4
  have huq : u.waitingPackets = [] := by simp [hu, take, htq]
  have hup : (u.workers 0).phase = .dissecting (.made n) := by simp [hu, take, htq]
  have h5 : u.step load (.dissected 0 []) =
      some (((u.setLayers (.made n) []).store (.made n)).publish.take 0) := by
    simp [step, dissected, hup]
  have hheap : u.heap = ((s.heap.modify (.made n) fun pkt => { pkt with id := s.count + 1 }).modify
      (.made n) addRawLayer) := by
    simp [hu, ht]
  have hpackets : u.packets = s.packets := by simp [hu, ht]
  have hid : u.idOf (.made n) = s.count + 1 := by
    have hraw : ∀ pkt : Packet, (addRawLayer pkt).id = pkt.id := by
      intro pkt
      unfold addRawLayer
      split_ifs <;> rfl
    simp [idOf, hheap, Heap.modify_packet, hraw]
  have hids : (u.setLayers (.made n) []).idOf (.made n) = s.count + 1 :=
    (modify_layers_idOf (.made n) (.made n)).trans hid
  refine ⟨((u.setLayers (.made n) []).store (.made n)).publish.take 0,
    (u.setLayers (.made n) []).heap.packet (.made n), ?_, ⟨?_, ?_, ?_⟩, ?_, ?_, ?_⟩
  · simp only [feed, Run.run_cons, h1, h2, h3, h4, h5, Option.bind_some, Run.run_nil]
  · simp [hu, ht]
  · simp [take, huq]
  · simp [take, huq]
  · simp [hu, ht]
  · simp [hu, ht]
  · simp [hpackets, hids]

/-- The packets `1, …, m` one after the other. -/
def feeds (m : ℕ) : List (Event 1) := (List.range m).flatMap fun k => feed (k + 1)

lemma feeds_succ (m : ℕ) : feeds (m + 1) = feeds m ++ feed (m + 1) := by
  simp [feeds, List.range_succ]

lemma insertedBy_feeds (m : ℕ) : insertedBy (feeds m) = List.range' 1 m := by
  induction m with
  | zero => rfl
  | succ m ih =>
    rw [feeds_succ, insertedBy, List.filterMap_append, List.range'_1_concat, Nat.add_comm 1 m]
    exact congrArg (· ++ [m + 1]) ih

variable (load) in
/-- Each of them takes one place of the ring; the packet stored under `i` stays as it is. -/
lemma run_feeds {s : State 1} (h : s.Rested) (m : ℕ) {start : Fin cacheSize} {j i : ℕ}
    (hpassed : s.packets.Passed start j i) (hi : i ≤ s.count) :
    ∃ s', Run.run (step load) s (feeds m) = some s' ∧ s'.Rested ∧ s.count ≤ s'.count ∧
      s'.streamMaxID = s.streamMaxID ∧ s'.packets.Passed start (j + m) i ∧
      s'.storedLayers i = s.storedLayers i := by
  induction m with
  | zero => exact ⟨s, rfl, h, le_rfl, rfl, hpassed, rfl⟩
  | succ m ih =>
    obtain ⟨t, ht, hrest, hcount, hmax, hpass, hst⟩ := ih
    obtain ⟨t', value, ht', hrest', hcount', hmax', hpackets⟩ := run_feed load hrest (m + 1)
    have hne : t.count + 1 ≠ i := by omega
    refine ⟨t', ?_, hrest', by omega, hmax'.trans hmax, ?_, ?_⟩
    · rw [feeds_succ]
      exact Run.run_trans ht ht'
    · rw [hpackets]
      exact hpass.set hne _ _
    · rw [← hst, storedLayers, storedLayers, hpackets, ObjectCache.set_db,
        Function.update_of_ne hne.symm]

/-- No packet is analyzed meanwhile. -/
lemma observe_feeds (s : State 1) (m : ℕ) :
    Run.observe (step load) analyses s (feeds m) = [] := by
  refine List.eq_nil_iff_forall_not_mem.mpr fun a ha => ?_
  obtain ⟨e, he, t, t', -, ha⟩ := Run.mem_observe ha
  obtain ⟨k, -, hk⟩ := List.mem_flatMap.mp he
  simp only [feed, List.mem_cons, List.not_mem_nil, or_false] at hk
  rcases hk with rfl | rfl | rfl | rfl | rfl <;> simp [analyses] at ha

/-- The first packet is stored without layers; a stream dissector gives it one. -/
def analyzedRun : List (Event 1) :=
  feed 0 ++ [.streamWake, .analyzed [("::Hello", .mk "::Hello" "Hello" .nil .empty [] [])]]

/-- The analysis of a live packet is there. -/
theorem preserved_iff_keepsAnalyses_hello : ∃ s : State 1,
    Run.run (step fun _ _ => true) (init fun _ => default) analyzedRun = some s ∧
      (insertedBy analyzedRun).Nodup ∧
      Run.Meets (step fun _ _ => true) KeepsAnalyses (init fun _ => default) analyzedRun ∧
      s.Preserved (Run.observe (step fun _ _ => true) analyses (init fun _ => default)
        analyzedRun) := by
  have hrun : Run.run (step fun _ _ => true) (init fun _ => default) analyzedRun = some _ := rfl
  have hkeep : Run.Meets (step fun _ _ => true) KeepsAnalyses
      (init fun _ => default : State 1) analyzedRun := by
    repeat refine (Run.meets_cons rfl).mpr ⟨trivial, ?_⟩
    -- the table is empty when the packet is stored, and the packet is in it afterwards
    refine (Run.meets_cons rfl).mpr ⟨fun p hu => Option.some_ne_none p hu.1.symm, ?_⟩
    refine (Run.meets_cons rfl).mpr ⟨⟨fun hnone => absurd hnone (Option.some_ne_none _), trivial⟩, ?_⟩
    refine (Run.meets_cons rfl).mpr ⟨fun p hp => Or.inl ?_, trivial⟩
    obtain rfl : PacketPtr.made 0 = p := by simpa using hp
    rfl
  have hall := (preserved_iff_keepsAnalyses hrun (by decide)).mp hkeep
  exact ⟨_, hrun, by decide, hkeep, hall analyzedRun [] _ (List.append_nil _).symm hrun⟩

/-- After 1024 more packets the layer is gone. -/
theorem analysis_evicted : ∃ s : State 1,
    Run.run (step fun _ _ => true) (init fun _ => default) (analyzedRun ++ feeds cacheSize) =
      some s ∧
    (insertedBy (analyzedRun ++ feeds cacheSize)).Nodup ∧
    ¬ s.Preserved (Run.observe (step fun _ _ => true) analyses (init fun _ => default)
      (analyzedRun ++ feeds cacheSize)) := by
  obtain ⟨t, ht, hrest, hcount, hmax, hstored, hpassed⟩ : ∃ t : State 1,
      Run.run (step fun _ _ => true) (init fun _ => default) analyzedRun = some t ∧ t.Rested ∧
        t.count = 1 ∧ t.streamMaxID = 1 ∧ t.storedLayers 1 = some [] ∧
        t.packets.Passed t.packets.cacheIndex 0 1 :=
    ⟨_, rfl, ⟨rfl, rfl, rfl⟩, rfl, rfl, rfl, ObjectCache.passed_zero _ _⟩
  obtain ⟨s, hs, -, -, hmax', hpass, hst⟩ :=
    run_feeds (fun _ _ => true) hrest cacheSize hpassed hcount.ge
  have hrun := Run.run_trans ht hs
  have hnodup : (insertedBy (analyzedRun ++ feeds cacheSize)).Nodup := by
    have heq : insertedBy (analyzedRun ++ feeds cacheSize) = List.range' 0 (cacheSize + 1) := by
      rw [insertedBy, List.filterMap_append]
      exact congrArg ([0] ++ ·) (insertedBy_feeds cacheSize)
    rw [heq]
    exact List.nodup_range'
  refine ⟨s, hrun, hnodup, fun hpres => ?_⟩
  have hiff := preserved_iff (remembered_run hrun hnodup) (consistent_run hrun hnodup)
  rw [Run.observe_append analyses ht, observe_feeds, List.append_nil] at hpres hiff
  rcases hiff.mp hpres 1 (.made 0) _ le_rfl rfl with hcache | hlayers
  · rw [Nat.zero_add] at hpass
    rw [hpass.evicted] at hcache
    cases hcache
  · rw [hst, hstored] at hlayers
    cases hlayers

end State

end Dripcap
