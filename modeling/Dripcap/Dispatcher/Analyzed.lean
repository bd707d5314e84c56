import Dripcap.Dispatcher.Ids

/-!
# Analyzed packets

A packet is serialized when it has been dissected, and the stream thread works on the object
afterwards. So there are two versions of an analyzed packet, and which one `get` returns depends
on whether the object is still in the table of the cache.
-/

namespace Dripcap

namespace State

variable {hardware : ℕ} {s s' : State hardware} {load : List (String × String) → String → Bool}
  {e : Event hardware} {inserted : List ℕ} {done : List (PacketPtr × LayerList)}
  {packet : PacketPtr → Packet} {es : List (Event hardware)} {p : PacketPtr} {i : ℕ}

/-- The packet the stream thread has finished, with the layers it has then. -/
def analyses (s : State hardware) (e : Event hardware) (_ : State hardware) :
    List (PacketPtr × LayerList) :=
  match e, s.streamThread.phase with
  | .analyzed layers, .analyzing p => [(p, layers)]
  | _, _ => []

/-- The serialized layers of a stored packet. -/
def storedLayers (s : State hardware) (i : ℕ) : Option LayerList :=
  (s.packets.db i).map Packet.layers

/-- The layers of the object behind a pointer. -/
def layersOf (s : State hardware) (p : PacketPtr) : LayerList := (s.heap.packet p).layers

/-- What is known of the packets analyzed so far, `done`, and of the live objects: an object in
the table has the serialized layers unless it is the one that has been analyzed. -/
structure Remembered (inserted : List ℕ) (done : List (PacketPtr × LayerList))
    (s : State hardware) : Prop where
  length : done.length = s.streamMaxID
  entry : ∀ k p layers, done[k]? = some (p, layers) →
    s.heap.Known inserted p ∧ s.idOf p = k + 1 ∧ s.layersOf p = layers
  cached : ∀ i p, s.packets.cache i = some p →
    s.storedLayers i = some (s.layersOf p) ∨ (1 ≤ i ∧ done[i - 1]? = some (p, s.layersOf p))
  analyzing : ∀ p, s.streamThread.phase = .analyzing p →
    s.storedLayers s.streamThread.maxID = some (s.layersOf p)

lemma remembered_init (packet : PacketPtr → Packet) :
    (init packet : State hardware).Remembered [] [] where
  length := rfl
  entry k p layers h := by simp at h
  cached i p h := by simp [init] at h
  analyzing p h := by simp [init] at h

/-- A step that leaves the analyzed, the cached and the analyzing objects alone. -/
lemma Remembered.congr {inserted' : List ℕ} (h : s.Remembered inserted done)
    (hmax : s'.streamMaxID = s.streamMaxID)
    (hknown : ∀ (k : ℕ) p layers, done[k]? = some (p, layers) →
      s'.heap.Known inserted' p ∧ s'.idOf p = s.idOf p ∧ s'.layersOf p = s.layersOf p)
    (hcached : ∀ i p, s'.packets.cache i = some p →
      s'.storedLayers i = some (s'.layersOf p) ∨ (s.packets.cache i = some p ∧
        s'.storedLayers i = s.storedLayers i ∧ s'.layersOf p = s.layersOf p))
    (hphase : ∀ p, s'.streamThread.phase = .analyzing p →
      s'.storedLayers s'.streamThread.maxID = some (s'.layersOf p) ∨
        (s.streamThread.phase = .analyzing p ∧ s'.layersOf p = s.layersOf p ∧
          s'.storedLayers s'.streamThread.maxID = s.storedLayers s.streamThread.maxID)) :
    s'.Remembered inserted' done where
  length := h.length.trans hmax.symm
  entry k p layers hk := by
    obtain ⟨hkn, hid, hlay⟩ := hknown k p layers hk
    obtain ⟨-, hid', hlay'⟩ := h.entry k p layers hk
    exact ⟨hkn, hid.trans hid', hlay.trans hlay'⟩
  cached i p hp := by
    rcases hcached i p hp with hst | ⟨hold, hst, hlay⟩
    · exact Or.inl hst
    · rw [hst, hlay]
      exact h.cached i p hold
  analyzing p hp := by
    rcases hphase p hp with hst | ⟨hold, hlay, hst⟩
    · exact hst
    · rw [hst, hlay]
      exact h.analyzing p hold

/-- The objects that matter are not in flight. -/
lemma Remembered.not_inFlight (h : s.Remembered inserted done) (hc : s.Consistent inserted)
    (hp : s.InFlight p) :
    (∀ (k : ℕ) layers, done[k]? ≠ some (p, layers)) ∧ (∀ i, s.packets.cache i ≠ some p) ∧
      s.streamThread.phase ≠ .analyzing p := by
  have hnot := hc.pipeline.not_stored hp
  refine ⟨fun k layers hk => ?_, fun i hi => ?_, fun ha => ?_⟩
  · have hlen := (List.getElem?_eq_some_iff.mp hk).1
    have hid := (h.entry k p layers hk).2.1
    have hle := hc.streamMaxID_le
    rw [h.length] at hlen
    exact hc.idOf_ne hp (Nat.succ_pos k) (by omega) hid
  · have hid := (hc.pipeline.cached i p hi).2
    have hdb := s.packets.stored_of_cached i (by simp [hi])
    rw [ObjectCache.has_eq, hid, hdb] at hnot
    cases hnot
  · have hahead := hc.streaming.ahead p ha
    exact hc.idOf_ne hp (by omega) hc.streaming.le_maxID (hc.analyzing p ha).2

lemma layersOf_modify {f : Packet → Packet} {q : PacketPtr} (hq : q ≠ p) :
    ((s.heap.modify p f).packet q).layers = s.layersOf q := by
  rw [Heap.modify_packet, if_neg hq, layersOf]

/-- Neither a packet nor the cache changes. -/
lemma Remembered.of_eq (h : s.Remembered inserted done) (hheap : s'.heap = s.heap)
    (hpackets : s'.packets = s.packets) (hmax : s'.streamMaxID = s.streamMaxID)
    (hlocal : s'.streamThread.maxID = s.streamThread.maxID)
    (hphase : ∀ p, s'.streamThread.phase = .analyzing p ↔ s.streamThread.phase = .analyzing p) :
    s'.Remembered inserted done := by
  have hlay : s'.layersOf = s.layersOf := by
    funext p
    rw [layersOf, layersOf, hheap]
  have hst : s'.storedLayers = s.storedLayers := by
    funext i
    rw [storedLayers, storedLayers, hpackets]
  refine h.congr hmax (fun k p l hk => ?_) (fun i p hp => Or.inr ?_) fun p hp => Or.inr ?_
  · rw [hlay, idOf, idOf, hheap]
    exact ⟨(h.entry k p l hk).1, rfl, rfl⟩
  · exact ⟨hpackets ▸ hp, by rw [hst], by rw [hlay]⟩
  · exact ⟨(hphase p).mp hp, by rw [hlay], by rw [hst, hlocal]⟩

lemma Remembered.quiet (h : s.Remembered inserted done) (hc : s.Consistent inserted)
    (q : s.Quiet s') {inserted' : List ℕ} (hsub : inserted ⊆ inserted')
    (hmax : s'.streamMaxID = s.streamMaxID)
    (hphase : ∀ p, s'.streamThread.phase = .analyzing p →
      s'.storedLayers s'.streamThread.maxID = some (s'.layersOf p) ∨
        (s.streamThread.phase = .analyzing p ∧ s'.streamThread.maxID = s.streamThread.maxID)) :
    s'.Remembered inserted' done := by
  have hlay : ∀ p, s.heap.Known inserted p → s'.layersOf p = s.layersOf p :=
    fun p hp => congrArg Packet.layers (q.heap.packet p hp.valid)
  have hdb : s'.storedLayers = s.storedLayers := by
    funext i
    rw [storedLayers, storedLayers, q.db]
  refine h.congr hmax (fun k p layers hk => ?_) (fun i p hp => ?_) fun p hp => ?_
  · have hkn := (h.entry k p layers hk).1
    exact ⟨hkn.mono q.heap.loads hsub, q.ids hkn.valid, hlay p hkn⟩
  · rcases q.cache i p hp with hold | ⟨value, hv, hcr⟩
    · exact Or.inr ⟨hold, by rw [hdb], hlay p (hc.pipeline.cached i p hold).1⟩
    · refine Or.inl ?_
      rw [hdb, storedLayers, hv, layersOf, hcr.packet]
      rfl
  · refine (hphase p hp).imp id ?_
    rintro ⟨hold, hlocal⟩
    exact ⟨hold, hlay p (hc.analyzing p hold).1, by rw [hdb, hlocal]⟩

/-- The packet the stream thread takes is as it has been serialized: it has not been analyzed
before. -/
lemma Remembered.streamWake (h : s.Remembered inserted done) (hc : s.Consistent inserted)
    (hs : s.streamWake = some s') : s'.Remembered inserted done := by
  have q := streamWake_quiet hs
  obtain ⟨hready, ⟨hlt, p, hfound, rfl⟩ | ⟨-, rfl⟩⟩ := streamWake_cases hs
  · refine h.quiet hc q (fun _ => id) rfl fun p' hp' => Or.inl ?_
    obtain rfl : p = p' := by simpa using hp'
    have hrest : s.streamThread.maxID = s.streamMaxID := hc.streaming.resting (by simp [hready])
    have hcache := (s.lookup_eq _).symm.trans hfound
    have hdb : (s.lookup (s.streamThread.maxID + 1)).2.packets.db = s.packets.db :=
      (s.lookup_reads _).db
    simp only [storedLayers, layersOf, hdb]
    rcases (s.lookup_reads _).cache _ p hcache with hold | ⟨value, hv, hcr⟩
    · have hkn := (hc.pipeline.cached _ p hold).1
      rw [(s.lookup_reads _).heap.packet p hkn.valid]
      rcases h.cached _ p hold with hst | ⟨-, hdone⟩
      · exact hst
      · have hlen := (List.getElem?_eq_some_iff.mp hdone).1
        rw [h.length, ← hrest] at hlen
        exact absurd hlen (by simp)
    · rw [hv, hcr.packet]
      rfl
  · refine h.quiet hc q (fun _ => id) rfl fun p hp => ?_
    simp at hp

/-- The end of an analysis: the object is entered with its new layers. -/
lemma Remembered.finish (h : s.Remembered inserted done) (hc : s.Consistent inserted)
    (hp : s.streamThread.phase = .analyzing p) (layers : LayerList) :
    (s.finish p layers).Remembered inserted (done ++ [(p, layers)]) := by
  have hahead := hc.streaming.ahead p hp
  obtain ⟨hkn, hid⟩ := hc.analyzing p hp
  have hids : (s.finish p layers).idOf = s.idOf := funext fun q => modify_layers_idOf p q
  have hself : (s.finish p layers).layersOf p = layers := by
    simp [layersOf, Heap.modify_packet]
  have hother : ∀ q, q ≠ p → (s.finish p layers).layersOf q = s.layersOf q := by
    intro q hq
    rw [layersOf, finish_heap]
    exact layersOf_modify hq
  refine ⟨?_, fun k q l hk => ?_, fun i q hq => ?_, fun q hq => by simp at hq⟩
  · rw [List.length_append, h.length, finish_streamMaxID, hahead]
    rfl
  · rw [List.getElem?_append] at hk
    split_ifs at hk with hlt
    · obtain ⟨hkn', hid', hlay⟩ := h.entry k q l hk
      have hne : q ≠ p := by
        rintro rfl
        rw [h.length] at hlt
        omega
      exact ⟨hkn', by rw [hids, hid'], by rw [hother q hne, hlay]⟩
    · have hk0 : k - done.length = 0 := by
        have := (List.getElem?_eq_some_iff.mp hk).1
        simpa using this
      rw [hk0] at hk
      obtain ⟨rfl, rfl⟩ : p = q ∧ layers = l := by simpa using hk
      refine ⟨hkn, ?_, hself⟩
      rw [hids, hid, hahead, ← h.length]
      omega
  · have hold : s.packets.cache i = some q := hq
    by_cases hqp : q = p
    · subst hqp
      have hi : i = done.length + 1 := by
        rw [← (hc.pipeline.cached i q hold).2, hid, hahead, h.length]
      refine Or.inr ⟨by omega, ?_⟩
      rw [hself, hi]
      simp
    · rw [hother q hqp]
      refine (h.cached i q hold).imp id ?_
      rintro ⟨h1, hdone⟩
      exact ⟨h1, List.getElem?_append_left (List.getElem?_eq_some_iff.mp hdone).1 ▸ hdone⟩

/-- A packet is dissected and stored. -/
lemma Remembered.store (h : s.Remembered inserted done) (hc : s.Consistent inserted)
    {w : Core hardware} (hw : (s.workers w).phase = .dissecting p) (layers : LayerList) :
    ((s.setLayers p layers).store p).Remembered inserted done := by
  obtain ⟨hdone, hcache, hphase⟩ := h.not_inFlight hc (Or.inr (Or.inr ⟨w, hw⟩))
  have hids : (s.setLayers p layers).idOf = s.idOf := funext fun q => modify_layers_idOf p q
  have hnot := hc.pipeline.not_stored (Or.inr (Or.inr ⟨w, hw⟩) : s.InFlight p)
  have hother : ∀ q, q ≠ p → ((s.setLayers p layers).store p).layersOf q = s.layersOf q := by
    intro q hq
    rw [layersOf, store_heap, setLayers_heap]
    exact layersOf_modify hq
  have hst : ∀ i, i ≠ s.idOf p →
      ((s.setLayers p layers).store p).storedLayers i = s.storedLayers i := by
    intro i hi
    simp only [storedLayers, store_packets, ObjectCache.set_db, hids]
    rw [Function.update_of_ne hi]
    rfl
  refine h.congr rfl (fun k q l hk => ?_) (fun i q hq => ?_) fun q hq => Or.inr ?_
  · have hne : q ≠ p := by
      rintro rfl
      exact hdone k l hk
    exact ⟨(h.entry k q l hk).1, congrFun hids q, hother q hne⟩
  · rcases ObjectCache.cache_of_set hq with ⟨rfl, rfl⟩ | hold
    · refine Or.inl ?_
      simp [storedLayers, layersOf]
    · have hne : q ≠ p := by
        rintro rfl
        exact hcache i hold
      refine Or.inr ⟨hold, hst i ?_, hother q hne⟩
      rintro rfl
      have hdb := s.packets.stored_of_cached (s.idOf p) (Option.isSome_iff_exists.mpr ⟨q, hold⟩)
      rw [ObjectCache.has_eq, hdb] at hnot
      cases hnot
  · have hold : s.streamThread.phase = .analyzing q := hq
    have hne : q ≠ p := by
      rintro rfl
      exact hphase hold
    refine ⟨hold, hother q hne, hst _ ?_⟩
    intro hid
    have hahead := hc.streaming.ahead q hold
    exact hc.idOf_ne (Or.inr (Or.inr ⟨w, hw⟩)) (by omega) hc.streaming.le_maxID hid.symm

/-- An object in flight changes, or an unknown one. -/
lemma Remembered.of_heap (h : s.Remembered inserted done) (hc : s.Consistent inserted)
    {inserted' : List ℕ} (hpackets : s'.packets = s.packets)
    (hstream : s'.streamThread = s.streamThread) (hmax : s'.streamMaxID = s.streamMaxID)
    (hids : ∀ q, s.heap.Known inserted q → s'.heap.Known inserted' q ∧ s'.idOf q = s.idOf q)
    (hlay : ∀ q, s.heap.Known inserted q → ¬ s.InFlight q → s'.layersOf q = s.layersOf q) :
    s'.Remembered inserted' done := by
  have hst : s'.storedLayers = s.storedLayers := by
    funext i
    rw [storedLayers, storedLayers, hpackets]
  refine h.congr hmax (fun k q l hk => ?_) (fun i q hq => Or.inr ?_) fun q hq => Or.inr ?_
  · have hkn := (h.entry k q l hk).1
    have hfly : ¬ s.InFlight q := fun hfly => (h.not_inFlight hc hfly).1 k l hk
    exact ⟨(hids q hkn).1, (hids q hkn).2, hlay q hkn hfly⟩
  · rw [hpackets] at hq
    have hfly : ¬ s.InFlight q := fun hfly => (h.not_inFlight hc hfly).2.1 i hq
    exact ⟨hq, by rw [hst], hlay q (hc.pipeline.cached i q hq).1 hfly⟩
  · rw [hstream] at hq
    have hfly : ¬ s.InFlight q := fun hfly => (h.not_inFlight hc hfly).2.2 hq
    exact ⟨hq, hlay q (hc.analyzing q hq).1 hfly, by rw [hst, hstream]⟩

theorem Remembered.step (h : s.Remembered inserted done) (hc : s.Consistent inserted)
    (hs : s.step load e = some s') (hnew : (inserted ++ e.inserted.toList).Nodup) :
    s'.Remembered (inserted ++ e.inserted.toList) (done ++ analyses s e s') := by
  have hsub : inserted ⊆ inserted ++ e.inserted.toList := List.subset_append_left _ _
  rcases stream_cases hs with rfl | ⟨layers, rfl⟩ | ⟨-, hne, hmax, hlocal, hphase⟩
  · simpa [analyses, Event.inserted] using h.streamWake hc hs
  · obtain ⟨p, hp, rfl⟩ := analyzed_cases hs
    simpa [analyses, Event.inserted, hp] using h.finish hc hp layers
  · have hnil : analyses s e s' = [] := by
      cases e with
      | analyzed layers => exact absurd rfl (hne layers)
      | _ => rfl
    rw [hnil, List.append_nil]
    cases step_outcome hs with
    | quiet q =>
      refine h.quiet hc q hsub hmax fun p hp => Or.inr ⟨(hphase p).mp hp, hlocal⟩
    | accept t n _ _ =>
      refine h.of_heap hc rfl rfl rfl (fun q hq => step_ids hs hnew hq) fun q _ _ => ?_
      simp only [layersOf, accept_heap, Heap.modify_packet]
      split_ifs with hq
      · rw [hq]
      · rfl
    | enqueue t p hp =>
      refine h.of_heap hc rfl rfl rfl (fun q hq => step_ids hs hnew hq) fun q _ hfly => ?_
      have hq : q ≠ p := by
        rintro rfl
        exact hfly (Or.inl ⟨t, hp⟩)
      rw [layersOf, enqueue_heap]
      exact layersOf_modify hq
    | take w _ =>
      simp only [Event.inserted, Option.toList_none, List.append_nil]
      exact h.of_eq (by simp) (by simp) (by simp) (by simp) (by simp)
    | analyze layers p hp => exact absurd rfl (hne layers)
    | store w layers p hw =>
      simp only [Event.inserted, Option.toList_none, List.append_nil]
      refine (h.store hc hw layers).of_eq ?_ ?_ hmax hlocal hphase
      · rw [take_heap, publish_heap]
      · rw [take_packets, publish_packets]

/-! ### What `get` returns -/

lemma get_self (h1 : 1 ≤ i) (hi : i ≤ s.streamMaxID) :
    s.get i i = ((s.lookup i).1.toList, (s.lookup i).2) := by
  have hguard : ¬ (i = 0 ∨ i = 0 ∨ i > i) := by omega
  have hlen : i + 1 - i = 1 := by omega
  rw [get, if_neg hguard, hlen, getLoop, if_neg (not_lt.mpr hi)]
  simp [getLoop]

/-- A live object is returned as it is, a stored packet is read back. -/
lemma get_shows (hc : s.Consistent inserted) (h1 : 1 ≤ i) (hi : i ≤ s.streamMaxID) :
    ∃ q, (s.get i i).1 = [q] ∧
      ((∃ r, s.packets.cache i = some r ∧ (s.get i i).2.layersOf q = s.layersOf r) ∨
        (s.packets.cache i = none ∧ s.storedLayers i = some ((s.get i i).2.layersOf q))) := by
  rw [get_self h1 hi]
  cases hcache : s.packets.cache i with
  | some r =>
    simp only [lookup, ObjectCache.get_of_cached hcache, Option.toList_some]
    exact ⟨r, rfl, Or.inl ⟨r, rfl, rfl⟩⟩
  | none =>
    have hhas := hc.stored h1 hi
    rw [ObjectCache.has_eq] at hhas
    obtain ⟨value, hv⟩ := Option.isSome_iff_exists.mp hhas
    have hst : s.storedLayers i = some value.layers := by
      rw [storedLayers, hv]
      rfl
    rw [hst]
    refine ⟨(Heap.load value s.heap).1, ?_, Or.inr ⟨rfl, ?_⟩⟩
    all_goals simp only [lookup, ObjectCache.get_of_stored hcache hv, Option.toList_some]
    rw [layersOf, (Heap.created_load value s.heap).packet]

/-- For every published id `get` returns a packet with the layers that the packet had when the
stream thread finished it; `done` are the analyses so far. -/
def Preserved (done : List (PacketPtr × LayerList)) (s : State hardware) : Prop :=
  ∀ i, 1 ≤ i → i ≤ s.streamMaxID → ∃ p layers q, done[i - 1]? = some (p, layers) ∧
    s.idOf p = i ∧ (s.get i i).1 = [q] ∧ (s.get i i).2.layersOf q = layers

/-- Exactly when the analyzed object is still live or its layers are the serialized ones. -/
theorem preserved_iff (h : s.Remembered inserted done) (hc : s.Consistent inserted) :
    s.Preserved done ↔ ∀ i p layers, 1 ≤ i → done[i - 1]? = some (p, layers) →
      s.packets.cache i = some p ∨ s.storedLayers i = some layers := by
  have hle : ∀ i p layers, 1 ≤ i → done[i - 1]? = some (p, layers) → i ≤ s.streamMaxID := by
    intro i p layers h1 hk
    have hlt := (List.getElem?_eq_some_iff.mp hk).1
    rw [h.length] at hlt
    omega
  constructor
  · intro hpres i p layers h1 hk
    have hi := hle i p layers h1 hk
    obtain ⟨p', layers', q, hk', -, hget, hlay⟩ := hpres i h1 hi
    obtain ⟨rfl, rfl⟩ : p = p' ∧ layers = layers' := by simpa [hk] using hk'
    obtain ⟨q', hget', hshow⟩ := get_shows hc h1 hi
    obtain rfl : q = q' := by simpa [hget] using hget'
    rcases hshow with ⟨r, hr, hlive⟩ | ⟨-, hst⟩
    · rcases h.cached i r hr with hst | ⟨-, hdone⟩
      · exact Or.inr (by rw [hst, ← hlive, hlay])
      · rw [hk] at hdone
        have hrp : r = p := congrArg Prod.fst (Option.some.inj hdone).symm
        exact Or.inl (hrp ▸ hr)
    · exact Or.inr (by rw [hst, hlay])
  · intro hcond i h1 hi
    have hlt : i - 1 < done.length := by
      rw [h.length]
      omega
    obtain ⟨p, layers, hk⟩ : ∃ p layers, done[i - 1]? = some (p, layers) :=
      ⟨_, _, List.getElem?_eq_getElem hlt⟩
    obtain ⟨-, hid, hlay⟩ := h.entry _ p layers hk
    obtain ⟨q, hget, hshow⟩ := get_shows hc h1 hi
    refine ⟨p, layers, q, hk, by omega, hget, ?_⟩
    rcases hshow with ⟨r, hr, hlive⟩ | ⟨hnone, hst⟩
    · rw [hlive]
      rcases h.cached i r hr with hst | ⟨-, hdone⟩
      · rcases hcond i p layers h1 hk with hp | hst'
        · rw [hr] at hp
          rw [Option.some.inj hp, hlay]
        · exact Option.some.inj (hst.symm.trans hst')
      · rw [hk] at hdone
        exact congrArg Prod.snd (Option.some.inj hdone).symm
    · rcases hcond i p layers h1 hk with hp | hst'
      · rw [hnone] at hp
        cases hp
      · exact Option.some.inj (hst.symm.trans hst')

end State

end Dripcap
