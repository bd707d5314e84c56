import Dripcap.Dispatcher.FilterWorker
import Dripcap.Dispatcher.Wakeup

/-!
# An installed filter is a pool of workers

Seen from one installed filter, a run of the dispatcher is a run of a `FilterPool` whose workers
are the filter's. What the pools publish is therefore what the dispatcher publishes. The packets
under the ids of the pool are those that the workers have fetched: a packet that has been
published is never written again.
-/

namespace Dripcap

namespace FilterPool

variable {W : Type*} [DecidableEq W] {packet packet' : ℕ → Packet} {accepts : Packet → Bool}
  {s s' : FilterPool W} {e : FilterEvent W} {es : List (FilterEvent W)}

lemma step_fetchedMaxID_le (hs : s.step packet accepts e = some s') :
    s.ctx.fetchedMaxID ≤ s'.ctx.fetchedMaxID := by
  cases e with
  | grow n =>
    obtain ⟨-, rfl⟩ := grow_cases hs
    exact le_rfl
  | fetch w =>
    obtain ⟨-, -, rfl⟩ := fetch_cases hs
    exact Nat.le_succ _
  | complete w =>
    obtain ⟨pkt, -, rfl⟩ := complete_cases hs
    exact le_rfl

/-- A step looks at no packet behind the last one fetched. -/
lemma step_congr (hs : s.step packet accepts e = some s')
    (h : ∀ i ≤ s'.ctx.fetchedMaxID, packet i = packet' i) :
    s.step packet' accepts e = some s' := by
  cases e with
  | grow n => exact hs
  | fetch w =>
    obtain ⟨hw, hlt, rfl⟩ := fetch_cases hs
    have hpkt : packet (s.ctx.fetchedMaxID + 1) = packet' (s.ctx.fetchedMaxID + 1) := h _ le_rfl
    simp only [step, hw, gt_iff_lt, hlt, if_true, hpkt]
  | complete w => exact hs

lemma run_congr (hrun : Run.run (step packet accepts) s es = some s')
    (h : ∀ i ≤ s'.ctx.fetchedMaxID, packet i = packet' i) :
    Run.run (step packet' accepts) s es = some s' := by
  refine Run.run_induction (motive := fun es t => (∀ i ≤ t.ctx.fetchedMaxID,
    packet i = packet' i) → Run.run (step packet' accepts) s es = some t) (fun _ => rfl) ?_ hrun h
  intro es t e t' _ ih hs ht'
  have ht : ∀ i ≤ t.ctx.fetchedMaxID, packet i = packet' i :=
    fun i hi => ht' i (hi.trans (step_fetchedMaxID_le hs))
  exact Run.run_concat_iff.mpr ⟨t, ih ht, step_congr hs ht'⟩

end FilterPool

/-! ### An idle pool -/

namespace FilterContext

/-- With nothing in work everything fetched has been published. -/
lemma Tracks.maxID_of_idle {ctx : FilterContext} {accepted : ℕ → Bool} (h : ctx.Tracks accepted)
    (hidle : ∀ i, i ∉ ctx.filtering) : ctx.maxID = ctx.fetchedMaxID := by
  refine eq_of_forall_le_iff fun i => ?_
  rw [h.maxID, le_watermark h.filtering_le]
  exact and_iff_left fun j hj => absurd hj (hidle j)

end FilterContext

namespace FilterPool

variable {W : Type*} [DecidableEq W] {packet : ℕ → Packet} {accepts : Packet → Bool}
  {s s' : FilterPool W} {e : FilterEvent W} {es : List (FilterEvent W)}

/-- Every id in work is in the hands of a worker. -/
def Held (packet : ℕ → Packet) (s : FilterPool W) : Prop :=
  ∀ i ∈ s.ctx.filtering, ∃ w, s.matching w = some (packet i)

omit [DecidableEq W] in
lemma held_init : ({} : FilterPool W).Held packet :=
  fun i hi => absurd hi (IdSet.not_mem_empty i)

lemma Held.step (h : s.Held packet) (hid : ∀ i, (packet i).id = i)
    (hs : s.step packet accepts e = some s') : s'.Held packet := by
  cases e with
  | grow n =>
    obtain ⟨-, rfl⟩ := grow_cases hs
    exact h
  | fetch w =>
    obtain ⟨hw, -, rfl⟩ := fetch_cases hs
    intro i hi
    rcases IdSet.mem_insert.mp hi with rfl | hi
    · exact ⟨w, Function.update_self _ _ _⟩
    · obtain ⟨v, hv⟩ := h i hi
      have hne : v ≠ w := by
        rintro rfl
        rw [hw] at hv
        cases hv
      exact ⟨v, (Function.update_of_ne hne _ _).trans hv⟩
  | complete w =>
    obtain ⟨pkt, hw, rfl⟩ := complete_cases hs
    intro i hi
    obtain ⟨hi, hne⟩ := IdSet.mem_erase.mp hi
    obtain ⟨v, hv⟩ := h i hi
    have hvw : v ≠ w := by
      rintro rfl
      obtain rfl := Option.some.inj (hw.symm.trans hv)
      exact hne (hid i).symm
    exact ⟨v, (Function.update_of_ne hvw _ _).trans hv⟩

lemma held_run (hid : ∀ i, (packet i).id = i)
    (hrun : Run.run (FilterPool.step packet accepts) {} es = some s) : s.Held packet :=
  Run.run_invariant held_init (fun _ _ _ h hs => h.step hid hs) hrun

/-- When no worker holds a packet the matches among all ids fetched have been published. -/
theorem filtered_of_idle (hid : ∀ i, (packet i).id = i)
    (hrun : Run.run (FilterPool.step packet accepts) {} es = some s)
    (hidle : ∀ w, s.matching w = none) :
    s.ctx.filtered = (List.range' 1 s.ctx.fetchedMaxID).filter fun i => accepts (packet i) := by
  have htracks := (sound_init.run hrun fun i _ _ => hid i).1.tracks
  have hnone : ∀ i, i ∉ s.ctx.filtering := by
    intro i hi
    obtain ⟨w, hw⟩ := held_run hid hrun i hi
    rw [hidle w] at hw
    cases hw
  rw [← htracks.maxID_of_idle hnone]
  exact htracks.filtered

end FilterPool

/-! ### The packets of the workers -/

/-- The packet a filter worker holds. -/
def FilterPhase.held : FilterPhase → Option PacketPtr
  | .matching p => some p
  | _ => none

lemma Filter.notified_held {hardware : ℕ} (f : Filter hardware) (w : Core hardware) :
    (f.notified.workers w).held = (f.workers w).held := by
  simp only [Filter.notified]
  split_ifs with hw
  · rw [hw]
    rfl
  · rfl

/-- A worker that goes from one phase without a packet to another one. -/
lemma Filter.setPhase_held {hardware : ℕ} {f : Filter hardware} {w : Core hardware}
    {ph : FilterPhase} (hw : (f.workers w).held = none) (hph : ph.held = none)
    (v : Core hardware) : ((f.setPhase w ph).workers v).held = (f.workers v).held := by
  rw [Filter.setPhase_workers, Function.update_apply]
  split_ifs with hv
  · rw [hv, hw, hph]
  · rfl

namespace State

variable {hardware : ℕ} {s s' : State hardware} {load : List (String × String) → String → Bool}
  {e : Event hardware} {inserted : List ℕ} {f f' : Filter hardware} {name : String}

/-! ### Published packets -/

/-- A packet whose id has been published. -/
structure Settled (inserted : List ℕ) (s : State hardware) (p : PacketPtr) : Prop where
  known : s.heap.Known inserted p
  pos : 1 ≤ s.idOf p
  le : s.idOf p ≤ s.streamMaxID

variable {p : PacketPtr}

/-- A settled packet is neither in flight nor in the hands of the stream thread. -/
lemma Settled.not_inFlight (h : s.Settled inserted p) (hc : s.Consistent inserted) :
    ¬ s.InFlight p := by
  intro hp
  exact hc.idOf_ne hp h.pos (h.le.trans hc.streamMaxID_le) rfl

lemma Settled.not_analyzing (h : s.Settled inserted p) (hc : s.Consistent inserted) :
    s.streamThread.phase ≠ .analyzing p := by
  intro hp
  have hid := (hc.analyzing p hp).2
  have hahead := hc.streaming.ahead p hp
  have hle := h.le
  omega

/-- Nobody writes to a settled packet. -/
lemma Settled.packet_eq (h : s.Settled inserted p) (hc : s.Consistent inserted)
    (hs : s.step load e = some s') (hnew : (inserted ++ e.inserted.toList).Nodup) :
    s'.heap.packet p = s.heap.packet p := by
  cases step_outcome hs with
  | quiet q => exact q.heap.packet p h.known.valid
  | accept t n _ _ =>
    have hne : p ≠ .made n := by
      rintro rfl
      exact List.disjoint_of_nodup_append hnew h.known (List.mem_singleton_self n)
    rw [accept_heap, Heap.modify_packet, if_neg hne]
  | enqueue t q hq =>
    have hne : p ≠ q := by
      rintro rfl
      exact h.not_inFlight hc (Or.inl ⟨t, hq⟩)
    rw [enqueue_heap, Heap.modify_packet, if_neg hne]
  | take w _ => rw [take_heap, setWorker_heap]
  | analyze layers q hq =>
    have hne : p ≠ q := by
      rintro rfl
      exact h.not_analyzing hc hq
    rw [finish_heap, Heap.modify_packet, if_neg hne]
  | store w layers q hq =>
    have hne : p ≠ q := by
      rintro rfl
      exact h.not_inFlight hc (Or.inr (Or.inr ⟨w, hq⟩))
    rw [take_heap, publish_heap, store_heap, setLayers_heap, Heap.modify_packet, if_neg hne]

lemma Settled.step (h : s.Settled inserted p) (hc : s.Consistent inserted)
    (hs : s.step load e = some s') (hnew : (inserted ++ e.inserted.toList).Nodup) :
    s'.Settled (inserted ++ e.inserted.toList) p := by
  obtain ⟨hknown, hid⟩ := step_ids hs hnew h.known
  refine ⟨hknown, ?_, ?_⟩
  · rw [hid]
    exact h.pos
  · rw [hid]
    exact h.le.trans (hc.streaming.step_le hs)

/-- A packet that has been looked up under a published id. -/
lemma settled_lookup (hc : s.Consistent inserted) {i : ℕ} (h1 : 1 ≤ i) (hi : i ≤ s.streamMaxID)
    (hp : (s.lookup i).1 = some p) :
    (s.lookup i).2.Settled inserted p ∧ (s.lookup i).2.idOf p = i := by
  have hquiet := hc.pipeline.quiet (s.lookup_reads i).quiet
  obtain ⟨hknown, hid⟩ := hquiet.cached i p ((s.lookup_eq i).symm.trans hp)
  have hmax : (s.lookup i).2.streamMaxID = s.streamMaxID := by rw [(s.lookup_reads i).rest]
  refine ⟨⟨hknown, ?_, ?_⟩, hid⟩
  · rw [hid]
    exact h1
  · rw [hid, hmax]
    exact hi

/-! ### The pool of a filter -/

/-- The workers of a filter as a pool. -/
def pool (s : State hardware) (f : Filter hardware) : FilterPool (Core hardware) where
  ctx := f.ctx
  streamMaxID := s.streamMaxID
  matching w := (f.workers w).held.map s.heap.packet

/-- The filter is in a state that its pool can reach. -/
structure Pooled (inserted : List ℕ) (s : State hardware) (f : Filter hardware) : Prop where
  settled : ∀ w p, (f.workers w).held = some p → s.Settled inserted p
  reached : ∃ stored : ℕ → Packet, (∀ i, (stored i).id = i) ∧
    Run.Reachable (FilterPool.step stored f.accepts) {} (s.pool f)

/-- The workers of other filters, and of a filter that is woken up or told to exit, see at most
that `streamMaxID` has grown. -/
lemma Pooled.frame (h : s.Pooled inserted f) (hc : s.Consistent inserted)
    (hs : s.step load e = some s') (hnew : (inserted ++ e.inserted.toList).Nodup)
    (hctx : f'.ctx = f.ctx) (haccepts : f'.accepts = f.accepts)
    (hheld : ∀ w, (f'.workers w).held = (f.workers w).held) :
    s'.Pooled (inserted ++ e.inserted.toList) f' := by
  refine ⟨fun w p hp => ?_, ?_⟩
  · rw [hheld] at hp
    exact (h.settled w p hp).step hc hs hnew
  · obtain ⟨stored, hid, es, hrun⟩ := h.reached
    have hmatching : (s'.pool f').matching = (s.pool f).matching := by
      funext w
      simp only [pool, hheld]
      refine Option.map_congr fun p hp => ?_
      exact (h.settled w p hp).packet_eq hc hs hnew
    have hpool : s'.pool f' = ⟨f.ctx, s'.streamMaxID, (s.pool f).matching⟩ := by
      rw [← hmatching, ← hctx]
      rfl
    have hle : (s.pool f).streamMaxID ≤ s'.streamMaxID := hc.streaming.step_le hs
    refine ⟨stored, hid, es ++ [.grow s'.streamMaxID], ?_⟩
    rw [haccepts, hpool]
    refine Run.run_concat_iff.mpr ⟨s.pool f, hrun, ?_⟩
    simp only [FilterPool.step, hle, if_true]
    rfl

/-- A worker fetches the packet of the next id. -/
lemma Pooled.fetch (h : s.Pooled inserted f) (hc : s.Consistent inserted) {w : Core hardware}
    (hw : f.workers w = .ready) (hlt : f.ctx.fetchedMaxID < s.streamMaxID)
    (hp : (s.lookup (f.ctx.fetchedMaxID + 1)).1 = some p) (g : Option (Filter hardware)) :
    ((s.lookup (f.ctx.fetchedMaxID + 1)).2.setFilter name g).Pooled inserted
      { f.setPhase w (.matching p) with ctx := f.ctx.fetch } := by
  have hreads := s.lookup_reads (f.ctx.fetchedMaxID + 1)
  obtain ⟨hsettled, hpid⟩ := settled_lookup hc (Nat.succ_pos _) hlt hp
  have hmax : (s.lookup (f.ctx.fetchedMaxID + 1)).2.streamMaxID = s.streamMaxID := by
    rw [hreads.rest]
  refine ⟨fun v q hq => ?_, ?_⟩
  · simp only [Filter.setPhase_workers, Function.update_apply] at hq
    split_ifs at hq with hv
    · obtain rfl : p = q := by simpa [FilterPhase.held] using hq
      exact ⟨hsettled.known, hsettled.pos, hsettled.le⟩
    · obtain ⟨hknown, hpos, hle⟩ := h.settled v q hq
      have hid := hreads.quiet.ids hknown.valid
      refine ⟨hreads.quiet.known hknown, ?_, ?_⟩
      · exact hid.symm ▸ hpos
      · exact hid.symm ▸ hmax.symm ▸ hle
  · obtain ⟨stored, hid, es, hrun⟩ := h.reached
    let pkt := (s.lookup (f.ctx.fetchedMaxID + 1)).2.heap.packet p
    refine ⟨Function.update stored (f.ctx.fetchedMaxID + 1) pkt, fun i => ?_, es ++ [.fetch w], ?_⟩
    · rw [Function.update_apply]
      split_ifs with hi
      · rw [hi]
        exact hpid
      · exact hid i
    · -- the ids fetched so far keep their packets
      have hold : Run.run (FilterPool.step (Function.update stored (f.ctx.fetchedMaxID + 1) pkt)
          f.accepts) {} es = some (s.pool f) := by
        refine FilterPool.run_congr hrun fun i hi => ?_
        have hne : i ≠ f.ctx.fetchedMaxID + 1 := Nat.ne_of_lt (Nat.lt_succ_of_le hi)
        rw [Function.update_of_ne hne]
      refine Run.run_concat_iff.mpr ⟨s.pool f, hold, ?_⟩
      have hfree : (s.pool f).matching w = none := by simp [pool, hw, FilterPhase.held]
      have hmore : (s.pool f).streamMaxID > (s.pool f).ctx.fetchedMaxID := hlt
      simp only [FilterPool.step, hfree, hmore, if_true]
      congr 1
      simp only [pool, setFilter_streamMaxID, setFilter_heap, hmax, FilterPool.mk.injEq, true_and]
      funext v
      simp only [Filter.setPhase_workers, Function.update_apply]
      split_ifs with hv
      · simp [FilterPhase.held, pkt]
      · refine Option.map_congr fun q hq => ?_
        exact (hreads.heap.packet q (h.settled v q hq).known.valid).symm

/-- A worker is done with its packet. -/
lemma Pooled.complete (h : s.Pooled inserted f) {w : Core hardware}
    (hw : f.workers w = .matching p) (g : Option (Filter hardware)) :
    (s.setFilter name g).Pooled inserted { f.setPhase w .ready with
      ctx := f.ctx.complete (s.idOf p) (f.accepts (s.heap.packet p)) } := by
  refine ⟨fun v q hq => ?_, ?_⟩
  · simp only [Filter.setPhase_workers, Function.update_apply] at hq
    split_ifs at hq with hv
    · simp [FilterPhase.held] at hq
    · obtain ⟨hknown, hpos, hle⟩ := h.settled v q hq
      exact ⟨hknown, hpos, hle⟩
  · obtain ⟨stored, hid, es, hrun⟩ := h.reached
    refine ⟨stored, hid, es ++ [.complete w], Run.run_concat_iff.mpr ⟨s.pool f, hrun, ?_⟩⟩
    have hheld : (s.pool f).matching w = some (s.heap.packet p) := by
      simp [pool, hw, FilterPhase.held]
    simp only [FilterPool.step, hheld]
    congr 1
    simp only [pool, idOf, setFilter_streamMaxID, setFilter_heap, FilterPool.mk.injEq, true_and]
    refine ⟨rfl, funext fun v => ?_⟩
    simp only [Filter.setPhase_workers, Function.update_apply]
    split_ifs with hv
    · rfl
    · rfl

/-- The pool of a filter that has just been installed has seen `streamMaxID` grow. -/
lemma pooled_install (s : State hardware) (loaded : Bool) (accepts : Packet → Bool) :
    s.Pooled inserted ⟨loaded, accepts, false, {}, fun _ => .starting⟩ where
  settled w p hp := by simp [FilterPhase.held] at hp
  reached := ⟨fun i => { id := i }, fun _ => rfl, [.grow s.streamMaxID], rfl⟩

/-! ### Whole runs -/

/-- All installed filters are pools. -/
def AllPooled (inserted : List ℕ) (s : State hardware) : Prop :=
  ∀ name f, s.filters name = some f → s.Pooled inserted f

lemma allPooled_init (packet : PacketPtr → Packet) :
    (init packet : State hardware).AllPooled [] := by
  intro name f hf
  simp [init] at hf

/-- A step of one filter leaves the others alone. -/
lemma AllPooled.update (h : s.AllPooled inserted) (hc : s.Consistent inserted)
    (hs : s.step load e = some s') (hnew : (inserted ++ e.inserted.toList).Nodup)
    {g : Option (Filter hardware)} (hfilters : s'.filters = Function.update s.filters name g)
    (hg : ∀ f', g = some f' → s'.Pooled (inserted ++ e.inserted.toList) f') :
    s'.AllPooled (inserted ++ e.inserted.toList) := by
  intro other f hf
  rw [hfilters, Function.update_apply] at hf
  split_ifs at hf
  · exact hg f hf
  · exact (h other f hf).frame hc hs hnew rfl rfl fun _ => rfl

lemma AllPooled.filterWake (h : s.AllPooled inserted) (hc : s.Consistent inserted)
    {w : Core hardware} (hs : s.step load (.filterWake name w) = some s')
    (hnew : (inserted ++ (Event.filterWake name w).inserted.toList).Nodup) :
    s'.AllPooled (inserted ++ (Event.filterWake name w).inserted.toList) := by
  have hs' : s.filterWake name w = some s' := hs
  obtain ⟨f, hf, hw, ⟨-, rfl⟩ | ⟨-, hlt, p, hp, rfl⟩ | ⟨-, -, rfl⟩⟩ := filterWake_cases hs'
  · refine h.update hc hs hnew rfl fun f' hf' => ?_
    obtain rfl := Option.some.inj hf'
    exact (h name f hf).frame hc hs hnew rfl rfl (Filter.setPhase_held (by rw [hw]; rfl) rfl)
  · have hfil : (s.lookup (f.ctx.fetchedMaxID + 1)).2.filters = s.filters := by
      rw [(s.lookup_reads _).rest]
    refine h.update hc hs hnew (congrArg (Function.update · name _) hfil) fun f' hf' => ?_
    obtain rfl := Option.some.inj hf'
    simp only [Event.inserted, Option.toList_none, List.append_nil]
    exact (h name f hf).fetch hc hw hlt hp _
  · refine h.update hc hs hnew rfl fun f' hf' => ?_
    obtain rfl := Option.some.inj hf'
    exact (h name f hf).frame hc hs hnew rfl rfl (Filter.setPhase_held (by rw [hw]; rfl) rfl)

lemma AllPooled.rest (h : s.AllPooled inserted) (hc : s.Consistent inserted)
    (hs : s.step load e = some s') (hnew : (inserted ++ e.inserted.toList).Nodup)
    (he : filterOf e = none) : s'.AllPooled (inserted ++ e.inserted.toList) := by
  intro name f' hf'
  rcases filters_frame hs he with hfil | hfil
  · rw [hfil] at hf'
    exact (h name f' hf').frame hc hs hnew rfl rfl fun _ => rfl
  · rw [hfil] at hf'
    obtain ⟨f, hf, rfl⟩ := Option.map_eq_some_iff.mp hf'
    exact (h name f hf).frame hc hs hnew rfl rfl f.notified_held

theorem AllPooled.step (h : s.AllPooled inserted) (hc : s.Consistent inserted)
    (hs : s.step load e = some s') (hnew : (inserted ++ e.inserted.toList).Nodup) :
    s'.AllPooled (inserted ++ e.inserted.toList) := by
  cases e with
  | filterStart name w =>
    obtain ⟨f, hf, hw, rfl⟩ := filterStart_cases hs
    refine h.update hc hs hnew rfl fun f' hf' => ?_
    obtain rfl := Option.some.inj hf'
    refine (h name f hf).frame hc hs hnew rfl rfl (Filter.setPhase_held (by rw [hw]; rfl) ?_)
    split_ifs <;> rfl
  | filterWake name w => exact h.filterWake hc hs hnew
  | filterDone name w =>
    obtain ⟨f, p, hf, hw, rfl⟩ := filterDone_cases hs
    refine h.update hc hs hnew rfl fun f' hf' => ?_
    obtain rfl := Option.some.inj hf'
    simp only [Event.inserted, Option.toList_none, List.append_nil]
    exact (h name f hf).complete hw _
  | exitFilter t name =>
    obtain ⟨-, ⟨-, rfl⟩ | ⟨f, hf, rfl⟩⟩ := exitFilter_cases hs
    · intro name f hf
      exact (h name f hf).frame hc hs hnew rfl rfl fun _ => rfl
    · have hfil : ((s.setFilter name (some { f with exiting := true })).setCall t
          (.notifying .filterCond)).filters =
            Function.update s.filters name (some { f with exiting := true }) := rfl
      refine h.update hc hs hnew hfil fun f' hf' => ?_
      obtain rfl := Option.some.inj hf'
      exact (h name f hf).frame hc hs hnew rfl rfl fun _ => rfl
  | installFilter t name source loaded accepts =>
    obtain ⟨-, -, rfl⟩ := installFilter_cases hs
    refine h.update hc hs hnew rfl fun f' hf' => ?_
    split_ifs at hf'
    obtain rfl := Option.some.inj hf'
    exact pooled_install _ _ _
  | _ => exact h.rest hc hs hnew rfl

variable {packet : PacketPtr → Packet} {es : List (Event hardware)}

/-- In every run in which packets are inserted once the installed filters are pools. -/
theorem pooled_run (hrun : Run.run (step load) (init packet) es = some s)
    (hes : (insertedBy es).Nodup) (hf : s.filters name = some f) :
    s.Pooled (insertedBy es) f := by
  have hall : s.AllPooled (insertedBy es) := by
    refine Run.run_induction (motive := fun es s => (insertedBy es).Nodup →
      s.AllPooled (insertedBy es)) (fun _ => allPooled_init packet) ?_ hrun hes
    intro es s e s' hes ih hs hnew
    rw [insertedBy_concat] at hnew ⊢
    have hold := hnew.of_append_left
    exact (ih hold).step (consistent_run hes hold) hs hnew
  exact hall name f hf

/-- What an installed filter publishes: the accepted ones among the packets its workers fetched,
in order and without gaps up to `maxID`, all of them published by the stream thread before. -/
theorem filter_publishes (hrun : Run.run (step load) (init packet) es = some s)
    (hes : (insertedBy es).Nodup) (hf : s.filters name = some f) :
    ∃ stored : ℕ → Packet, (∀ i, (stored i).id = i) ∧
      f.ctx.filtered = (List.range' 1 f.ctx.maxID).filter (fun i => f.accepts (stored i)) ∧
      f.ctx.maxID ≤ f.ctx.fetchedMaxID ∧ f.ctx.fetchedMaxID ≤ s.streamMaxID := by
  obtain ⟨stored, hid, es', hpool⟩ := (pooled_run hrun hes hf).reached
  have hsound := (FilterPool.sound_init.run hpool fun i _ _ => hid i).1
  have hmax : f.ctx.maxID ≤ f.ctx.fetchedMaxID :=
    ((FilterContext.le_watermark hsound.tracks.filtering_le).mp hsound.tracks.maxID.le).1
  exact ⟨stored, hid, hsound.tracks.filtered, hmax, hsound.fetched_le⟩

/-- At rest a filter that has been kept awake has published the accepted ones among all packets
that the stream thread has published. -/
theorem filter_complete (hrun : Run.run (step load) (init packet) es = some s)
    (hes : (insertedBy es).Nodup) (hawake : Run.Meets (step load) FilterAwake (init packet) es)
    (hq : s.Quiescent) (hf : s.filters name = some f) (hl : f.loaded = true)
    (he : f.exiting = false) :
    ∃ stored : ℕ → Packet, (∀ i, (stored i).id = i) ∧
      f.ctx.filtered = (List.range' 1 s.streamMaxID).filter fun i => f.accepts (stored i) := by
  obtain ⟨stored, hid, es', hpool⟩ := (pooled_run hrun hes hf).reached
  have hidle : ∀ w, (s.pool f).matching w = none := by
    intro w
    rcases hq.filters name f hf w with hw | hw
    · simp [pool, hw, FilterPhase.held]
    · simp [pool, hw, FilterPhase.held]
  refine ⟨stored, hid, ?_⟩
  rw [← (served_run hrun hawake).fetched hq hf hl he]
  exact FilterPool.filtered_of_idle hid hpool hidle

/-- `getFiltered` hands out ids only under which `get` finds a packet. -/
theorem getFiltered_published (hrun : Run.run (step load) (init packet) es = some s)
    (hes : (insertedBy es).Nodup) (hf : s.filters name = some f) {a b i : ℕ}
    (hi : i ∈ getFiltered (some f.ctx.filtered) a b) :
    1 ≤ i ∧ i ≤ s.streamMaxID ∧ (s.lookup i).1.isSome = true := by
  obtain ⟨stored, -, hfil, hmax, hle⟩ := filter_publishes hrun hes hf
  have hmem := FilterPool.mem_of_mem_getFiltered hi
  rw [hfil, List.mem_filter, List.mem_range'_1] at hmem
  have hi' : i ≤ s.streamMaxID := by omega
  refine ⟨hmem.1.1, hi', ?_⟩
  rw [lookup_isSome]
  exact (consistent_run hrun hes).stored hmem.1.1 hi'

theorem getFiltered_published_served : ∃ (s : State 1) (f : Filter 1),
    Run.run (step fun _ _ => true) (init fun _ => default) servedRun = some s ∧
      s.filters "f" = some f ∧ 1 ∈ getFiltered (some f.ctx.filtered) 1 5 ∧
      1 ≤ 1 ∧ 1 ≤ s.streamMaxID ∧ (s.lookup 1).1.isSome = true := by
  have hserved : ∀ s : State 1,
      Run.run (step fun _ _ => true) (init fun _ => default) servedRun = some s →
      ∀ f, s.filters "f" = some f → 1 ∈ getFiltered (some f.ctx.filtered) 1 5 →
        1 ≤ 1 ∧ 1 ≤ s.streamMaxID ∧ (s.lookup 1).1.isSome = true := by
    intro s hs f hf hmem
    exact getFiltered_published hs (by decide) hf hmem
  exact ⟨_, _, rfl, rfl, by decide, hserved _ rfl _ rfl (by decide)⟩

end State

end Dripcap
