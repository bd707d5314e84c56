import Dripcap.Dispatcher.FilterContext
import Dripcap.Library.Run
import Dripcap.Script.Layer
import Mathlib.Data.List.Infix

/-!
# Filter workers sharing a context

Any number of workers fetch ids in order and complete them in any order, while `streamMaxID`
grows. The context publishes the matching ids below the smallest id still in work.
-/

namespace Dripcap

namespace FilterContext

variable {ctx : FilterContext} {accepted : ℕ → Bool} {id i : ℕ}

/-- The context tells the truth about the ids completed so far, `accepted` being the results. -/
structure Tracks (ctx : FilterContext) (accepted : ℕ → Bool) : Prop where
  filtering_le : ∀ i ∈ ctx.filtering, 1 ≤ i ∧ i ≤ ctx.fetchedMaxID
  maxID : ctx.maxID = ctx.watermark
  filtered : ctx.filtered = (List.range' 1 ctx.maxID).filter accepted
  set : ∀ i, i ∈ ctx.set ↔
    ctx.maxID < i ∧ i ≤ ctx.fetchedMaxID ∧ i ∉ ctx.filtering ∧ accepted i = true

lemma tracks_init (accepted : ℕ → Bool) : ({} : FilterContext).Tracks accepted where
  filtering_le i hi := absurd hi (IdSet.not_mem_empty i)
  maxID := rfl
  filtered := rfl
  set i := by
    simp only [IdSet.not_mem_empty, false_iff]
    omega

/-- An id is below the watermark when it has been fetched and no smaller or equal id is still
in work. -/
lemma le_watermark (h : ∀ j ∈ ctx.filtering, 1 ≤ j ∧ j ≤ ctx.fetchedMaxID) :
    i ≤ ctx.watermark ↔ i ≤ ctx.fetchedMaxID ∧ ∀ j ∈ ctx.filtering, i < j := by
  simp only [IdSet.mem_def] at h ⊢
  have hsorted := ctx.filtering.sorted
  unfold watermark
  cases hf : ctx.filtering.elems with
  | nil => simp
  | cons a l =>
    rw [hf] at h hsorted
    show i ≤ a - 1 ↔ _
    obtain ⟨ha, hle⟩ := h a List.mem_cons_self
    constructor
    · intro hi
      refine ⟨by omega, fun j hj => ?_⟩
      rcases List.mem_cons.mp hj with rfl | hj
      · omega
      · have := (List.pairwise_cons.mp hsorted).1 j hj
        omega
    · rintro ⟨-, hlt⟩
      have := hlt a List.mem_cons_self
      omega

/-- Fetching publishes nothing: the new id is larger than all others. -/
lemma watermark_fetch (h : ∀ j ∈ ctx.filtering, 1 ≤ j ∧ j ≤ ctx.fetchedMaxID) :
    ctx.fetch.watermark = ctx.watermark := by
  have hfetch : ∀ j ∈ ctx.fetch.filtering, 1 ≤ j ∧ j ≤ ctx.fetch.fetchedMaxID := by
    intro j hj
    rcases IdSet.mem_insert.mp hj with rfl | hj
    · exact ⟨Nat.succ_pos _, le_rfl⟩
    · exact ⟨(h j hj).1, Nat.le_succ_of_le (h j hj).2⟩
  refine eq_of_forall_le_iff fun i => ?_
  rw [le_watermark hfetch, le_watermark h]
  simp only [fetch, IdSet.mem_insert, forall_eq_or_imp]
  constructor
  · rintro ⟨-, hlt, hall⟩
    exact ⟨by omega, hall⟩
  · rintro ⟨hle, hall⟩
    exact ⟨by omega, by omega, hall⟩

theorem Tracks.fetch (h : ctx.Tracks accepted) : ctx.fetch.Tracks accepted where
  filtering_le j hj := by
    rcases IdSet.mem_insert.mp hj with rfl | hj
    · exact ⟨Nat.succ_pos _, le_rfl⟩
    · exact ⟨(h.filtering_le j hj).1, Nat.le_succ_of_le (h.filtering_le j hj).2⟩
  maxID := h.maxID.trans (watermark_fetch h.filtering_le).symm
  filtered := h.filtered
  set j := by
    simp only [FilterContext.fetch, IdSet.mem_insert, h.set j]
    constructor
    · rintro ⟨hlt, hle, hnot, hacc⟩
      refine ⟨hlt, Nat.le_succ_of_le hle, fun hj => ?_, hacc⟩
      exact hj.elim (by omega) hnot
    · rintro ⟨hlt, hle, hnot, hacc⟩
      have hne : j ≠ ctx.fetchedMaxID + 1 := fun he => hnot (Or.inl he)
      exact ⟨hlt, by omega, fun hj => hnot (Or.inr hj), hacc⟩

/-- Completing an id never lowers the watermark. -/
lemma maxID_le_complete (h : ctx.Tracks accepted) (id : ℕ) (isMatch : Bool) :
    ctx.maxID ≤ (ctx.complete id isMatch).maxID := by
  have hrec : ∀ j ∈ (ctx.record id isMatch).filtering,
      1 ≤ j ∧ j ≤ (ctx.record id isMatch).fetchedMaxID :=
    fun j hj => h.filtering_le j (IdSet.mem_erase.mp hj).1
  have hself := (le_watermark h.filtering_le).mp h.maxID.le
  refine (le_watermark hrec).mpr ⟨hself.1, fun j hj => ?_⟩
  exact hself.2 j (IdSet.mem_erase.mp hj).1

/-- What becomes contiguous is appended in order, the rest stays buffered. -/
theorem Tracks.complete (h : ctx.Tracks accepted) (hid : id ∈ ctx.filtering) :
    (ctx.complete id (accepted id)).Tracks accepted := by
  have hrec : ∀ j ∈ (ctx.record id (accepted id)).filtering,
      1 ≤ j ∧ j ≤ (ctx.record id (accepted id)).fetchedMaxID :=
    fun j hj => h.filtering_le j (IdSet.mem_erase.mp hj).1
  have hle := maxID_le_complete h id (accepted id)
  have hnew : ctx.maxID < id := ((le_watermark h.filtering_le).mp h.maxID.le).2 id hid
  -- the buffer holds the completed matches above the old watermark, the new one included
  have hset : ∀ j, j ∈ (ctx.record id (accepted id)).set ↔
      ctx.maxID < j ∧ j ≤ ctx.fetchedMaxID ∧ (j ∈ ctx.filtering → j = id) ∧ accepted j = true := by
    intro j
    by_cases hj : j = id
    · subst hj
      cases hacc : accepted j with
      | true => simp [record, hnew, (h.filtering_le j hid).2]
      | false => simp [record, h.set j, hacc]
    · have hmem : j ∈ (ctx.record id (accepted id)).set ↔ j ∈ ctx.set := by
        cases accepted id <;> simp [record, hj]
      rw [hmem, h.set j]
      simp [hj]
  have hmax : (ctx.complete id (accepted id)).maxID =
      (ctx.record id (accepted id)).watermark := rfl
  refine ⟨hrec, rfl, ?_, fun j => ?_⟩
  · -- two increasing lists with the same members
    have hpub : (ctx.record id (accepted id)).set.upTo (ctx.complete id (accepted id)).maxID =
        (List.range' (ctx.maxID + 1) ((ctx.complete id (accepted id)).maxID - ctx.maxID)).filter
          accepted := by
      refine List.Pairwise.eq_of_mem_iff (IdSet.sorted_upTo _ _)
        (List.Pairwise.filter _ (List.pairwise_lt_range' 1)) fun j => ?_
      rw [IdSet.mem_upTo, hset, List.mem_filter, List.mem_range'_1]
      constructor
      · rintro ⟨⟨hlt, -, -, hacc⟩, hj⟩
        exact ⟨by omega, hacc⟩
      · rintro ⟨hj, hacc⟩
        have hjle : j ≤ (ctx.complete id (accepted id)).maxID := by omega
        rw [hmax, le_watermark hrec] at hjle
        refine ⟨⟨by omega, hjle.1, fun hmem => ?_, hacc⟩, by omega⟩
        by_contra hne
        exact Nat.lt_irrefl j (hjle.2 j (IdSet.mem_erase.mpr ⟨hmem, hne⟩))
    calc (ctx.complete id (accepted id)).filtered
        = ctx.filtered ++
          (ctx.record id (accepted id)).set.upTo (ctx.complete id (accepted id)).maxID := rfl
      _ = (List.range' 1 ctx.maxID).filter accepted ++ (List.range' (ctx.maxID + 1)
          ((ctx.complete id (accepted id)).maxID - ctx.maxID)).filter accepted := by
        rw [h.filtered, hpub]
      _ = (List.range' 1 (ctx.complete id (accepted id)).maxID).filter accepted := by
        rw [← List.filter_append, Prefix.range'_append hle]
  · have hdrop : j ∈ (ctx.complete id (accepted id)).set ↔
        j ∈ (ctx.record id (accepted id)).set ∧ (ctx.complete id (accepted id)).maxID < j :=
      IdSet.mem_dropUpTo
    have hfil : j ∈ (ctx.complete id (accepted id)).filtering ↔ j ∈ ctx.filtering ∧ j ≠ id :=
      IdSet.mem_erase
    have hfetched : (ctx.complete id (accepted id)).fetchedMaxID = ctx.fetchedMaxID := rfl
    rw [hdrop, hset, hfil, hfetched]
    constructor
    · rintro ⟨⟨-, hj, himp, hacc⟩, hlt⟩
      exact ⟨hlt, hj, fun hmem => hmem.2 (himp hmem.1), hacc⟩
    · rintro ⟨hlt, hj, hnot, hacc⟩
      exact ⟨⟨by omega, hj, fun hmem => by_contra fun hne => hnot ⟨hmem, hne⟩, hacc⟩, hlt⟩

end FilterContext

/-! ### The workers -/

/-- Workers of a type `W` with the context they share. A worker without a packet is about to
lock the mutex and to fetch. -/
structure FilterPool (W : Type*) where
  ctx : FilterContext := {}
  streamMaxID : ℕ := 0
  matching : W → Option Packet := fun _ => none

/-- What can happen to the pool. -/
inductive FilterEvent (W : Type*) where
  /-- the stream thread publishes ids up to `n` -/
  | grow (n : ℕ)
  /-- the first locked section of a worker -/
  | fetch (w : W)
  /-- the second locked section of a worker -/
  | complete (w : W)

namespace FilterPool

variable {W : Type*} [DecidableEq W]

/-- One step; `packet` is what is stored under the ids, `accepts` is `script->filter`. -/
def step (packet : ℕ → Packet) (accepts : Packet → Bool) (s : FilterPool W) :
    FilterEvent W → Option (FilterPool W)
  | .grow n => if s.streamMaxID ≤ n then some { s with streamMaxID := n } else none
  | .fetch w =>
    match s.matching w with
    | some _ => none
    | none =>
      if s.streamMaxID > s.ctx.fetchedMaxID then
        some { s with
          ctx := s.ctx.fetch
          matching := Function.update s.matching w (some (packet (s.ctx.fetchedMaxID + 1))) }
      else none
  | .complete w =>
    match s.matching w with
    | none => none
    | some pkt =>
      some { s with
        ctx := s.ctx.complete pkt.id (accepts pkt)
        matching := Function.update s.matching w none }

/-- The id of the packet a step completes. -/
def completed (s : FilterPool W) (e : FilterEvent W) (_ : FilterPool W) : List ℕ :=
  match e with
  | .complete w => (s.matching w).toList.map Packet.id
  | _ => []

variable {packet : ℕ → Packet} {accepts : Packet → Bool} {s s' : FilterPool W} {w : W}

lemma grow_cases {n : ℕ} (h : s.step packet accepts (.grow n) = some s') :
    s.streamMaxID ≤ n ∧ s' = { s with streamMaxID := n } := by
  simp only [step] at h
  split_ifs at h with hn
  exact ⟨hn, (Option.some.inj h).symm⟩

lemma fetch_cases (h : s.step packet accepts (.fetch w) = some s') :
    s.matching w = none ∧ s.ctx.fetchedMaxID < s.streamMaxID ∧ s' = { s with
      ctx := s.ctx.fetch
      matching := Function.update s.matching w (some (packet (s.ctx.fetchedMaxID + 1))) } := by
  simp only [step] at h
  split at h
  · cases h
  · rename_i hw
    split_ifs at h with hlt
    exact ⟨hw, hlt, (Option.some.inj h).symm⟩

lemma complete_cases (h : s.step packet accepts (.complete w) = some s') :
    ∃ pkt, s.matching w = some pkt ∧ s' = { s with
      ctx := s.ctx.complete pkt.id (accepts pkt)
      matching := Function.update s.matching w none } := by
  simp only [step] at h
  split at h
  · cases h
  · rename_i pkt hw
    exact ⟨pkt, hw, (Option.some.inj h).symm⟩

/-- Every id up to `streamMaxID` is stored with its own id. -/
def Stored (packet : ℕ → Packet) (s : FilterPool W) : Prop :=
  ∀ i, 1 ≤ i → i ≤ s.streamMaxID → (packet i).id = i

/-- The context tracks the results, and the ids in work are those of the workers' packets. -/
structure Sound (packet : ℕ → Packet) (accepts : Packet → Bool) (done : List ℕ)
    (s : FilterPool W) : Prop where
  tracks : s.ctx.Tracks fun i => accepts (packet i)
  fetched_le : s.ctx.fetchedMaxID ≤ s.streamMaxID
  worker : ∀ w pkt, s.matching w = some pkt → ∃ i ∈ s.ctx.filtering, pkt = packet i
  alone : ∀ w w' pkt, s.matching w = some pkt → s.matching w' = some pkt → w = w'
  done : ∀ i, i ∈ done ↔ 1 ≤ i ∧ i ≤ s.ctx.fetchedMaxID ∧ i ∉ s.ctx.filtering

variable {done : List ℕ}

omit [DecidableEq W] in
lemma sound_init : ({} : FilterPool W).Sound packet accepts [] where
  tracks := FilterContext.tracks_init _
  fetched_le := le_rfl
  worker w pkt hw := by simp at hw
  alone w w' pkt hw := by simp at hw
  done i := by
    simp only [List.not_mem_nil, false_iff]
    rintro ⟨h1, h0, -⟩
    exact absurd (h1.trans h0) (by simp)

omit [DecidableEq W] in
lemma Sound.filtering_le (h : s.Sound packet accepts done) {i : ℕ} (hi : i ∈ s.ctx.filtering) :
    1 ≤ i ∧ i ≤ s.streamMaxID :=
  ⟨(h.tracks.filtering_le i hi).1, (h.tracks.filtering_le i hi).2.trans h.fetched_le⟩

omit [DecidableEq W] in
/-- A worker's packet carries the id it has been fetched under. -/
lemma Sound.matching_id (h : s.Sound packet accepts done) (hst : s.Stored packet) {pkt : Packet}
    (hw : s.matching w = some pkt) : pkt.id ∈ s.ctx.filtering ∧ pkt = packet pkt.id := by
  obtain ⟨i, hi, rfl⟩ := h.worker w pkt hw
  have hid := hst i (h.filtering_le hi).1 (h.filtering_le hi).2
  rw [hid]
  exact ⟨hi, rfl⟩

omit [DecidableEq W] in
lemma Sound.grow (h : s.Sound packet accepts done) {n : ℕ} (hn : s.streamMaxID ≤ n) :
    ({ s with streamMaxID := n } : FilterPool W).Sound packet accepts done :=
  ⟨h.tracks, h.fetched_le.trans hn, h.worker, h.alone, h.done⟩

lemma Sound.fetch (h : s.Sound packet accepts done) (hst : s.Stored packet)
    (hs : s.step packet accepts (.fetch w) = some s') : s'.Sound packet accepts done := by
  obtain ⟨hw, hlt, rfl⟩ := fetch_cases hs
  -- the new packet is nobody else's: its id is larger than all ids in work
  have hnew : ∀ v, s.matching v ≠ some (packet (s.ctx.fetchedMaxID + 1)) := by
    intro v hv
    have hid := hst (s.ctx.fetchedMaxID + 1) (Nat.succ_pos _) hlt
    have hmem := (h.matching_id hst hv).1
    rw [hid] at hmem
    exact absurd (h.tracks.filtering_le _ hmem).2 (by simp)
  refine ⟨h.tracks.fetch, hlt, fun v pkt hv => ?_, fun v v' pkt hv hv' => ?_, fun i => ?_⟩
  · simp only [Function.update_apply] at hv
    split_ifs at hv
    · obtain rfl := Option.some.inj hv
      exact ⟨_, IdSet.mem_insert.mpr (Or.inl rfl), rfl⟩
    · obtain ⟨i, hi, hpkt⟩ := h.worker v pkt hv
      exact ⟨i, IdSet.mem_insert.mpr (Or.inr hi), hpkt⟩
  · simp only [Function.update_apply] at hv hv'
    split_ifs at hv hv' with hvw hvw' hvw'
    · rw [hvw, hvw']
    · exact absurd (hv'.trans hv.symm) (hnew v')
    · exact absurd (hv.trans hv'.symm) (hnew v)
    · exact h.alone v v' pkt hv hv'
  · simp only [FilterContext.fetch, IdSet.mem_insert, h.done i]
    constructor
    · rintro ⟨h1, hle, hnot⟩
      exact ⟨h1, Nat.le_succ_of_le hle, fun hi => hi.elim (by omega) hnot⟩
    · rintro ⟨h1, hle, hnot⟩
      have hne : i ≠ s.ctx.fetchedMaxID + 1 := fun he => hnot (Or.inl he)
      exact ⟨h1, by omega, fun hi => hnot (Or.inr hi)⟩

lemma Sound.complete (h : s.Sound packet accepts done) (hst : s.Stored packet) {pkt : Packet}
    (hw : s.matching w = some pkt) :
    ({ s with
      ctx := s.ctx.complete pkt.id (accepts pkt)
      matching := Function.update s.matching w none } : FilterPool W).Sound packet accepts
      (done ++ [pkt.id]) := by
  obtain ⟨hmem, hpkt⟩ := h.matching_id hst hw
  have htracks := h.tracks.complete hmem
  rw [← hpkt] at htracks
  refine ⟨htracks, h.fetched_le, fun v q hv => ?_, fun v v' q hv hv' => ?_, fun i => ?_⟩
  · simp only [Function.update_apply] at hv
    split_ifs at hv with hvw
    obtain ⟨hi, hq⟩ := h.matching_id hst hv
    refine ⟨q.id, IdSet.mem_erase.mpr ⟨hi, fun hid => hvw (h.alone v w pkt ?_ hw)⟩, hq⟩
    rw [hv, hq, hid, ← hpkt]
  · simp only [Function.update_apply] at hv hv'
    split_ifs at hv hv'
    exact h.alone v v' q hv hv'
  · have hfil : i ∈ (s.ctx.complete pkt.id (accepts pkt)).filtering ↔
        i ∈ s.ctx.filtering ∧ i ≠ pkt.id := IdSet.mem_erase
    have hfetched : (s.ctx.complete pkt.id (accepts pkt)).fetchedMaxID = s.ctx.fetchedMaxID := rfl
    simp only [List.mem_append, List.mem_singleton, h.done i, hfil, hfetched]
    constructor
    · rintro (⟨h1, hle, hnot⟩ | rfl)
      · exact ⟨h1, hle, fun hi => hnot hi.1⟩
      · exact ⟨(h.tracks.filtering_le _ hmem).1, (h.tracks.filtering_le _ hmem).2,
          fun hi => hi.2 rfl⟩
    · rintro ⟨h1, hle, hnot⟩
      by_cases hi : i = pkt.id
      · exact Or.inr hi
      · exact Or.inl ⟨h1, hle, fun hmem => hnot ⟨hmem, hi⟩⟩

theorem Sound.step (h : s.Sound packet accepts done) (hst : s.Stored packet)
    {e : FilterEvent W} (hs : s.step packet accepts e = some s') :
    s'.Sound packet accepts (done ++ completed s e s') := by
  cases e with
  | grow n =>
    obtain ⟨hn, rfl⟩ := grow_cases hs
    simpa [completed] using h.grow hn
  | fetch w => simpa [completed] using h.fetch hst hs
  | complete w =>
    obtain ⟨pkt, hw, rfl⟩ := complete_cases hs
    simpa [completed, hw] using h.complete hst hw

/-- `streamMaxID` grows, the published list is extended at its end. -/
lemma step_grows {e : FilterEvent W} (hs : s.step packet accepts e = some s') :
    s.streamMaxID ≤ s'.streamMaxID ∧ s.ctx.filtered <+: s'.ctx.filtered := by
  cases e with
  | grow n =>
    obtain ⟨hn, rfl⟩ := grow_cases hs
    exact ⟨hn, List.prefix_rfl⟩
  | fetch w =>
    obtain ⟨-, -, rfl⟩ := fetch_cases hs
    exact ⟨le_rfl, List.prefix_rfl⟩
  | complete w =>
    obtain ⟨pkt, -, rfl⟩ := complete_cases hs
    exact ⟨le_rfl, List.prefix_append _ _⟩

lemma Sound.step_maxID_le (h : s.Sound packet accepts done) {e : FilterEvent W}
    (hs : s.step packet accepts e = some s') : s.ctx.maxID ≤ s'.ctx.maxID := by
  cases e with
  | grow n =>
    obtain ⟨-, rfl⟩ := grow_cases hs
    exact le_rfl
  | fetch w =>
    obtain ⟨-, -, rfl⟩ := fetch_cases hs
    exact le_rfl
  | complete w =>
    obtain ⟨pkt, -, rfl⟩ := complete_cases hs
    exact FilterContext.maxID_le_complete h.tracks _ _

variable {es es' : List (FilterEvent W)}

lemma run_grows (hrun : Run.run (step packet accepts) s es = some s') :
    s.streamMaxID ≤ s'.streamMaxID ∧ s.ctx.filtered <+: s'.ctx.filtered :=
  Run.run_mono
    (R := fun s s' : FilterPool W => s.streamMaxID ≤ s'.streamMaxID ∧
      s.ctx.filtered <+: s'.ctx.filtered)
    (fun _ => ⟨le_rfl, List.prefix_rfl⟩)
    (fun _ _ _ h h' => ⟨h.1.trans h'.1, h.2.trans h'.2⟩) (fun _ _ _ hs => step_grows hs) hrun

omit [DecidableEq W] in
lemma Stored.mono (hst : s'.Stored packet) (hle : s.streamMaxID ≤ s'.streamMaxID) :
    s.Stored packet :=
  fun i h1 hi => hst i h1 (hi.trans hle)

theorem Sound.run (h : s.Sound packet accepts done)
    (hrun : Run.run (FilterPool.step packet accepts) s es = some s') (hst : s'.Stored packet) :
    s'.Sound packet accepts (done ++ Run.observe (FilterPool.step packet accepts) completed s es) ∧
      s.ctx.maxID ≤ s'.ctx.maxID := by
  refine Run.run_induction (motive := fun es t => t.Stored packet → t.Sound packet accepts
    (done ++ Run.observe (FilterPool.step packet accepts) completed s es) ∧
      s.ctx.maxID ≤ t.ctx.maxID) (fun _ => ⟨by simpa [Run.observe] using h, le_rfl⟩) ?_ hrun hst
  intro es t e t' hes ih hs hst'
  obtain ⟨ht, hle⟩ := ih (hst'.mono (step_grows hs).1)
  rw [Run.observe_concat completed hes hs, ← List.append_assoc]
  exact ⟨ht.step (hst'.mono (step_grows hs).1) hs, hle.trans (ht.step_maxID_le hs)⟩

/-! ### What the workers have published -/

lemma getFiltered_loop (filtered : List ℕ) (i n : ℕ) :
    getFiltered.loop filtered i n = (filtered.drop i).take n := by
  induction n generalizing i with
  | zero => simp [getFiltered.loop]
  | succ n ih =>
    rw [getFiltered.loop]
    cases hi : filtered[i]? with
    | none => simp [List.drop_eq_nil_of_le (List.getElem?_eq_none_iff.mp hi)]
    | some a =>
      obtain ⟨hlt, rfl⟩ := List.getElem?_eq_some_iff.mp hi
      simp only [ih, List.drop_eq_getElem_cons hlt, List.take_succ_cons]

/-- `getFiltered` returns the positions `a..b` of the published list as far as they exist. -/
lemma getFiltered_eq (filtered : List ℕ) {a b : ℕ} (ha : 1 ≤ a) (hab : a ≤ b) :
    getFiltered (some filtered) a b = (filtered.take b).drop (a - 1) := by
  have hlen : b + 1 - a = b - (a - 1) := by omega
  simp only [getFiltered, if_neg (not_lt.mpr hab), if_neg (Nat.one_le_iff_ne_zero.mp ha),
    getFiltered_loop, List.drop_take, hlen]

/-- Nothing but what has been published is handed out. -/
lemma mem_of_mem_getFiltered {filtered : List ℕ} {a b i : ℕ}
    (hi : i ∈ getFiltered (some filtered) a b) : i ∈ filtered := by
  simp only [getFiltered] at hi
  split_ifs at hi with hab ha
  · cases hi
  · cases hi
  · rw [getFiltered_loop] at hi
    exact List.mem_of_mem_drop (List.mem_of_mem_take hi)

/-- What is true of a pool in state `s` whose steps so far have completed the ids `done`. -/
structure Published (packet : ℕ → Packet) (accepts : Packet → Bool) (done : List ℕ)
    (s : FilterPool W) : Prop where
  filtered : s.ctx.filtered = (List.range' 1 s.ctx.maxID).filter fun i => accepts (packet i)
  set : ∀ i, i ∈ s.ctx.set ↔ i ∈ done ∧ accepts (packet i) = true ∧ s.ctx.maxID < i
  fetched : ∀ i, 1 ≤ i ∧ i ≤ s.ctx.fetchedMaxID ↔ i ∈ s.ctx.filtering ∨ i ∈ done
  once : ∀ i ∈ s.ctx.filtering, i ∉ done
  getFiltered : ∀ a b, 1 ≤ a → a ≤ b →
    getFiltered (some s.ctx.filtered) a b = (s.ctx.filtered.take b).drop (a - 1)

omit [DecidableEq W] in
lemma Sound.published (h : s.Sound packet accepts done) : s.Published packet accepts done where
  filtered := h.tracks.filtered
  set i := by
    rw [h.tracks.set, h.done]
    constructor
    · rintro ⟨hlt, hle, hnot, hacc⟩
      exact ⟨⟨by omega, hle, hnot⟩, hacc, hlt⟩
    · rintro ⟨⟨-, hle, hnot⟩, hacc, hlt⟩
      exact ⟨hlt, hle, hnot, hacc⟩
  fetched i := by
    rw [h.done]
    constructor
    · rintro ⟨h1, hle⟩
      by_cases hi : i ∈ s.ctx.filtering
      · exact Or.inl hi
      · exact Or.inr ⟨h1, hle, hi⟩
    · rintro (hi | ⟨h1, hle, -⟩)
      · exact h.tracks.filtering_le i hi
      · exact ⟨h1, hle⟩
  once i hi hd := ((h.done i).mp hd).2.2 hi
  getFiltered _ _ ha hab := getFiltered_eq _ ha hab

/-- In every run the published list is the list of matches up to `maxID`, and what has been
published stays as it is when the run goes on. -/
theorem filtered_published (hrun : Run.run (step packet accepts) ({} : FilterPool W) es = some s)
    (hrun' : Run.run (step packet accepts) s es' = some s') (hst : s'.Stored packet) :
    s.Published packet accepts (Run.observe (step packet accepts) completed {} es) ∧
      s.ctx.maxID ≤ s'.ctx.maxID ∧ s.ctx.filtered <+: s'.ctx.filtered ∧
      ∀ a b, 1 ≤ a → a ≤ b →
        getFiltered (some s.ctx.filtered) a b <+: getFiltered (some s'.ctx.filtered) a b ∧
        (b ≤ s.ctx.filtered.length →
          getFiltered (some s'.ctx.filtered) a b = getFiltered (some s.ctx.filtered) a b) := by
  have hsound := (sound_init.run hrun (hst.mono (run_grows hrun').1)).1
  obtain ⟨t, ht⟩ := (run_grows hrun').2
  refine ⟨hsound.published, (hsound.run hrun' hst).2, ⟨t, ht⟩, fun a b ha hab => ?_⟩
  rw [getFiltered_eq _ ha hab, getFiltered_eq _ ha hab, ← ht]
  constructor
  · have htake : s.ctx.filtered.take b <+: (s.ctx.filtered ++ t).take b := by
      rw [List.take_append]
      exact List.prefix_append _ _
    exact List.IsPrefix.drop htake (a - 1)
  · intro hb
    rw [List.take_append_of_le_length hb]

/-- Two workers; the second id is completed first and waits for the first one. -/
theorem filtered_published_two : ∃ s s' : FilterPool Bool,
    Run.run (step (fun i => { id := i }) fun pkt => pkt.id != 1) {}
      [.grow 3, .fetch true, .fetch false, .complete false] = some s ∧
    Run.run (step (fun i => { id := i }) fun pkt => pkt.id != 1) s
      [.fetch false, .complete true] = some s' ∧
    (s.ctx.maxID = 0 ∧ s.ctx.set.elems = [2] ∧ s'.ctx.filtered = [2]) ∧
    s.Published (fun i => { id := i }) (fun pkt => pkt.id != 1) [2] ∧
    s.ctx.maxID ≤ s'.ctx.maxID := by
  refine ⟨_, _, rfl, rfl, by decide, ?_⟩
  have h := @filtered_published Bool _ (fun i => { id := i }) (fun pkt => pkt.id != 1) _ _
    [.grow 3, .fetch true, .fetch false, .complete false] [.fetch false, .complete true]
    rfl rfl fun _ _ _ => rfl
  exact ⟨h.1, h.2.1⟩

end FilterPool

end Dripcap
