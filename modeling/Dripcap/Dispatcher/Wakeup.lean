import Dripcap.Dispatcher.Ids

/-!
# Who is woken up, and who is not

A thread may sleep only if it has nothing to do or if a notification is on its way. This holds
of the dissector workers and of the stream thread. It fails for the filter workers: the stream
thread publishes `streamMaxID` without notifying `filterCond`.
-/

namespace Dripcap

/-- The name under which an event installs a filter. -/
def Event.installs {hardware : ℕ} : Event hardware → Option String
  | .installFilter _ name _ _ _ => some name
  | _ => none

namespace Filter

variable {hardware : ℕ} {f : Filter hardware} {m : ℕ}

/-- The workers of a filter that runs are all asleep only if they have fetched every published
id, and none of them has returned. -/
structure Served (f : Filter hardware) (streamMaxID : ℕ) : Prop where
  fetched_le : f.ctx.fetchedMaxID ≤ streamMaxID
  running : f.loaded = true → f.exiting = false → ∀ w, f.workers w ≠ .finished
  asleep : f.loaded = true → f.exiting = false → (∀ w, f.workers w = .asleep) →
    streamMaxID ≤ f.ctx.fetchedMaxID

lemma Served.notified (h : f.Served m) : f.notified.Served m := by
  refine ⟨h.fetched_le, fun hl he w => ?_, fun hl he hasleep => ?_⟩
  · simp only [Filter.notified]
    split_ifs
    · simp
    · exact h.running hl he w
  · have h0 := hasleep 0
    simp only [Filter.notified] at h0
    split_ifs at h0 with h1
    exact absurd h0 h1

/-- One worker changes its phase. -/
lemma Served.setPhase (h : f.Served m) {w : Core hardware} {ph : FilterPhase}
    (hrun : f.loaded = true → f.exiting = false → ph ≠ .finished)
    (hasleep : f.loaded = true → f.exiting = false → ph = .asleep → m ≤ f.ctx.fetchedMaxID) :
    (f.setPhase w ph).Served m := by
  refine ⟨h.fetched_le, fun hl he v => ?_, fun hl he hall => ?_⟩
  · simp only [setPhase_workers, Function.update_apply]
    split_ifs
    · exact hrun hl he
    · exact h.running hl he v
  · have hw := hall w
    simp only [setPhase_workers, Function.update_self] at hw
    exact hasleep hl he hw

end Filter

namespace State

variable {hardware : ℕ} {s s' : State hardware} {load : List (String × String) → String → Bool}
  {e : Event hardware}

/-- Nothing is going to happen by itself: no call is in progress and every thread sleeps or has
returned. -/
structure Quiescent (s : State hardware) : Prop where
  calls : ∀ t, s.calls t = .idle
  workers : ∀ w, (s.workers w).phase = .asleep
  streamThread : s.streamThread.phase = .asleep
  filters : ∀ name f, s.filters name = some f → ∀ w, f.workers w = .asleep ∨ f.workers w = .finished

/-- Every accepted packet has been processed to the end. -/
structure Drained (s : State hardware) : Prop where
  waitingPackets : s.waitingPackets = []
  streamMaxID : s.streamMaxID = s.maxID
  filters : ∀ name f, s.filters name = some f → f.loaded = true → f.exiting = false →
    f.ctx.fetchedMaxID = s.streamMaxID

/-! ### Dissector workers -/

/-- A sleeping dissector worker has nothing to do, or a notification of `cond` is pending. -/
def Roused (s : State hardware) : Prop :=
  ∀ w, (s.workers w).phase = .asleep →
    (s.waitingPackets = [] ∧ (s.workers w).sources = []) ∨ ∃ t, s.calls t = .notifying .cond

lemma roused_init (packet : PacketPtr → Packet) : (init packet : State hardware).Roused := by
  intro w hw
  simp [init] at hw

/-- Steps that leave the workers and the queue alone and complete no notification. -/
lemma Roused.congr (h : s.Roused) (hw : s'.workers = s.workers)
    (hq : s'.waitingPackets = s.waitingPackets)
    (hc : ∀ t, s.calls t = .notifying .cond → ∃ u, s'.calls u = .notifying .cond) :
    s'.Roused := by
  intro w hphase
  rw [hw] at hphase ⊢
  rw [hq]
  rcases h w hphase with hidle | ⟨t, ht⟩
  · exact Or.inl hidle
  · exact Or.inr (hc t ht)

lemma Roused.of_eq (h : s.Roused) (hw : s'.workers = s.workers)
    (hq : s'.waitingPackets = s.waitingPackets) (hc : s'.calls = s.calls) : s'.Roused :=
  h.congr hw hq fun t ht => ⟨t, by rw [hc, ht]⟩

/-- A call that notifies something else leaves the pending notifications in place. -/
lemma update_notifying {calls : ℕ → Call} {t u : ℕ} {c : Call} (ht : calls t ≠ .notifying .cond)
    (hu : calls u = .notifying .cond) : ∃ v, Function.update calls t c v = .notifying .cond := by
  refine ⟨u, ?_⟩
  have hne : u ≠ t := by
    rintro rfl
    exact ht hu
  rw [Function.update_of_ne hne, hu]

lemma roused_of_notifying {t : ℕ} (h : s.calls t = .notifying .cond) : s.Roused :=
  fun _ _ => Or.inr ⟨t, h⟩

lemma Roused.setWorker (h : s.Roused) {w : Core hardware} {x : DissectorWorker}
    (hx : x.phase = .asleep → (s.workers w).phase = .asleep ∧ x.sources = (s.workers w).sources) :
    (s.setWorker w x).Roused := by
  intro v hv
  simp only [setWorker_workers, Function.update_apply] at hv ⊢
  split_ifs at hv with hvw
  · obtain ⟨hw, hsources⟩ := hx hv
    rw [if_pos hvw, hsources]
    exact h w hw
  · rw [if_neg hvw]
    exact h v hv

lemma Roused.take (h : s.Roused) (w : Core hardware) : (s.take w).Roused := by
  intro v hv
  rcases take_cases s w with ⟨hq, ht⟩ | ⟨p, ps, hq, ht⟩
  · rw [ht] at hv ⊢
    exact h.setWorker (x := { s.workers w with phase := .ready }) (by simp) v hv
  · rw [ht] at hv ⊢
    simp only [setWorker_workers, Function.update_apply] at hv ⊢
    split_ifs at hv with hvw
    rw [if_neg hvw]
    rcases h v hv with ⟨hempty, -⟩ | hpending
    · rw [hq] at hempty
      cases hempty
    · exact Or.inr hpending

theorem Roused.step (h : s.Roused) (hs : s.step load e = some s') : s'.Roused := by
  cases e with
  | insert t pkt =>
    obtain ⟨hc, ⟨-, rfl⟩ | ⟨n, -, ⟨-, rfl⟩ | ⟨-, rfl⟩⟩⟩ := insert_cases hs
    · exact h
    · exact h.of_eq rfl rfl rfl
    · exact h.congr rfl rfl fun u hu => update_notifying (by simp [hc]) hu
  | push t =>
    obtain ⟨p, hp, rfl⟩ := push_cases hs
    exact roused_of_notifying (t := t) (by simp)
  | notify t =>
    rcases notify_cases hs with ⟨hc, rfl⟩ | ⟨hc, rfl⟩
    · -- nobody sleeps after the notification
      intro w hw
      simp only [setCall_workers, notifyWorkers_workers, DissectorWorker.notified] at hw
      split_ifs at hw with hasleep
      exact absurd hw hasleep
    · exact h.congr rfl rfl fun u hu => update_notifying (by simp [hc]) hu
  | wake w =>
    obtain ⟨hp, ⟨hq, hsources, rfl⟩ | ⟨-, rfl⟩⟩ := wake_cases hs
    · intro v hv
      by_cases hvw : v = w
      · subst hvw
        exact Or.inl ⟨hq, by simpa using hsources⟩
      · simp only [setWorker_workers, Function.update_of_ne hvw] at hv ⊢
        exact h v hv
    · refine (h.setWorker fun hasleep => ?_).take w
      simp [DissectorWorker.loadSources, hp] at hasleep
  | dissected w layers =>
    obtain ⟨p, -, rfl⟩ := dissected_cases hs
    have hpub : ((s.setLayers p layers).store p).publish.Roused :=
      h.of_eq (publish_workers ((s.setLayers p layers).store p))
        (publish_waitingPackets ((s.setLayers p layers).store p))
        (publish_calls ((s.setLayers p layers).store p))
    exact hpub.take w
  | streamWake =>
    obtain ⟨-, ⟨-, p, -, rfl⟩ | ⟨-, rfl⟩⟩ := streamWake_cases hs
    all_goals exact h.of_eq rfl rfl rfl
  | analyzed layers =>
    obtain ⟨p, -, rfl⟩ := analyzed_cases hs
    exact h.of_eq rfl rfl rfl
  | filterStart name w =>
    obtain ⟨f, -, -, rfl⟩ := filterStart_cases hs
    exact h.of_eq rfl rfl rfl
  | filterWake name w =>
    obtain ⟨f, -, -, ⟨-, rfl⟩ | ⟨-, -, p, -, rfl⟩ | ⟨-, -, rfl⟩⟩ := filterWake_cases hs
    all_goals exact h.of_eq rfl rfl rfl
  | filterDone name w =>
    obtain ⟨f, p, -, -, rfl⟩ := filterDone_cases hs
    exact h.of_eq rfl rfl rfl
  | loadDissector t w src =>
    obtain ⟨-, rfl⟩ := loadDissector_cases hs
    exact roused_of_notifying (t := t) (by simp)
  | loadModule t w name source =>
    obtain ⟨-, rfl⟩ := loadModule_cases hs
    exact h.setWorker fun hasleep => ⟨hasleep, rfl⟩
  | exitFilter t name =>
    obtain ⟨hc, ⟨-, rfl⟩ | ⟨f, -, rfl⟩⟩ := exitFilter_cases hs
    · exact h
    · exact h.congr rfl rfl fun u hu => update_notifying (by simp [hc]) hu
  | installFilter t name source loaded accepts =>
    obtain ⟨-, -, rfl⟩ := installFilter_cases hs
    exact h.of_eq rfl rfl rfl
  | get start fin =>
    obtain rfl := Option.some.inj hs
    have hrest := (s.get_reads start fin).rest
    exact h.of_eq (by rw [hrest]) (by rw [hrest]) (by rw [hrest])
  | getList ids =>
    obtain rfl := Option.some.inj hs
    have hrest := (s.getList_reads ids).rest
    exact h.of_eq (by rw [hrest]) (by rw [hrest]) (by rw [hrest])

/-! ### The stream thread -/

/-- The stream thread sleeps only when it has taken every packet of the stored prefix: whoever
moves `maxID` notifies it before it releases the mutex. -/
def Attentive (s : State hardware) : Prop :=
  s.streamThread.phase = .asleep → s.maxID ≤ s.streamThread.maxID

lemma attentive_init (packet : PacketPtr → Packet) : (init packet : State hardware).Attentive := by
  intro h
  simp [init] at h

lemma notified_ne_asleep (x : StreamThread) : x.notified.phase ≠ .asleep := by
  unfold StreamThread.notified
  split_ifs with h
  · simp
  · exact h

lemma attentive_of_notified (h : s.Attentive) (hmax : s'.maxID = s.maxID)
    (ht : s'.streamThread = s.streamThread ∨ s'.streamThread = s.streamThread.notified) :
    s'.Attentive := by
  intro hasleep
  rcases ht with ht | ht
  · rw [hmax, ht]
    exact h (ht ▸ hasleep)
  · rw [ht] at hasleep
    exact absurd hasleep (notified_ne_asleep _)

theorem Attentive.step (h : s.Attentive) (hs : s.step load e = some s') : s'.Attentive := by
  by_cases hw : e = .streamWake
  · subst hw
    obtain ⟨-, ⟨-, p, -, rfl⟩ | ⟨hle, rfl⟩⟩ := streamWake_cases hs
    · intro hasleep
      simp at hasleep
    · exact fun _ => hle
  by_cases ha : ∃ layers, e = .analyzed layers
  · obtain ⟨layers, rfl⟩ := ha
    obtain ⟨p, -, rfl⟩ := analyzed_cases hs
    intro hasleep
    simp at hasleep
  by_cases hd : ∃ w layers, e = .dissected w layers
  · obtain ⟨w, layers, rfl⟩ := hd
    obtain ⟨p, -, rfl⟩ := dissected_cases hs
    intro hasleep
    rw [take_streamThread, take_maxID] at *
    rcases publish_cases ((s.setLayers p layers).store p) with ⟨-, -, hpub⟩ | ⟨-, hpub⟩
    · rw [hpub] at hasleep ⊢
      exact h hasleep
    · rw [hpub] at hasleep
      exact absurd hasleep (notified_ne_asleep _)
  · have hframe := step_frame hs
    have hmax := (hframe.store fun w layers he => hd ⟨w, layers, he⟩).2
    exact attentive_of_notified h hmax (hframe.stream hw fun layers he => ha ⟨layers, he⟩).2

/-! ### Filter workers -/

/-- Every installed filter is served. -/
def Served (s : State hardware) : Prop :=
  ∀ name f, s.filters name = some f → f.Served s.streamMaxID

lemma served_init (packet : PacketPtr → Packet) : (init packet : State hardware).Served := by
  intro name f hf
  simp [init] at hf

lemma Served.of_eq (h : s.Served) (hf : s'.filters = s.filters)
    (hmax : s'.streamMaxID = s.streamMaxID) : s'.Served := by
  intro name f hname
  rw [hmax]
  exact h name f (hf ▸ hname)

lemma Served.notifyFilters (h : s.Served) : s.notifyFilters.Served := by
  intro name f hf
  obtain ⟨g, hg, rfl⟩ := Option.map_eq_some_iff.mp hf
  exact (h name g hg).notified

lemma Served.setFilter (h : s.Served) {name : String} {f : Option (Filter hardware)}
    (hf : ∀ g, f = some g → g.Served s.streamMaxID) : (s.setFilter name f).Served := by
  intro other g hg
  simp only [setFilter_filters, Function.update_apply] at hg
  split_ifs at hg
  · exact hf g hg
  · exact h other g hg

/-- The condition the stream thread should have taken care of: whenever it publishes
`streamMaxID`, every installed filter that runs has a worker that is not asleep. -/
def FilterAwake (s : State hardware) : Event hardware → Prop
  | .analyzed _ => ∀ name f, s.filters name = some f → f.loaded = true → f.exiting = false →
      ∃ w, f.workers w ≠ .asleep
  | _ => True

lemma Served.analyzed (h : s.Served) (hstream : s.Streaming) {layers : LayerList}
    (hawake : s.FilterAwake (.analyzed layers)) (hs : s.analyzed layers = some s') :
    s'.Served := by
  obtain ⟨p, -, rfl⟩ := analyzed_cases hs
  intro name f hf
  obtain ⟨hle, hrun, -⟩ := h name f hf
  refine ⟨hle.trans hstream.le, hrun, fun hl he hasleep => ?_⟩
  obtain ⟨w, hw⟩ := hawake name f hf hl he
  exact absurd (hasleep w) hw

lemma Served.filterStart (h : s.Served) {name : String} {w : Core hardware}
    (hs : s.filterStart name w = some s') : s'.Served := by
  obtain ⟨f, hf, -, rfl⟩ := filterStart_cases hs
  refine h.setFilter fun g hg => ?_
  obtain rfl := Option.some.inj hg
  refine (h name f hf).setPhase (fun hl _ => ?_) fun hl _ hasleep => ?_
  · simp [hl]
  · simp [hl] at hasleep

lemma Served.filterWake (h : s.Served) {name : String} {w : Core hardware}
    (hs : s.filterWake name w = some s') : s'.Served := by
  obtain ⟨f, hf, -, ⟨he, rfl⟩ | ⟨-, hlt, p, -, rfl⟩ | ⟨-, hle, rfl⟩⟩ := filterWake_cases hs
  · refine h.setFilter fun g hg => ?_
    obtain rfl := Option.some.inj hg
    refine (h name f hf).setPhase (fun _ he' => ?_) fun _ _ hasleep => ?_
    · rw [he] at he'
      cases he'
    · cases hasleep
  · refine Served.setFilter (h.of_eq rfl rfl) fun g hg => ?_
    obtain rfl := Option.some.inj hg
    have hserved : (f.setPhase w (.matching p)).Served s.streamMaxID :=
      (h name f hf).setPhase (by simp) (by simp)
    refine ⟨hlt, hserved.running, fun _ _ hasleep => ?_⟩
    have hw := hasleep w
    simp at hw
  · refine h.setFilter fun g hg => ?_
    obtain rfl := Option.some.inj hg
    exact (h name f hf).setPhase (by simp) fun _ _ _ => hle

lemma Served.filterDone (h : s.Served) {name : String} {w : Core hardware}
    (hs : s.filterDone name w = some s') : s'.Served := by
  obtain ⟨f, p, hf, -, rfl⟩ := filterDone_cases hs
  refine h.setFilter fun g hg => ?_
  obtain rfl := Option.some.inj hg
  have hserved : (f.setPhase w .ready).Served s.streamMaxID :=
    (h name f hf).setPhase (by simp) (by simp)
  exact ⟨hserved.fetched_le, hserved.running, hserved.asleep⟩

lemma Served.exitFilter (h : s.Served) {t : ℕ} {name : String}
    (hs : s.exitFilter t name = some s') : s'.Served := by
  obtain ⟨-, ⟨-, rfl⟩ | ⟨f, hf, rfl⟩⟩ := exitFilter_cases hs
  · exact h
  · refine Served.of_eq (s := s.setFilter name (some { f with exiting := true }))
      (h.setFilter fun g hg => ?_) rfl rfl
    obtain rfl := Option.some.inj hg
    exact ⟨(h name f hf).fetched_le, by simp, by simp⟩

lemma Served.installFilter (h : s.Served) {t : ℕ} {name source : String} {loaded : Bool}
    {accepts : Packet → Bool} (hs : s.installFilter t name source loaded accepts = some s') :
    s'.Served := by
  obtain ⟨-, -, rfl⟩ := installFilter_cases hs
  refine h.setFilter fun g hg => ?_
  split_ifs at hg
  obtain rfl := Option.some.inj hg
  exact ⟨Nat.zero_le _, by simp, fun _ _ hasleep => absurd (hasleep 0) (by simp)⟩

lemma publish_filters (s : State hardware) : s.publish.filters = s.filters ∨
    s.publish.filters = fun name => (s.filters name).map Filter.notified := by
  rcases publish_cases s with ⟨-, -, hpub⟩ | ⟨-, hpub⟩
  · exact Or.inl (by rw [hpub])
  · exact Or.inr (by rw [hpub]; rfl)

/-- The filter that a step is about. -/
def filterOf : Event hardware → Option String
  | .filterStart name _ => some name
  | .filterWake name _ => some name
  | .filterDone name _ => some name
  | .exitFilter _ name => some name
  | .installFilter _ name _ _ _ => some name
  | _ => none

/-- All other steps wake the filter workers up or leave them alone. -/
lemma filters_frame (hs : s.step load e = some s') (he : filterOf e = none) :
    s'.filters = s.filters ∨ s'.filters = fun name => (s.filters name).map Filter.notified := by
  cases e with
  | filterStart name w => cases he
  | filterWake name w => cases he
  | filterDone name w => cases he
  | exitFilter t name => cases he
  | installFilter t name source loaded accepts => cases he
  | notify t =>
    rcases notify_cases hs with ⟨-, rfl⟩ | ⟨-, rfl⟩
    · exact Or.inl rfl
    · exact Or.inr rfl
  | wake w =>
    obtain ⟨-, ⟨-, -, rfl⟩ | ⟨-, rfl⟩⟩ := wake_cases hs
    · exact Or.inl rfl
    · exact Or.inl (take_filters _ _)
  | dissected w layers =>
    obtain ⟨p, -, rfl⟩ := dissected_cases hs
    rw [take_filters]
    exact publish_filters ((s.setLayers p layers).store p)
  | loadDissector t w src =>
    obtain ⟨-, rfl⟩ := loadDissector_cases hs
    exact Or.inl rfl
  | loadModule t w name source =>
    obtain ⟨-, rfl⟩ := loadModule_cases hs
    exact Or.inl rfl
  | _ => exact Or.inl (apart_frame hs trivial).2

/-- Being woken up makes no filter less served. -/
lemma Served.rest (h : s.Served) (hs : s.step load e = some s') (he : filterOf e = none)
    (hmax : s'.streamMaxID = s.streamMaxID) : s'.Served := by
  rcases filters_frame hs he with hf | hf
  · exact h.of_eq hf hmax
  · exact h.notifyFilters.of_eq hf hmax

theorem Served.step (h : s.Served) (hstream : s.Streaming) (hawake : s.FilterAwake e)
    (hs : s.step load e = some s') : s'.Served := by
  cases e with
  | analyzed layers => exact h.analyzed hstream hawake hs
  | filterStart name w => exact h.filterStart hs
  | filterWake name w => exact h.filterWake hs
  | filterDone name w => exact h.filterDone hs
  | exitFilter t name => exact h.exitFilter hs
  | installFilter t name source loaded accepts => exact h.installFilter hs
  | _ => exact h.rest hs rfl (streamMaxID_eq hs (by simp))

/-! ### Runs -/

variable {packet : PacketPtr → Packet} {es : List (Event hardware)}

/-- Without any condition a quiescent dispatcher has dissected and analyzed every packet. -/
theorem quiescent_drained (hrun : Run.run (step load) (init packet) es = some s)
    (hq : s.Quiescent) : s.waitingPackets = [] ∧ s.streamMaxID = s.maxID := by
  have hroused : s.Roused :=
    Run.run_invariant (roused_init packet) (fun _ _ _ h hs => h.step hs) hrun
  have hattentive : s.Attentive :=
    Run.run_invariant (attentive_init packet) (fun _ _ _ h hs => h.step hs) hrun
  have hstream := streaming_run hrun
  constructor
  · rcases hroused 0 (hq.workers 0) with ⟨hempty, -⟩ | ⟨t, ht⟩
    · exact hempty
    · rw [hq.calls t] at ht
      cases ht
  · have hrest : s.streamThread.maxID = s.streamMaxID :=
      hstream.resting (by simp [hq.streamThread])
    have hle := hattentive hq.streamThread
    rw [hrest] at hle
    exact le_antisymm (hstream.le.trans hstream.le_maxID) hle

lemma served_run (hrun : Run.run (step load) (init packet) es = some s)
    (hawake : Run.Meets (step load) FilterAwake (init packet) es) : s.Served := by
  refine Run.meets_induction (motive := fun _ s => s.Served) (served_init packet) ?_ hawake hrun
  intro es s e s' hes h he hs
  exact h.step (streaming_run hes) he hs

/-- At rest the workers of a served filter have fetched everything. -/
lemma Served.fetched (h : s.Served) (hq : s.Quiescent) {name : String} {f : Filter hardware}
    (hf : s.filters name = some f) (hl : f.loaded = true) (he : f.exiting = false) :
    f.ctx.fetchedMaxID = s.streamMaxID := by
  have hserved := h name f hf
  refine le_antisymm hserved.fetched_le (hserved.asleep hl he fun w => ?_)
  rcases hq.filters name f hf w with hw | hw
  · exact hw
  · exact absurd hw (hserved.running hl he w)

/-- No wakeup is lost in a run in which the stream thread never publishes while all workers of a
running filter are asleep. -/
theorem drained_of_filterAwake (hrun : Run.run (step load) (init packet) es = some s)
    (hawake : Run.Meets (step load) FilterAwake (init packet) es) (hq : s.Quiescent) :
    s.Drained := by
  obtain ⟨hempty, hmax⟩ := quiescent_drained hrun hq
  exact ⟨hempty, hmax, fun name f hf hl he => (served_run hrun hawake).fetched hq hf hl he⟩

lemma step_filters_none {name : String} (hs : s.step load e = some s')
    (h : s.filters name = none) (he : e.installs ≠ some name) : s'.filters name = none := by
  have hother : ∀ {other : String} {f g : Option (Filter hardware)} {t : State hardware},
      t.filters = s.filters → s.filters other = f → f ≠ none →
        (t.setFilter other g).filters name = none := by
    intro other f g t ht hf hne
    have hname : name ≠ other := by
      rintro rfl
      exact hne (hf ▸ h)
    rw [setFilter_filters, Function.update_of_ne hname, ht, h]
  by_cases hfil : filterOf e = none
  · rcases filters_frame hs hfil with hf | hf
    · rw [hf, h]
    · simp [hf, h]
  cases e with
  | filterStart other w =>
    obtain ⟨f, hf, -, rfl⟩ := filterStart_cases hs
    exact hother rfl hf (by simp)
  | filterWake other w =>
    obtain ⟨f, hf, -, ⟨-, rfl⟩ | ⟨-, -, p, -, rfl⟩ | ⟨-, -, rfl⟩⟩ := filterWake_cases hs
    all_goals exact hother rfl hf (by simp)
  | filterDone other w =>
    obtain ⟨f, p, hf, -, rfl⟩ := filterDone_cases hs
    exact hother rfl hf (by simp)
  | exitFilter t other =>
    obtain ⟨-, ⟨-, rfl⟩ | ⟨f, hf, rfl⟩⟩ := exitFilter_cases hs
    · exact h
    · exact hother rfl hf (by simp)
  | installFilter t other source loaded accepts =>
    obtain ⟨-, -, rfl⟩ := installFilter_cases hs
    have hname : name ≠ other := fun hn => he (congrArg some hn.symm)
    rw [setFilter_filters, Function.update_of_ne hname, h]
  | _ => exact absurd rfl hfil

/-- In a run that installs filters under one name only there is no other filter. -/
lemma name_of_installs (name : String) {other : String} {f : Filter hardware}
    (hrun : Run.run (step load) (init packet) es = some s)
    (hes : ∀ e ∈ es, e.installs = none ∨ e.installs = some name)
    (hf : s.filters other = some f) : other = name := by
  by_contra hne
  have hnone : s.filters other = none := by
    refine Run.run_induction (motive := fun es s => (∀ e ∈ es, e.installs = none ∨
      e.installs = some name) → s.filters other = none) (fun _ => rfl) ?_ hrun hes
    intro es s e s' _ ih hs hes
    refine step_filters_none hs (ih fun e' he' => hes e' (List.mem_append_left _ he')) fun he => ?_
    rcases hes e (List.mem_append_right _ (List.mem_singleton_self e)) with h | h
    · simp [h] at he
    · rw [h] at he
      exact hne (Option.some.inj he).symm
  rw [hf] at hnone
  cases hnone

/-- A filter worker that fetches the packet after it has been published. -/
def servedRun : List (Event 1) :=
  [.installFilter 0 "f" "src" true fun _ => true, .filterStart "f" 0, .insert 0 (some 0), .push 0,
    .notify 0, .wake 0, .dissected 0 [], .streamWake, .analyzed [], .filterWake "f" 0,
    .filterDone "f" 0, .filterWake "f" 0, .streamWake, .wake 0]

/-- A filter worker that goes back to sleep between the notification for the stored packet and
its publication by the stream thread. -/
def stalledRun : List (Event 1) :=
  [.installFilter 0 "f" "src" true fun _ => true, .filterStart "f" 0, .wake 0, .streamWake,
    .filterWake "f" 0, .insert 0 (some 0), .push 0, .notify 0, .wake 0, .dissected 0 [],
    .filterWake "f" 0, .streamWake, .analyzed [], .streamWake, .wake 0]

theorem drained_of_filterAwake_served : ∃ s : State 1,
    Run.run (step fun _ _ => true) (init fun _ => default) servedRun = some s ∧
      Run.Meets (step fun _ _ => true) FilterAwake (init fun _ => default) servedRun ∧
      s.Quiescent ∧ s.streamMaxID = 1 ∧ s.Drained := by
  have hawake : Run.Meets (step fun _ _ => true) FilterAwake
      (init fun _ => default : State 1) servedRun := by
    repeat refine (Run.meets_cons rfl).mpr ⟨trivial, ?_⟩
    refine (Run.meets_cons rfl).mpr ⟨fun name f hf _ _ => ⟨0, ?_⟩, ?_⟩
    · have hrun : Run.run (step fun _ _ => true) (init fun _ => default) (servedRun.take 8) =
          some _ := rfl
      obtain rfl := name_of_installs "f" hrun (by decide) hf
      obtain rfl := Option.some.inj hf
      decide
    · repeat refine (Run.meets_cons rfl).mpr ⟨trivial, ?_⟩
      trivial
  have hq : ∀ s : State 1, Run.run (step fun _ _ => true) (init fun _ => default) servedRun =
      some s → s.Quiescent := by
    intro s hs
    have hs' := hs
    obtain rfl := Option.some.inj hs'
    refine ⟨fun t => ?_, fun w => ?_, rfl, fun name f hf w => ?_⟩
    · match t with
      | 0 => rfl
      | t + 1 => rfl
    · match w with
      | 0 => rfl
    · obtain rfl := name_of_installs "f" hs (by decide) hf
      obtain rfl := Option.some.inj hf
      match w with
      | 0 => exact Or.inl rfl
  exact ⟨_, rfl, hawake, hq _ rfl, rfl, drained_of_filterAwake rfl hawake (hq _ rfl)⟩

/-- The filter stays behind although everything is asleep. -/
theorem filter_left_behind : ∃ s : State 1,
    Run.run (step fun _ _ => true) (init fun _ => default) stalledRun = some s ∧
      s.Quiescent ∧ ¬ s.Drained := by
  have hrun : Run.run (step fun _ _ => true) (init fun _ => default) stalledRun = some _ := rfl
  refine ⟨_, hrun, ⟨fun t => ?_, fun w => ?_, rfl, fun name f hf w => ?_⟩, fun h => ?_⟩
  · match t with
    | 0 => rfl
    | t + 1 => rfl
  · match w with
    | 0 => rfl
  · obtain rfl := name_of_installs "f" hrun (by decide) hf
    obtain rfl := Option.some.inj hf
    match w with
    | 0 => exact Or.inl rfl
  · exact absurd (h.filters "f" _ rfl rfl rfl) (by decide)

end State

end Dripcap
