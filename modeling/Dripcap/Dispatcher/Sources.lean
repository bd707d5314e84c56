import Dripcap.Dispatcher.Ids

/-!
# Dissector sources

A worker compiles the sources queued for it when it passes the start of its outer loop. As long
as the queue of packets is not empty it stays in the inner loop, so a packet can overtake a
source that was queued before the packet was inserted.
-/

namespace Dripcap

namespace DissectorWorker

variable {load : List (String × String) → String → Bool} {x : DissectorWorker}
  {src : DissectorSource} {c script : ScriptClass} {d : String → List ScriptClass} {ns : String}

/-- The script of a source has been entered for its namespaces, unless the source failed to
load with the modules of that time. -/
def Loaded (load : List (String × String) → String → Bool) (x : DissectorWorker)
    (src : DissectorSource) : Prop :=
  ∃ modules, modules <+: x.modules ∧ (load modules src.source = true →
    ∀ ns ∈ src.namespaces, ⟨src.source, src.namespaces, modules⟩ ∈ x.dissectors ns)

lemma Loaded.mono {y : DissectorWorker} (h : x.Loaded load src) (hm : x.modules <+: y.modules)
    (hd : ∀ ns, x.dissectors ns ⊆ y.dissectors ns) : y.Loaded load src := by
  obtain ⟨modules, hprefix, hload⟩ := h
  exact ⟨modules, hprefix.trans hm, fun hl ns hns => hd ns (hload hl ns hns)⟩

lemma mem_register (nss : List String) :
    c ∈ register script d nss ns ↔ c ∈ d ns ∨ (c = script ∧ ns ∈ nss) := by
  induction nss generalizing d with
  | nil => simp [register]
  | cons ns' nss ih =>
    rw [register, ih]
    by_cases h : ns = ns'
    · subst h
      simp
      tauto
    · simp [h]

lemma subset_loadSource (modules : List (String × String)) (src : DissectorSource) :
    d ns ⊆ loadSource load modules d src ns := by
  intro c hc
  unfold loadSource
  split_ifs
  · exact (mem_register _).mpr (Or.inl hc)
  · exact hc

lemma mem_loadSource {modules : List (String × String)} (hl : load modules src.source = true)
    (hns : ns ∈ src.namespaces) :
    ⟨src.source, src.namespaces, modules⟩ ∈ loadSource load modules d src ns := by
  rw [loadSource, if_pos hl, mem_register]
  exact Or.inr ⟨rfl, hns⟩

lemma subset_foldl (modules : List (String × String)) (sources : List DissectorSource) :
    d ns ⊆ sources.foldl (loadSource load modules) d ns := by
  induction sources generalizing d with
  | nil => exact List.Subset.refl _
  | cons src sources ih => exact List.Subset.trans (subset_loadSource modules src) ih

lemma mem_foldl {modules : List (String × String)} {sources : List DissectorSource}
    (hsrc : src ∈ sources) (hl : load modules src.source = true) (hns : ns ∈ src.namespaces) :
    ⟨src.source, src.namespaces, modules⟩ ∈ sources.foldl (loadSource load modules) d ns := by
  induction sources generalizing d with
  | nil => cases hsrc
  | cons other sources ih =>
    rw [List.foldl_cons]
    rcases List.mem_cons.mp hsrc with rfl | hsrc
    · exact subset_foldl _ _ (mem_loadSource hl hns)
    · exact ih hsrc

/-- After the loop over the sources everything queued is loaded, and what was loaded before
still is. -/
theorem loaded_loadSources (h : src ∈ x.sources ∨ x.Loaded load src) :
    (x.loadSources load).Loaded load src := by
  rcases h with hsrc | hloaded
  · exact ⟨x.modules, List.prefix_rfl, fun hl ns hns => mem_foldl hsrc hl hns⟩
  · exact hloaded.mono List.prefix_rfl fun ns => subset_foldl _ _

@[simp] lemma notified_sources : x.notified.sources = x.sources := by
  unfold notified
  split_ifs <;> rfl

lemma notified_loaded : x.notified.Loaded load src ↔ x.Loaded load src := by
  unfold notified
  split_ifs <;> rfl

lemma notified_dissecting {p : PacketPtr} :
    x.notified.phase = .dissecting p ↔ x.phase = .dissecting p := by
  unfold notified
  split_ifs with h
  · simp [h]
  · rfl

end DissectorWorker

namespace State

variable {hardware : ℕ} {s s' : State hardware} {load : List (String × String) → String → Bool}
  {e : Event hardware} {es : List (Event hardware)} {w : Core hardware} {src : DissectorSource}
  {n : ℕ} {packet : PacketPtr → Packet}

/-- The source was queued for the worker before the packet was passed to `insert`. -/
def QueuedBefore (es : List (Event hardware)) (w : Core hardware) (src : DissectorSource)
    (n : ℕ) : Prop :=
  ∃ es₁ es₂ t t', es = es₁ ++ .insert t (some n) :: es₂ ∧ .loadDissector t' w src ∈ es₁

lemma QueuedBefore.queued (h : QueuedBefore es w src n) : ∃ t, .loadDissector t w src ∈ es := by
  obtain ⟨es₁, es₂, t, t', rfl, hmem⟩ := h
  exact ⟨t', List.mem_append_left _ hmem⟩

lemma queuedBefore_concat (h : QueuedBefore (es ++ [e]) w src n) :
    QueuedBefore es w src n ∨ ∃ t, e = .insert t (some n) := by
  obtain ⟨es₁, es₂, t, t', heq, hmem⟩ := h
  rcases List.eq_nil_or_concat es₂ with rfl | ⟨es₃, e', rfl⟩
  · have hlast := List.append_inj_right' heq rfl
    exact Or.inr ⟨t, by simpa using hlast⟩
  · have hcons : es ++ [e] = (es₁ ++ .insert t (some n) :: es₃) ++ [e'] := by simpa using heq
    exact Or.inl ⟨es₁, es₃, t, t', List.append_inj_left' hcons rfl, hmem⟩

/-- What should hold when a worker goes on to the next packet inside its inner loop: the sources
still waiting for it are younger than that packet. -/
def Punctual (es : List (Event hardware)) (s : State hardware) : Event hardware → Prop
  | .dissected w _ => ∀ n ps src, s.waitingPackets = .made n :: ps →
      src ∈ (s.workers w).sources → ¬ QueuedBefore es w src n
  | _ => True

/-- A queued source is waiting or loaded, and loaded where a younger packet is dissected. -/
structure Informed (load : List (String × String) → String → Bool) (es : List (Event hardware))
    (s : State hardware) : Prop where
  queued : ∀ w src t, .loadDissector t w src ∈ es →
    src ∈ (s.workers w).sources ∨ (s.workers w).Loaded load src
  used : ∀ w n src, (s.workers w).phase = .dissecting (.made n) → QueuedBefore es w src n →
    (s.workers w).Loaded load src

lemma informed_init (packet : PacketPtr → Packet) :
    (init packet : State hardware).Informed load [] where
  queued w src t ht := by cases ht
  used w n src hp := by simp [init] at hp

/-- What a step has to do for each worker. -/
lemma Informed.concat (h : s.Informed load es) (hp : s.Pipeline (insertedBy es))
    (hnew : (insertedBy es ++ e.inserted.toList).Nodup)
    (hload : ∀ t w src, e = .loadDissector t w src → src ∈ (s'.workers w).sources)
    (hqueued : ∀ w src, src ∈ (s.workers w).sources → src ∈ (s'.workers w).sources ∨
      (s'.workers w).Loaded load src)
    (hloaded : ∀ w src, (s.workers w).Loaded load src → (s'.workers w).Loaded load src)
    (hused : ∀ w n, (s'.workers w).phase = .dissecting (.made n) →
      (s.workers w).phase = .dissecting (.made n) ∨
        (e.inserted = none ∧ ∀ src, QueuedBefore es w src n → (s'.workers w).Loaded load src)) :
    s'.Informed load (es ++ [e]) where
  queued w src t ht := by
    rcases List.mem_append.mp ht with ht | ht
    · rcases h.queued w src t ht with hsrc | hl
      · exact hqueued w src hsrc
      · exact Or.inr (hloaded w src hl)
    · exact Or.inl (hload t w src (List.mem_singleton.mp ht).symm)
  used w n src hw hb := by
    rcases queuedBefore_concat hb with hb | ⟨t, rfl⟩
    · rcases hused w n hw with hold | ⟨-, hl⟩
      · exact hloaded w src (h.used w n src hold hb)
      · exact hl src hb
    · -- a packet just inserted is not being dissected
      rcases hused w n hw with hold | ⟨hnone, -⟩
      · have hmem : n ∈ insertedBy es := hp.dissecting w (.made n) hold
        exact absurd (List.mem_singleton_self n) (List.disjoint_of_nodup_append hnew hmem)
      · cases hnone

/-- The worker that runs or gets a command in a step. -/
def worker : Event hardware → Option (Core hardware)
  | .wake w => some w
  | .dissected w _ => some w
  | .loadDissector _ w _ => some w
  | .loadModule _ w _ _ => some w
  | _ => none

/-- All other steps wake the dissector workers up or leave them alone. -/
lemma workers_frame (hs : s.step load e = some s') (he : worker e = none) :
    s'.workers = s.workers ∨ s'.workers = fun w => (s.workers w).notified := by
  cases e with
  | wake w => cases he
  | dissected w layers => cases he
  | loadDissector t w src => cases he
  | loadModule t w name source => cases he
  | notify t =>
    rcases notify_cases hs with ⟨-, rfl⟩ | ⟨-, rfl⟩
    · exact Or.inr rfl
    · exact Or.inl rfl
  | filterStart name w =>
    obtain ⟨f, -, -, rfl⟩ := filterStart_cases hs
    exact Or.inl rfl
  | filterWake name w =>
    obtain ⟨f, -, -, ⟨-, rfl⟩ | ⟨-, -, p, -, rfl⟩ | ⟨-, -, rfl⟩⟩ := filterWake_cases hs
    all_goals exact Or.inl rfl
  | filterDone name w =>
    obtain ⟨f, p, -, -, rfl⟩ := filterDone_cases hs
    exact Or.inl rfl
  | exitFilter t name =>
    obtain ⟨-, ⟨-, rfl⟩ | ⟨f, -, rfl⟩⟩ := exitFilter_cases hs
    all_goals exact Or.inl rfl
  | installFilter t name source loaded accepts =>
    obtain ⟨-, -, rfl⟩ := installFilter_cases hs
    exact Or.inl rfl
  | _ => exact Or.inl (apart_frame hs trivial).1

/-- A worker that goes on to the next packet changes its own phase only. -/
lemma take_worker (s : State hardware) (w v : Core hardware) :
    ∃ phase, (s.take w).workers v = { s.workers v with phase := phase } ∧
      ∀ p, phase = .dissecting p → (v ≠ w ∧ (s.workers v).phase = .dissecting p) ∨
        (v = w ∧ ∃ ps, s.waitingPackets = p :: ps) := by
  by_cases hv : v = w
  · subst hv
    rcases take_cases s v with ⟨-, ht⟩ | ⟨q, ps, hq, ht⟩
    · refine ⟨.ready, by rw [ht, setWorker_workers, Function.update_self], by simp⟩
    · refine ⟨.dissecting q, by rw [ht, setWorker_workers, Function.update_self], fun p hp => ?_⟩
      obtain rfl : q = p := by simpa using hp
      exact Or.inr ⟨rfl, ps, hq⟩
  · refine ⟨(s.workers v).phase, ?_, fun p hp => Or.inl ⟨hv, hp⟩⟩
    rcases take_cases s w with ⟨-, ht⟩ | ⟨q, ps, -, ht⟩
    all_goals rw [ht, setWorker_workers, Function.update_of_ne hv]

/-- One worker changes, but keeps what it has loaded and takes no packet. -/
lemma Informed.setWorker (h : s.Informed load es) (hp : s.Pipeline (insertedBy es))
    (hnew : (insertedBy es ++ e.inserted.toList).Nodup) {x : DissectorWorker}
    (hw : s'.workers = Function.update s.workers w x)
    (hload : ∀ t v src, e = .loadDissector t v src → v = w ∧ src ∈ x.sources)
    (hsources : (s.workers w).sources ⊆ x.sources) (hm : (s.workers w).modules <+: x.modules)
    (hd : x.dissectors = (s.workers w).dissectors) (hph : ∀ p, x.phase = .dissecting p → (s.workers w).phase = .dissecting p) :
    s'.Informed load (es ++ [e]) := by
  refine h.concat hp hnew (fun t v src he => ?_) (fun v src hsrc => Or.inl ?_)
    (fun v src hl => ?_) fun v n hv => Or.inl ?_
  · obtain ⟨rfl, hsrc⟩ := hload t v src he
    rw [hw, Function.update_self]
    exact hsrc
  all_goals simp only [hw, Function.update_apply] at *
  · split_ifs with hvw
    · exact hsources (hvw ▸ hsrc)
    · exact hsrc
  · split_ifs with hvw
    · exact (hvw ▸ hl).mono hm fun ns => by rw [hd]; exact List.Subset.refl _
    · exact hl
  · split_ifs at hv with hvw
    · rw [hvw]
      exact hph _ hv
    · exact hv

lemma Informed.wake (h : s.Informed load es) (hp : s.Pipeline (insertedBy es))
    (hnew : (insertedBy es ++ (Event.wake w).inserted.toList).Nodup)
    (hs : s.wake load w = some s') : s'.Informed load (es ++ [.wake w]) := by
  obtain ⟨-, ⟨-, -, rfl⟩ | ⟨-, rfl⟩⟩ := wake_cases hs
  · exact h.setWorker hp hnew rfl (by simp) (List.Subset.refl _) List.prefix_rfl rfl (by simp)
  · -- the worker has compiled everything queued for it before it takes a packet
    have hworker : ∀ v, ∃ phase, ((s.setWorker w ((s.workers w).loadSources load)).take w).workers v
        = { if v = w then (s.workers w).loadSources load else s.workers v with phase := phase } ∧
        ∀ p, phase = .dissecting p → (v ≠ w ∧ (s.workers v).phase = .dissecting p) ∨ v = w := by
      intro v
      obtain ⟨phase, hx, hphase⟩ := take_worker (s.setWorker w ((s.workers w).loadSources load)) w v
      rw [setWorker_workers, Function.update_apply] at hx hphase
      refine ⟨phase, hx, fun p hp => ?_⟩
      rcases hphase p hp with ⟨hv, hold⟩ | ⟨hv, -⟩
      · rw [if_neg hv] at hold
        exact Or.inl ⟨hv, hold⟩
      · exact Or.inr hv
    have hloaded : ∀ v src, (src ∈ (s.workers v).sources ∧ v = w) ∨ (s.workers v).Loaded load src →
        (((s.setWorker w ((s.workers w).loadSources load)).take w).workers v).Loaded load src := by
      intro v src hsrc
      obtain ⟨phase, hx, -⟩ := hworker v
      rw [hx]
      by_cases hv : v = w
      · subst hv
        rw [if_pos rfl]
        have hl : ((s.workers v).loadSources load).Loaded load src :=
          DissectorWorker.loaded_loadSources (hsrc.imp And.left id)
        exact hl
      · rw [if_neg hv]
        exact hsrc.resolve_left fun h => hv h.2
    refine h.concat hp hnew (by simp) (fun v src hsrc => ?_) (fun v src hl => hloaded v src (Or.inr hl))
      fun v n hv => ?_
    · by_cases hvw : v = w
      · exact Or.inr (hloaded v src (Or.inl ⟨hsrc, hvw⟩))
      · obtain ⟨phase, hx, -⟩ := hworker v
        rw [hx, if_neg hvw]
        exact Or.inl hsrc
    · obtain ⟨phase, hx, hphase⟩ := hworker v
      rw [hx] at hv
      rcases hphase _ hv with ⟨-, hold⟩ | rfl
      · exact Or.inl hold
      · refine Or.inr ⟨rfl, fun src hb => hloaded v src ?_⟩
        obtain ⟨t, ht⟩ := hb.queued
        exact (h.queued v src t ht).imp (fun hsrc => ⟨hsrc, rfl⟩) id

lemma Informed.dissected (h : s.Informed load es) (hp : s.Pipeline (insertedBy es))
    {layers : LayerList} (hnew : (insertedBy es ++ (Event.dissected w layers).inserted.toList).Nodup)
    (hpunctual : Punctual es s (.dissected w layers))
    (hs : s.dissected w layers = some s') : s'.Informed load (es ++ [.dissected w layers]) := by
  obtain ⟨p, -, rfl⟩ := dissected_cases hs
  have htake := take_worker ((s.setLayers p layers).store p).publish w
  rw [publish_workers, publish_waitingPackets] at htake
  refine h.concat hp hnew (by simp) (fun v src hsrc => ?_) (fun v src hl => ?_) fun v n hv => ?_
  all_goals obtain ⟨phase, hx, hphase⟩ := htake v
  · rw [hx]
    exact Or.inl hsrc
  · rw [hx]
    exact hl
  · rw [hx] at hv
    rcases hphase _ hv with ⟨-, hold⟩ | ⟨rfl, ps, hq⟩
    · exact Or.inl hold
    · refine Or.inr ⟨rfl, fun src hb => ?_⟩
      rw [hx]
      obtain ⟨t, ht⟩ := hb.queued
      rcases h.queued v src t ht with hsrc | hl
      · exact absurd hb (hpunctual n ps src hq hsrc)
      · exact hl

/-- Being woken up is no news for a worker. -/
lemma Informed.rest (h : s.Informed load es) (hp : s.Pipeline (insertedBy es))
    (hnew : (insertedBy es ++ e.inserted.toList).Nodup)
    (hs : s.step load e = some s') (he : worker e = none) : s'.Informed load (es ++ [e]) := by
  have hload : ∀ t w src, e ≠ .loadDissector t w src := by
    rintro t w src rfl
    cases he
  refine h.concat hp hnew (fun t w src he => absurd he (hload t w src)) (fun w src hsrc => Or.inl ?_)
    (fun w src hl => ?_) fun w n hph => Or.inl ?_
  all_goals rcases workers_frame hs he with hw | hw
  all_goals simp only [hw] at *
  · exact hsrc
  · simpa using hsrc
  · exact hl
  · exact DissectorWorker.notified_loaded.mpr hl
  · exact hph
  · exact DissectorWorker.notified_dissecting.mp hph

theorem Informed.step (h : s.Informed load es) (hp : s.Pipeline (insertedBy es))
    (hnew : (insertedBy es ++ e.inserted.toList).Nodup) (hpunctual : Punctual es s e)
    (hs : s.step load e = some s') : s'.Informed load (es ++ [e]) := by
  cases e with
  | wake w => exact h.wake hp hnew hs
  | dissected w layers => exact h.dissected hp hnew hpunctual hs
  | loadDissector t w src =>
    obtain ⟨-, rfl⟩ := loadDissector_cases hs
    refine h.setWorker hp hnew rfl (fun t' v src' he => ?_) (List.subset_append_left _ _)
      List.prefix_rfl rfl fun _ => id
    obtain ⟨-, rfl, rfl⟩ := by simpa using he
    exact ⟨rfl, List.mem_append_right _ (List.mem_singleton_self _)⟩
  | loadModule t w name source =>
    obtain ⟨-, rfl⟩ := loadModule_cases hs
    exact h.setWorker hp hnew rfl (by simp) (List.Subset.refl _) (List.prefix_append _ _) rfl
      fun _ => id
  | _ => exact h.rest hp hnew hs rfl

/-- A dissector that has been queued before a packet was inserted is used for that packet, if no
worker goes on to a packet while it has an older source waiting. -/
theorem loaded_of_punctual (hrun : Run.run (step load) (init packet) es = some s)
    (hes : (insertedBy es).Nodup)
    (hpunctual : Run.MeetsAlong (step load) Punctual [] (init packet) es)
    (hb : QueuedBefore es w src n) (hw : (s.workers w).phase = .dissecting (.made n))
    (hload : ∀ modules, modules <+: (s.workers w).modules → load modules src.source = true) :
    ∃ modules, ∀ ns ∈ src.namespaces,
      ⟨src.source, src.namespaces, modules⟩ ∈ (s.workers w).dissectors ns := by
  have hinformed : s.Informed load es := by
    refine Run.meets_induction (motive := fun es s => (insertedBy es).Nodup → s.Informed load es)
      (fun _ => informed_init packet) ?_ hpunctual hrun hes
    intro es s e s' hrun ih he hs hnew
    rw [insertedBy_concat] at hnew
    have hold := hnew.of_append_left
    exact (ih hold).step (consistent_run hrun hold).pipeline hnew he hs
  obtain ⟨modules, hprefix, hl⟩ := hinformed.used w n src hw hb
  exact ⟨modules, hl (hload modules hprefix)⟩

/-- A source for Ethernet frames. -/
def ethernetSource : DissectorSource := ⟨"eth.es", ["::<Ethernet>"]⟩

/-- A source queued while the worker has nothing to do. -/
def punctualRun : List (Event 1) :=
  [.loadDissector 1 0 ethernetSource, .notify 1, .insert 0 (some 0), .push 0, .notify 0, .wake 0,
    .insert 0 (some 1), .push 0, .notify 0, .dissected 0 []]

/-- A source queued while the worker is busy with packet 0. -/
def overtakenRun : List (Event 1) :=
  [.insert 0 (some 0), .push 0, .notify 0, .wake 0, .loadDissector 1 0 ethernetSource, .notify 1,
    .insert 0 (some 1), .push 0, .notify 0, .dissected 0 []]

theorem loaded_of_punctual_ethernet : ∃ s : State 1,
    Run.run (step fun _ _ => true) (init fun _ => default) punctualRun = some s ∧
      (s.workers 0).phase = .dissecting (.made 1) ∧
      ∃ modules, ∀ ns ∈ ethernetSource.namespaces,
        ⟨"eth.es", ["::<Ethernet>"], modules⟩ ∈ (s.workers 0).dissectors ns := by
  have hrun : Run.run (step fun _ _ => true) (init fun _ => default) punctualRun = some _ := rfl
  have hpunctual : Run.MeetsAlong (step fun _ _ => true) Punctual []
      (init fun _ => default : State 1) punctualRun := by
    repeat refine (Run.meets_cons rfl).mpr ⟨trivial, ?_⟩
    refine (Run.meets_cons rfl).mpr ⟨fun n ps src _ hsrc => ?_, trivial⟩
    cases hsrc
  have hb : QueuedBefore punctualRun 0 ethernetSource 1 :=
    ⟨punctualRun.take 6, punctualRun.drop 7, 0, 1, rfl, List.mem_cons_self⟩
  exact ⟨_, hrun, rfl, loaded_of_punctual hrun (by decide) hpunctual hb rfl fun _ _ => rfl⟩

/-- Packet 1 overtakes the source queued before it: the worker dissects it without. -/
theorem source_overtaken : ∃ s : State 1,
    Run.run (step fun _ _ => true) (init fun _ => default) overtakenRun = some s ∧
      (insertedBy overtakenRun).Nodup ∧ QueuedBefore overtakenRun 0 ethernetSource 1 ∧
      (s.workers 0).phase = .dissecting (.made 1) ∧
      (s.workers 0).dissectors "::<Ethernet>" = [] :=
  ⟨_, rfl, by decide,
    ⟨overtakenRun.take 6, overtakenRun.drop 7, 0, 1, rfl, by simp [overtakenRun]⟩, rfl, rfl⟩

end State

end Dripcap
