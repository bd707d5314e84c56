import Dripcap.Dispatcher.Places
import Mathlib.Data.Set.Card

/-!
# The bound of the packet queue

`insert` looks at the length of the queue in its first locked section and pushes in its second one.
The packets that have passed the test and are not in the queue yet are not counted.
-/

namespace Dripcap.State

open Run

variable {hardware : ℕ} {load : List (String × String) → String → Bool}
  {s s' : State hardware} {t : ℕ}

/-- The threads between the two locked sections of `insert`. -/
def admitted (s : State hardware) : Set ℕ := {t | ∃ p, s.calls t = .inserting p}

/-- The packets in the queue and those that are going to be pushed. -/
noncomputable def expected (s : State hardware) : ℕ := s.waitingPackets.length + s.admitted.ncard

/-- Finitely many threads are in `insert`, and there is room for the packets of all of them. -/
structure HasRoom (s : State hardware) : Prop where
  finite : s.admitted.Finite
  expected_le : s.expected ≤ 32

/-- What should hold when a call passes the test. -/
def AdmitsWithin (s : State hardware) (e : Event hardware) : Prop :=
  ∀ t n, e = .insert t (some n) → s.waitingPackets.length < 32 → s.expected < 32

/-! ### Steps -/

lemma expected_congr (hqueue : s'.waitingPackets = s.waitingPackets)
    (hcalls : ∀ t p, s'.calls t = .inserting p ↔ s.calls t = .inserting p) :
    s'.admitted = s.admitted ∧ s'.expected = s.expected := by
  have hadmitted : s'.admitted = s.admitted := by
    ext t
    exact exists_congr fun p => hcalls t p
  exact ⟨hadmitted, by rw [expected, expected, hqueue, hadmitted]⟩

lemma admitted_accept (s : State hardware) (t n : ℕ) :
    (s.accept t n).admitted = Insert.insert t s.admitted := by
  ext u
  simp only [admitted, accept_calls, Function.update_apply, Set.mem_ofPred_eq, Set.mem_insert_iff]
  split_ifs with hu
  · exact iff_of_true ⟨_, rfl⟩ (.inl hu)
  · exact (or_iff_right hu).symm

lemma expected_accept (hfinite : s.admitted.Finite) (ht : s.calls t = .idle) (n : ℕ) :
    (s.accept t n).expected = s.expected + 1 := by
  have hnot : t ∉ s.admitted := by
    rintro ⟨p, hp⟩
    rw [ht] at hp
    cases hp
  rw [expected, admitted_accept, Set.ncard_insert_of_notMem hnot hfinite]
  rfl

lemma admitted_enqueue (s : State hardware) (t : ℕ) (p : PacketPtr) :
    (s.enqueue t p).admitted = s.admitted \ {t} := by
  ext u
  simp only [admitted, enqueue_calls, Function.update_apply, Set.mem_ofPred_eq, Set.mem_sdiff,
    Set.mem_singleton_iff]
  split_ifs with hu
  · exact iff_of_false nofun fun h => h.2 hu
  · exact (and_iff_left hu).symm

/-- A packet that is pushed has been expected. -/
lemma expected_enqueue {p : PacketPtr} (hfinite : s.admitted.Finite)
    (ht : s.calls t = .inserting p) : (s.enqueue t p).expected = s.expected := by
  have hmem : t ∈ s.admitted := ⟨p, ht⟩
  have hcard := Set.ncard_sdiff_singleton_add_one hmem hfinite
  rw [expected, expected, admitted_enqueue, enqueue_waitingPackets, List.length_append,
    List.length_singleton]
  omega

lemma expected_take_le (s : State hardware) (w : Core hardware) :
    (s.take w).admitted = s.admitted ∧ (s.take w).expected ≤ s.expected := by
  have hadmitted : (s.take w).admitted = s.admitted := by rw [admitted, take_calls, admitted]
  have hqueue : (s.take w).waitingPackets.length ≤ s.waitingPackets.length := by
    rcases take_cases s w with ⟨-, h⟩ | ⟨p, ps, hps, h⟩
    · rw [h, setWorker_waitingPackets]
    · rw [h, setWorker_waitingPackets, hps, List.length_cons]
      exact Nat.le_succ _
  refine ⟨hadmitted, ?_⟩
  rw [expected, expected, hadmitted]
  exact Nat.add_le_add_right hqueue _

/-- A call of `insert` that passes the test adds one to what is expected; no other step adds
anything. -/
lemma step_expected {e : Event hardware} (hfinite : s.admitted.Finite)
    (hs : s.step load e = some s') :
    (∃ t n, e = .insert t (some n) ∧ s.waitingPackets.length < 32 ∧ s'.admitted.Finite ∧
        s'.expected = s.expected + 1) ∨
      s'.admitted.Finite ∧ s'.expected ≤ s.expected := by
  cases step_outcome hs with
  | quiet q =>
    obtain ⟨hadmitted, hexpected⟩ := expected_congr q.queue q.calls
    exact .inr ⟨hadmitted ▸ hfinite, hexpected.le⟩
  | accept t n hc hq =>
    refine .inl ⟨t, n, rfl, hq, ?_, expected_accept hfinite hc n⟩
    rw [admitted_accept]
    exact hfinite.insert t
  | enqueue t p hp =>
    refine .inr ⟨?_, (expected_enqueue hfinite hp).le⟩
    rw [admitted_enqueue]
    exact hfinite.sdiff
  | take w hp =>
    obtain ⟨hadmitted, hle⟩ := expected_take_le (s.setWorker w ((s.workers w).loadSources load)) w
    exact .inr ⟨hadmitted ▸ hfinite, hle⟩
  | analyze layers p _ => exact .inr ⟨hfinite, le_rfl⟩
  | store w layers p hp =>
    obtain ⟨hadmitted, hle⟩ := expected_take_le ((s.setLayers p layers).store p).publish w
    have hcongr := @expected_congr hardware s ((s.setLayers p layers).store p).publish
      (publish_waitingPackets _) (fun t q => by rw [publish_calls]; rfl)
    rw [hcongr.1] at hadmitted
    rw [hcongr.2] at hle
    exact .inr ⟨hadmitted ▸ hfinite, hle⟩

lemma finite_of_run {packet : PacketPtr → Packet} {es : List (Event hardware)}
    (hrun : run (step load) (init packet) es = some s) : s.admitted.Finite := by
  refine run_invariant (I := fun s => s.admitted.Finite) ?_ ?_ hrun
  · exact Set.finite_empty.subset fun t ⟨p, hp⟩ => nomatch hp
  · intro s e s' hfinite hs
    rcases step_expected hfinite hs with ⟨_, _, -, -, hfinite', -⟩ | ⟨hfinite', -⟩
    · exact hfinite'
    · exact hfinite'

/-! ### Pushes -/

/-- Events that end the calls of `insert` that are under way. -/
def ArePushes (es : List (Event hardware)) : Prop := ∀ e ∈ es, ∃ t, e = .push t

/-- All packets that are expected can come into the queue one after the other. -/
lemma exists_pushes (hfinite : s.admitted.Finite) : ∃ pushes s', ArePushes pushes ∧
    run (step load) s pushes = some s' ∧ s'.waitingPackets.length = s.expected := by
  induction hn : s.admitted.ncard generalizing s with
  | zero => exact ⟨[], s, nofun, rfl, by rw [expected, hn, Nat.add_zero]⟩
  | succ n ih =>
    obtain ⟨t, p, hp⟩ := Set.nonempty_of_ncard_ne_zero (by rw [hn]; exact Nat.succ_ne_zero n)
    have hstep : s.step load (.push t) = some (s.enqueue t p) := by
      rw [step, push, hp]
    have hfinite' : (s.enqueue t p).admitted.Finite := by
      rw [admitted_enqueue]
      exact hfinite.sdiff
    have hcard : (s.enqueue t p).admitted.ncard = n := by
      have hone := Set.ncard_sdiff_singleton_add_one (show t ∈ s.admitted from ⟨p, hp⟩) hfinite
      rw [admitted_enqueue]
      omega
    obtain ⟨pushes, s', hpushes, hrun, hlength⟩ := ih hfinite' hcard
    refine ⟨.push t :: pushes, s', List.forall_mem_cons.mpr ⟨⟨t, rfl⟩, hpushes⟩, ?_, ?_⟩
    · rw [run_cons, hstep]
      exact hrun
    · rw [hlength, expected_enqueue hfinite hp]

lemma ArePushes.expected_le {pushes : List (Event hardware)} (hpushes : ArePushes pushes)
    (hroom : s.HasRoom) (hrun : run (step load) s pushes = some s') : s'.HasRoom := by
  induction pushes generalizing s with
  | nil => exact Option.some.inj hrun ▸ hroom
  | cons e es ih =>
    obtain ⟨⟨t, rfl⟩, hes⟩ := List.forall_mem_cons.mp hpushes
    obtain ⟨m, hstep, hrest⟩ := Option.bind_eq_some_iff.mp hrun
    refine ih hes ?_ hrest
    rcases step_expected hroom.finite hstep with ⟨_, _, hinsert, -⟩ | ⟨hfinite, hle⟩
    · cases hinsert
    · exact ⟨hfinite, hle.trans hroom.expected_le⟩

/-- The queue stays bounded while the calls under way come to their ends exactly when there is room
for all of their packets. -/
lemma bounded_iff (hfinite : s.admitted.Finite) :
    (∀ pushes s', ArePushes pushes → run (step load) s pushes = some s' →
      s'.waitingPackets.length ≤ 32) ↔ s.HasRoom := by
  constructor
  · intro hbounded
    obtain ⟨pushes, s', hpushes, hrun, hlength⟩ := @exists_pushes _ load s hfinite
    exact ⟨hfinite, hlength ▸ hbounded pushes s' hpushes hrun⟩
  · intro hroom pushes s' hpushes hrun
    have hle : s'.expected ≤ 32 := (hpushes.expected_le hroom hrun).expected_le
    exact (Nat.le_add_right _ _).trans hle

/-! ### Runs -/

lemma hasRoom_init (packet : PacketPtr → Packet) : (init packet : State hardware).HasRoom := by
  have hempty : (init packet : State hardware).admitted = ∅ :=
    Set.eq_empty_of_forall_notMem fun t ⟨p, hp⟩ => nomatch hp
  refine ⟨hempty ▸ Set.finite_empty, ?_⟩
  rw [expected, hempty, Set.ncard_empty]
  exact Nat.zero_le 32

lemma HasRoom.step {e : Event hardware} (hroom : s.HasRoom) (hwithin : s.AdmitsWithin e)
    (hs : s.step load e = some s') : s'.HasRoom := by
  rcases step_expected hroom.finite hs with ⟨t, n, rfl, hlt, hfinite, heq⟩ | ⟨hfinite, hle⟩
  · exact ⟨hfinite, heq ▸ hwithin t n rfl hlt⟩
  · exact ⟨hfinite, hle.trans hroom.expected_le⟩

lemma HasRoom.admitsWithin {e : Event hardware} (hroom : s.HasRoom) (hs : s.step load e = some s')
    (hroom' : s'.HasRoom) : s.AdmitsWithin e := by
  rintro t n rfl hlt
  have hinsert : s.insert t (some n) = some s' := hs
  obtain ⟨hc, ⟨hnone, -⟩ | ⟨m, hm, ⟨hfull, -⟩ | ⟨-, rfl⟩⟩⟩ := insert_cases hinsert
  · cases hnone
  · exact absurd hlt (Nat.not_lt.mpr hfull)
  · exact (expected_accept hroom.finite hc m).symm.trans_le hroom'.expected_le

/-- The queue never holds more than 32 packets, in the states of a run and after the calls that are
under way in them, exactly when a call of `insert` passes the test only while less than 32 packets
are queued or admitted. The left side counts pushes that may still come: a run that violates the
condition need not have pushed the packets it has admitted, but nothing holds them back. -/
theorem queue_bounded_iff (load : List (String × String) → String → Bool)
    (packet : PacketPtr → Packet) {es : List (Event hardware)} {s : State hardware}
    (hrun : run (State.step load) (init packet) es = some s) :
    (∀ es' pushes s', es' <+: es → ArePushes pushes →
        run (State.step load) (init packet) (es' ++ pushes) = some s' →
        s'.waitingPackets.length ≤ 32) ↔
      Meets (State.step load) AdmitsWithin (init packet) es := by
  rw [← forall_prefix_iff_meets (I := HasRoom) (T := HasRoom) (hasRoom_init packet) (fun _ h => h)
    (fun _ _ _ hI hC hs => hI.step hC hs) (fun _ _ _ hT hs hT' => hT.admitsWithin hs hT') hrun]
  constructor
  · intro hall es' m hprefix hm
    refine (@bounded_iff _ load m (finite_of_run hm)).mp fun pushes s' hpushes hrun' => ?_
    exact hall es' pushes s' hprefix hpushes (run_trans hm hrun')
  · intro hroom es' pushes s' hprefix hpushes hrun'
    obtain ⟨m, hm, hrest⟩ := run_append_iff.mp hrun'
    exact (bounded_iff (finite_of_run hm)).mpr (hroom es' m hprefix hm) pushes s' hpushes hrest

/-- Three threads are between their locked sections at a time; the last of them stays there. -/
def admittedRun : List (Event 1) :=
  [.insert 0 (some 7), .insert 1 (some 8), .wake 0, .insert 2 (some 9), .push 1, .push 0,
    .notify 1, .wake 0]

theorem queue_bounded_iff_admitted :
    (∀ es' pushes s', es' <+: admittedRun → ArePushes pushes →
        run (State.step fun _ _ => true) (init fun _ => {} : State 1) (es' ++ pushes) = some s' →
        s'.waitingPackets.length ≤ 32) ↔
      Meets (State.step fun _ _ => true) AdmitsWithin (init fun _ => {} : State 1) admittedRun :=
  queue_bounded_iff (fun _ _ => true) (fun _ => {}) (show run _ _ _ = some _ from rfl)

/-- Two threads pass the test while 31 packets are queued. -/
def overfullRun : List (Event 1) :=
  (List.range 31).flatMap (fun n => [.insert 0 (some n), .push 0, .notify 0]) ++
    [.insert 0 (some 31), .insert 1 (some 32), .push 0, .push 1]

/-- The queue then holds 33 packets. -/
theorem queue_overfull : ((run (State.step fun _ _ => true) (init fun _ => {} : State 1)
    overfullRun).map fun s => s.waitingPackets.length) = some 33 := by
  decide +kernel

end Dripcap.State
