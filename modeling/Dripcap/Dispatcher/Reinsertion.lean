import Dripcap.Dispatcher.Ids

/-!
# Packet objects that are inserted again

`insert` writes the new id into the packet object it is given. A capture that hands over the same
objects again and again, as `PcapDummy` does, may do so while the object still stands for an
earlier packet: then the id of that packet is overwritten.
-/

namespace Dripcap

/-! ### The dummy capture -/

/-- The part of `PcapDummy` that its thread uses: the packet objects and the local `count`. -/
structure PcapDummy where
  packets : List ℕ
  count : ℕ := 0

namespace PcapDummy

/-- One round of the loop of the capture thread: the packet for the handler. -/
def next (d : PcapDummy) : Option ℕ × PcapDummy :=
  if 0 < d.packets.length then
    (d.packets[d.count]?, { d with count := (d.count + 1) % d.packets.length })
  else (none, d)

/-- The packets of the next `n` rounds. -/
def captured (d : PcapDummy) : ℕ → List (Option ℕ)
  | 0 => []
  | n + 1 => d.next.1 :: d.next.2.captured n

/-- The thread goes through the list of packets in circles. -/
theorem captured_eq {d : PcapDummy} {i : ℕ} (hpos : 0 < d.packets.length)
    (hcount : d.count = i % d.packets.length) (n : ℕ) :
    d.captured n = (List.range' i n).map fun j => d.packets[j % d.packets.length]? := by
  induction n generalizing d i with
  | zero => rfl
  | succ n ih =>
    have hnext : d.next = (d.packets[d.count]?,
        { d with count := (d.count + 1) % d.packets.length }) := if_pos hpos
    have htail : d.next.2.captured n =
        (List.range' (i + 1) n).map fun j => d.packets[j % d.packets.length]? := by
      rw [hnext]
      apply ih (d := { d with count := (d.count + 1) % d.packets.length }) hpos
      rw [hcount, Nat.mod_add_mod]
    rw [captured, htail, hnext, List.range'_succ, List.map_cons, hcount]

/-- Up to the end of the list its packets come one after the other. -/
lemma captured_take {d : PcapDummy} (hcount : d.count = 0) {n : ℕ} (hn : n ≤ d.packets.length) :
    d.captured n = (d.packets.take n).map some := by
  rcases Nat.eq_zero_or_pos n with rfl | hpos
  · rfl
  have hcount' : d.count = 0 % d.packets.length := by rw [hcount, Nat.zero_mod]
  rw [captured_eq (hpos.trans_le hn) hcount']
  apply List.ext_getElem
  · simp [Nat.min_eq_left hn]
  · intro j hj _
    have hlt : j < d.packets.length := by
      rw [List.length_map, List.length_range'] at hj
      exact hj.trans_le hn
    simp [Nat.mod_eq_of_lt hlt, hlt]

end PcapDummy

namespace State

variable {hardware : ℕ} {s s' : State hardware} {load : List (String × String) → String → Bool}
  {packet : PacketPtr → Packet} {es : List (Event hardware)}

/-- No packet is queued or being dissected, and no call is about to queue one. -/
def AtRest (s : State hardware) : Prop := ∀ p, ¬ s.InFlight p

/-- Every packet counted is stored under the id it bears. -/
structure Intact (s : State hardware) : Prop where
  stored : ∀ i, 1 ≤ i → i ≤ s.count → s.packets.has i = true
  named : ∀ i p, (s.lookup i).1 = some p → (s.lookup i).2.idOf p = i

lemma pipeline_run (hrun : Run.run (step load) (init packet) es = some s)
    (hes : Run.Meets (step load) InsertsUnused (init packet) es) : s.Pipeline (insertedBy es) := by
  refine Run.meets_induction (motive := fun es s => s.Pipeline (insertedBy es))
    (pipeline_init packet) ?_ hes hrun
  intro es s e s' _ ih hunused hs
  rw [insertedBy_concat]
  exact ih.step_of_unused hs hunused

/-- Where nothing is in flight every id is in the store. -/
lemma Pipeline.stored_of_atRest {inserted : List ℕ} (h : s.Pipeline inserted) (hs : s.AtRest)
    {i : ℕ} (h1 : 1 ≤ i) (hi : i ≤ s.count) : s.packets.has i = true := by
  obtain ⟨pl, hpl, -⟩ := (h.places i).1 ⟨h1, hi⟩
  cases pl with
  | inserting t =>
    obtain ⟨p, hp, -⟩ := hpl
    exact absurd (Or.inl ⟨t, hp⟩) (hs p)
  | waiting =>
    obtain ⟨p, hp, -⟩ := hpl
    exact absurd (Or.inr (Or.inl hp)) (hs p)
  | dissecting w =>
    obtain ⟨p, hp, -⟩ := hpl
    exact absurd (Or.inr (Or.inr ⟨w, hp⟩)) (hs p)
  | stored => exact hpl

lemma Pipeline.intact {inserted : List ℕ} (h : s.Pipeline inserted) (hs : s.AtRest) :
    s.Intact := by
  refine ⟨fun i h1 hi => h.stored_of_atRest hs h1 hi, fun i p hp => ?_⟩
  have hhas : s.packets.has i = true := by
    rw [← lookup_isSome, hp]
    rfl
  obtain ⟨q, hq, hid⟩ := h.lookup hhas
  obtain rfl : p = q := Option.some.inj (hp.symm.trans hq)
  exact hid _ (Reads.refl _)

/-- If no packet object is inserted while it is in use, nothing is lost and nothing is renamed. -/
theorem intact_of_unused (hrun : Run.run (step load) (init packet) es = some s)
    (hes : Run.Meets (step load) InsertsUnused (init packet) es) (hs : s.AtRest) : s.Intact :=
  (pipeline_run hrun hes).intact hs

/-- Packet objects that are inserted once are never in use before. -/
lemma meets_of_nodup (hrun : Run.run (step load) (init packet) es = some s)
    (hes : (insertedBy es).Nodup) : Run.Meets (step load) InsertsUnused (init packet) es := by
  refine Run.run_induction (motive := fun es _ => (insertedBy es).Nodup →
    Run.Meets (step load) InsertsUnused (init packet) es) (fun _ => trivial) ?_ hrun hes
  intro es s e s' hes ih hs hnew
  rw [insertedBy_concat] at hnew
  refine (Run.meets_concat hes hs).mpr ⟨ih hnew.of_append_left, fun _ n hn => ?_⟩
  apply (pipeline_run hes (ih hnew.of_append_left)).unused
  intro hmem
  rw [hn] at hnew
  exact List.disjoint_of_nodup_append hnew hmem (List.mem_singleton_self n)

/-- A capture of different packets does no harm before it begins with its list again. -/
theorem intact_of_captured {d : PcapDummy} (hdistinct : d.packets.Nodup) (hcount : d.count = 0)
    {n : ℕ} (hn : n ≤ d.packets.length) (hrun : Run.run (step load) (init packet) es = some s)
    (hcaptured : (insertedBy es).map some = d.captured n) (hs : s.AtRest) : s.Intact := by
  have hinserted : insertedBy es = d.packets.take n := by
    rw [PcapDummy.captured_take hcount hn] at hcaptured
    exact List.map_injective_iff.mpr (Option.some_injective ℕ) hcaptured
  have hes : (insertedBy es).Nodup := hinserted ▸ hdistinct.sublist (List.take_sublist n _)
  exact (pipeline_run hrun (meets_of_nodup hrun hes)).intact hs

lemma atRest_of (hcalls : ∀ t, s.calls t = .idle) (hqueue : s.waitingPackets = [])
    (hworkers : ∀ w, (s.workers w).phase = .ready) : s.AtRest := by
  rintro p (⟨t, ht⟩ | hq | ⟨w, hw⟩)
  · rw [hcalls t] at ht
    cases ht
  · rw [hqueue] at hq
    cases hq
  · rw [hworkers w] at hw
    cases hw

/-- Two different packet objects. -/
def insertedTwo : List (Event 1) :=
  [.insert 0 (some 7), .push 0, .notify 0, .insert 0 (some 3), .push 0, .notify 0, .wake 0,
    .dissected 0 [], .dissected 0 []]

theorem intact_of_unused_two : ∃ s : State 1,
    Run.run (step fun _ _ => true) (init fun _ => default) insertedTwo = some s ∧ s.count = 2 ∧
      s.Intact := by
  have h : ∀ s : State 1,
      Run.run (step fun _ _ => true) (init fun _ => default) insertedTwo = some s → s.AtRest →
      s.Intact :=
    fun s hrun hrest => intact_of_unused hrun (meets_of_nodup hrun (by decide)) hrest
  refine ⟨_, rfl, rfl, h _ rfl ?_⟩
  exact atRest_of (fun t => by cases t <;> rfl) rfl (by decide)

/-- A capture of one packet object whose second round comes before the first dissection. -/
def queuedTwice : List (Event 1) :=
  [.insert 0 (some 7), .push 0, .notify 0, .insert 0 (some 7), .push 0, .notify 0, .wake 0,
    .dissected 0 [], .dissected 0 []]

/-- The same capture with a second round that comes after the first packet has been stored. -/
def storedTwice : List (Event 1) :=
  [.insert 0 (some 7), .push 0, .notify 0, .wake 0, .dissected 0 [], .insert 0 (some 7), .push 0,
    .notify 0, .wake 0, .dissected 0 []]

/-- A packet that is inserted again while it is queued is stored twice under its second id and
never under its first one; one that is inserted again after it has been stored bears its second
id also where it is stored under the first one. -/
theorem reinserted_renamed :
    (insertedBy queuedTwice).map some = PcapDummy.captured ⟨[7], 0⟩ 2 ∧
    (insertedBy storedTwice).map some = PcapDummy.captured ⟨[7], 0⟩ 2 ∧
    (∃ s : State 1, Run.run (step fun _ _ => true) (init fun _ => default) queuedTwice = some s ∧
      s.AtRest ∧ (s.count = 2 ∧ s.packets.has 1 = false ∧ s.maxID = 0) ∧ ¬ s.Intact) ∧
    ∃ s : State 1, Run.run (step fun _ _ => true) (init fun _ => default) storedTwice = some s ∧
      s.AtRest ∧ (∃ p, (s.lookup 1).1 = some p ∧ (s.lookup 1).2.idOf p = 2) ∧ ¬ s.Intact := by
  refine ⟨rfl, rfl, ⟨_, rfl, ?_, by decide, fun h => ?_⟩, ⟨_, rfl, ?_, ⟨.made 7, ?_⟩, fun h => ?_⟩⟩
  · exact atRest_of (fun t => by cases t <;> rfl) rfl (by decide)
  · exact absurd (h.stored 1 le_rfl (by decide)) (by decide)
  · exact atRest_of (fun t => by cases t <;> rfl) rfl (by decide)
  · exact ⟨by decide, by decide⟩
  · exact absurd (h.named 1 (.made 7) (by decide)) (by decide)

end State

end Dripcap
