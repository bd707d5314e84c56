import Dripcap.Library.Run

/-!
# Capturing

The commands `start`, `stop` and `set_testdata` of `server.cpp` with the two implementations of
`PcapInterface`. A capture loop runs in a thread of its own; the one of `Pcap` also ends when
`pcap_next_ex` reports an error, and nobody is told.
-/

namespace Dripcap

/-- The implementations of `PcapInterface`. -/
inductive PcapKind where
  | pcap
  | dummy
deriving DecidableEq, Repr

/-- A `Pcap` or a `PcapDummy`: its flag `active`, and whether its capture loop is running. A loop
is started with the flag set, `stop` waits for its end, and the one of a `PcapDummy` ends in no
other way. -/
structure PcapInterface where
  kind : PcapKind
  active : Bool
  running : Bool
  active_of_running : running = true → active = true
  running_of_dummy : kind = .dummy → active = true → running = true

namespace PcapInterface

/-- An object without a capture loop, as it is constructed. -/
def idle (kind : PcapKind) : PcapInterface where
  kind := kind
  active := false
  running := false
  active_of_running h := by cases h
  running_of_dummy _ h := by cases h

variable (p : PcapInterface)

/-- The object with a capture loop. -/
def started : PcapInterface where
  kind := p.kind
  active := true
  running := true
  active_of_running _ := rfl
  running_of_dummy _ _ := rfl

/-- `Pcap::start` and `PcapDummy::start`; `opens` tells whether the device can be opened and the
filter set. -/
def start (opens : Bool) : PcapInterface × Bool :=
  match p.kind with
  | .pcap => if p.active then (p, true) else if opens then (p.started, true) else (p, false)
  | .dummy => if p.active then (p, false) else (p.started, true)

/-- `Pcap::stop` and `PcapDummy::stop` -/
def stop : PcapInterface × Bool :=
  if p.active then (idle p.kind, true) else (p, false)

/-- The loop of `Pcap` has ended after an error of `pcap_next_ex`; `active` stays as it is. -/
def ended (h : p.kind = .pcap) : PcapInterface where
  kind := p.kind
  active := p.active
  running := false
  active_of_running hrunning := by cases hrunning
  running_of_dummy hdummy := by
    rw [h] at hdummy
    cases hdummy

end PcapInterface

/-- The part of `Server::Private` that is concerned. -/
structure Capture where
  capturing : Bool
  pcap : PcapInterface

namespace Capture

open Run

/-- A new server with a `Pcap`, or with a `PcapDummy` if it is built without WinPcap. -/
def init (kind : PcapKind) : Capture where
  capturing := false
  pcap := .idle kind

/-- What can happen. -/
inductive Event where
  | start (opens : Bool)
  | stop
  | setTestdata
  | threadEnds
deriving DecidableEq, Repr

/-- The handlers, and the end of a capture loop. Replacing the object destroys the old one, which
stops it first. -/
def step (s : Capture) : Event → Option Capture
  | .start opens => some ⟨(s.pcap.start opens).2, (s.pcap.start opens).1⟩
  | .stop => some ⟨false, s.pcap.stop.1⟩
  | .setTestdata => some ⟨s.capturing, .idle .dummy⟩
  | .threadEnds =>
    if h : s.pcap.kind = .pcap ∧ s.pcap.running = true then some ⟨s.capturing, s.pcap.ended h.1⟩
    else none

/-- The flag tells the truth. -/
def Truthful (s : Capture) : Prop := s.capturing = true ↔ s.pcap.running = true

/-- What has to be so before a step: a `PcapDummy` is not started twice, the object is not
replaced while capturing, and no loop ends by itself. -/
def Orderly (s : Capture) : Event → Prop
  | .start _ => s.pcap.kind = .dummy → s.pcap.active = false
  | .stop => True
  | .setTestdata => s.capturing = false
  | .threadEnds => False

/-- The flag tells the truth, and `active` does too. -/
structure Consistent (s : Capture) : Prop where
  capturing_eq : s.capturing = s.pcap.running
  active_eq : s.pcap.active = s.pcap.running

lemma consistent_init (kind : PcapKind) : Consistent (init kind) := ⟨rfl, rfl⟩

lemma Consistent.truthful {s : Capture} (h : Consistent s) : Truthful s := by
  rw [Truthful, h.capturing_eq]

variable {s s' : Capture} {e : Event}

/-- With `active` true to the facts, `start` starts the loop or says whether it runs. -/
lemma start_cases {p : PcapInterface} (hactive : p.active = p.running)
    (hdummy : p.kind = .dummy → p.active = false) (opens : Bool) :
    p.start opens = (p.started, true) ∨ p.start opens = (p, p.running) := by
  cases hkind : p.kind with
  | dummy =>
    left
    simp [PcapInterface.start, hkind, hdummy hkind]
  | pcap =>
    cases hrunning : p.running with
    | true =>
      right
      simp [PcapInterface.start, hkind, hactive, hrunning]
    | false =>
      cases opens with
      | true =>
        left
        simp [PcapInterface.start, hkind, hactive, hrunning]
      | false =>
        right
        simp [PcapInterface.start, hkind, hactive, hrunning]

lemma stop_cases {p : PcapInterface} (hactive : p.active = p.running) :
    p.stop = (.idle p.kind, true) ∨ p.stop = (p, false) ∧ p.running = false := by
  cases hrunning : p.running with
  | true =>
    left
    simp [PcapInterface.stop, hactive, hrunning]
  | false =>
    right
    simp [PcapInterface.stop, hactive, hrunning]

/-- An orderly step keeps flag, `active` and loop together. -/
lemma Consistent.step (h : Consistent s) (horderly : Orderly s e) (hstep : step s e = some s') :
    Consistent s' := by
  obtain ⟨hcapturing, hactive⟩ := h
  cases e with
  | start opens =>
    cases hstep
    rcases start_cases hactive horderly opens with hstart | hstart
    · rw [hstart]
      exact ⟨rfl, rfl⟩
    · rw [hstart]
      exact ⟨rfl, hactive⟩
  | stop =>
    cases hstep
    rcases stop_cases hactive with hstop | ⟨hstop, hrunning⟩
    · rw [hstop]
      exact ⟨rfl, rfl⟩
    · rw [hstop]
      exact ⟨hrunning.symm, hactive⟩
  | setTestdata =>
    cases hstep
    exact ⟨horderly, rfl⟩
  | threadEnds => exact absurd horderly id

/-- A step that is not orderly leads to a flag that does not tell the truth. -/
lemma Truthful.orderly (h : Truthful s) (hstep : Capture.step s e = some s') (h' : Truthful s') :
    Orderly s e := by
  cases e with
  | start opens =>
    intro hkind
    by_contra hactive
    rw [Bool.not_eq_false] at hactive
    have hstart : s.pcap.start opens = (s.pcap, false) := by
      simp [PcapInterface.start, hkind, hactive]
    simp only [Capture.step, hstart, Option.some.injEq] at hstep
    subst hstep
    cases h'.mpr (s.pcap.running_of_dummy hkind hactive)
  | stop => trivial
  | setTestdata =>
    show s.capturing = false
    by_contra hcapturing
    cases hstep
    rw [Bool.not_eq_false] at hcapturing
    cases h'.mp hcapturing
  | threadEnds =>
    simp only [Capture.step] at hstep
    split_ifs at hstep with hends
    cases hstep
    cases h'.mp (h.mpr hends.2)

/-- With either implementation the flag tells the truth in all states of a run exactly when all
its steps are orderly. -/
theorem truthful_iff (kind : PcapKind) {es : List Event} {s : Capture}
    (h : run Capture.step (init kind) es = some s) :
    (∀ es' s', es' <+: es → run Capture.step (init kind) es' = some s' → Truthful s') ↔
      Meets Capture.step Orderly (init kind) es :=
  forall_prefix_iff_meets (consistent_init kind) (fun _ => Consistent.truthful)
    (fun _ _ _ => Consistent.step) (fun _ _ _ => Truthful.orderly) h

theorem truthful_iff_captured :
    (∀ es' s', es' <+: [Event.start true, .stop] →
      run Capture.step (init .pcap) es' = some s' → Truthful s') ↔
    Meets Capture.step Orderly (init .pcap) [.start true, .stop] :=
  truthful_iff .pcap (s := init .pcap) rfl

/-- Each kind of step that is not orderly, and what becomes of the flag. -/
theorem capturing_lies :
    (∃ s, run Capture.step (init .dummy) [.start true, .start true] = some s ∧
      s.capturing = false ∧ s.pcap.running = true) ∧
    (∃ s, run Capture.step (init .pcap) [.start true, .threadEnds] = some s ∧
      s.capturing = true ∧ s.pcap.running = false) ∧
    (∃ s, run Capture.step (init .pcap) [.start true, .setTestdata] = some s ∧
      s.capturing = true ∧ s.pcap.running = false) :=
  ⟨⟨_, rfl, rfl, rfl⟩, ⟨_, rfl, rfl, rfl⟩, ⟨_, rfl, rfl, rfl⟩⟩

end Capture

end Dripcap
