import Dripcap.Library.Run
import Dripcap.Server.Capture
import Dripcap.Server.Commands

/-!
# The capture filter

`Pcap` of `pcap.cpp` with the program that `setBPF` compiles and `start` installs. What libpcap
answers is part of a call. A call of `setBPF` can fail before and after it has freed the program of
the call before it; in the second case `start` installs nothing, and everything is captured.
-/

namespace Dripcap

open Run

/-- `bpf_insn` -/
structure Insn where
  code : UInt16
  jt : UInt8
  jf : UInt8
  k : UInt32
  deriving DecidableEq

/-- `bpf_program`; `bf_len` is the length. -/
abbrev BpfProgram : Type := List Insn

/-- What `pcap_compile` makes of a filter: it has an instruction that returns. -/
abbrev Compiled : Type := { program : BpfProgram // program ≠ [] }

/-- `pcap_t` -/
structure Handle where
  interface : String
  snaplen : ℤ
  promisc : Bool
  filter : Option BpfProgram := none
  deriving DecidableEq

/-- What libpcap answers in the course of a call. -/
structure Libpcap where
  /-- the error of `pcap_open_live`, if there is one -/
  openLive : String → ℤ → Bool → Option String
  compile : Handle → String → Except String Compiled
  setfilter : Handle → BpfProgram → Bool

/-- `Pcap::Private` -/
structure Pcap where
  interface : String := ""
  snaplen : ℤ := 1600
  promisc : Bool := false
  pcap : Option Handle := none
  bpf : BpfProgram := []
  active : Bool := false
  deriving DecidableEq

namespace Pcap

variable (d : Pcap) (lib : Libpcap)

/-- `pcap_open_live` with the options that are set. -/
def openLive : Except String Handle :=
  match lib.openLive d.interface d.snaplen d.promisc with
  | some err => .error err
  | none => .ok { interface := d.interface, snaplen := d.snaplen, promisc := d.promisc }

/-- `pcap_setfilter`, where there is something to be set. -/
def install (pcap : Handle) : Option Handle :=
  if d.bpf.length > 0 then
    if lib.setfilter pcap d.bpf then some { pcap with filter := some d.bpf } else none
  else some pcap

/-- `Pcap::start` -/
def start : Bool × Pcap :=
  if d.active then (true, d)
  else match d.openLive lib with
    | .error _ => (false, { d with pcap := none })
    | .ok pcap => match d.install lib pcap with
      | none => (false, { d with pcap := some pcap })
      | some pcap => (true, { d with pcap := some pcap, active := true })

/-- `Pcap::stop`. The capture loop closes the device before it ends. -/
def stop : Bool × Pcap :=
  if d.active then (true, { d with active := false, pcap := none }) else (false, d)

/-- The capture loop ends after an error of `pcap_next_ex`. -/
def ended : Pcap := if d.active then { d with pcap := none } else d

def setInterface (ifs : String) : Pcap := { d with interface := ifs }

def setPromiscuous (promisc : Bool) : Pcap := { d with promisc }

def setSnaplen (len : ℤ) : Pcap := { d with snaplen := len }

/-- `pcap_freecode` -/
def freecode : Pcap := { d with bpf := [] }

/-- `Pcap::setBPF`, with what it assigns to `error`. -/
def setBPF (filter : String) : (Bool × String) × Pcap :=
  if d.active then ((false, ""), d)
  else match d.openLive lib with
    | .error err => ((false, err), d)
    | .ok pcap => match lib.compile pcap filter with
      | .error err => ((false, err), d.freecode)
      | .ok program => ((true, ""), { d.freecode with bpf := program })

/-! ### What a call can do -/

variable {d : Pcap} {lib : Libpcap}

lemma filter_of_openLive {pcap : Handle} (h : d.openLive lib = .ok pcap) : pcap.filter = none := by
  rw [openLive] at h
  split at h
  · cases h
  · cases h
    rfl

lemma filter_of_install {pcap pcap' : Handle} (hpcap : pcap.filter = none)
    (h : d.install lib pcap = some pcap') :
    pcap'.filter = if d.bpf = [] then none else some d.bpf := by
  rw [install] at h
  split_ifs at h with hlength hset
  · cases h
    exact (if_neg (List.length_pos_iff.mp hlength)).symm
  · cases h
    rw [hpcap, if_pos (List.eq_nil_of_length_eq_zero (Nat.eq_zero_of_not_pos hlength))]

lemma start_of_install {pcap pcap' : Handle} (hactive : d.active = false)
    (hopen : d.openLive lib = .ok pcap) (hinstall : d.install lib pcap = some pcap') :
    d.start lib = (true, { d with pcap := some pcap', active := true }) := by
  simp only [start, hactive, hopen, hinstall, Bool.false_eq_true, if_false]

/-- `start` begins to capture with the program there is, or it fails, or it does nothing. -/
lemma start_cases (d : Pcap) (lib : Libpcap) :
    (d.active = true ∧ d.start lib = (true, d)) ∨
    (d.active = false ∧ ∃ pcap, d.start lib = (false, { d with pcap })) ∨
    (d.active = false ∧ ∃ pcap, pcap.filter = (if d.bpf = [] then none else some d.bpf) ∧
      d.start lib = (true, { d with pcap := some pcap, active := true })) := by
  cases hactive : d.active with
  | true => exact Or.inl ⟨rfl, if_pos hactive⟩
  | false =>
    right
    cases hopen : d.openLive lib with
    | error err =>
      refine Or.inl ⟨rfl, none, ?_⟩
      simp only [start, hactive, hopen, Bool.false_eq_true, if_false]
    | ok pcap =>
      cases hinstall : d.install lib pcap with
      | none =>
        refine Or.inl ⟨rfl, some pcap, ?_⟩
        simp only [start, hactive, hopen, hinstall, Bool.false_eq_true, if_false]
      | some pcap' =>
        exact Or.inr ⟨rfl, pcap', filter_of_install (filter_of_openLive hopen) hinstall,
          start_of_install hactive hopen hinstall⟩

/-- What a filter is compiled to, if nothing is being captured and the device can be opened. -/
def compiled (d : Pcap) (lib : Libpcap) (filter : String) : Option Compiled :=
  if d.active then none
  else match d.openLive lib with
    | .error _ => none
    | .ok pcap => (lib.compile pcap filter).toOption

/-- The old program is freed, and there is no new one. -/
structure Loses (d : Pcap) (lib : Libpcap) (filter : String) : Prop where
  inactive : d.active = false
  opens : ∃ pcap, d.openLive lib = .ok pcap
  fails : d.compiled lib filter = none

/-- `setBPF` fails and changes nothing, it fails and frees the program, or it has a new one. -/
lemma setBPF_cases (d : Pcap) (lib : Libpcap) (filter : String) :
    (¬ d.Loses lib filter ∧ ∃ err, d.setBPF lib filter = ((false, err), d)) ∨
    (d.Loses lib filter ∧ ∃ err, d.setBPF lib filter = ((false, err), d.freecode)) ∨
    (∃ program, d.active = false ∧ d.compiled lib filter = some program ∧
      d.setBPF lib filter = ((true, ""), { d with bpf := program })) := by
  rw [setBPF]
  cases hactive : d.active with
  | true =>
    refine Or.inl ⟨fun h => ?_, "", if_pos rfl⟩
    cases hactive.symm.trans h.inactive
  | false =>
    rw [if_neg Bool.false_ne_true]
    cases hopen : d.openLive lib with
    | error err =>
      refine Or.inl ⟨fun h => ?_, err, rfl⟩
      obtain ⟨pcap, hpcap⟩ := h.opens
      cases hopen.symm.trans hpcap
    | ok pcap =>
      have hcompiled : d.compiled lib filter = (lib.compile pcap filter).toOption := by
        simp [compiled, hactive, hopen]
      right
      cases hcompile : lib.compile pcap filter with
      | error err =>
        rw [hcompile] at hcompiled
        exact Or.inl ⟨⟨hactive, ⟨pcap, hopen⟩, hcompiled⟩, err, by simp only [hcompile]⟩
      | ok program =>
        rw [hcompile] at hcompiled
        refine Or.inr ⟨program, rfl, hcompiled, ?_⟩
        simp only [hcompile, freecode, hactive]

/-! ### Sequences of calls -/

/-- A call, or the end of the capture loop. -/
inductive Call where
  | setInterface (ifs : String)
  | setPromiscuous (promisc : Bool)
  | setSnaplen (len : ℤ)
  | setBPF (lib : Libpcap) (filter : String)
  | start (lib : Libpcap)
  | stop
  | ended

/-- A `Pcap` with the program of the last call of `setBPF` that has returned `true`. -/
structure Recorded where
  pcap : Pcap := {}
  last : Option Compiled := none

/-- What a call changes. -/
def Recorded.call (s : Recorded) : Call → Recorded
  | .setInterface ifs => { s with pcap := s.pcap.setInterface ifs }
  | .setPromiscuous promisc => { s with pcap := s.pcap.setPromiscuous promisc }
  | .setSnaplen len => { s with pcap := s.pcap.setSnaplen len }
  | .setBPF lib filter =>
    { pcap := (s.pcap.setBPF lib filter).2
      last := if (s.pcap.setBPF lib filter).1.1 then s.pcap.compiled lib filter else s.last }
  | .start lib => { s with pcap := (s.pcap.start lib).2 }
  | .stop => { s with pcap := s.pcap.stop.2 }
  | .ended => { s with pcap := s.pcap.ended }

/-- Every call can be made in every state. -/
def step (s : Recorded) (c : Call) : Option Recorded := some (s.call c)

/-- The program of the last call of `setBPF` that has returned `true` is the one that `start`
installs whenever it begins to capture, and the one that is installed while it captures. -/
structure InstallsLast (s : Recorded) : Prop where
  starts : ∀ lib d, s.pcap.active = false → s.pcap.start lib = (true, d) →
    d.pcap.map Handle.filter = some (s.last.map Subtype.val)
  captures : s.pcap.active = true → ∀ pcap ∈ s.pcap.pcap, pcap.filter = s.last.map Subtype.val

/-- A call of `setBPF` that returns `false` leaves the program as it was. -/
def Leaves (s : Recorded) : Call → Prop
  | .setBPF lib filter => (s.pcap.setBPF lib filter).1.1 = false →
      (s.pcap.setBPF lib filter).2.bpf = s.pcap.bpf
  | _ => True

/-- There is no program to be lost by a call of `setBPF`. -/
def Keeps (s : Recorded) : Call → Prop
  | .setBPF lib filter => s.pcap.Loses lib filter → s.pcap.bpf = []
  | _ => True

/-- The program there is is the one of the last call of `setBPF` that has returned `true`. -/
structure Current (s : Recorded) : Prop where
  bpf : s.pcap.bpf = (s.last.map Subtype.val).getD []
  captures : s.pcap.active = true → ∀ pcap ∈ s.pcap.pcap, pcap.filter = s.last.map Subtype.val

variable {s s' : Recorded} {c : Call}

lemma Current.filter (h : Current s) :
    (if s.pcap.bpf = [] then none else some s.pcap.bpf) = s.last.map Subtype.val := by
  rw [h.bpf]
  cases s.last with
  | none => rfl
  | some program => exact if_neg program.2

lemma Current.installsLast (h : Current s) : InstallsLast s where
  starts lib d hactive hstart := by
    rcases start_cases s.pcap lib with ⟨htrue, _⟩ | ⟨_, pcap, hs⟩ | ⟨_, pcap, hfilter, hs⟩
    · cases hactive.symm.trans htrue
    · cases hs.symm.trans hstart
    · cases hs.symm.trans hstart
      exact congrArg some (hfilter.trans h.filter)
  captures := h.captures

/-- A `Pcap` that does not capture begins to do so if libpcap lets it. -/
lemma exists_start (hactive : d.active = false) : ∃ lib pcap,
    pcap.filter = (if d.bpf = [] then none else some d.bpf) ∧
      d.start lib = (true, { d with pcap := some pcap, active := true }) := by
  let lib : Libpcap := ⟨fun _ _ _ => none, fun _ _ => .error "", fun _ _ => true⟩
  obtain ⟨pcap, hopen⟩ : ∃ pcap, d.openLive lib = .ok pcap := ⟨_, rfl⟩
  obtain ⟨pcap', hinstall⟩ : ∃ pcap', d.install lib pcap = some pcap' := by
    rw [install]
    split_ifs with _ hset
    · exact ⟨_, rfl⟩
    · exact absurd rfl hset
    · exact ⟨_, rfl⟩
  exact ⟨lib, pcap', filter_of_install (filter_of_openLive hopen) hinstall,
    start_of_install hactive hopen hinstall⟩

lemma InstallsLast.last (h : InstallsLast s) (hactive : s.pcap.active = false) :
    s.last.map Subtype.val = if s.pcap.bpf = [] then none else some s.pcap.bpf := by
  obtain ⟨lib, pcap, hfilter, hstart⟩ := exists_start hactive
  exact (Option.some.inj (h.starts lib _ hactive hstart)).symm.trans hfilter

/-- What a call of `setBPF` does with the program and the record of it. -/
lemma call_setBPF_cases (s : Recorded) (lib : Libpcap) (filter : String) :
    (¬ s.pcap.Loses lib filter ∧ s.call (.setBPF lib filter) = s) ∨
    (s.pcap.Loses lib filter ∧
      s.call (.setBPF lib filter) = { s with pcap := s.pcap.freecode }) ∨
    (∃ program, s.pcap.active = false ∧ s.pcap.compiled lib filter = some program ∧
      s.call (.setBPF lib filter) = ⟨{ s.pcap with bpf := program }, some program⟩) := by
  rw [Recorded.call]
  rcases setBPF_cases s.pcap lib filter with ⟨hnot, err, hs⟩ | ⟨hlost, err, hs⟩ |
    ⟨program, hactive, hcompiled, hs⟩
  · rw [hs]
    exact Or.inl ⟨hnot, rfl⟩
  · rw [hs]
    exact Or.inr (Or.inl ⟨hlost, rfl⟩)
  · rw [hs, hcompiled]
    exact Or.inr (Or.inr ⟨program, hactive, rfl, rfl⟩)

lemma Current.call_setBPF {lib : Libpcap} {filter : String} (h : Current s)
    (hkeeps : Keeps s (.setBPF lib filter)) : Current (s.call (.setBPF lib filter)) := by
  rcases call_setBPF_cases s lib filter with ⟨_, hs⟩ | ⟨hlost, hs⟩ | ⟨program, hactive, _, hs⟩
  · rw [hs]
    exact h
  · rw [hs]
    exact ⟨(hkeeps hlost).symm.trans h.bpf, h.captures⟩
  · rw [hs]
    exact ⟨rfl, fun htrue => by cases hactive.symm.trans htrue⟩

lemma Current.call_start (h : Current s) (lib : Libpcap) : Current (s.call (.start lib)) := by
  rw [Recorded.call]
  rcases start_cases s.pcap lib with ⟨_, hs⟩ | ⟨hactive, pcap, hs⟩ | ⟨_, pcap, hfilter, hs⟩
  · rw [hs]
    exact h
  · rw [hs]
    exact ⟨h.bpf, fun htrue => by cases hactive.symm.trans htrue⟩
  · rw [hs]
    refine ⟨h.bpf, fun _ pcap' hpcap => ?_⟩
    obtain rfl := Option.some.inj hpcap
    exact hfilter.trans h.filter

lemma Current.call (h : Current s) (hkeeps : Keeps s c) : Current (s.call c) := by
  cases c with
  | setInterface ifs => exact ⟨h.bpf, h.captures⟩
  | setPromiscuous promisc => exact ⟨h.bpf, h.captures⟩
  | setSnaplen len => exact ⟨h.bpf, h.captures⟩
  | setBPF lib filter => exact h.call_setBPF hkeeps
  | start lib => exact h.call_start lib
  | stop =>
    rw [Recorded.call, stop]
    split_ifs
    · exact ⟨h.bpf, fun htrue => by cases htrue⟩
    · exact h
  | ended =>
    rw [Recorded.call, Pcap.ended]
    split_ifs
    · exact ⟨h.bpf, fun _ pcap hpcap => by cases hpcap⟩
    · exact h

/-- A program that is lost is not the one of the last call that has returned `true`. -/
lemma InstallsLast.keeps (h : InstallsLast s) (h' : InstallsLast (s.call c)) : Keeps s c := by
  cases c with
  | setBPF lib filter =>
    intro hlost
    rcases call_setBPF_cases s lib filter with ⟨hnot, _⟩ | ⟨_, hs⟩ | ⟨program, _, hcompiled, _⟩
    · exact absurd hlost hnot
    · rw [hs] at h'
      by_contra hbpf
      have hlast := (h.last hlost.inactive).trans (if_neg hbpf)
      cases hlast.symm.trans (h'.last hlost.inactive)
    · cases hcompiled.symm.trans hlost.fails
  | _ => trivial

lemma leaves_iff_keeps (s : Recorded) (c : Call) : Leaves s c ↔ Keeps s c := by
  cases c with
  | setBPF lib filter =>
    rw [Leaves, Keeps]
    rcases setBPF_cases s.pcap lib filter with ⟨hnot, err, hs⟩ | ⟨hlost, err, hs⟩ |
      ⟨program, hactive, hcompiled, hs⟩
    · rw [hs]
      exact iff_of_true (fun _ => rfl) fun hlost => absurd hlost hnot
    · rw [hs]
      exact ⟨fun h _ => (h rfl).symm, fun h _ => (h hlost).symm⟩
    · rw [hs]
      refine iff_of_true (fun h => by cases h) fun hlost => ?_
      cases hcompiled.symm.trans hlost.fails
  | _ => exact Iff.rfl

/-- `start` always installs the program of the last call of `setBPF` that has returned `true`, and a
call that returns `false` changes nothing, exactly when no program is lost. -/
theorem installsLast_iff (calls : List Call) :
    ((∀ earlier s, earlier <+: calls → run step {} earlier = some s → InstallsLast s) ∧
      ∀ earlier c, earlier ++ [c] <+: calls → ∃ s, run step {} earlier = some s ∧ Leaves s c) ↔
    Meets step Keeps {} calls := by
  have enabled : ∀ s c, ∃ s', step s c = some s' := fun s c => ⟨s.call c, rfl⟩
  have keep : ∀ s c s', Current s → Keeps s c → step s c = some s' → Current s' := by
    intro s c s' h hkeeps hstep
    cases hstep
    exact h.call hkeeps
  have tight : ∀ s c s', InstallsLast s → step s c = some s' → InstallsLast s' → Keeps s c := by
    intro s c s' h hstep h'
    cases hstep
    exact h.keeps h'
  obtain ⟨s, hrun⟩ := exists_run enabled {} calls
  have hstates := forall_prefix_iff_meets (I := Current)
    ⟨rfl, fun htrue => by cases htrue⟩ (fun _ => Current.installsLast) keep tight hrun
  have hcalls : (∀ earlier c, earlier ++ [c] <+: calls →
      ∃ s, run step {} earlier = some s ∧ Leaves s c) ↔ Meets step Keeps {} calls :=
    forall_label_iff_meets leaves_iff_keeps fun s c _ => enabled s c
  rw [hstates, hcalls, and_self_iff]

/-! ### The packet source -/

/-- What the commands see of a `Pcap`. -/
def toInterface (d : Pcap) : PcapInterface where
  kind := .pcap
  active := d.active
  running := d.active && d.pcap.isSome
  active_of_running h := (Bool.and_eq_true_iff.mp h).1
  running_of_dummy h := by cases h

lemma toInterface_eq_idle (h : d.active = false) : d.toInterface = .idle .pcap := by
  simp only [toInterface, PcapInterface.idle, h, Bool.false_and]

/-- `start` opens the device and sets the filter if it returns `true`. -/
theorem toInterface_start (d : Pcap) (lib : Libpcap) :
    d.toInterface.start (d.start lib).1 = ((d.start lib).2.toInterface, (d.start lib).1) := by
  rcases start_cases d lib with ⟨hactive, hs⟩ | ⟨hactive, pcap, hs⟩ | ⟨hactive, pcap, _, hs⟩
  · rw [hs]
    simp only [PcapInterface.start, toInterface, hactive, if_true]
  · rw [hs, toInterface_eq_idle hactive]
    rw [toInterface_eq_idle (d := { d with pcap }) hactive]
    rfl
  · rw [hs, toInterface_eq_idle hactive]
    rfl

theorem toInterface_stop (d : Pcap) : d.toInterface.stop = (d.stop.2.toInterface, d.stop.1) := by
  rw [PcapInterface.stop, stop]
  by_cases hactive : d.active = true
  · rw [if_pos hactive, if_pos (show d.toInterface.active = true from hactive)]
    rfl
  · rw [if_neg hactive, if_neg (show ¬ d.toInterface.active = true from hactive)]

theorem toInterface_ended (d : Pcap) : d.ended.toInterface = d.toInterface.ended rfl := by
  rw [Pcap.ended]
  by_cases hactive : d.active = true
  · rw [if_pos hactive]
    simp only [toInterface, PcapInterface.ended, Option.isSome_none, Bool.and_false]
  · rw [if_neg hactive, Bool.not_eq_true] at *
    simp only [toInterface, PcapInterface.ended, hactive, Bool.false_and]

/-- The filter is of no concern to the commands. -/
theorem toInterface_setBPF (d : Pcap) (lib : Libpcap) (filter : String) :
    (d.setBPF lib filter).2.toInterface = d.toInterface := by
  rcases setBPF_cases d lib filter with ⟨_, err, hs⟩ | ⟨_, err, hs⟩ | ⟨program, _, _, hs⟩
  · rw [hs]
  · rw [hs]
    rfl
  · rw [hs]
    rfl

/-! ### The handlers -/

section Handlers

open Packing Outcome

/-- A call of a handler, if it is one of the packet source. -/
def ofCall (lib : Libpcap) : Server.Call → Option Call
  | .start => some (.start lib)
  | .stop => some .stop
  | .setInterface ifs => some (.setInterface ifs)
  | .setPromiscuous promisc => some (.setPromiscuous promisc)
  | .setSnaplen len => some (.setSnaplen len)
  | .setBPF filter => some (.setBPF lib filter)
  | _ => none

/-- What the server does for `GoldFilter.start` of `index.es`, which does not look at the reply to
`set_opt`. -/
def goldFilterStart (mp : Server.Msgpack) (env : Server.Components) (ifs : String)
    (options : List (Object × Object)) (id : UInt32) : Server.Handler Unit := do
  Server.setOpt mp env (.map ((.str "interface", .str ifs) :: options)) id
  Server.start env (id + 1)

/-- The second filter cannot be compiled, and everything is captured. -/
theorem not_installsLast :
    let program : Compiled := ⟨[⟨6, 0, 0, 262144⟩], by decide⟩
    let lib : Libpcap := {
      openLive := fun _ _ _ => none
      compile := fun _ filter => if filter = "tcp" then .ok program else .error "syntax error"
      setfilter := fun _ _ => true }
    let mp : Server.Msgpack := ⟨fun _ => "", fun _ => none, fun _ => []⟩
    let session := (outcome (do
      goldFilterStart mp {} "en0" [(.str "filter", .str "tcp")] 1
      Server.stop 3
      goldFilterStart mp {} "en0" [(.str "filter", .str "tpc")] 4) {}).2
    let calls := session.calls.filterMap (ofCall lib)
    (¬ ∀ earlier s, earlier <+: calls → run step {} earlier = some s → InstallsLast s) ∧
    ∃ s, run step {} calls = some s ∧ s.pcap.active = true ∧
      s.pcap.pcap.map Handle.filter = some none ∧ s.last = some program := by
  intro program lib mp session calls
  have hcalls : run step {} calls = some {
      pcap := {
        interface := "en0"
        pcap := some { interface := "en0", snaplen := 1600, promisc := false }
        active := true }
      last := some program } := rfl
  refine ⟨fun h => ?_, _, hcalls, rfl, rfl, rfl⟩
  have hlast := (h calls _ (List.prefix_refl _) hcalls).captures rfl _ rfl
  cases hlast

end Handlers

end Pcap

end Dripcap
