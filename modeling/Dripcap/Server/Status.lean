import Dripcap.Library.Keyed
import Dripcap.Library.Run

/-!
# Status polling

`Status` of `status.hpp` and the command `get_status`, which answers with the status of the server
when `operator!=` says that it differs from the one sent last, and with nothing otherwise.
-/

namespace Dripcap

/-- `Status`. The filters are listed in the order in which `std::unordered_map` iterates over
them. -/
structure Status where
  capturing : Bool := false
  queuedPackets : ℕ := 0
  packets : ℕ := 0
  droppedPackets : ℕ := 0
  filtered : List (String × ℕ) := []
  filtered_distinct : Keyed.Distinct filtered := by exact List.nodup_nil

namespace Status

/-- The loop of `operator!=`; `none` stands for `std::out_of_range`, thrown by `at`. -/
def anyDiffers (filtered : List (String × ℕ)) : List (String × ℕ) → Option Bool
  | [] => some false
  | pair :: rest => do
    if (← filtered.lookup pair.1) ≠ pair.2 then some true else anyDiffers filtered rest

/-- `Status::operator!=` -/
def ne (self stat : Status) : Option Bool :=
  if self.capturing ≠ stat.capturing ∨ self.packets ≠ stat.packets ∨
      self.filtered.length ≠ stat.filtered.length then some true
  else anyDiffers stat.filtered self.filtered

/-- What a client is to know of a status. -/
structure Agrees (a b : Status) : Prop where
  capturing : a.capturing = b.capturing
  packets : a.packets = b.packets
  droppedPackets : a.droppedPackets = b.droppedPackets
  filtered : ∀ name, a.filtered.lookup name = b.filtered.lookup name

lemma Agrees.refl (a : Status) : a.Agrees a := ⟨rfl, rfl, rfl, fun _ => rfl⟩

/-! ### The comparison -/

variable {old new : List (String × ℕ)}

/-- Every filter has the count it had. -/
def SameCounts (old new : List (String × ℕ)) : Prop := ∀ pair ∈ new, old.lookup pair.1 = some pair.2

/-- The first filter, in the order of iteration, that has not the count it had is not a new one. -/
def Comparable (old new : List (String × ℕ)) : Prop :=
  ∀ front pair back, new = front ++ pair :: back → SameCounts old front →
    old.lookup pair.1 ≠ none

lemma sameCounts_cons {pair : String × ℕ} :
    SameCounts old (pair :: new) ↔ old.lookup pair.1 = some pair.2 ∧ SameCounts old new :=
  List.forall_mem_cons

/-- A filter with its old count is passed over. -/
lemma comparable_cons {pair : String × ℕ} (h : old.lookup pair.1 = some pair.2) :
    Comparable old (pair :: new) ↔ Comparable old new := by
  constructor
  · rintro hall front pair' back rfl hfront
    exact hall (pair :: front) pair' back rfl (sameCounts_cons.mpr ⟨h, hfront⟩)
  · intro hall front pair' back heq hfront
    cases front with
    | nil =>
      obtain ⟨rfl, rfl⟩ := List.cons.inj heq
      rw [h]
      exact Option.some_ne_none _
    | cons first front =>
      obtain ⟨rfl, rfl⟩ := List.cons.inj heq
      exact hall front pair' back rfl (sameCounts_cons.mp hfront).2

/-- The loop throws, finds a difference, or has seen every filter with its old count. -/
lemma anyDiffers_cases (old new : List (String × ℕ)) :
    (anyDiffers old new = none ∧ ¬ Comparable old new) ∨
    (anyDiffers old new = some true ∧ Comparable old new ∧ ¬ SameCounts old new) ∨
    (anyDiffers old new = some false ∧ Comparable old new ∧ SameCounts old new) := by
  induction new with
  | nil =>
    refine Or.inr (Or.inr ⟨rfl, ?_, fun _ h => by cases h⟩)
    intro front pair back h
    simp at h
  | cons pair new ih =>
    cases hlookup : old.lookup pair.1 with
    | none =>
      refine Or.inl ⟨by simp [anyDiffers, hlookup], fun hall => ?_⟩
      exact hall [] pair new rfl (fun _ h => by cases h) hlookup
    | some n =>
      by_cases hn : n = pair.2
      · subst hn
        have hstep : anyDiffers old (pair :: new) = anyDiffers old new := by
          simp [anyDiffers, hlookup]
        rw [hstep, comparable_cons hlookup, sameCounts_cons]
        simpa only [hlookup, true_and] using ih
      · refine Or.inr (Or.inl ⟨by simp [anyDiffers, hlookup, hn], ?_, fun hsame => ?_⟩)
        · intro front pair' back heq hfront
          cases front with
          | nil =>
            obtain ⟨rfl, rfl⟩ := List.cons.inj heq
            rw [hlookup]
            exact Option.some_ne_none _
          | cons first front =>
            obtain ⟨rfl, rfl⟩ := List.cons.inj heq
            have hfirst := (sameCounts_cons.mp hfront).1
            rw [hlookup] at hfirst
            exact absurd (Option.some.inj hfirst) hn
        · have hpair := (sameCounts_cons.mp hsame).1
          rw [hlookup] at hpair
          exact hn (Option.some.inj hpair)

/-- A difference in what is compared first is found before the filters are looked at. -/
lemma ne_cases (stat old : Status) :
    (stat.ne old = some true ∧ ¬ (old.capturing = stat.capturing ∧ old.packets = stat.packets ∧
      old.filtered.length = stat.filtered.length)) ∨
    (stat.ne old = anyDiffers old.filtered stat.filtered ∧ old.capturing = stat.capturing ∧
      old.packets = stat.packets ∧ old.filtered.length = stat.filtered.length) := by
  unfold ne
  split_ifs with hdiffers
  · refine Or.inl ⟨rfl, ?_⟩
    rintro ⟨hcapturing, hpackets, hlength⟩
    rcases hdiffers with h | h | h
    · exact h hcapturing.symm
    · exact h hpackets.symm
    · exact h hlength.symm
  · simp only [not_or, not_not] at hdiffers
    exact Or.inr ⟨rfl, hdiffers.1.symm, hdiffers.2.1.symm, hdiffers.2.2.symm⟩

/-- The comparison throws only if it comes to the filters and meets a new one first. -/
lemma ne_ne_none_iff (stat old : Status) : stat.ne old ≠ none ↔
    (old.capturing = stat.capturing → old.packets = stat.packets →
      old.filtered.length = stat.filtered.length → Comparable old.filtered stat.filtered) := by
  rcases ne_cases stat old with ⟨hne, hdiffers⟩ | ⟨hne, hcapturing, hpackets, hlength⟩
  · refine iff_of_true (by simp [hne]) fun hcapturing hpackets hlength => ?_
    exact absurd ⟨hcapturing, hpackets, hlength⟩ hdiffers
  · simp only [hne, hcapturing, hpackets, hlength, true_implies]
    rcases anyDiffers_cases old.filtered stat.filtered with
      ⟨heq, hnot⟩ | ⟨heq, hcomparable, -⟩ | ⟨heq, hcomparable, -⟩
    · exact iff_of_false (fun h => h heq) hnot
    · exact iff_of_true (by simp [heq]) hcomparable
    · exact iff_of_true (by simp [heq]) hcomparable

/-- Equal maps: the same counts and as many filters. -/
lemma lookup_of_sameCounts {a b : Status} (hlen : a.filtered.length = b.filtered.length)
    (h : SameCounts a.filtered b.filtered) (name : String) :
    a.filtered.lookup name = b.filtered.lookup name :=
  (Keyed.lookup_of_subset b.filtered_distinct a.filtered_distinct (Nat.le_of_eq hlen) h name).symm

lemma Agrees.length {a b : Status} (h : a.Agrees b) : a.filtered.length = b.filtered.length :=
  (Keyed.perm_of_lookup a.filtered_distinct b.filtered_distinct h.filtered).length_eq

/-! ### Polling -/

/-- What the comparison has to be given by two polls in a row, if neither the flag nor the number
of packets nor the number of filters has changed: the first filter with another count is no new
one, and packets have not been dropped unless some count has changed. -/
def Sendable (old new : Status) : Prop :=
  old.capturing = new.capturing → old.packets = new.packets →
    old.filtered.length = new.filtered.length →
    Comparable old.filtered new.filtered ∧
      (SameCounts old.filtered new.filtered → old.droppedPackets = new.droppedPackets)

lemma sendable_congr {a b new : Status} (h : a.Agrees b) : a.Sendable new ↔ b.Sendable new := by
  simp only [Sendable, Comparable, SameCounts, h.capturing, h.packets, h.droppedPackets,
    h.filtered, h.length]

end Status

/-- What the server remembers and what the client has received: the status sent last, and the last
status that was not empty. -/
structure Polling where
  status : Status := {}
  client : Status := {}

namespace Polling

open Status Run

/-- The command `get_status` when the status is `stat`; `none` is an exception. -/
def getStatus (p : Polling) (stat : Status) : Option Polling := do
  if ← stat.ne p.status then some ⟨stat, stat⟩ else some p

variable {p p' : Polling} {prev stat : Status} {stats : List Status}

/-- Server and client agree on what was sent. -/
lemma getStatus_eq (h : p.status = p.client) (hstep : p.getStatus stat = some p') :
    p'.status = p'.client := by
  cases hne : stat.ne p.status with
  | none => simp [getStatus, hne] at hstep
  | some differs =>
    cases differs with
    | true =>
      simp only [getStatus, hne, Option.bind_eq_bind, Option.bind_some, if_true] at hstep
      cases hstep
      rfl
    | false =>
      simp only [getStatus, hne, Option.bind_eq_bind, Option.bind_some, Bool.false_eq_true,
        if_false] at hstep
      cases hstep
      exact h

/-- One poll: the client ends up with the status of the server exactly when it can be compared with
the one before. -/
lemma getStatus_agrees (h : p.status = p.client) (hprev : p.client.Agrees prev) :
    (∃ p', p.getStatus stat = some p' ∧ p'.client.Agrees stat) ↔ prev.Sendable stat := by
  rw [← sendable_congr hprev, ← h]
  rcases ne_cases stat p.status with ⟨hne, hdiffers⟩ | ⟨hne, hcapturing, hpackets, hlength⟩
  · refine iff_of_true ⟨⟨stat, stat⟩, by simp [getStatus, hne], Agrees.refl stat⟩ ?_
    intro hcapturing hpackets hlength
    exact absurd ⟨hcapturing, hpackets, hlength⟩ hdiffers
  · rcases anyDiffers_cases p.status.filtered stat.filtered with
      ⟨heq, hnot⟩ | ⟨heq, hcomparable, hnot⟩ | ⟨heq, hcomparable, hsame⟩
    · refine iff_of_false ?_ fun hall => hnot (hall hcapturing hpackets hlength).1
      rintro ⟨p', hp', -⟩
      simp [getStatus, hne, heq] at hp'
    · refine iff_of_true ⟨⟨stat, stat⟩, by simp [getStatus, hne, heq], Agrees.refl stat⟩ ?_
      intro _ _ _
      exact ⟨hcomparable, fun hsame => absurd hsame hnot⟩
    · have hstep : p.getStatus stat = some p := by simp [getStatus, hne, heq]
      constructor
      · rintro ⟨p', hp', hagrees⟩ _ _ _
        rw [hstep] at hp'
        cases hp'
        exact ⟨hcomparable, fun _ => h ▸ hagrees.droppedPackets⟩
      · intro hall
        have hdropped := (hall hcapturing hpackets hlength).2 hsame
        refine ⟨p, hstep, ?_⟩
        rw [← h]
        exact ⟨hcapturing, hpackets, hdropped, lookup_of_sameCounts hlength hsame⟩

/-- After every poll of the sequence the client knows the status of the server. -/
def Current (p : Polling) (stats : List Status) : Prop :=
  ∀ earlier stat, earlier ++ [stat] <+: stats →
    ∃ p', run getStatus p (earlier ++ [stat]) = some p' ∧ p'.client.Agrees stat

lemma current_nil (p : Polling) : p.Current [] := by
  intro earlier stat h
  simp at h

lemma current_cons : p.Current (stat :: stats) ↔
    ∃ p', p.getStatus stat = some p' ∧ p'.client.Agrees stat ∧ p'.Current stats := by
  constructor
  · intro h
    obtain ⟨p', hp', hagrees⟩ := h [] stat (by simp)
    have hstep : p.getStatus stat = some p' := by simpa using hp'
    refine ⟨p', hstep, hagrees, fun earlier later hprefix => ?_⟩
    obtain ⟨p'', hp'', hagrees'⟩ := h (stat :: earlier) later (by simpa using hprefix)
    rw [List.cons_append, run_cons, hstep, Option.bind_some] at hp''
    exact ⟨p'', hp'', hagrees'⟩
  · rintro ⟨p', hstep, hagrees, h⟩ earlier later hprefix
    cases earlier with
    | nil =>
      obtain rfl : later = stat := by simpa using hprefix
      exact ⟨p', by simp [hstep], hagrees⟩
    | cons first earlier =>
      obtain ⟨rfl, hrest⟩ := List.cons_prefix_cons.mp hprefix
      obtain ⟨p'', hp'', hagrees'⟩ := h earlier later hrest
      refine ⟨p'', ?_, hagrees'⟩
      rw [List.cons_append, run_cons, hstep, Option.bind_some, hp'']

lemma current_iff_isChain (h : p.status = p.client) (hprev : p.client.Agrees prev) :
    p.Current stats ↔ List.IsChain Sendable (prev :: stats) := by
  induction stats generalizing p prev with
  | nil => exact iff_of_true (current_nil p) (List.IsChain.singleton prev)
  | cons stat stats ih =>
    rw [current_cons, List.isChain_cons_cons, ← getStatus_agrees h hprev]
    constructor
    · rintro ⟨p', hstep, hagrees, hrest⟩
      exact ⟨⟨p', hstep, hagrees⟩, (ih (getStatus_eq h hstep) hagrees).mp hrest⟩
    · rintro ⟨⟨p', hstep, hagrees⟩, hrest⟩
      exact ⟨p', hstep, hagrees, (ih (getStatus_eq h hstep) hagrees).mpr hrest⟩

/-- For every sequence of states of the server, the polls keep the client current and never throw
exactly when every status can be compared with the one polled before it. -/
theorem current_iff (stats : List Status) :
    (∀ earlier stat, earlier ++ [stat] <+: stats →
      ∃ p, run getStatus {} (earlier ++ [stat]) = some p ∧ p.client.Agrees stat) ↔
    List.IsChain Sendable ({} :: stats) :=
  current_iff_isChain rfl (Agrees.refl {})

/-- A filter is renamed between two polls: the second one throws. Packets are dropped between two
polls: the second answer is empty. -/
theorem client_outdated :
    (∃ p, run getStatus {} [{ filtered := [("a", 0)], filtered_distinct := List.nodup_singleton _ }]
        = some p ∧
      p.getStatus { filtered := [("b", 0)], filtered_distinct := List.nodup_singleton _ } = none) ∧
    run getStatus {} [{ droppedPackets := 1 }] = some {} ∧
    ¬ ({} : Polling).client.Agrees { droppedPackets := 1 } := by
  refine ⟨⟨_, rfl, rfl⟩, rfl, fun h => ?_⟩
  exact absurd h.droppedPackets (by decide)

end Polling

end Dripcap
