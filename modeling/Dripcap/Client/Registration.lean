import Dripcap.Library.Registry
import Dripcap.Library.Run

/-!
# Registration

`SessionInterface` keeps three lists of what packages have registered. An `unregister` call looks
for an entry with `find` and passes the entry itself, not its position, to `splice`.
-/

namespace Dripcap.Registration

open Registry

section Array

variable {α : Type} (path : α → String)

/-- An object that is passed as a position. It is not a number, and that counts as 0. -/
def toIntegerOrInfinity (_object : α) : ℕ := 0

/-- `splice(start, 1)`: the elements it removes and those it leaves. -/
def splice (l : List α) (start : ℕ) : List α × List α :=
  ((l.drop start).take 1, l.take start ++ l.drop (start + 1))

/-- The body of the `register` methods, which returns the new length. -/
def register (l : List α) (e : α) : ℕ × List α := (l.length + 1, l ++ [e])

/-- The body of the `unregister` methods, which returns the elements removed. -/
def unregister (l : List α) (p : String) : Option (List α) × List α :=
  match l.find? fun e => path e = p with
  | some index =>
    let r := splice l (toIntegerOrInfinity index)
    (some r.1, r.2)
  | none => (none, l)

/-- What a call leaves of a list. -/
def apply (l : List α) : Call α String → List α
  | .register e => (register l e).2
  | .unregister p => (unregister path l p).2

/-- The call does not unregister a path that is there but not in front. -/
def Harmless (l : List α) : Call α String → Prop
  | .register _ => True
  | .unregister p => (∀ e ∈ l, path e ≠ p) ∨ ∃ e l', l = e :: l' ∧ path e = p

lemma unregister_unknown {l : List α} {p : String} (h : ∀ e ∈ l, path e ≠ p) :
    (unregister path l p).2 = l := by
  have hfind : (l.find? fun e => path e = p) = none := by
    rw [List.find?_eq_none]
    simpa using h
  rw [unregister, hfind]

/-- The first entry is removed, whatever its path is. -/
lemma unregister_known {l : List α} {p : String} (h : ∃ e ∈ l, path e = p) :
    (unregister path l p).2 = l.tail := by
  cases hfind : l.find? fun e => path e = p with
  | none =>
    obtain ⟨e, he, hpath⟩ := h
    have hnone := List.find?_eq_none.mp hfind e he
    exact absurd (decide_eq_true hpath) hnone
  | some index =>
    rw [unregister, hfind]
    exact List.drop_one

/-- A call does what it should exactly if it is harmless. -/
lemma apply_mem_possible_iff {calls : List (Call α String)} {l : List α}
    (h : l ∈ possible path calls) (call : Call α String) :
    apply path l call ∈ possible path (calls ++ [call]) ↔ Harmless path l call := by
  cases call with
  | register e => exact iff_of_true (mem_possible_concat.mpr ⟨l, h, .register e l⟩) trivial
  | unregister p =>
    rw [apply]
    by_cases hunknown : ∀ e ∈ l, path e ≠ p
    · rw [unregister_unknown path hunknown]
      exact iff_of_true (mem_possible_concat.mpr ⟨l, h, .unknown hunknown⟩) (.inl hunknown)
    have hknown : ∃ e ∈ l, path e = p := by
      simpa only [not_forall, exists_prop, ne_eq, not_not] using hunknown
    rw [unregister_known path hknown, Harmless, or_iff_right hunknown]
    cases l with
    | nil =>
      obtain ⟨e, he, -⟩ := hknown
      cases he
    | cons first l =>
      constructor
      · intro hmem
        refine ⟨first, l, rfl, of_not_not fun hne => ?_⟩
        have hcount := congrFun (count_of_mem_concat h hmem) p
        have hpos : count path (first :: l) p ≠ 0 := fun hzero => hunknown (count_eq_zero.mp hzero)
        rw [recount, if_pos rfl, count_cons, if_neg hne] at hcount
        rw [count_cons, if_neg hne] at hpos
        rw [List.tail_cons] at hcount
        omega
      · rintro ⟨e, l', heq, hpath⟩
        obtain ⟨rfl, rfl⟩ := List.cons.inj heq
        exact mem_possible_concat.mpr ⟨_, h, .removed [] _ hpath⟩

end Array

structure Dissector where
  namespaces : List String
  path : String

structure Class where
  name : String
  path : String

structure SessionInterface where
  dissectors : List Dissector := []
  streamDissectors : List Dissector := []
  classes : List Class := []

namespace SessionInterface

variable (s : SessionInterface)

def registerDissector (namespaces : List String) (path : String) : ℕ × SessionInterface :=
  let r := register s.dissectors ⟨namespaces, path⟩
  (r.1, { s with dissectors := r.2 })

def registerStreamDissector (namespaces : List String) (path : String) : ℕ × SessionInterface :=
  let r := register s.streamDissectors ⟨namespaces, path⟩
  (r.1, { s with streamDissectors := r.2 })

def registerClass (name path : String) : ℕ × SessionInterface :=
  let r := register s.classes ⟨name, path⟩
  (r.1, { s with classes := r.2 })

def unregisterDissector (path : String) : Option (List Dissector) × SessionInterface :=
  let r := unregister Dissector.path s.dissectors path
  (r.1, { s with dissectors := r.2 })

def unregisterStreamDissector (path : String) : Option (List Dissector) × SessionInterface :=
  let r := unregister Dissector.path s.streamDissectors path
  (r.1, { s with streamDissectors := r.2 })

def unregisterClass (path : String) : Option (List Class) × SessionInterface :=
  let r := unregister Class.path s.classes path
  (r.1, { s with classes := r.2 })

end SessionInterface

inductive Event where
  | registerDissector (namespaces : List String) (path : String)
  | registerStreamDissector (namespaces : List String) (path : String)
  | registerClass (name path : String)
  | unregisterDissector (path : String)
  | unregisterStreamDissector (path : String)
  | unregisterClass (path : String)

/-- One call of a package. -/
def SessionInterface.step (s : SessionInterface) : Event → SessionInterface
  | .registerDissector namespaces path => (s.registerDissector namespaces path).2
  | .registerStreamDissector namespaces path => (s.registerStreamDissector namespaces path).2
  | .registerClass name path => (s.registerClass name path).2
  | .unregisterDissector path => (s.unregisterDissector path).2
  | .unregisterStreamDissector path => (s.unregisterStreamDissector path).2
  | .unregisterClass path => (s.unregisterClass path).2

/-- The lists after calls of packages. -/
def after (es : List Event) : SessionInterface := es.foldl SessionInterface.step {}

namespace Event

/-- What a call means for the list of dissectors. -/
def dissectorCall : Event → Option (Call Dissector String)
  | registerDissector namespaces path => some (.register ⟨namespaces, path⟩)
  | unregisterDissector path => some (.unregister path)
  | _ => none

def streamDissectorCall : Event → Option (Call Dissector String)
  | registerStreamDissector namespaces path => some (.register ⟨namespaces, path⟩)
  | unregisterStreamDissector path => some (.unregister path)
  | _ => none

def classCall : Event → Option (Call Class String)
  | registerClass name path => some (.register ⟨name, path⟩)
  | unregisterClass path => some (.unregister path)
  | _ => none

end Event

/-- Each list holds the entries registered, in order, with one entry removed for each call that has
unregistered its path. -/
structure Undone (es : List Event) : Prop where
  dissectors : (after es).dissectors ∈ possible Dissector.path (es.filterMap Event.dissectorCall)
  streamDissectors : (after es).streamDissectors ∈
    possible Dissector.path (es.filterMap Event.streamDissectorCall)
  classes : (after es).classes ∈ possible Class.path (es.filterMap Event.classCall)

/-- A call that unregisters a path finds it in front of its list or not at all. -/
structure FoundInFront (s : SessionInterface) (e : Event) : Prop where
  dissectors : ∀ call, e.dissectorCall = some call → Harmless Dissector.path s.dissectors call
  streamDissectors : ∀ call, e.streamDissectorCall = some call →
    Harmless Dissector.path s.streamDissectors call
  classes : ∀ call, e.classCall = some call → Harmless Class.path s.classes call

/-- A list that an event does not concern stays as it is. -/
lemma elim_mem_possible_iff {α : Type} {path : α → String} {calls : List (Call α String)}
    {l : List α} (h : l ∈ possible path calls) (call : Option (Call α String)) :
    call.elim l (apply path l) ∈ possible path (calls ++ call.toList) ↔
      ∀ c, call = some c → Harmless path l c := by
  cases call with
  | none =>
    rw [Option.toList_none, List.append_nil]
    exact iff_of_true h nofun
  | some c =>
    refine (apply_mem_possible_iff path h c).trans ⟨fun hc c' heq => ?_, fun hall => hall c rfl⟩
    rwa [← Option.some.inj heq]

lemma after_concat (es : List Event) (e : Event) : after (es ++ [e]) = (after es).step e := by
  rw [after, List.foldl_append]
  rfl

lemma filterMap_concat {β : Type} (f : Event → Option β) (es : List Event) (e : Event) :
    (es ++ [e]).filterMap f = es.filterMap f ++ (f e).toList := by
  rw [List.filterMap_append]
  cases h : f e with
  | none => rw [List.filterMap_cons_none h]; rfl
  | some b => rw [List.filterMap_cons_some h]; rfl

lemma undone_concat_iff {es : List Event} (h : Undone es) (e : Event) :
    Undone (es ++ [e]) ↔ FoundInFront (after es) e := by
  have hdissectors : ((after es).step e).dissectors =
      e.dissectorCall.elim (after es).dissectors (apply Dissector.path (after es).dissectors) := by
    cases e <;> rfl
  have hstreamDissectors : ((after es).step e).streamDissectors = e.streamDissectorCall.elim
      (after es).streamDissectors (apply Dissector.path (after es).streamDissectors) := by
    cases e <;> rfl
  have hclasses : ((after es).step e).classes =
      e.classCall.elim (after es).classes (apply Class.path (after es).classes) := by
    cases e <;> rfl
  have hiff := elim_mem_possible_iff h.dissectors e.dissectorCall
  have hiff' := elim_mem_possible_iff h.streamDissectors e.streamDissectorCall
  have hiff'' := elim_mem_possible_iff h.classes e.classCall
  rw [← hdissectors, ← filterMap_concat, ← after_concat] at hiff
  rw [← hstreamDissectors, ← filterMap_concat, ← after_concat] at hiff'
  rw [← hclasses, ← filterMap_concat, ← after_concat] at hiff''
  exact ⟨fun hu => ⟨hiff.mp hu.dissectors, hiff'.mp hu.streamDissectors, hiff''.mp hu.classes⟩,
    fun hf => ⟨hiff.mpr hf.dissectors, hiff'.mpr hf.streamDissectors, hiff''.mpr hf.classes⟩⟩

/-- Registration is undone exactly as long as every call that unregisters a path finds it in front
of its list or not at all. -/
theorem undone_iff (es : List Event) :
    (∀ es', es' <+: es → Undone es') ↔
      ∀ es' e, es' ++ [e] <+: es → FoundInFront (after es') e :=
  Run.forall_prefix_iff ⟨mem_possible_nil, mem_possible_nil, mem_possible_nil⟩
    (fun _ e h => undone_concat_iff h e) es

namespace TCP

/-- `activate` of the package in the directory `dirname`. -/
def activate (dirname : String) : List Event :=
  [.registerClass "dripcap/tcp/flags" (dirname ++ "/flags.es"),
    .registerDissector ["::Ethernet::IPv4::<TCP>", "::Ethernet::IPv6::<TCP>"]
      (dirname ++ "/tcp.es"),
    .registerStreamDissector ["::Ethernet::IPv4::<TCP>", "::Ethernet::IPv6::<TCP>"]
      (dirname ++ "/tcp_stream.es")]

def deactivate (dirname : String) : List Event :=
  [.unregisterClass (dirname ++ "/flags.es"), .unregisterDissector (dirname ++ "/tcp.es"),
    .unregisterStreamDissector (dirname ++ "/tcp_stream.es")]

end TCP

/-- The dissector of another package is there when TCP is activated and deactivated. -/
def sampleEvents : List Event :=
  [.registerDissector ["::<Ethernet>"] "ethernet/eth.es"] ++ TCP.activate "tcp" ++
    TCP.deactivate "tcp"

lemma eth_possible : [⟨["::<Ethernet>"], "ethernet/eth.es"⟩] ∈
    possible Dissector.path (sampleEvents.filterMap Event.dissectorCall) := by
  have hregistered : [⟨["::<Ethernet>"], "ethernet/eth.es"⟩] ∈ possible Dissector.path
      [.register ⟨["::<Ethernet>"], "ethernet/eth.es"⟩] :=
    mem_possible_concat.mpr ⟨[], mem_possible_nil, .register _ []⟩
  have hboth := mem_possible_concat.mpr ⟨_, hregistered, Edits.register
    ⟨["::Ethernet::IPv4::<TCP>", "::Ethernet::IPv6::<TCP>"], "tcp" ++ "/tcp.es"⟩ _⟩
  exact mem_possible_concat.mpr ⟨_, hboth, .removed [_] [] rfl⟩

/-- That dissector is removed, and that of TCP stays. -/
theorem other_unregistered :
    (after sampleEvents).dissectors.map Dissector.path = ["tcp/tcp.es"] ∧
    ¬ Undone sampleEvents := by
  refine ⟨by decide, fun h => ?_⟩
  have hcount := congrFun (count_of_possible h.dissectors eth_possible) "tcp/tcp.es"
  revert hcount
  decide

end Dripcap.Registration
