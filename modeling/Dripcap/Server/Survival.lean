import Dripcap.Library.Run
import Dripcap.Server.Commands

/-!
# What the server survives

The handlers of most commands fail on some arguments. On POSIX every failure ends the process, on
win32 a `std::bad_cast` costs the reply. This module says for every command which arguments its
handler takes, and that the loops survive exactly the messages with such arguments.
-/

namespace Dripcap.Server

open Packing Outcome Run

/-! ### What a handler takes -/

/-- The conversion succeeds. -/
def Takes {α : Type} (as : Object → Option α) (o : Object) : Prop := ∃ a, as o = some a

/-- An array with such elements. -/
def IsVector (P : Object → Prop) (o : Object) : Prop := ∃ os, o = .array os ∧ ∀ x ∈ os, P x

/-- What is found is such an object. -/
def Optional (it : Option Object) (P : Object → Prop) : Prop := ∀ o, it = some o → P o

/-- Such an object is found. -/
def Required (it : Option Object) (P : Object → Prop) : Prop := ∃ o, it = some o ∧ P o

section Accepts

variable [p : Platform] (mp : Msgpack)

/-- A map with such members. -/
def IsMap (P : List (String × Object) → Prop) (o : Object) : Prop :=
  ∃ map, asMap mp.text o = some map ∧ P map

def IsText : Object → Prop := Takes (Object.asKey mp.text)

def IsPacket : Object → Prop := Takes (convertPacket mp.text mp.unpack mp.bytes)

/-- The arguments that the handler of a command takes. -/
def Accepts (arg : Object) : Command → Prop
  | .exit | .start | .stop | .ping | .getStatus | .getDevices | .fetchLogs => True
  | .setOpt => IsMap mp (fun map => Optional (map.lookup "interface") (IsText mp) ∧
      Optional (map.lookup "promiscuous") (Takes asBool) ∧
      Optional (map.lookup "snaplen") (Takes asInt) ∧
      Optional (map.lookup "filter") (IsText mp)) arg
  | .setFilter => IsMap mp (fun map => Required (map.lookup "name") (IsText mp) ∧
      Required (map.lookup "source") (IsText mp) ∧
      Required (map.lookup "options") fun _ => True) arg
  | .loadDissector => IsMap mp (fun map => Optional (map.lookup "source") fun source =>
      IsText mp source ∧ Required (map.lookup "options") fun _ => True) arg
  | .loadStreamDissector => IsMap mp (fun map => Optional (map.lookup "source") fun source =>
      IsText mp source ∧ Required (map.lookup "options") (IsMap mp fun options =>
        Required (options.lookup "namespaces") (IsVector (IsText mp)))) arg
  | .loadModule => IsMap mp (fun map => Optional (map.lookup "name") fun name =>
      Optional (map.lookup "source") fun source => IsText mp name ∧ IsText mp source) arg
  | .readStream => IsMap mp (fun map => Optional (map.lookup "id") fun stream =>
      Optional (map.lookup "index") fun index => IsText mp stream ∧ Takes asUInt64 index) arg
  | .streamLength => IsText mp arg
  | .getPackets => IsMap mp (fun map => Optional (map.lookup "list") (IsVector (Takes asUInt64)) ∧
      (map.lookup "list" = none → Optional (map.lookup "range") (Takes asPair))) arg
  | .getFiltered => IsMap mp (fun map => Optional (map.lookup "name") fun name =>
      Optional (map.lookup "range") fun range => IsText mp name ∧ Takes asPair range) arg
  | .setTestdata => IsMap mp (fun map => Required (map.lookup "packets") (IsVector (IsPacket mp)) ∧
      Required (map.lookup "devices") (IsVector (Takes (device mp)))) arg
  | .analyze => IsVector (IsPacket mp) arg

/-- The status can be compared with the one sent last. -/
def StatusFits (env : Components) (s : Session) : Prop :=
  s.status.capturing = s.capturing → s.status.packets = env.status.packets →
    s.status.filtered.length = env.status.filtered.length →
      Status.Comparable s.status.filtered env.status.filtered

/-- A message that is a request has come before `stop`, and its handler takes the argument on both
platforms. -/
def Acceptable (env : Components) (obj : Object) (s : Session) : Prop :=
  ∀ name id arg cmd, asRequest mp obj = some (name, id, arg) → handlers.lookup name = some cmd →
    s.active = true ∧ (∀ p : Platform, Accepts (p := p) mp arg cmd) ∧
      (cmd = .getStatus → StatusFits env s)

end Accepts

/-! ### Up to the reply -/

/-- What matters for a reply. -/
def view (s : Session) : Bool × List (UInt32 × Body) := (s.active, s.replies)

/-- `x` returns a value exactly if `P` holds of it, and it does not reply. -/
abbrev Prepares {α : Type} (x : Handler α) (P : α → Prop) : Prop := Uniform view x P

section Prepares

variable {α : Type} {mp : Msgpack}

lemma prepares_cast (o : Option α) : Prepares (cast o) fun a => o = some a := by
  cases o with
  | none => exact (uniform_throw _).congr fun a => by simp
  | some b => exact (uniform_pure b).congr fun a => by simp

lemma prepares_deref (it : Option Object) : Prepares (deref it) fun o => it = some o := by
  cases it with
  | none => exact (uniform_throw _).congr fun a => by simp
  | some b => exact (uniform_pure b).congr fun a => by simp

lemma prepares_call (c : Call) : Prepares (call c) fun _ => True :=
  uniform_modify fun _ => rfl

lemma prepares_ifFound {it : Option Object} {default : α} {act : Object → Handler α}
    {P : Object → α → Prop} (h : ∀ o, Prepares (act o) (P o)) :
    Prepares (ifFound it default act) fun a => it.elim (default = a) fun o => P o a := by
  cases it with
  | none => exact uniform_pure default
  | some o => exact h o

lemma exists_found {it : Option Object} {default : α} {P : Object → α → Prop} :
    (∃ a, it.elim (default = a) fun o => P o a) ↔ Optional it fun o => ∃ a, P o a := by
  cases it <;> simp [Optional]

lemma prepares_asVector {as : Object → Handler α} {P : Object → α → Prop}
    (h : ∀ o, Prepares (as o) (P o)) (o : Object) :
    Prepares (asVector as o) fun l => ∃ os, o = .array os ∧ List.Forall₂ P os l := by
  cases o with
  | array os => exact (uniform_mapM h os).congr fun l => by simp
  | _ => exact (uniform_throw _).congr fun l => by simp

lemma exists_forall₂ {P : Object → α → Prop} {os : List Object} :
    (∃ l, List.Forall₂ P os l) ↔ ∀ o ∈ os, ∃ a, P o a := by
  induction os with
  | nil => simp
  | cons o os ih =>
    rw [List.forall_mem_cons, ← ih]
    constructor
    · rintro ⟨l, h⟩
      obtain ⟨a, l', ha, hl, rfl⟩ := List.forall₂_cons_left_iff.mp h
      exact ⟨⟨a, ha⟩, l', hl⟩
    · rintro ⟨⟨a, ha⟩, l, hl⟩
      exact ⟨a :: l, .cons ha hl⟩

lemma exists_vector {P : Object → α → Prop} {o : Object} :
    (∃ l, ∃ os, o = .array os ∧ List.Forall₂ P os l) ↔ IsVector (fun x => ∃ a, P x a) o := by
  rw [exists_comm]
  simp only [exists_and_left, exists_forall₂, IsVector]

variable [Platform]

lemma prepares_layersOf (o : Object) :
    Prepares (layersOf mp o) fun l => asLayers mp.text mp.unpack mp.bytes o = some l := by
  refine ((prepares_cast (asExt mp.bytes o)).bind
    (Q := fun data l => (mp.unpack data).bind (convertLayers mp.text) = some l)
    fun data => ?_).congr fun l => ?_
  · cases mp.unpack data with
    | none => exact (uniform_throw _).congr fun l => by simp
    | some layers => exact prepares_cast _
  · rw [asLayers, Option.bind_eq_bind, Option.bind_eq_some_iff]
    rfl

/-- The conversion is that of `convertPacket`. -/
lemma prepares_asPacket (o : Object) :
    Prepares (asPacket mp o) fun p => convertPacket mp.text mp.unpack mp.bytes o = some p := by
  have hlayers : ∀ (map : List (String × Object)) (l : RawLayerList),
      ((map.lookup "layers").elim ([] = l) fun o =>
        asLayers mp.text mp.unpack mp.bytes o = some l) ↔
      member map "layers" [] (asLayers mp.text mp.unpack mp.bytes) = some l := by
    intro map l
    unfold member
    cases map.lookup "layers" <;> simp
  refine ((prepares_cast _).bind fun map => (prepares_cast _).bind fun id =>
    (prepares_cast _).bind fun ts_sec => (prepares_cast _).bind fun ts_nsec =>
    (prepares_cast _).bind fun len => (prepares_cast _).bind fun payload =>
    (prepares_cast _).bind fun stream => (prepares_ifFound prepares_layersOf).bind fun layers =>
    uniform_pure _).congr fun p => ?_
  simp only [convertPacket, Option.bind_eq_bind, Option.bind_eq_some_iff, hlayers,
    Option.some.injEq]

end Prepares

/-! ### One reply -/

/-- In the state `s` the handler returns after one reply. -/
def Answers (id : UInt32) (x : Handler Unit) (s : Session) : Prop :=
  ∃ t body, Returns x s () t ∧ t.replies = s.replies ++ [(id, body)]

/-- Before `stop` the handler returns after one reply exactly if `P`, and after it never. Where it
throws, it has not replied. -/
structure Replies (id : UInt32) (x : Handler Unit) (P : Prop) : Prop where
  answers_iff : ∀ s, Answers id x s ↔ s.active = true ∧ P
  throws : ∀ s e t, outcome x s = (.error e, t) → t.replies = s.replies

section Replies

variable {α : Type} {id : UInt32} {x : Handler Unit} {P Q : Prop}

lemma outcome_get {k : Session → Handler Unit} {s : Session} :
    outcome (get >>= k) s = outcome (k s) s := rfl

lemma Replies.congr (h : Replies id x P) (hPQ : P ↔ Q) : Replies id x Q :=
  ⟨fun s => (h.answers_iff s).trans (and_congr_right fun _ => hPQ), h.throws⟩

lemma returns_reply {body : Body} {s t : Session} (h : Returns (reply id body) s () t) :
    t = if s.active then { s with replies := s.replies ++ [(id, body)] } else s :=
  (returns_modify.mp h).symm

lemma replies_reply (body : Body) : Replies id (reply id body) True := by
  constructor
  · intro s
    constructor
    · rintro ⟨t, body', h, hreplies⟩
      by_cases hactive : s.active = true
      · exact ⟨hactive, trivial⟩
      · rw [returns_reply h, if_neg hactive] at hreplies
        simp at hreplies
    · rintro ⟨hactive, -⟩
      exact ⟨_, body, returns_modify.mpr rfl, by rw [if_pos hactive]⟩
  · intro s e t h
    cases h

/-- What comes before the reply decides whether there is one. -/
lemma replies_bind {y : Handler α} {R : α → Prop} {S : α → Prop} {k : α → Handler Unit}
    (hy : Prepares y R) (hk : ∀ a, Replies id (k a) (S a)) :
    Replies id (y >>= k) (∃ a, R a ∧ S a) := by
  constructor
  · intro s
    constructor
    · rintro ⟨u, body, h, hreplies⟩
      obtain ⟨a, t, ha, hrest⟩ := returns_bind.mp h
      obtain ⟨hactive, hsame⟩ := Prod.mk.inj (hy.returns ha)
      have hanswers : Answers id (k a) t := ⟨u, body, hrest, by rw [hreplies, hsame]⟩
      obtain ⟨hactive', hS⟩ := ((hk a).answers_iff t).mp hanswers
      exact ⟨hactive ▸ hactive', a, (hy.returns_iff s a).mp ⟨t, ha⟩, hS⟩
    · rintro ⟨hactive, a, hR, hS⟩
      obtain ⟨t, ha⟩ := (hy.returns_iff s a).mpr hR
      obtain ⟨hactive', hsame⟩ := Prod.mk.inj (hy.returns ha)
      obtain ⟨u, body, hrest, hreplies⟩ := ((hk a).answers_iff t).mpr ⟨hactive'.trans hactive, hS⟩
      exact ⟨u, body, returns_bind.mpr ⟨a, t, ha, hrest⟩, by rw [hreplies, hsame]⟩
  · intro s e u h
    rcases ha : outcome y s with ⟨e' | a, t⟩
    · cases (outcome_bind_error ha k).symm.trans h
      exact (Prod.mk.inj (hy.throws ha)).2
    · rw [show outcome (y >>= k) s = _ from Returns.outcome_bind ha k] at h
      exact ((hk a).throws t e u h).trans (Prod.mk.inj (hy.returns ha)).2

lemma replies_throw (e : Failure) : Replies id (throw e) False := by
  constructor
  · intro s
    constructor
    · rintro ⟨t, body, h, -⟩
      cases h
    · exact fun h => h.2.elim
  · intro s e' t h
    cases h
    rfl

end Replies

section Handlers

variable (mp : Msgpack) (env : Components) (arg : Object) (id : UInt32)

/-- The argument is converted to a map first. -/
lemma replies_map {k : List (String × Object) → Handler Unit} {P : List (String × Object) → Prop}
    (hk : ∀ map, Replies id (k map) (P map)) :
    Replies id (cast (asMap mp.text arg) >>= k) (IsMap mp P arg) :=
  replies_bind (prepares_cast _) hk

lemma exit_replies : Replies id (exit id) True := by
  constructor
  · intro s
    rw [← (replies_reply (.text "bye")).answers_iff s]
    constructor
    · rintro ⟨u, body, h, hreplies⟩
      obtain ⟨_, t, hreply, hstop⟩ := returns_bind.mp h
      rw [← returns_modify.mp hstop] at hreplies
      exact ⟨t, body, hreply, hreplies⟩
    · rintro ⟨t, body, h, hreplies⟩
      exact ⟨_, body, returns_bind.mpr ⟨(), t, h, returns_modify.mpr rfl⟩, hreplies⟩
  · intro s e t h
    cases h

lemma prepares_capturing (b : Bool) :
    Prepares (modify fun s : Session => { s with capturing := b }) fun _ => True :=
  uniform_modify fun _ => rfl

lemma start_replies : Replies id (start env id) True := by
  refine (replies_bind (prepares_call .start) fun _ =>
    replies_bind (prepares_capturing env.started) fun _ => replies_reply _).congr ?_
  simp

lemma stop_replies : Replies id (stop id) True := by
  refine (replies_bind (prepares_call .stop) fun _ =>
    replies_bind (prepares_capturing false) fun _ => replies_reply _).congr ?_
  simp

lemma ping_replies : Replies id (ping id) True := by
  have hping : Prepares (modify fun s : Session => { s with pingReceived := true }) fun _ => True :=
    uniform_modify fun _ => rfl
  refine (replies_bind hping fun _ => replies_reply _).congr ?_
  simp

/-- A member that is passed on if it is there. -/
lemma prepares_setting {α : Type} {as : Object → Option α} (it : Option Object) (c : α → Call) :
    Prepares (ifFound it () fun o => do call (c (← cast (as o)))) fun _ => Optional it (Takes as) := by
  refine (prepares_ifFound fun o => (prepares_cast (as o)).bind fun a => prepares_call _).congr ?_
  intro u
  cases it with
  | none => simp [Optional]
  | some o => simp [Optional, Takes]

lemma setOpt_replies [Platform] : Replies id (setOpt mp env arg id) (Accepts mp arg .setOpt) := by
  refine replies_map mp arg id fun map => ?_
  have hfilter : Prepares (ifFound (map.lookup "filter") [] _) _ := prepares_ifFound fun o =>
    (prepares_cast (o.asKey mp.text)).bind fun filter => (prepares_call (.setBPF filter)).bind fun _ =>
      uniform_pure (resultOf (env.setBPF filter).isNone ((env.setBPF filter).getD ""))
  refine (replies_bind (prepares_setting _ _) fun _ => replies_bind (prepares_setting _ _) fun _ =>
    replies_bind (prepares_setting _ _) fun _ => replies_bind hfilter fun _ => replies_reply _).congr ?_
  simp only [exists_const, and_true, true_and, exists_found]
  simp [IsText, Takes, Optional]

lemma setFilter_replies [Platform] :
    Replies id (setFilter mp arg id) (Accepts mp arg .setFilter) := by
  refine replies_map mp arg id fun map => ?_
  refine (replies_bind (prepares_deref (map.lookup "name")) fun name =>
    replies_bind (prepares_deref (map.lookup "source")) fun source =>
    replies_bind (prepares_deref (map.lookup "options")) fun options =>
    replies_bind (prepares_cast (name.asKey mp.text)) fun _ =>
    replies_bind (prepares_cast (source.asKey mp.text)) fun _ =>
    replies_bind (prepares_call _) fun _ => replies_reply _).congr ?_
  simp only [Required, IsText, Takes]
  constructor
  · rintro ⟨name, hname, source, hsource, options, hoptions, n, hn, src, hsrc, -⟩
    exact ⟨⟨name, hname, n, hn⟩, ⟨source, hsource, src, hsrc⟩, options, hoptions, trivial⟩
  · rintro ⟨⟨name, hname, n, hn⟩, ⟨source, hsource, src, hsrc⟩, options, hoptions, -⟩
    exact ⟨name, hname, source, hsource, options, hoptions, n, hn, src, hsrc, (), trivial, trivial⟩

/-- The handlers of both dissectors take what their function of the dispatcher takes. -/
lemma loadWith_replies {load : String → Object → Handler Bool} {P : Object → Prop}
    {Q : Object → Bool → Prop} (hload : ∀ source options, Prepares (load source options) (Q options))
    (hP : ∀ options, P options ↔ ∃ ok, Q options ok) :
    Replies id (loadWith mp arg id load) (IsMap mp (fun map => Optional (map.lookup "source")
      fun source => IsText mp source ∧ Required (map.lookup "options") P) arg) := by
  refine replies_map mp arg id fun map => ?_
  cases map.lookup "source" with
  | none => exact (replies_reply _).congr (by simp [Optional])
  | some source =>
    refine (replies_bind (prepares_deref (map.lookup "options")) fun options =>
      replies_bind (prepares_cast (source.asKey mp.text)) fun _ =>
      replies_bind (hload _ options) fun _ => replies_reply _).congr ?_
    simp only [Optional, Required, IsText, Takes, hP, Option.some.injEq, forall_eq', and_true]
    constructor
    · rintro ⟨options, hoptions, src, hsrc, ok, hok⟩
      exact ⟨⟨src, hsrc⟩, options, hoptions, ok, hok⟩
    · rintro ⟨⟨src, hsrc⟩, options, hoptions, ok, hok⟩
      exact ⟨options, hoptions, src, hsrc, ok, hok⟩

lemma prepares_loadDissector (source : String) (options : Object) :
    Prepares (Dispatcher.loadDissector source options) fun ok => true = ok :=
  ((prepares_call _).bind fun _ => uniform_pure true).congr fun ok => by simp

lemma prepares_loadModule (name source : String) :
    Prepares (Dispatcher.loadModule name source) fun ok => true = ok :=
  ((prepares_call _).bind fun _ => uniform_pure true).congr fun ok => by simp

lemma prepares_asString (o : Object) :
    Prepares (asString mp o) fun s => o.asKey mp.text = some s := prepares_cast _

lemma prepares_loadStreamDissector (source : String) (options : Object) :
    Prepares (Dispatcher.loadStreamDissector mp source options) fun ok =>
      IsMap mp (fun map => Required (map.lookup "namespaces") (IsVector (IsText mp))) options ∧
        true = ok := by
  refine ((prepares_cast (asMap mp.text options)).bind (Q := fun map ok =>
    Required (map.lookup "namespaces") (IsVector (IsText mp)) ∧ true = ok)
    fun map => ?_).congr fun ok => ?_
  · cases map.lookup "namespaces" with
    | none => exact (uniform_throw _).congr fun ok => by simp [Required]
    | some array =>
      refine ((prepares_asVector (prepares_asString mp) array).bind fun namespaces =>
        (prepares_call _).bind fun _ => uniform_pure true).congr fun ok => ?_
      simp only [true_and, exists_const, exists_and_right, exists_vector, Required,
        Option.some.injEq, exists_eq_left']
      rfl
  · simp only [IsMap, ← and_assoc, exists_and_right]

lemma loadDissector_replies [Platform] :
    Replies id (loadDissector mp arg id) (Accepts mp arg .loadDissector) := by
  apply loadWith_replies mp arg id prepares_loadDissector
  intro options
  exact iff_of_true trivial ⟨true, rfl⟩

lemma loadStreamDissector_replies [Platform] :
    Replies id (loadStreamDissector mp arg id) (Accepts mp arg .loadStreamDissector) := by
  apply loadWith_replies mp arg id (prepares_loadStreamDissector mp)
  intro options
  rw [exists_and_left, and_iff_left ⟨true, rfl⟩]

/-- Two members are used if both are there. -/
lemma replies_pair {it it' : Option Object} {body : Body} {k : Object → Object → Handler Unit}
    {P : Object → Object → Prop} (hk : ∀ o o', Replies id (k o o') (P o o')) :
    Replies id (match it, it' with
      | some o, some o' => k o o'
      | _, _ => reply id body) (Optional it fun o => Optional it' (P o)) := by
  cases it with
  | none => exact (replies_reply body).congr (by simp [Optional])
  | some o =>
    cases it' with
    | none => exact (replies_reply body).congr (by simp [Optional])
    | some o' => exact (hk o o').congr (by simp [Optional])

lemma loadModule_replies [Platform] :
    Replies id (loadModule mp arg id) (Accepts mp arg .loadModule) := by
  refine replies_map mp arg id fun map => replies_pair id fun name source => ?_
  refine (replies_bind (prepares_asString mp name) fun n =>
    replies_bind (prepares_asString mp source) fun src =>
    replies_bind (prepares_loadModule n src) fun _ => replies_reply _).congr ?_
  simp [IsText, Takes]

lemma readStream_replies [Platform] :
    Replies id (readStream mp env arg id) (Accepts mp arg .readStream) := by
  refine replies_map mp arg id fun map => replies_pair id fun stream index => ?_
  refine (replies_bind (prepares_asString mp stream) fun _ =>
    replies_bind (prepares_cast (asUInt64 index)) fun _ => replies_reply _).congr ?_
  simp [IsText, Takes]

lemma streamLength_replies [Platform] :
    Replies id (streamLength mp env arg id) (Accepts mp arg .streamLength) := by
  refine (replies_bind (prepares_asString mp arg) fun _ => replies_reply _).congr ?_
  simp only [and_true, Accepts, IsText, Takes]

lemma getPackets_replies [Platform] :
    Replies id (getPackets mp env arg id) (Accepts mp arg .getPackets) := by
  refine replies_map mp arg id fun map => ?_
  cases map.lookup "list" with
  | some l =>
    refine (replies_bind (prepares_asVector (fun o => prepares_cast (asUInt64 o)) l) fun _ =>
      replies_reply _).congr ?_
    simp only [and_true, exists_vector, Optional, Option.some.injEq, forall_eq', reduceCtorEq,
      false_implies]
    rfl
  | none =>
    cases map.lookup "range" with
    | none => exact (replies_reply _).congr (by simp [Optional])
    | some r =>
      refine (replies_bind (prepares_cast (asPair r)) fun _ => replies_reply _).congr ?_
      simp [Optional, Takes]

lemma getFiltered_replies [Platform] :
    Replies id (getFiltered mp env arg id) (Accepts mp arg .getFiltered) := by
  refine replies_map mp arg id fun map => replies_pair id fun name range => ?_
  refine (replies_bind (prepares_cast (asPair range)) fun _ =>
    replies_bind (prepares_asString mp name) fun _ => replies_reply _).congr ?_
  simp [IsText, Takes, and_comm]

/-- The packets and the devices are looked up, and their elements converted one by one. -/
lemma setTestdata_replies [Platform] :
    Replies id (setTestdata mp arg id) (Accepts mp arg .setTestdata) := by
  have hdummy : Prepares (pcapDummy mp arg) _ := (prepares_cast _).bind fun map =>
    (prepares_deref (map.lookup "packets")).bind fun o =>
    (prepares_asVector prepares_asPacket o).bind fun packets =>
    (prepares_deref (map.lookup "devices")).bind fun o' =>
    (prepares_asVector (fun x => prepares_cast (device mp x)) o').bind fun devices =>
    uniform_pure (packets, devices)
  refine (replies_bind hdummy fun dummy => replies_bind (prepares_call (.reset dummy.1 dummy.2))
    fun _ => replies_reply .nothing).congr ?_
  constructor
  · rintro ⟨_, ⟨map, hmap, o, ho, packets, hpackets, o', ho', devices, hdevices, -⟩, -⟩
    exact ⟨map, hmap, ⟨o, ho, exists_vector.mp ⟨packets, hpackets⟩⟩, o', ho',
      exists_vector.mp ⟨devices, hdevices⟩⟩
  · rintro ⟨map, hmap, ⟨o, ho, hpackets⟩, o', ho', hdevices⟩
    obtain ⟨packets, hpackets⟩ := exists_vector.mpr hpackets
    obtain ⟨devices, hdevices⟩ := exists_vector.mpr hdevices
    exact ⟨(packets, devices), ⟨map, hmap, o, ho, packets, hpackets, o', ho', devices, hdevices, rfl⟩,
      (), trivial, trivial⟩

lemma insertAll_prepares (packets : List RawPacket) :
    Prepares (insertAll packets) fun _ => True := by
  induction packets with
  | nil => exact (uniform_pure ()).congr fun _ => by simp
  | cons pkt packets ih =>
    refine ((prepares_call (.insert pkt)).bind fun _ => ih).congr fun _ => ?_
    simp

lemma analyze_replies [Platform] : Replies id (analyze mp arg id) (Accepts mp arg .analyze) := by
  refine (replies_bind (prepares_asVector prepares_asPacket arg) fun packets =>
    replies_bind (insertAll_prepares packets) fun _ => replies_reply _).congr ?_
  simp only [and_true, exists_const, exists_vector]
  rfl

/-- What `get_status` does in a state replies if the status of the state can be compared. -/
lemma getStatus_replies (s : Session) : ∃ x, outcome (getStatus env id) s = outcome x s ∧
    Replies id x (StatusFits env s) := by
  refine ⟨_, outcome_get, ?_⟩
  have hfits := Status.ne_ne_none_iff { env.status with capturing := s.capturing } s.status
  rw [StatusFits, ← hfits]
  dsimp only
  generalize ({ env.status with capturing := s.capturing } : Status) = stat
  cases stat.ne s.status with
  | none => exact (replies_throw .exception).congr (by simp)
  | some differs =>
    cases differs with
    | true =>
      have hstatus : Prepares (modify fun s' : Session => { s' with status := stat }) fun _ => True :=
        uniform_modify fun _ => rfl
      exact (replies_bind hstatus fun _ => replies_reply (.status stat)).congr (by simp)
    | false => exact (replies_reply .nothing).congr (by simp)

/-- In a state every handler does what replies once exactly if the handler takes the argument. -/
lemma handler_replies [p : Platform] (cmd : Command) (s : Session) :
    ∃ x, outcome (cmd.handler mp env arg id) s = outcome x s ∧
      Replies id x (Accepts mp arg cmd ∧ (cmd = .getStatus → StatusFits env s)) := by
  have hfetch : Replies id (fetchLogs env id) True :=
    (replies_bind (prepares_call .resetLogs) fun _ => replies_reply _).congr (by simp)
  have hother : ∀ {P : Prop} {x : Handler Unit}, Replies id x P → cmd ≠ .getStatus →
      ∃ x', outcome x s = outcome x' s ∧
        Replies id x' (P ∧ (cmd = .getStatus → StatusFits env s)) := by
    intro P x h hcmd
    exact ⟨x, rfl, h.congr (and_iff_left fun heq => absurd heq hcmd).symm⟩
  cases cmd with
  | exit => exact hother (exit_replies id) (by decide)
  | start => exact hother (start_replies env id) (by decide)
  | stop => exact hother (stop_replies id) (by decide)
  | ping => exact hother (ping_replies id) (by decide)
  | setOpt => exact hother (setOpt_replies mp env arg id) (by decide)
  | setFilter => exact hother (setFilter_replies mp arg id) (by decide)
  | loadDissector => exact hother (loadDissector_replies mp arg id) (by decide)
  | loadStreamDissector => exact hother (loadStreamDissector_replies mp arg id) (by decide)
  | loadModule => exact hother (loadModule_replies mp arg id) (by decide)
  | getStatus =>
    obtain ⟨x, hx, h⟩ := getStatus_replies env id s
    exact ⟨x, hx, h.congr (by simp [Accepts])⟩
  | readStream => exact hother (readStream_replies mp env arg id) (by decide)
  | streamLength => exact hother (streamLength_replies mp env arg id) (by decide)
  | getPackets => exact hother (getPackets_replies mp env arg id) (by decide)
  | getFiltered => exact hother (getFiltered_replies mp env arg id) (by decide)
  | getDevices => exact hother (replies_reply _) (by decide)
  | setTestdata => exact hother (setTestdata_replies mp arg id) (by decide)
  | analyze => exact hother (analyze_replies mp arg id) (by decide)
  | fetchLogs => exact hother hfetch (by decide)

lemma handler_answers [p : Platform] (cmd : Command) (s : Session) :
    Answers id (cmd.handler mp env arg id) s ↔
      s.active = true ∧ Accepts mp arg cmd ∧ (cmd = .getStatus → StatusFits env s) := by
  obtain ⟨x, hx, h⟩ := handler_replies mp env arg id cmd s
  rw [← h.answers_iff s, Answers, Answers]
  simp only [Returns, hx]

lemma handler_throws [p : Platform] {cmd : Command} {s t : Session} {e : Failure}
    (h : outcome (cmd.handler mp env arg id) s = (.error e, t)) : t.replies = s.replies := by
  obtain ⟨x, hx, hreplies⟩ := handler_replies mp env arg id cmd s
  exact hreplies.throws s e t (hx.symm.trans h)

/-! ### Both platforms -/

variable (p q : Platform)

lemma alike_cast {α : Type} {x y : Option α} (h : Compatible x y) : Alike (cast x) (cast y) := by
  intro s a b t u ha hb
  cases x with
  | none => cases ha
  | some a' =>
    cases y with
    | none => cases hb
    | some b' =>
      obtain rfl := h a' b' rfl rfl
      exact ha.unique hb

lemma alike_layersOf (o : Object) : Alike (@layersOf p mp o) (@layersOf q mp o) := by
  unfold layersOf
  refine (alike_refl _).bind fun data => ?_
  cases mp.unpack data with
  | none => exact alike_refl (throw Failure.exception)
  | some layers => exact alike_cast (compatible_convertLayers p q mp.text layers)

lemma alike_ifFound {α : Type} {act act' : Object → Handler α} (h : ∀ o, Alike (act o) (act' o))
    (it : Option Object) (default : α) : Alike (ifFound it default act) (ifFound it default act') := by
  cases it with
  | none => exact alike_refl (pure default)
  | some o => exact h o

lemma alike_asPacket (o : Object) : Alike (@asPacket p mp o) (@asPacket q mp o) := by
  unfold asPacket
  refine (alike_refl _).bind fun map => (alike_refl _).bind fun _ => (alike_refl _).bind fun _ =>
    (alike_refl _).bind fun _ => (alike_refl _).bind fun _ => (alike_refl _).bind fun _ =>
    (alike_refl _).bind fun _ => ?_
  exact (alike_ifFound (alike_layersOf mp p q) (map.lookup "layers") []).bind fun _ => alike_refl _

lemma alike_asPackets (o : Object) :
    Alike (asVector (@asPacket p mp) o) (asVector (@asPacket q mp) o) := by
  cases o with
  | array os => exact alike_mapM (alike_asPacket mp p q) os
  | _ => exact alike_refl (throw Failure.badCast)

lemma alike_pcapDummy : Alike (@pcapDummy p mp arg) (@pcapDummy q mp arg) := by
  unfold pcapDummy
  exact (alike_refl _).bind fun map => (alike_refl _).bind fun packets =>
    (alike_asPackets mp p q packets).bind fun _ => alike_refl _

/-- A handler that returns on both platforms does the same on both. -/
lemma alike_handler (cmd : Command) : Alike (@Command.handler p mp env arg id cmd)
    (@Command.handler q mp env arg id cmd) := by
  cases cmd with
  | analyze => exact (alike_asPackets mp p q arg).bind fun _ => alike_refl _
  | setTestdata => exact (alike_pcapDummy mp arg p q).bind fun _ => alike_refl _
  | _ => exact alike_refl _

end Handlers

/-! ### The loops -/

section Loops

variable (mp : Msgpack) {env : Components} {obj arg : Object} {name : String} {id : UInt32}
  {s t : Session}

/-- The message is received in the state `s`: both loops go on in the same state, and a request with
a command has got one reply with its id. -/
structure Survives (env : Components) (obj : Object) (s t : Session) : Prop where
  posix : Returns (Posix.receive mp env obj) s () t
  win32 : Returns (Win32.receive mp env obj) s () t
  reply : ∀ name id arg, asRequest mp obj = some (name, id, arg) → handlers.lookup name ≠ none →
    ∃ body, t.replies = s.replies ++ [(id, body)]

/-- What happens to the server. -/
inductive Event where
  | receive (env : Components) (obj : Object)
  | pingTimeout

/-- One event on POSIX; after a failure there is no next state. -/
def step (s : Session) : Event → Option Session
  | .receive env obj =>
    match outcome (Posix.receive mp env obj) s with
    | (.ok _, t) => some t
    | (.error _, _) => none
  | .pingTimeout => some (pingTimeout s)

/-- If the event is a message, it is survived. -/
def Event.Survived (s : Session) : Event → Prop
  | .receive env obj => ∃ t, Survives mp env obj s t
  | .pingTimeout => True

/-- If the event is a message, it is acceptable. -/
def Event.Acceptable (s : Session) : Event → Prop
  | .receive env obj => Server.Acceptable mp env obj s
  | .pingTimeout => True

variable {mp}

lemma posix_of_request (h : asRequest mp obj = some (name, id, arg)) :
    outcome (Posix.receive mp env obj) s = outcome (handle (p := .posix) mp env (name, id, arg)) s := by
  rw [Posix.receive, outcome_bind, outcome_tryCatch, h]
  rfl

/-- No command has an empty name. -/
lemma posix_of_none (h : asRequest mp obj = none) : Returns (Posix.receive mp env obj) s () s := by
  rw [Returns, Posix.receive, outcome_bind, outcome_tryCatch, h]
  rfl

lemma win32_inactive (h : ¬ s.active = true) : Returns (Win32.receive mp env obj) s () s := by
  show outcome (if s.active = true then _ else pure ()) s = _
  rw [if_neg h]
  rfl

lemma win32_of_none (h : asRequest mp obj = none) : Returns (Win32.receive mp env obj) s () s := by
  by_cases hactive : s.active = true
  · show outcome (if s.active = true then _ else pure ()) s = _
    rw [if_pos hactive, outcome_tryCatch, outcome_bind, h]
    rfl
  · exact win32_inactive hactive

/-- Before `stop` a `std::bad_cast` of the handler is caught. -/
lemma win32_of_request (h : asRequest mp obj = some (name, id, arg)) (hactive : s.active = true) :
    outcome (Win32.receive mp env obj) s =
      outcome (tryCatch (handle (p := .win32) mp env (name, id, arg)) fun
        | .badCast => pure ()
        | e => throw e) s := by
  have hbody : outcome (do handle (p := .win32) mp env (← cast (asRequest mp obj))) s =
      outcome (handle (p := .win32) mp env (name, id, arg)) s := by
    rw [h]
    rfl
  show outcome (if s.active = true then _ else pure ()) s = _
  rw [if_pos hactive]
  exact outcome_tryCatch_congr hbody _

lemma handle_of_lookup [p : Platform] {cmd : Command} (h : handlers.lookup name = some cmd) :
    handle mp env (name, id, arg) = cmd.handler mp env arg id := by
  rw [handle, h]

/-- If the loop of win32 goes on after a reply, the handler has returned. -/
lemma win32_handler {cmd : Command} (hrequest : asRequest mp obj = some (name, id, arg))
    (hcmd : handlers.lookup name = some cmd) (hactive : s.active = true)
    (h : Returns (Win32.receive mp env obj) s () t) (hreplies : t.replies ≠ s.replies) :
    Returns (cmd.handler (p := .win32) mp env arg id) s () t := by
  rw [Returns, win32_of_request hrequest hactive, handle_of_lookup (p := .win32) hcmd,
    outcome_tryCatch] at h
  rcases hhandler : outcome (cmd.handler (p := .win32) mp env arg id) s with ⟨e | u, t'⟩
  · rw [hhandler] at h
    cases e with
    | badCast =>
      cases h
      exact absurd (handler_throws (p := .win32) mp env arg id hhandler) hreplies
    | exception => cases h
    | missing => cases h
  · rw [hhandler] at h
    cases h
    exact hhandler

/-- One message. -/
lemma survives_iff_acceptable : (∃ t, Survives mp env obj s t) ↔ Acceptable mp env obj s := by
  constructor
  · rintro ⟨t, hposix, hwin32, hreply⟩ name id arg cmd hrequest hcmd
    obtain ⟨body, hbody⟩ := hreply name id arg hrequest (by rw [hcmd]; exact Option.some_ne_none cmd)
    rw [Returns, posix_of_request hrequest, handle_of_lookup hcmd] at hposix
    obtain ⟨hactive, haccepts, hfits⟩ :=
      (handler_answers (p := .posix) mp env arg id cmd s).mp ⟨t, body, hposix, hbody⟩
    have hreplies : t.replies ≠ s.replies := by
      rw [hbody]
      simp
    have hwin := win32_handler hrequest hcmd hactive hwin32 hreplies
    have haccepts' := (handler_answers (p := .win32) mp env arg id cmd s).mp ⟨t, body, hwin, hbody⟩
    refine ⟨hactive, fun p => ?_, hfits⟩
    cases p with
    | posix => exact haccepts
    | win32 => exact haccepts'.2.1
  · intro h
    cases hrequest : asRequest mp obj with
    | none =>
      refine ⟨s, posix_of_none hrequest, win32_of_none hrequest, ?_⟩
      intro name id arg heq
      rw [hrequest] at heq
      cases heq
    | some tuple =>
      obtain ⟨name, id, arg⟩ := tuple
      cases hcmd : handlers.lookup name with
      | none =>
        have hhandle (p : Platform) : Returns (handle mp env (name, id, arg)) s () s := by
          rw [handle, hcmd]
          rfl
        refine ⟨s, (posix_of_request hrequest).trans (hhandle .posix), ?_, ?_⟩
        · by_cases hactive : s.active = true
          · rw [Returns, win32_of_request hrequest hactive, outcome_tryCatch,
              show outcome _ s = _ from hhandle .win32]
          · exact win32_inactive hactive
        · intro name' id' arg' heq hne
          cases hrequest.symm.trans heq
          exact absurd hcmd hne
      | some cmd =>
        obtain ⟨hactive, haccepts, hfits⟩ := h name id arg cmd hrequest hcmd
        obtain ⟨t, body, hposix, hreplies⟩ :=
          (handler_answers (p := .posix) mp env arg id cmd s).mpr ⟨hactive, haccepts .posix, hfits⟩
        obtain ⟨t', _, hwin32, _⟩ :=
          (handler_answers (p := .win32) mp env arg id cmd s).mpr ⟨hactive, haccepts .win32, hfits⟩
        obtain ⟨-, rfl⟩ := alike_handler mp env arg id .posix .win32 cmd s () () t t' hposix hwin32
        refine ⟨t, ?_, ?_, ?_⟩
        · rw [Returns, posix_of_request hrequest, handle_of_lookup hcmd]
          exact hposix
        · rw [Returns, win32_of_request hrequest hactive, handle_of_lookup (p := .win32) hcmd,
            outcome_tryCatch, show outcome _ s = _ from hwin32]
        · intro name' id' arg' heq _
          cases hrequest.symm.trans heq
          exact ⟨body, hreplies⟩

lemma survived_iff_acceptable (e : Event) : e.Survived mp s ↔ e.Acceptable mp s := by
  cases e with
  | receive env obj => exact survives_iff_acceptable
  | pingTimeout => exact Iff.rfl

lemma step_of_survived {e : Event} (h : e.Survived mp s) : ∃ t, step mp s e = some t := by
  cases e with
  | receive env obj =>
    obtain ⟨t, hposix, -, -⟩ := h
    exact ⟨t, by rw [step, show outcome _ s = _ from hposix]⟩
  | pingTimeout => exact ⟨_, rfl⟩

end Loops

/-- Every message of a run is survived exactly when every one is acceptable in the state in which it
is received. -/
theorem survived_iff (mp : Msgpack) (s : Session) (events : List Event) :
    (∀ earlier e, earlier ++ [e] <+: events →
      ∃ t, run (step mp) s earlier = some t ∧ e.Survived mp t) ↔
    Meets (step mp) (Event.Acceptable mp) s events := by
  exact forall_label_iff_meets (fun t e => survived_iff_acceptable e) fun t e h => step_of_survived h

/-- The value of a request with the id 1. -/
def request (name : String) (arg : Object) : Object := .array [.str name, .integer 1, arg]

/-- A field of the wrong type ends the loop on POSIX and costs the reply on win32. A missing one is
dereferenced in `set_filter`, and in `load_stream_dissector` it ends both loops. -/
theorem not_survived :
    let mp : Msgpack := ⟨fun _ => "", fun _ => none, fun _ => []⟩
    let length := request "stream_length" .nil
    let filter := request "set_filter" (.map [])
    let load := request "load_stream_dissector"
      (.map [(.str "source", .str ""), (.str "options", .map [])])
    (¬ ∀ earlier e, earlier ++ [e] <+: [.receive {} length] →
      ∃ t, run (step mp) {} earlier = some t ∧ e.Survived mp t) ∧
    outcome (Posix.receive mp {} length) {} = (.error .badCast, {}) ∧
    outcome (Win32.receive mp {} length) {} = (.ok (), {}) ∧
    outcome (Posix.receive mp {} filter) {} = (.error .missing, {}) ∧
    outcome (Win32.receive mp {} filter) {} = (.error .missing, {}) ∧
    outcome (Posix.receive mp {} load) {} = (.error .exception, {}) ∧
    outcome (Win32.receive mp {} load) {} = (.error .exception, {}) := by
  refine ⟨fun h => ?_, rfl, rfl, rfl, rfl, rfl, rfl⟩
  obtain ⟨t, ht, u, hposix, -, -⟩ := h [] _ (List.prefix_refl _)
  cases ht
  cases hposix

end Dripcap.Server
