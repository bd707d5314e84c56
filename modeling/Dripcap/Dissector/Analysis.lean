import Dripcap.Builtin.Instance
import Dripcap.Dissector.Bytes
import Dripcap.Library.Outcome
import Mathlib.Logic.Function.Basic

/-!
# What dissectors do

The method `analyze` of a dissector reads the payload of its parent layer and fills a new layer,
which it attaches to the parent. Here are the objects that it works on and its steps; the dissectors
follow, each in a module of its own.

Numbers that dissectors read and compute are natural numbers: they are never negative, and those
that an operator for bits is applied to are below `2 ^ 31`.
-/

namespace Dripcap

open Outcome

/-! ### Layers of scripts -/

/-- A value of an attribute or a field. A buffer is the bytes that it has. -/
inductive Attr where
  | boolean (b : Bool)
  | number (n : ℕ)
  | string (s : String)
  | buffer (data : List UInt8)
  | instance (x : Instance)
  deriving DecidableEq

/-- An element of `fields`. -/
structure Field where
  name : String
  value : Option Attr := none
  attr : Option String := none
  data : Payload
  note : Option String := none
  fields : List Field := []

/-- An element of `streams`. -/
structure LayerStream where
  name : String
  ns : String
  id : String
  data : Payload
  flag : StreamFlag

/-- The layer that a dissector makes, with what `new Layer()` has at first. -/
structure ScriptLayer where
  name : String
  ns : String
  fields : List Field := []
  attrs : String → Option Attr := fun _ => none
  payload : Option Payload := none
  streams : List LayerStream := []
  summary : Option String := none
  error : Option ReadError := none

/-- The layer that a dissector is called with. -/
structure ParentLayer where
  ns : String
  payload : Payload
  fields : List Field
  attrs : String → Option Attr
  layers : String → Option ScriptLayer

/-- What the packet view shows for a field. Without a value and the name of an attribute it asks for
the attribute `undefined`. -/
def shown (attrs : String → Option Attr) (f : Field) : Option Attr :=
  match f.value with
  | some value => some value
  | none => attrs (f.attr.getD "undefined")

/-! ### Steps -/

/-- The objects of a call of `analyze`. -/
structure Analysis where
  layer : ScriptLayer
  parentLayer : ParentLayer

/-- A part of `analyze`. -/
abbrev Dissect (α : Type) : Type := ExceptT ReadError (StateM Analysis) α

namespace Dissect

def modifyLayer (f : ScriptLayer → ScriptLayer) : Dissect PUnit :=
  modify fun a => { a with layer := f a.layer }

/-- `layer.fields.push(field)` -/
def push (field : Field) : Dissect PUnit :=
  modifyLayer fun l => { l with fields := l.fields ++ [field] }

/-- `layer.attrs[key] = value` -/
def setAttr (key : String) (value : Attr) : Dissect PUnit :=
  modifyLayer fun l => { l with attrs := Function.update l.attrs key (some value) }

/-- `layer.namespace = ns` -/
def setNamespace (ns : String) : Dissect PUnit := modifyLayer fun l => { l with ns := ns }

/-- `layer.payload = payload` -/
def setPayload (payload : Payload) : Dissect PUnit :=
  modifyLayer fun l => { l with payload := some payload }

/-- `layer.summary = summary` -/
def setSummary (summary : String) : Dissect PUnit :=
  modifyLayer fun l => { l with summary := some summary }

/-- `layer.streams.push(stream)` -/
def pushStream (stream : LayerStream) : Dissect PUnit :=
  modifyLayer fun l => { l with streams := l.streams ++ [stream] }

/-- A field with the name of an attribute is pushed, and then the attribute is set. -/
def pushAttr (name attr : String) (data : Payload) (value : Dissect Attr) : Dissect PUnit := do
  push { name := name, attr := some attr, data := data }
  let value ← value
  setAttr attr value

/-- The payload becomes a field, too. -/
def pushPayload (payload : Payload) : Dissect PUnit := do
  setPayload payload
  push { name := "Payload", value := some (.buffer payload.bytes), data := payload }

/-- The namespace when the next protocol is known. -/
def setProtocol (ns : String) (protocol : Enum) : Dissect PUnit :=
  if protocol.known then setNamespace (ns ++ "::<" ++ protocol.name ++ ">") else pure ⟨⟩

/-- The summary of a layer between two addresses. -/
def summarize (protocol : Enum) (addresses : String) : Dissect PUnit :=
  setSummary (if protocol.known then "[" ++ protocol.name ++ "] " ++ addresses else addresses)

/-- `assertLength` of the dissectors. -/
def assertLength (payload : Payload) (len : ℕ) : Dissect PUnit :=
  if payload.length < len then throw (.thrown "too short frame") else pure ⟨⟩

def readUInt8 (payload : Payload) (offset : ℕ) : Dissect ℕ :=
  MonadExcept.ofExcept (payload.uint8 offset)

def readUInt16BE (payload : Payload) (offset : ℕ) : Dissect ℕ :=
  MonadExcept.ofExcept (payload.uint16 offset)

def readUInt32BE (payload : Payload) (offset : ℕ) : Dissect ℕ :=
  MonadExcept.ofExcept (payload.uint32 offset)

/-- A constructor of `dripcap/builtin` throws its text. -/
def construct {α : Type} (x : Except String α) : Dissect α :=
  MonadExcept.ofExcept (x.mapError .thrown)

/-- `addr.constructor.name === 'IPv4Address' ? new IPv4Host(addr, port) : new IPv6Host(addr,
port)` -/
def newHost (addr : Option Attr) (port : ℕ) : Dissect Instance :=
  match addr with
  | none => throw (.thrown "Cannot read property 'constructor' of undefined")
  | some (.instance (.ipv4Address a)) => construct ((IPv4Host.new a port).map .ipv4Host)
  | some (.instance (.ipv6Address a)) => construct ((IPv6Host.new a port).map .ipv6Host)
  | some _ => throw (.thrown "expected IPv6Address")

/-- `catch (err) { layer.error = err.message; }` -/
def catchError (body : Dissect PUnit) : Dissect PUnit :=
  tryCatch body fun err => modifyLayer fun l => { l with error := some err }

/-- `parentLayer.layers[layer.namespace] = layer` -/
def attach : Dissect PUnit :=
  modify fun a => { a with parentLayer := { a.parentLayer with
    layers := Function.update a.parentLayer.layers a.layer.ns (some a.layer) } }

/-- The objects after a call of `analyze`: an exception is caught, and the layer is attached. -/
def run (body : Dissect PUnit) (a : Analysis) : Analysis :=
  (outcome (do catchError body; attach) a).2

end Dissect

/-- `str.replace(found, replacement)` for strings. -/
def replaceIn (str found replacement : String) : String :=
  String.ofList (replaceFirst found.toList replacement.toList str.toList)

/-! ### What the steps do -/

namespace Dissect

variable {payload : Payload} {i n : ℕ} {α : Type}

lemma returns_modifyLayer (f : ScriptLayer → ScriptLayer) (a : Analysis) :
    Returns (modifyLayer f) a ⟨⟩ { a with layer := f a.layer } := rfl

lemma returns_ofExcept {x : Except ReadError α} {v : α} (h : x = .ok v) (a : Analysis) :
    Returns (MonadExcept.ofExcept x : Dissect α) a v a := by
  rw [h]
  rfl

lemma returns_assertLength (h : n ≤ payload.length) (a : Analysis) :
    Returns (assertLength payload n) a ⟨⟩ a := by
  rw [assertLength, if_neg (Nat.not_lt.mpr h)]
  rfl

lemma outcome_assertLength (h : payload.length < n) (a : Analysis) :
    outcome (assertLength payload n) a = (.error (.thrown "too short frame"), a) := by
  rw [assertLength, if_pos h]
  rfl

lemma returns_readUInt8 (h : i < payload.length) (a : Analysis) :
    Returns (readUInt8 payload i) a (payload.byte i) a := returns_ofExcept (payload.uint8_eq h) a

lemma returns_readUInt16BE (h : i + 2 ≤ payload.length) (a : Analysis) :
    Returns (readUInt16BE payload i) a (BigEndian.value (payload.slice i (i + 2)).bytes) a :=
  returns_ofExcept (payload.uint16_eq h) a

lemma returns_readUInt32BE (h : i + 4 ≤ payload.length) (a : Analysis) :
    Returns (readUInt32BE payload i) a (BigEndian.value (payload.slice i (i + 4)).bytes) a :=
  returns_ofExcept (payload.uint32_eq h) a

lemma returns_construct {x : Except String α} {v : α} (h : x = .ok v) (a : Analysis) :
    Returns (construct x) a v a := by
  apply returns_ofExcept
  rw [h]
  rfl

/-- The layer has got fields and attributes, and nothing else has changed. -/
structure Grows (s t : Analysis) : Prop where
  fields : s.layer.fields <+: t.layer.fields
  ns : t.layer.ns = s.layer.ns
  payload : t.layer.payload = s.layer.payload
  streams : t.layer.streams = s.layer.streams
  error : t.layer.error = s.layer.error
  parentLayer : t.parentLayer = s.parentLayer

lemma Grows.refl (s : Analysis) : Grows s s := ⟨List.prefix_rfl, rfl, rfl, rfl, rfl, rfl⟩

lemma Grows.trans {s t u : Analysis} (h : Grows s t) (h' : Grows t u) : Grows s u where
  fields := h.fields.trans h'.fields
  ns := h'.ns.trans h.ns
  payload := h'.payload.trans h.payload
  streams := h'.streams.trans h.streams
  error := h'.error.trans h.error
  parentLayer := h'.parentLayer.trans h.parentLayer

/-- In every state `x` returns `v`, and the layer only grows. -/
def Gives (x : Dissect α) (v : α) : Prop := ∀ a, ∃ t, Grows a t ∧ Returns x a v t

lemma Gives.bind {β : Type} {x : Dissect α} {f : α → Dissect β} {v : α} {w : β} (hx : Gives x v)
    (hf : Gives (f v) w) : Gives (x >>= f) w := by
  intro a
  obtain ⟨t, hgrows, hret⟩ := hx a
  obtain ⟨u, hgrows', hret'⟩ := hf t
  exact ⟨u, hgrows.trans hgrows', hret.bind hret'⟩

/-- A computation that leaves the state as it is. -/
lemma gives_of_returns {x : Dissect α} {v : α} (h : ∀ a, Returns x a v a) : Gives x v :=
  fun a => ⟨a, .refl a, h a⟩

lemma gives_pure (v : α) : Gives (pure v) v := gives_of_returns fun _ => rfl

lemma gives_push (field : Field) : Gives (push field) ⟨⟩ := by
  intro a
  refine ⟨_, ?_, returns_modifyLayer _ a⟩
  exact ⟨List.prefix_append _ _, rfl, rfl, rfl, rfl, rfl⟩

lemma gives_setAttr (key : String) (value : Attr) : Gives (setAttr key value) ⟨⟩ := by
  intro a
  refine ⟨_, ?_, returns_modifyLayer _ a⟩
  exact ⟨List.prefix_rfl, rfl, rfl, rfl, rfl, rfl⟩

lemma gives_pushAttr {value : Dissect Attr} {v : Attr} (h : ∀ a, Returns value a v a)
    (name attr : String) (data : Payload) : Gives (pushAttr name attr data value) ⟨⟩ :=
  (gives_push _).bind ((gives_of_returns h).bind (gives_setAttr _ _))

lemma gives_assertLength (h : n ≤ payload.length) : Gives (assertLength payload n) ⟨⟩ :=
  gives_of_returns (returns_assertLength h)

lemma gives_readUInt8 (h : i < payload.length) : Gives (readUInt8 payload i) (payload.byte i) :=
  gives_of_returns (returns_readUInt8 h)

lemma gives_readUInt16BE (h : i + 2 ≤ payload.length) :
    Gives (readUInt16BE payload i) (BigEndian.value (payload.slice i (i + 2)).bytes) :=
  gives_of_returns (returns_readUInt16BE h)

lemma gives_readUInt32BE (h : i + 4 ≤ payload.length) :
    Gives (readUInt32BE payload i) (BigEndian.value (payload.slice i (i + 4)).bytes) :=
  gives_of_returns (returns_readUInt32BE h)

/-- However `x` ends, the layer has only grown. -/
def OnlyGrows (x : Dissect α) : Prop := ∀ a, Grows a (outcome x a).2

lemma OnlyGrows.bind {β : Type} {x : Dissect α} {f : α → Dissect β} (hx : OnlyGrows x)
    (hf : ∀ v, OnlyGrows (f v)) : OnlyGrows (x >>= f) := by
  intro a
  have hgrows := hx a
  rw [outcome_bind]
  rcases hout : outcome x a with ⟨e | v, t⟩
  · rwa [hout] at hgrows
  · rw [hout] at hgrows
    exact hgrows.trans (hf v t)

lemma onlyGrows_pure (v : α) : OnlyGrows (pure v : Dissect α) := Grows.refl

lemma onlyGrows_throw (e : ReadError) : OnlyGrows (throw e : Dissect α) := Grows.refl

lemma onlyGrows_ofExcept (x : Except ReadError α) :
    OnlyGrows (MonadExcept.ofExcept x : Dissect α) := by
  cases x with
  | error e => exact Grows.refl
  | ok v => exact Grows.refl

lemma onlyGrows_map {β : Type} {x : Dissect α} (hx : OnlyGrows x) (f : α → β) :
    OnlyGrows (f <$> x) := by
  rw [map_eq_pure_bind]
  exact hx.bind fun v => onlyGrows_pure (f v)

lemma onlyGrows_push (field : Field) : OnlyGrows (push field) :=
  fun _ => ⟨List.prefix_append _ _, rfl, rfl, rfl, rfl, rfl⟩

lemma onlyGrows_setAttr (key : String) (value : Attr) : OnlyGrows (setAttr key value) :=
  fun _ => ⟨List.prefix_rfl, rfl, rfl, rfl, rfl, rfl⟩

lemma onlyGrows_pushAttr {value : Dissect Attr} (h : OnlyGrows value) (name attr : String)
    (data : Payload) : OnlyGrows (pushAttr name attr data value) :=
  (onlyGrows_push _).bind fun _ => h.bind fun _ => onlyGrows_setAttr _ _

lemma onlyGrows_assertLength (payload : Payload) (n : ℕ) : OnlyGrows (assertLength payload n) := by
  unfold assertLength
  split_ifs
  · exact onlyGrows_throw _
  · exact onlyGrows_pure _

lemma onlyGrows_newHost (addr : Option Attr) (port : ℕ) : OnlyGrows (newHost addr port) := by
  unfold newHost
  split
  · exact onlyGrows_throw _
  · exact onlyGrows_ofExcept _
  · exact onlyGrows_ofExcept _
  · exact onlyGrows_throw _

/-- A payload that is long enough. -/
lemma le_of_returns_assertLength {a t : Analysis} {u : PUnit}
    (h : Returns (assertLength payload n) a u t) : n ≤ payload.length := by
  by_contra hlt
  rw [Returns, outcome_assertLength (Nat.lt_of_not_le hlt)] at h
  cases h

lemma returns_map {α β : Type} {x : Dissect α} {v : α} (h : ∀ a, Returns x a v a) (f : α → β)
    (a : Analysis) : Returns (f <$> x) a (f v) a := by
  rw [map_eq_pure_bind]
  exact (h a).bind rfl

/-! ### What a layer is filled with -/

/-- Attributes that are set one after the other. -/
def assign (attrs : String → Option Attr) : List (String × Attr) → String → Option Attr
  | [] => attrs
  | (key, value) :: l => assign (Function.update attrs key (some value)) l

lemma assign_of_notMem {attrs : String → Option Attr} {l : List (String × Attr)} {key : String}
    (h : key ∉ l.map Prod.fst) : assign attrs l key = attrs key := by
  induction l generalizing attrs with
  | nil => rfl
  | cons kv l ih =>
    rw [List.map_cons, List.mem_cons, not_or] at h
    rw [assign, ih h.2, Function.update_of_ne h.1]

lemma assign_of_lookup {attrs : String → Option Attr} {l : List (String × Attr)} {key : String}
    {value : Attr} (hnodup : (l.map Prod.fst).Nodup) (h : l.lookup key = some value) :
    assign attrs l key = some value := by
  induction l generalizing attrs with
  | nil => cases h
  | cons kv l ih =>
    rw [List.map_cons, List.nodup_cons] at hnodup
    rw [List.lookup_cons] at h
    split at h
    · next heq =>
      obtain rfl := eq_of_beq heq
      rw [assign, assign_of_notMem hnodup.1, Function.update_self, h]
    · exact ih hnodup.2 h

/-- The layer has got `n` fields and these attributes; but for its namespace nothing else has
changed. -/
structure Filled (n : ℕ) (attrs : List (String × Attr)) (s t : Analysis) : Prop where
  fields : ∃ fields, fields.length = n ∧ t.layer.fields = s.layer.fields ++ fields
  attrs : t.layer.attrs = assign s.layer.attrs attrs
  payload : t.layer.payload = s.layer.payload
  error : t.layer.error = s.layer.error
  parentLayer : t.parentLayer = s.parentLayer

/-- In every state `x` returns `v`, and it fills the layer with `n` fields and these attributes. -/
def Fills (x : Dissect α) (v : α) (n : ℕ) (attrs : List (String × Attr)) : Prop :=
  ∀ a, ∃ t, Returns x a v t ∧ Filled n attrs a t

section Fills

variable {β : Type} {x : Dissect α} {f : α → Dissect β} {v : α} {w : β} {k : ℕ}
  {attrs attrs' : List (String × Attr)} {name attr : String} {value : Dissect Attr} {u : Attr}

lemma assign_append (g : String → Option Attr) (attrs attrs' : List (String × Attr)) :
    assign g (attrs ++ attrs') = assign (assign g attrs) attrs' := by
  induction attrs generalizing g with
  | nil => rfl
  | cons kv attrs ih => exact ih _

lemma Filled.trans {s t r : Analysis} (h : Filled n attrs s t) (h' : Filled k attrs' t r) :
    Filled (k + n) (attrs ++ attrs') s r where
  fields := by
    obtain ⟨fields, hlen, hfields⟩ := h.fields
    obtain ⟨fields', hlen', hfields'⟩ := h'.fields
    refine ⟨fields ++ fields', ?_, by rw [hfields', hfields, List.append_assoc]⟩
    rw [List.length_append, hlen, hlen', Nat.add_comm]
  attrs := by rw [h'.attrs, h.attrs, assign_append]
  payload := h'.payload.trans h.payload
  error := h'.error.trans h.error
  parentLayer := h'.parentLayer.trans h.parentLayer

lemma Fills.bind (hx : Fills x v n attrs) (hf : Fills (f v) w k attrs') :
    Fills (x >>= f) w (k + n) (attrs ++ attrs') := by
  intro a
  obtain ⟨t, hret, hfilled⟩ := hx a
  obtain ⟨r, hret', hfilled'⟩ := hf t
  exact ⟨r, hret.bind hret', hfilled.trans hfilled'⟩

lemma Fills.of_returns (h : ∀ a, Returns x a v a) : Fills x v 0 [] :=
  fun a => ⟨a, h a, ⟨[], rfl, (List.append_nil _).symm⟩, rfl, rfl, rfl, rfl⟩

lemma fills_pure (v : α) : Fills (pure v) v 0 [] := Fills.of_returns fun _ => rfl

/-- A step that leaves the objects as they are. -/
lemma Fills.after (hx : ∀ a, Returns x a v a) (hf : Fills (f v) w n attrs) :
    Fills (x >>= f) w n attrs := (Fills.of_returns hx).bind hf

lemma Fills.push {field : Field} {f : PUnit → Dissect β} (hf : Fills (f ⟨⟩) w n attrs) :
    Fills (push field >>= f) w (n + 1) attrs := by
  have hx : Fills (Dissect.push field) ⟨⟩ 1 [] :=
    fun a => ⟨_, returns_modifyLayer _ a, ⟨[field], rfl, rfl⟩, rfl, rfl, rfl, rfl⟩
  exact hx.bind hf

lemma Fills.setAttr {f : PUnit → Dissect β} (hf : Fills (f ⟨⟩) w n attrs) :
    Fills (setAttr attr u >>= f) w n ((attr, u) :: attrs) := by
  have hx : Fills (Dissect.setAttr attr u) ⟨⟩ 0 [(attr, u)] :=
    fun a => ⟨_, returns_modifyLayer _ a, ⟨[], rfl, (List.append_nil _).symm⟩, rfl, rfl, rfl, rfl⟩
  exact hx.bind hf

lemma fills_pushAttr {data : Payload} (h : ∀ a, Returns value a u a) :
    Fills (pushAttr name attr data value) ⟨⟩ 1 [(attr, u)] :=
  fun a => ⟨_, (returns_modifyLayer _ a).bind ((h _).bind (returns_modifyLayer _ _)),
    ⟨[_], rfl, rfl⟩, rfl, rfl, rfl, rfl⟩

lemma Fills.pushAttr {data : Payload} {f : PUnit → Dissect β} (h : ∀ a, Returns value a u a)
    (hf : Fills (f ⟨⟩) w n attrs) :
    Fills (pushAttr name attr data value >>= f) w (n + 1) ((attr, u) :: attrs) :=
  (fills_pushAttr h).bind hf

/-- An attribute that is constructed of bytes up to the position `k`. -/
lemma Fills.pushConstructed {γ : Type} {data : Payload} {make : Except String γ} {c : γ}
    {attrOf : γ → Attr} {f : γ → PUnit → Dissect β} (hlen : k ≤ payload.length)
    (hc : make = .ok c) (hf : Fills (f c ⟨⟩) w n attrs) :
    Fills (assertLength payload k >>= fun _ => construct make >>= fun c =>
        Dissect.pushAttr name attr data (pure (attrOf c)) >>= f c) w (n + 1)
      ((attr, attrOf c) :: attrs) := by
  apply Fills.after (returns_assertLength hlen)
  apply Fills.after (returns_construct hc)
  exact Fills.pushAttr (fun _ => rfl) hf

lemma fills_setProtocol (ns : String) (protocol : Enum) : Fills (setProtocol ns protocol) ⟨⟩ 0 [] := by
  intro a
  unfold setProtocol
  split_ifs
  · exact ⟨_, returns_modifyLayer _ a, ⟨[], rfl, (List.append_nil _).symm⟩, rfl, rfl, rfl, rfl⟩
  · exact ⟨a, rfl, ⟨[], rfl, (List.append_nil _).symm⟩, rfl, rfl, rfl, rfl⟩

end Fills

/-! ### The end of a run -/

lemma returns_catchError {body : Dissect PUnit} {s a : Analysis} (h : Returns body s ⟨⟩ a) :
    Returns (catchError body) s ⟨⟩ a := by
  rw [Returns, catchError, outcome_tryCatch, h]

lemma returns_catchError_of_error {body : Dissect PUnit} {s a : Analysis} {e : ReadError}
    (h : outcome body s = (.error e, a)) :
    Returns (catchError body) s ⟨⟩ { a with layer := { a.layer with error := some e } } := by
  rw [Returns, catchError, outcome_tryCatch, h]
  rfl

/-- The layer when nothing is thrown. -/
lemma layer_run {body : Dissect PUnit} {s a : Analysis} (h : Returns body s ⟨⟩ a) :
    (run body s).layer = a.layer := by
  rw [run, (returns_catchError h).outcome_bind]
  rfl

/-- The layer when an exception is caught. -/
lemma layer_run_of_error {body : Dissect PUnit} {s a : Analysis} {e : ReadError}
    (h : outcome body s = (.error e, a)) : (run body s).layer = { a.layer with error := some e } := by
  rw [run, (returns_catchError_of_error h).outcome_bind]
  rfl

end Dissect

end Dripcap
