import Dripcap.Script.Keys
import Dripcap.Script.Layer
import Mathlib.Data.List.Basic
import Mathlib.Data.Nat.Log

/-!
# Values on both sides of the script boundary

`MsgpackToV8` and `v8ToMsgpack` of `script_class.cpp`. The scripts themselves are not modelled:
an instance of a class is known by the list that its `toMsgpack` returns, and what the
constructor of a class builds is a parameter.

A result is `none` where the code throws an exception or hands the script engine something that
it must not be handed.
-/

namespace Dripcap

/-- `static_cast<double>` of an integer, rounded to the nearest even double. -/
def Double.ofInt (n : ℤ) : Double :=
  if n.natAbs ≤ 2 ^ 53 then .finite n
  else
    let e := Nat.log2 n.natAbs - 52
    let q := n.natAbs / 2 ^ e
    let r := n.natAbs % 2 ^ e
    let half := 2 ^ (e - 1)
    let m := if r > half ∨ (r = half ∧ q % 2 = 1) then q + 1 else q
    .finite (n.sign * (m * 2 ^ e : ℕ))

/-- The bytes of a custom value. -/
inductive Content where
  | raw (data : List UInt8)
  | packed (o : Object)

/-- A value of the script engine, as far as values come from or go to msgpack. -/
inductive Value where
  | null : Value
  | boolean : Bool → Value
  | number : Double → Value
  | string : String → Value
  /-- a `Buffer` of these bytes -/
  | buffer : List UInt8 → Value
  /-- a `Payload` of the present packet -/
  | payload (start fin : ℕ) : Value
  /-- a `CustomValue` -/
  | custom : Content → Value
  /-- a `BufferStream` with this id -/
  | stream : List UInt8 → Value
  | array : List Value → Value
  /-- an object that is no class instance, with its own properties -/
  | object : List (String × Value) → Value
  /-- an object with its own properties whose prototype has been replaced -/
  | reparented (proto : Value) (props : List (String × Value)) : Value
  /-- an instance of a class; its `toMsgpack` returns this list -/
  | instance (cls : String) (state : List Value) : Value

/-- `v->IsObject()` -/
def Value.isObject : Value → Bool
  | .null | .boolean _ | .number _ | .string _ => false
  | _ => true

/-- `v->IsNull()` -/
def Value.isNull : Value → Bool
  | .null => true
  | _ => false

/-- What the conversions use of `ScriptClass::Private` and of the engine. -/
structure Context where
  /-- the constructors of the modules that load; one that throws gives `none` -/
  modules : String → Option (List Value → Option Value)
  /-- the id of a stream without an id -/
  freshID : List UInt8
  /-- the string made of bytes that are meant to be UTF-8 -/
  decode : List UInt8 → String

/-- `obj->Set(name, value)` for an object with a prototype, if that has been replaced, and its own
properties. Assigning `__proto__` makes no property; with an object or `null` it replaces the
prototype. What setters of the new prototype do is not followed. -/
def setProperty (obj : Option Value × List (String × Value)) (name : String) (value : Value) :
    Option Value × List (String × Value) :=
  if name = "__proto__" then
    if value.isObject ∨ value matches .null then (some value, obj.2) else obj
  else if name ∈ obj.2.map Prod.fst then
    (obj.1, obj.2.map fun p => if p.1 = name then (name, value) else p)
  else (obj.1, obj.2 ++ [(name, value)])

/-- A new value for a key leaves the keys. -/
lemma keys_replace {β : Type} (props : List (String × β)) (name : String) (v : β) :
    (props.map fun p => if p.1 = name then (name, v) else p).map Prod.fst = props.map Prod.fst := by
  rw [List.map_map]
  apply List.map_congr_left
  intro p _
  show (if p.1 = name then (name, v) else p).1 = p.1
  split_ifs with hp
  · exact hp.symm
  · rfl

/-- The object made so. -/
def ofProperties : Option Value × List (String × Value) → Value
  | (none, props) => .object props
  | (some proto, props) => .reparented proto props

/-- `as<std::string>` for the key of a map. -/
def Object.asKey (decode : List UInt8 → String) : Object → Option String
  | .str s => some s
  | .bin data => some (decode data)
  | _ => none

/-- `as<size_t>` -/
def Object.asSize : Object → Option ℕ
  | .integer n => if 0 ≤ n ∧ n < 2 ^ 64 then some n.toNat else none
  | _ => none

/-- `as<std::tuple<size_t, size_t>>` -/
def Object.asRange : Object → Option (ℕ × ℕ)
  | .array (s :: e :: _) => do some (← s.asSize, ← e.asSize)
  | _ => none

/-- A range of 64-bit numbers is read as it is. -/
lemma Object.asRange_natCast {start fin : ℕ} (hstart : start < 2 ^ 64) (hfin : fin < 2 ^ 64) :
    (Object.array [.integer start, .integer fin]).asRange = some (start, fin) := by
  have hsize : ∀ n : ℕ, n < 2 ^ 64 → (Object.integer n).asSize = some n := by
    intro n hn
    have hbound : (0 : ℤ) ≤ n ∧ (n : ℤ) < 2 ^ 64 := ⟨Int.natCast_nonneg n, by exact_mod_cast hn⟩
    rw [Object.asSize, if_pos hbound, Int.toNat_natCast]
  simp only [Object.asRange, hsize start hstart, hsize fin hfin, Option.bind_eq_bind,
    Option.bind_some]

/-- The branch `0x20`: `v` is what the bytes stand for. -/
def instantiate (cx : Context) (o : Object) : Value → Value
  | .array (.string name :: args) =>
    match cx.modules name with
    | some ctor => (ctor args).getD (.custom (.packed o))
    | none => .custom (.packed o)
  | _ => .custom (.packed o)

mutual

/-- `MsgpackToV8`; `pkt` says whether there is a packet. -/
def MsgpackToV8 (cx : Context) (pkt : Bool) : Object → Option Value
  | .nil => some .null
  | .boolean b => some (.boolean b)
  | .integer n => some (.number (.ofInt n))
  | .float x => some (.number x)
  | .str s => some (.string s)
  | .bin data => some (.buffer data)
  | .array os => (MsgpackToV8List cx pkt os).map .array
  | .map kvs => (MsgpackToV8Map cx pkt (none, []) kvs).map ofProperties
  | .ext type data =>
    if type = 0x1b then some (.buffer data)
    else if type = 0x1e then some (.stream (if data.isEmpty then cx.freshID else data))
    else if type = 0x1f ∧ pkt = true then none
    else if type = 0x20 then none
    else some (.custom (.raw data))
  | .extPacked .payload o =>
    if pkt = true then o.asRange.map fun r => .payload r.1 r.2
    else some (.custom (.packed o))
  | .extPacked .classInstance o => (MsgpackToV8 cx pkt o).map (instantiate cx o)

/-- The elements of an array. -/
def MsgpackToV8List (cx : Context) (pkt : Bool) : List Object → Option (List Value)
  | [] => some []
  | o :: os => do
    let v ← MsgpackToV8 cx pkt o
    let vs ← MsgpackToV8List cx pkt os
    some (v :: vs)

/-- The entries of a map are set one after the other. -/
def MsgpackToV8Map (cx : Context) (pkt : Bool) (obj : Option Value × List (String × Value)) :
    List (Object × Object) → Option (Option Value × List (String × Value))
  | [] => some obj
  | (k, o) :: kvs => do
    let name ← k.asKey cx.decode
    let v ← MsgpackToV8 cx pkt o
    MsgpackToV8Map cx pkt (setProperty obj name v) kvs

end

/-- What `unwrap_object` finds in a value or along its prototypes, encoded. -/
def Value.unwrap : Value → Option Object
  | .buffer data => some (.bin data)
  | .payload start fin => some (.extPacked .payload (.array [.integer start, .integer fin]))
  | .custom (.raw data) => some (.ext 0x20 data)
  | .custom (.packed o) => some (.extPacked .classInstance o)
  | .stream id => some (.ext 0x1e id)
  | .reparented proto _ => proto.unwrap
  | _ => none

/-- `constructor`, looked up along the prototypes, is a value that can be asked for a property:
anything but `null` and `undefined`. -/
def Value.hasConstructor : Value → Bool
  | .object props =>
    match props.lookup "constructor" with
    | some ctor => ! ctor.isNull
    | none => true
  | .reparented proto props =>
    match props.lookup "constructor" with
    | some ctor => ! ctor.isNull
    | none => proto.hasConstructor
  | .null => false
  | _ => true

/-- One of the prototypes is an instance of a class. -/
def Value.inherits : Value → Bool
  | .reparented proto _ => proto.inherits
  | .instance _ _ => true
  | _ => false

/-- The map made of the values of the own properties. -/
def stringMap (props : List (String × Object)) : Object :=
  .map ((byText props).map fun p => (.str p.1, p.2))

mutual

/-- `v8ToMsgpack` without `copy`. What the `toMsgpack` of a class returns for an object that is no
instance of it but has one as a prototype is not followed. -/
def v8ToMsgpack : Value → Option Object
  | .null => some .nil
  | .boolean b => some (.boolean b)
  | .number x => some (.float x)
  | .string s => some (.str s)
  | .buffer data => some (.bin data)
  | .payload start fin => some (.extPacked .payload (.array [.integer start, .integer fin]))
  | .custom (.raw data) => some (.ext 0x20 data)
  | .custom (.packed o) => some (.extPacked .classInstance o)
  | .stream id => some (.ext 0x1e id)
  | .array vs => (v8ToMsgpackList vs).map .array
  | .object props =>
    if (Value.object props).hasConstructor then (v8ToMsgpackProps props).map stringMap else none
  | .reparented proto props =>
    match proto.unwrap with
    | some o => some o
    | none =>
      if (Value.reparented proto props).hasConstructor ∧ ¬ proto.inherits then
        (v8ToMsgpackProps props).map stringMap
      else none
  | .instance cls state =>
    (v8ToMsgpackList state).map fun os => .extPacked .classInstance (.array (.str cls :: os))

def v8ToMsgpackList : List Value → Option (List Object)
  | [] => some []
  | v :: vs => do
    let o ← v8ToMsgpack v
    let os ← v8ToMsgpackList vs
    some (o :: os)

/-- The values of the own properties. -/
def v8ToMsgpackProps : List (String × Value) → Option (List (String × Object))
  | [] => some []
  | (name, v) :: props => do
    let o ← v8ToMsgpack v
    let os ← v8ToMsgpackProps props
    some ((name, o) :: os)

end

/-! ### Values that survive -/

mutual

/-- Objects that stand for the same value have the same normal form: an integer is the equal
number, a `0x1b` extension the byte string. -/
def Object.norm : Object → Object
  | .nil => .nil
  | .boolean b => .boolean b
  | .integer n => .float (.finite n)
  | .float x => .float x
  | .str s => .str s
  | .bin data => .bin data
  | .array os => .array (Object.normList os)
  | .map kvs => .map (Object.normMap kvs)
  | .ext type data => if type = 0x1b then .bin data else .ext type data
  | .extPacked type o => .extPacked type o.norm

def Object.normList : List Object → List Object
  | [] => []
  | o :: os => o.norm :: Object.normList os

def Object.normMap : List (Object × Object) → List (Object × Object)
  | [] => []
  | (k, o) :: kvs => (k, o.norm) :: Object.normMap kvs

end

lemma setProperty_new {proto : Option Value} {props : List (String × Value)} {name : String}
    (hproto : name ≠ "__proto__") (hnew : name ∉ props.map Prod.fst) (v : Value) :
    setProperty (proto, props) name v = (proto, props ++ [(name, v)]) := by
  unfold setProperty
  rw [if_neg hproto, if_neg hnew]

lemma keys_v8ToMsgpackProps {props : List (String × Value)} {os : List (String × Object)}
    (h : v8ToMsgpackProps props = some os) : os.map Prod.fst = props.map Prod.fst := by
  induction props generalizing os with
  | nil =>
    obtain rfl := Option.some.inj h
    rfl
  | cons p props ih =>
    obtain ⟨o, -, h⟩ := Option.bind_eq_some_iff.mp h
    obtain ⟨os', hos', h⟩ := Option.bind_eq_some_iff.mp h
    obtain rfl := Option.some.inj h
    rw [List.map_cons, List.map_cons, ih hos']

lemma normMap_str (entries : List (String × Object)) :
    Object.normMap (entries.map fun p => (.str p.1, p.2)) =
      entries.map fun p => (.str p.1, p.2.norm) := by
  induction entries with
  | nil => rfl
  | cons p entries ih => rw [List.map_cons, List.map_cons, Object.normMap, ih]

/-- With the same keys, the map stands for the same exactly if there is no array index and the
values stand for the same. -/
lemma norm_stringMap_eq_iff {os entries : List (String × Object)}
    (hkeys : os.map Prod.fst = entries.map Prod.fst) (hd : Keyed.Distinct entries) :
    (stringMap os).norm = (Object.map (entries.map fun p => (.str p.1, p.2))).norm ↔
      (∀ p ∈ entries, isIndex p.1 = false) ∧
        os.map (fun p => (p.1, p.2.norm)) = entries.map fun p => (p.1, p.2.norm) := by
  have hinj : Function.Injective fun p : String × Object => (Object.str p.1, p.2) := by
    rintro ⟨a, o⟩ ⟨b, o'⟩ heq
    obtain ⟨hname, hvalue⟩ := Prod.mk.inj heq
    exact Prod.ext (Object.str.inj hname) hvalue
  have hplain : (∀ p ∈ os, isIndex p.1 = false) ↔ ∀ p ∈ entries, isIndex p.1 = false := by
    rw [← List.forall_mem_map (f := Prod.fst) (P := fun k => isIndex k = false), hkeys,
      List.forall_mem_map]
  have hnorm : (stringMap os).norm = (Object.map (entries.map fun p => (.str p.1, p.2))).norm ↔
      (byText os).map (fun p => (p.1, p.2.norm)) = entries.map fun p => (p.1, p.2.norm) := by
    rw [stringMap, Object.norm, Object.norm, normMap_str, normMap_str, Object.map.injEq,
      ← List.map_inj_right (f := fun p : String × Object => (Object.str p.1, p.2)) (fun _ _ h => hinj h),
      List.map_map, List.map_map]
    rfl
  rw [hnorm, ← hplain]
  constructor
  · intro heq
    have hos : ∀ p ∈ os, isIndex p.1 = false := by
      apply plain_of_keys
      have hfst := congrArg (List.map Prod.fst) heq
      rw [List.map_map, List.map_map] at hfst
      exact hfst.trans hkeys.symm
    have hdos : Keyed.Distinct os := by rwa [Keyed.Distinct, hkeys]
    exact ⟨hos, by rwa [byText_plain hdos hos] at heq⟩
  · rintro ⟨hos, heq⟩
    have hdos : Keyed.Distinct os := by rwa [Keyed.Distinct, hkeys]
    rwa [byText_plain hdos hos]

end Dripcap
