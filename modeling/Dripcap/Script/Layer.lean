import Mathlib.Algebra.Group.Int.Defs
import Mathlib.Algebra.Group.Nat.Defs
import Mathlib.Data.Rat.Defs

/-!
# Packets and layers

The data of `packet.hpp`, `layer.hpp` and `packet_stream.hpp`: a packet carries a tree of
layers, a layer carries values as msgpack objects and a list of streams.

A msgpack extension is a type number with bytes. The bytes of a payload range and of a class
instance are the encoding of an object, and the model keeps that object: `extPacked t o` stands
for the extension of this type whose bytes are `msgpack::pack(o)`, and `ext` for any other one.
`std::unordered_map` is a list of pairs; the order of the list means nothing.
-/

namespace Dripcap

/-- The number a C++ `double` stands for. -/
inductive Double where
  | finite : ℚ → Double
  | negZero : Double
  | infinite : Bool → Double
  | nan : Double
  deriving DecidableEq

/-- The extension types whose bytes are the encoding of an object. -/
inductive PackedType where
  /-- `0x1f`, a range of the payload of a packet -/
  | payload
  /-- `0x20`, an instance of a class of scripts -/
  | classInstance
  deriving DecidableEq

/-- `msgpack::object`. -/
inductive Object where
  | nil : Object
  | boolean : Bool → Object
  | integer : ℤ → Object
  | float : Double → Object
  | str : String → Object
  | bin : List UInt8 → Object
  | array : List Object → Object
  | map : List (Object × Object) → Object
  | ext : ℤ → List UInt8 → Object
  | extPacked : PackedType → Object → Object

instance : Inhabited Object := ⟨.nil⟩

/-- The bits of a flag that is none of the enumerators. -/
abbrev OtherFlag := {n : ℕ // 1 < n ∧ n < 2 ^ 32}

/-- `StreamFlag` -/
inductive StreamFlag where
  | noop
  | end
  /-- what `static_cast` makes of another number -/
  | other (n : OtherFlag)
  deriving DecidableEq

/-- `PacketStream` -/
structure PacketStream where
  name : String
  ns : String
  id : String
  data : Object
  flag : StreamFlag

/-- The keys of a serialized layer that stand for its fixed members, `reserved` in
`LayerWrapper::syncFromScript`. -/
def reserved : List String := ["namespace", "name", "layers", "payload", "streams"]

/-- The map `ext` of a layer. Every place that builds a layer keeps the reserved keys out of
it: `convert<LayerPtr>` erases them and `LayerWrapper::syncFromScript` skips them. -/
structure ExtMap where
  entries : List (String × Object)
  nodup : (entries.map Prod.fst).Nodup
  unreserved : ∀ k ∈ entries.map Prod.fst, k ∉ reserved

/-- The `ext` of a new layer. -/
def ExtMap.empty : ExtMap := ⟨[], by simp, by simp⟩

/-- `Layer` -/
inductive Layer where
  | mk (ns name : String) (payload : Object) (ext : ExtMap) (layers : List (String × Layer))
      (streams : List PacketStream) : Layer

/-- `LayerList` -/
abbrev LayerList := List (String × Layer)

namespace Layer

def ns : Layer → String
  | mk ns _ _ _ _ _ => ns

def name : Layer → String
  | mk _ name _ _ _ _ => name

def payload : Layer → Object
  | mk _ _ payload _ _ _ => payload

def ext : Layer → ExtMap
  | mk _ _ _ ext _ _ => ext

def layers : Layer → LayerList
  | mk _ _ _ _ layers _ => layers

def streams : Layer → List PacketStream
  | mk _ _ _ _ _ streams => streams

end Layer

/-- `Packet` -/
structure Packet where
  id : ℕ := 0
  ts_sec : ℕ := 0
  ts_nsec : ℕ := 0
  len : ℕ := 0
  payload : List UInt8 := []
  stream : String := ""
  layers : LayerList := []

instance : Inhabited Packet := ⟨{}⟩

/-- The layer `Dispatcher::insert` gives to a packet without layers: the whole payload as an
Ethernet frame. -/
def rawLayer (size : ℕ) : Layer :=
  .mk "::<Ethernet>" "Raw Layer" (.extPacked .payload (.array [.integer 0, .integer size]))
    .empty [] []

end Dripcap
