import Dripcap.Script.Value

/-!
# The objects of packets and layers

`LayerWrapper` and `PacketWrapper` of `script_class.cpp`: before a dissector runs the layer tree of
a packet is copied to script objects, and afterwards these are copied back to the layers.
-/

namespace Dripcap

/-! ### Writing the `ext` of a layer -/

namespace ExtMap

/-- `layer->ext[name] = o` -/
def set (ext : ExtMap) (name : String) (o : Object) (h : name ∉ reserved) : ExtMap where
  entries := Keyed.set ext.entries name o
  nodup := Keyed.distinct_set ext.nodup name o
  unreserved := by
    intro k hk
    rcases (Keyed.mem_keys_set ext.entries name o k).mp hk with hk | rfl
    · exact ext.unreserved k hk
    · exact h

@[simp] lemma set_entries {ext : ExtMap} {name : String} {o : Object} (h : name ∉ reserved) :
    (ext.set name o h).entries = Keyed.set ext.entries name o := rfl

/-- The object under a key. -/
def find (ext : ExtMap) (name : String) : Option Object := ext.entries.lookup name

end ExtMap

/-! ### Objects -/

/-- A property of an object. -/
structure Property where
  value : Value
  readOnly : Bool := false

/-- An element of the array `streams` of a layer's object. -/
inductive StreamElement where
  /-- the layer's own object -/
  | owner
  /-- a `PacketStream` with its property `data` -/
  | stream (st : PacketStream) (data : Value)

/-- The object of a layer: the layer it wraps, its own properties, and the contents of the two
that cannot be replaced, `layers` and `streams`. -/
inductive LayerObject where
  | mk (layer : Layer) (props : List (String × Property)) (layers : List (String × LayerObject))
      (streams : List StreamElement) : LayerObject

/-- `obj->Set(name, value)`: a read-only property stays as it is, and `__proto__` makes none. -/
def setOwn (props : List (String × Property)) (name : String) (value : Value) :
    List (String × Property) :=
  if name = "__proto__" then props
  else if name ∈ props.map Prod.fst then
    props.map fun p => if p.1 = name ∧ p.2.readOnly = false then (name, ⟨value, false⟩) else p
  else props ++ [(name, ⟨value, false⟩)]

/-- `v8pp::to_v8` of a map: the entries that become properties of the new object. -/
def toProperties {α : Type} (entries : List (String × α)) : List (String × α) :=
  entries.filter fun p => p.1 ≠ "__proto__"

namespace LayerWrapper

variable (cx : Context)

/-- The loop over `ext` of `syncToScript`. -/
def setExt (props : List (String × Property)) :
    List (String × Object) → Option (List (String × Property))
  | [] => some props
  | (name, o) :: entries => do
    let v ← MsgpackToV8 cx true o
    setExt (setOwn props name v) entries

/-- The loop over `streams` of `syncToScript`: the data goes to the property `data` of the layer's
object, and that object to the array. -/
def setStreams (props : List (String × Property)) :
    List PacketStream → Option (List (String × Property) × List StreamElement)
  | [] => some (props, [])
  | st :: streams => do
    let data ← MsgpackToV8 cx true st.data
    let r ← setStreams (setOwn props "data" data) streams
    some (r.1, .owner :: r.2)

mutual

/-- `LayerWrapper::syncToScript` for an object that has the properties `props` already. -/
def syncToScript (props : List (String × Property)) : Layer → Option LayerObject
  | .mk ns name payload ext layers streams => do
    let props₁ ← setExt cx props ext.entries
    let list ← syncLayersToScript layers
    let v ← MsgpackToV8 cx true payload
    let r ← setStreams cx (setOwn props₁ "payload" v) streams
    some (.mk (.mk ns name payload ext layers streams) r.1 (toProperties list) r.2)

def syncLayersToScript : LayerList → Option (List (String × LayerObject))
  | [] => some []
  | (key, layer) :: layers => do
    let obj ← syncToScript [] layer
    let list ← syncLayersToScript layers
    some ((key, obj) :: list)

end

/-- The loop over the own properties of `syncFromScript`, with what it reads. -/
def readExt (ext : ExtMap) : List (String × Property) → Option ExtMap
  | [] => some ext
  | (name, p) :: props =>
    if h : name ∈ reserved then readExt ext props
    else do
      let o ← v8ToMsgpack p.value
      readExt (ext.set name o h) props

/-- The loop over the array `streams` of `syncFromScript`. -/
def readStreams : List StreamElement → Option (List PacketStream)
  | [] => some []
  | .owner :: elements => readStreams elements
  | .stream st data :: elements => do
    let o ← v8ToMsgpack data
    let streams ← readStreams elements
    some ({ st with data := o } :: streams)

/-- The property `payload`; what is not there is `undefined`. -/
def readPayload (props : List (String × Property)) : Option Object :=
  match props.lookup "payload" with
  | some p => v8ToMsgpack p.value
  | none => some .nil

mutual

/-- `LayerWrapper::syncFromScript`, with the layer it leaves. -/
def syncFromScript : LayerObject → Option Layer
  | .mk layer props layers streams => do
    let layers' ← syncChildrenFromScript layers
    let payload ← readPayload props
    let ext ← readExt layer.ext (texts props)
    let streams' ← readStreams streams
    some (.mk layer.ns layer.name payload ext (byText layers') streams')

/-- The layers of the objects that are the own properties of an object. -/
def syncChildrenFromScript : List (String × LayerObject) → Option LayerList
  | [] => some []
  | (key, obj) :: objs => do
    let layer ← syncFromScript obj
    let layers ← syncChildrenFromScript objs
    some ((key, layer) :: layers)

end

/-- The loop over the own properties of `layers`, which puts the layer of each object under the text
of its key. -/
def syncLayersFromScript (list : List (String × LayerObject)) : Option LayerList :=
  (syncChildrenFromScript list).map byText

end LayerWrapper

namespace PacketWrapper

variable (cx : Context)

/-- The properties of the object of a root layer when its layer is copied: `fields`. -/
def rootProperties : List (String × Property) := [("fields", ⟨.array [], true⟩)]

/-- The objects of a list of root layers. -/
def syncRootsToScript (layers : LayerList) : Option (List (String × LayerObject)) :=
  layers.mapM fun p => (LayerWrapper.syncToScript cx rootProperties p.2).map fun obj => (p.1, obj)

/-- `PacketWrapper::syncToScript`, with the contents of the property `layers`. -/
def syncToScript (pkt : Packet) : Option (List (String × LayerObject)) :=
  (syncRootsToScript cx pkt.layers).map toProperties

/-- `PacketWrapper::syncFromScript` -/
def syncFromScript (pkt : Packet) (list : List (String × LayerObject)) : Option Packet :=
  (LayerWrapper.syncLayersFromScript list).map fun layers => { pkt with layers }

/-- A dissector that does nothing. -/
def echo (pkt : Packet) : Option Packet := do
  let list ← syncToScript cx pkt
  syncFromScript pkt list

end PacketWrapper

end Dripcap
