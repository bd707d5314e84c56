import Dripcap.Script.Value
import Mathlib.Data.List.Nodup

/-!
# The codec of the user interface

`GoldFilter.requestPackets` of `index.es` sets up a codec for every packet, which decodes the values
that `v8ToMsgpack` has encoded for its layers. Whatever else msgpack-lite decodes are plain values.
-/

namespace Dripcap

namespace Codec

/-- A value of the user interface. -/
inductive UIValue where
  | undefined : UIValue
  | null : UIValue
  | boolean : Bool → UIValue
  | number : Double → UIValue
  | string : String → UIValue
  | buffer : List UInt8 → UIValue
  /-- a slice of `pkt.payload` with its properties `start` and `end` -/
  | slice (data : List UInt8) (start fin : ℕ) : UIValue
  /-- a `BufferStream`; `gf` is the `GoldFilter` object if there is nothing else -/
  | stream (id : UIValue) (gf : Option UIValue) : UIValue
  | array : List UIValue → UIValue
  /-- an object with its own properties and its prototype, if that has been replaced -/
  | object (proto : Option UIValue) (props : List (String × UIValue)) : UIValue
  /-- an instance of a class of `msgpackClasses`, built from these arguments -/
  | instance (cls : String) (args : List UIValue) : UIValue
  /-- an extension that the codec does not know -/
  | extBuffer (type : ℤ) (data : List UInt8) : UIValue

/-- What the codec uses. -/
structure Env where
  /-- `msgpackClasses` has a class of this name -/
  registered : String → Bool
  /-- the bytes of an object -/
  encode : Object → List UInt8
  /-- what `msgpack.decode` makes of bytes, seen through its elements; `none` if it throws an
  exception or there are no elements to ask for -/
  elements : List UInt8 → Option (ℕ → UIValue)
  /-- `pkt.payload` -/
  payload : List UInt8

/-- The constructor of `BufferStream` takes two arguments. -/
def newBufferStream (id : UIValue) (gf : Option UIValue) : UIValue := .stream id gf

/-- `obj[name] = value` for an object with a prototype and own properties. -/
def setProperty (obj : Option UIValue × List (String × UIValue)) (name : String) (value : UIValue) :
    Option UIValue × List (String × UIValue) :=
  if name = "__proto__" then
    match value with
    | .undefined | .boolean _ | .number _ | .string _ => obj
    | _ => (some value, obj.2)
  else if name ∈ obj.2.map Prod.fst then
    (obj.1, obj.2.map fun p => if p.1 = name then (name, value) else p)
  else (obj.1, obj.2 ++ [(name, value)])

/-- The entries of a map are assigned one after the other. -/
def setProperties (obj : Option UIValue × List (String × UIValue)) (entries : List (String × UIValue)) :
    Option UIValue × List (String × UIValue) :=
  entries.foldl (fun obj p => setProperty obj p.1 p.2) obj

variable (env : Env)

/-- The unpacker of `0x20` after the list has been decoded. The core writes the name of a class
first. -/
def unpackInstance (o : Object) : UIValue → Option UIValue
  | .array (.string cls :: args) =>
    if env.registered cls then some (.instance cls args) else some (.buffer (env.encode o))
  | .null | .undefined => none
  | _ => some (.buffer (env.encode o))

/-- The unpacker of `0x1F`. -/
def unpackPayload (o : Object) : Option UIValue :=
  o.asRange.map fun tuple =>
    .slice ((env.payload.drop tuple.1).take (tuple.2 - tuple.1)) tuple.1 tuple.2

/-- The unpacker of `0x1E`. -/
def unpackStream (data : List UInt8) : Option UIValue :=
  (env.elements data).map fun args => newBufferStream (args 0) (some (args 2))

mutual

/-- `msgpack.decode` with the codec. -/
def decode : Object → Option UIValue
  | .nil => some .null
  | .boolean b => some (.boolean b)
  | .integer n => some (.number (.ofInt n))
  | .float x => some (.number x)
  | .str s => some (.string s)
  | .bin data => some (.buffer data)
  | .array os => (decodeList os).map .array
  | .map kvs => (decodeMap kvs).map fun entries =>
    let obj := setProperties (none, []) entries
    .object obj.1 obj.2
  | .ext type data =>
    if type = 0x1b then some (.buffer data)
    else if type = 0x1e then unpackStream env data
    else if type = 0x1f ∨ type = 0x20 then none
    else some (.extBuffer type data)
  | .extPacked .payload o => unpackPayload env o
  | .extPacked .classInstance o => (decode o).bind (unpackInstance env o)

def decodeList : List Object → Option (List UIValue)
  | [] => some []
  | o :: os => do
    let v ← decode o
    let vs ← decodeList os
    some (v :: vs)

def decodeMap : List (Object × Object) → Option (List (String × UIValue))
  | [] => some []
  | (.str name, o) :: kvs => do
    let v ← decode o
    let entries ← decodeMap kvs
    some ((name, v) :: entries)
  | _ => none

end

/-! ### What the values should become -/

/-- The text of the id of a stream. -/
def idText (id : List UInt8) : String := String.ofList (id.map fun x => Char.ofNat x.toNat)

mutual

/-- The value of the user interface that stands for a value of the scripts. -/
def counterpart : Value → UIValue
  | .null => .null
  | .boolean b => .boolean b
  | .number x => .number x
  | .string s => .string s
  | .buffer data => .buffer data
  | .payload start fin => .slice ((env.payload.drop start).take (fin - start)) start fin
  | .custom (.raw data) => .buffer data
  | .custom (.packed o) => .buffer (env.encode o)
  | .stream id => .stream (.string (idText id)) none
  | .array vs => .array (counterpartList vs)
  | .object props => .object none (counterpartProps props)
  | .reparented proto props => .object (some (counterpart proto)) (counterpartProps props)
  | .instance cls state => .instance cls (counterpartList state)

def counterpartList : List Value → List UIValue
  | [] => []
  | v :: vs => counterpart v :: counterpartList vs

def counterpartProps : List (String × Value) → List (String × UIValue)
  | [] => []
  | (name, v) :: props => (name, counterpart v) :: counterpartProps props

end

/-- The values that the core encodes for a packet with this payload: views of the payload, streams,
instances of registered classes with such values as arguments, buffers, and what arguments are made
of otherwise. -/
inductive Displayable : Value → Prop
  | null : Displayable .null
  | boolean (b : Bool) : Displayable (.boolean b)
  | number (x : Double) : Displayable (.number x)
  | string (s : String) : Displayable (.string s)
  | buffer (data : List UInt8) : Displayable (.buffer data)
  | payload {start fin : ℕ} (hstart : start ≤ fin) (hfin : fin ≤ env.payload.length)
      (hsize : env.payload.length < 2 ^ 64) : Displayable (.payload start fin)
  | stream (id : List UInt8) : Displayable (.stream id)
  | array {vs : List Value} (elements : ∀ v ∈ vs, Displayable v) : Displayable (.array vs)
  | object {props : List (String × Value)} (values : ∀ p ∈ props, Displayable p.2)
      (nodup : (props.map Prod.fst).Nodup)
      (ctor : ∀ v, props.lookup "constructor" = some v → v.isNull = false) :
      Displayable (.object props)
  | instance {cls : String} {state : List Value} (registered : env.registered cls = true)
      (elements : ∀ v ∈ state, Displayable v) : Displayable (.instance cls state)

mutual

/-- There is no stream in the value and no own property whose name is `__proto__` or an array
index. -/
def Streamless : Value → Prop
  | .stream _ => False
  | .array vs => StreamlessList vs
  | .object props => StreamlessProps props
  | .instance _ state => StreamlessList state
  | _ => True

def StreamlessList : List Value → Prop
  | [] => True
  | v :: vs => Streamless v ∧ StreamlessList vs

def StreamlessProps : List (String × Value) → Prop
  | [] => True
  | (name, v) :: props =>
    (name ≠ "__proto__" ∧ isIndex name = false ∧ Streamless v) ∧ StreamlessProps props

end

/-! ### Decoding what has been encoded -/

variable {env}

/-- A value with its encoding, which is decoded as the counterpart exactly if there is no stream in
it. -/
structure Decodes (env : Env) (v : Value) (o : Object) : Prop where
  encoded : v8ToMsgpack v = some o
  decoded : decode env o = some (counterpart env v) ↔ Streamless v

lemma decodes_list {vs : List Value} (h : ∀ v ∈ vs, ∃ o, Decodes env v o) :
    ∃ os, v8ToMsgpackList vs = some os ∧
      (decodeList env os = some (counterpartList env vs) ↔ StreamlessList vs) := by
  induction vs with
  | nil => exact ⟨[], rfl, fun _ => trivial, fun _ => rfl⟩
  | cons v vs ih =>
    obtain ⟨o, ho⟩ := h v List.mem_cons_self
    obtain ⟨os, hos, hdecoded⟩ := ih fun v' hv' => h v' (List.mem_cons_of_mem v hv')
    refine ⟨o :: os, ?_, ?_⟩
    · simp only [v8ToMsgpackList, ho.encoded, hos, Option.bind_eq_bind, Option.bind_some]
    · rw [StreamlessList, ← ho.decoded, ← hdecoded]
      constructor
      · intro heq
        obtain ⟨v', hv', heq⟩ := Option.bind_eq_some_iff.mp heq
        obtain ⟨vs', hvs', heq⟩ := Option.bind_eq_some_iff.mp heq
        obtain ⟨rfl, rfl⟩ := List.cons.inj (Option.some.inj heq)
        exact ⟨hv', hvs'⟩
      · rintro ⟨hv', hvs'⟩
        simp only [decodeList, hv', hvs', Option.bind_eq_bind, Option.bind_some, counterpartList]

lemma decodes_map {props : List (String × Value)} (h : ∀ p ∈ props, ∃ o, Decodes env p.2 o) :
    ∃ os, v8ToMsgpackProps props = some os ∧
      (decodeMap env (os.map fun p => (.str p.1, p.2)) = some (counterpartProps env props) ↔
        ∀ p ∈ props, Streamless p.2) := by
  induction props with
  | nil => exact ⟨[], rfl, by simp, fun _ => rfl⟩
  | cons p props ih =>
    obtain ⟨name, v⟩ := p
    obtain ⟨o, ho⟩ := h (name, v) List.mem_cons_self
    obtain ⟨os, hos, hdecoded⟩ := ih fun q hq => h q (List.mem_cons_of_mem _ hq)
    refine ⟨(name, o) :: os, ?_, ?_⟩
    · simp only [v8ToMsgpackProps, ho.encoded, hos, Option.bind_eq_bind, Option.bind_some]
    · rw [List.forall_mem_cons, ← ho.decoded, ← hdecoded]
      constructor
      · intro heq
        obtain ⟨v', hv', heq⟩ := Option.bind_eq_some_iff.mp heq
        obtain ⟨entries, hentries, heq⟩ := Option.bind_eq_some_iff.mp heq
        obtain ⟨hhead, rfl⟩ := List.cons.inj (Option.some.inj heq)
        obtain rfl := (Prod.mk.inj hhead).2
        exact ⟨hv', hentries⟩
      · rintro ⟨hv', hentries⟩
        simp only [List.map_cons, decodeMap, hv', hentries, Option.bind_eq_bind, Option.bind_some,
          counterpartProps]

lemma keys_decodeMap {os : List (String × Object)} {entries : List (String × UIValue)}
    (h : decodeMap env (os.map fun p => (.str p.1, p.2)) = some entries) :
    entries.map Prod.fst = os.map Prod.fst := by
  induction os generalizing entries with
  | nil =>
    obtain rfl := Option.some.inj h
    rfl
  | cons p os ih =>
    obtain ⟨v, -, h⟩ := Option.bind_eq_some_iff.mp h
    obtain ⟨entries', hentries', h⟩ := Option.bind_eq_some_iff.mp h
    obtain rfl := Option.some.inj h
    rw [List.map_cons, List.map_cons, ih hentries']

lemma streamlessProps_iff (props : List (String × Value)) :
    StreamlessProps props ↔
      "__proto__" ∉ props.map Prod.fst ∧ (∀ p ∈ props, isIndex p.1 = false) ∧
        ∀ p ∈ props, Streamless p.2 := by
  induction props with
  | nil => simp [StreamlessProps]
  | cons p props ih =>
    obtain ⟨name, v⟩ := p
    rw [StreamlessProps, ih, List.map_cons, List.mem_cons, not_or, List.forall_mem_cons,
      List.forall_mem_cons, ne_comm]
    tauto

lemma keys_counterpartProps (props : List (String × Value)) :
    (counterpartProps env props).map Prod.fst = props.map Prod.fst := by
  induction props with
  | nil => rfl
  | cons p props ih => rw [counterpartProps, List.map_cons, List.map_cons, ih]

/-- Entries with different keys become the properties, in the same order. -/
lemma setProperties_new (props : List (String × UIValue)) {entries : List (String × UIValue)}
    (h : (props.map Prod.fst ++ entries.map Prod.fst).Nodup)
    (hproto : "__proto__" ∉ entries.map Prod.fst) :
    setProperties (none, props) entries = (none, props ++ entries) := by
  induction entries generalizing props with
  | nil => rw [List.append_nil]; rfl
  | cons p entries ih =>
    have hname : p.1 ≠ "__proto__" := fun hn => hproto (by simp [hn])
    have hnew : p.1 ∉ props.map Prod.fst := by
      intro hmem
      exact (List.nodup_append.mp h).2.2 p.1 hmem p.1 (by simp) rfl
    have hset : setProperty (none, props) p.1 p.2 = (none, props ++ [p]) := by
      unfold setProperty
      rw [if_neg hname, if_neg hnew]
    have hnext : setProperties (none, props ++ [p]) entries = (none, props ++ [p] ++ entries) :=
      ih _ (by simpa using h) fun hmem => hproto (List.mem_cons_of_mem _ hmem)
    show setProperties (setProperty (none, props) p.1 p.2) entries = _
    rw [hset, hnext, List.append_assoc, List.singleton_append]

lemma proto_setProperty {obj : Option UIValue × List (String × UIValue)}
    (h : "__proto__" ∉ obj.2.map Prod.fst) (name : String) (v : UIValue) :
    "__proto__" ∉ (setProperty obj name v).2.map Prod.fst := by
  unfold setProperty
  split_ifs with hproto hmem
  · split <;> exact h
  · rw [keys_replace]
    exact h
  · rw [List.map_append, List.mem_append, not_or]
    refine ⟨h, ?_⟩
    intro hname
    exact hproto (List.mem_singleton.mp hname).symm

/-- `__proto__` never becomes an own property. -/
lemma proto_setProperties (obj : Option UIValue × List (String × UIValue))
    (h : "__proto__" ∉ obj.2.map Prod.fst) (entries : List (String × UIValue)) :
    "__proto__" ∉ (setProperties obj entries).2.map Prod.fst := by
  induction entries generalizing obj with
  | nil => exact h
  | cons p entries ih => exact ih _ (proto_setProperty h p.1 p.2)

lemma mem_keys_setProperty (obj : Option UIValue × List (String × UIValue)) (name : String)
    (v : UIValue) {k : String} (hk : k ∈ (setProperty obj name v).2.map Prod.fst) :
    k ∈ obj.2.map Prod.fst ∨ k = name := by
  unfold setProperty at hk
  split_ifs at hk with hproto hmem
  · split at hk <;> exact .inl hk
  · rw [keys_replace] at hk
    exact .inl hk
  · rw [List.map_append, List.mem_append] at hk
    exact hk.imp_right List.mem_singleton.mp

/-- The properties have the keys of the entries. -/
lemma mem_keys_setProperties (obj : Option UIValue × List (String × UIValue))
    (entries : List (String × UIValue)) {k : String}
    (hk : k ∈ (setProperties obj entries).2.map Prod.fst) :
    k ∈ obj.2.map Prod.fst ∨ k ∈ entries.map Prod.fst := by
  induction entries generalizing obj with
  | nil => exact .inl hk
  | cons p entries ih =>
    rw [List.map_cons, List.mem_cons, ← or_assoc]
    exact (ih _ hk).imp_left (mem_keys_setProperty obj p.1 p.2)

lemma decodes_object {props : List (String × Value)} (h : ∀ p ∈ props, ∃ o, Decodes env p.2 o)
    (hnodup : (props.map Prod.fst).Nodup)
    (hctor : ∀ v, props.lookup "constructor" = some v → v.isNull = false) :
    ∃ o, Decodes env (.object props) o := by
  obtain ⟨os, hos, hdecoded⟩ := decodes_map h
  have hfound : (Value.object props).hasConstructor = true := by
    rw [Value.hasConstructor]
    cases hlookup : props.lookup "constructor" with
    | none => rfl
    | some v => simp only [hctor v hlookup, Bool.not_false]
  have hkeys := keys_v8ToMsgpackProps hos
  have hplain : (∀ p ∈ props, isIndex p.1 = false) → byText os = os := by
    intro hindex
    refine byText_plain (by rwa [Keyed.Distinct, hkeys]) fun p hp => ?_
    have hmem : p.1 ∈ props.map Prod.fst := hkeys ▸ List.mem_map_of_mem hp
    obtain ⟨q, hq, hname⟩ := List.mem_map.mp hmem
    exact hname ▸ hindex q hq
  -- what is decoded for such entries has them as its properties
  have hnew : ∀ {entries : List (String × UIValue)}, entries.map Prod.fst = props.map Prod.fst →
      "__proto__" ∉ props.map Prod.fst → setProperties (none, []) entries = (none, entries) := by
    intro entries hsame hproto
    rw [setProperties_new [] (by rwa [hsame]) (by rwa [hsame]), List.nil_append]
  refine ⟨stringMap os, ?_, ?_⟩
  · simp only [v8ToMsgpack, hfound, if_true, hos, Option.map_some]
  · rw [Streamless, streamlessProps_iff, ← hdecoded, stringMap, decode, counterpart]
    constructor
    · intro heq
      obtain ⟨entries, hentries, heq⟩ := Option.map_eq_some_iff.mp heq
      obtain ⟨-, hprops⟩ := UIValue.object.inj heq
      have hproto : "__proto__" ∉ props.map Prod.fst := by
        have hno := proto_setProperties (none, []) List.not_mem_nil entries
        rwa [hprops, keys_counterpartProps] at hno
      -- a name that has come back is the text of a name
      have hindex : ∀ p ∈ props, isIndex p.1 = false := by
        intro p hp
        have hmem : p.1 ∈ (setProperties (none, []) entries).2.map Prod.fst := by
          rw [hprops, keys_counterpartProps]
          exact List.mem_map_of_mem hp
        have htext := (mem_keys_setProperties _ _ hmem).resolve_left List.not_mem_nil
        rw [keys_decodeMap hentries, mem_keys_byText] at htext
        obtain ⟨q, -, hq⟩ := htext
        rw [← hq]
        exact isIndex_keyText q.1
      rw [hplain hindex] at hentries
      rw [hnew ((keys_decodeMap hentries).trans hkeys) hproto] at hprops
      exact ⟨hproto, hindex, hentries.trans (congrArg some hprops)⟩
    · rintro ⟨hproto, hindex, hentries⟩
      rw [hplain hindex, hentries, Option.map_some]
      simp only [hnew (keys_counterpartProps props) hproto]

lemma decodes_instance {cls : String} {state : List Value} (hcls : env.registered cls = true)
    (h : ∀ v ∈ state, ∃ o, Decodes env v o) : ∃ o, Decodes env (.instance cls state) o := by
  obtain ⟨os, hos, hdecoded⟩ := decodes_list h
  refine ⟨.extPacked .classInstance (.array (.str cls :: os)), ?_, ?_⟩
  · simp only [v8ToMsgpack, hos, Option.map_some]
  · have hdecode : decode env (.extPacked .classInstance (.array (.str cls :: os))) =
        (decodeList env os).map fun args => .instance cls args := by
      simp only [decode, decodeList, Option.bind_eq_bind, Option.bind_some]
      cases decodeList env os with
      | none => rfl
      | some args => simp only [Option.bind_some, Option.map_some, unpackInstance, hcls, if_true]
    rw [Streamless, ← hdecoded, hdecode, counterpart]
    constructor
    · intro heq
      obtain ⟨args, hargs, heq⟩ := Option.map_eq_some_iff.mp heq
      rw [hargs, (UIValue.instance.inj heq).2]
    · intro hargs
      rw [hargs, Option.map_some]

/-- Every such value is encoded. -/
lemma Displayable.decodes {v : Value} (h : Displayable env v) : ∃ o, Decodes env v o := by
  have hplain : ∀ {v : Value} {o : Object}, v8ToMsgpack v = some o →
      decode env o = some (counterpart env v) → Streamless v → ∃ o, Decodes env v o := by
    intro v o hencoded hdecoded hstreamless
    exact ⟨o, hencoded, fun _ => hstreamless, fun _ => hdecoded⟩
  induction h with
  | null => exact hplain rfl rfl trivial
  | boolean b => exact hplain rfl rfl trivial
  | number x => exact hplain rfl rfl trivial
  | string s => exact hplain rfl rfl trivial
  | buffer data => exact hplain rfl rfl trivial
  | @payload start fin hstart hfin hsize =>
    have hfin' : fin < 2 ^ 64 := lt_of_le_of_lt hfin hsize
    refine hplain rfl ?_ trivial
    rw [decode, unpackPayload, Object.asRange_natCast (lt_of_le_of_lt hstart hfin') hfin']
    rfl
  | stream id =>
    refine ⟨.ext 0x1e id, rfl, ?_, fun hno => hno.elim⟩
    intro heq
    -- the reader of a decoded stream is a decoded value
    obtain ⟨args, -, heq⟩ := Option.map_eq_some_iff.mp heq
    cases (UIValue.stream.inj heq).2
  | array _ ih =>
    obtain ⟨os, hos, hdecoded⟩ := decodes_list ih
    refine ⟨.array os, ?_, ?_⟩
    · simp only [v8ToMsgpack, hos, Option.map_some]
    · rw [Streamless, ← hdecoded, decode, counterpart]
      constructor
      · intro heq
        obtain ⟨vs', hvs', heq⟩ := Option.map_eq_some_iff.mp heq
        rw [hvs', UIValue.array.inj heq]
      · intro hvs
        rw [hvs, Option.map_some]
  | object _ nodup ctor ih => exact decodes_object ih nodup ctor
  | «instance» registered _ ih => exact decodes_instance registered ih

/-- There is one class, and the first of the bytes that are decoded is a small number, which has no
elements. -/
def smallEnv : Env where
  registered := fun cls => cls = "dripcap/ipv4/host"
  encode := fun _ => []
  elements := fun _ => some fun _ => .undefined
  payload := [10, 0, 0, 1]

end Codec

end Dripcap
