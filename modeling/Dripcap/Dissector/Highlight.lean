import Dripcap.Dissector.Arp
import Dripcap.Dissector.Dns
import Dripcap.Dissector.Ipv6
import Dripcap.Dissector.Udp

/-!
# Values and highlighted bytes

The packet view shows a value for each field and highlights the bytes of its range. What a field
shows is a function of its name and these bytes, but for two fields that show bytes before their
range. A judgement goes through a dissector and proves this of every field, however the method ends.
-/

namespace Dripcap

open Outcome Dissect

/-! ### Trees of fields -/

/-- A property of a field and of all fields below it. -/
inductive Field.All (P : Field → Prop) : Field → Prop
  | intro {f : Field} (here : P f) (below : ∀ g ∈ f.fields, Field.All P g) : Field.All P f

/-- The field at a position: an index for each level. -/
def fieldAt (fields : List Field) : List ℕ → Option Field
  | [] => none
  | [i] => fields[i]?
  | i :: position => fields[i]?.bind fun f => fieldAt f.fields position

lemma Field.All.of_fieldAt {P : Field → Prop} {fields : List Field} {position : List ℕ} {f : Field}
    (h : ∀ g ∈ fields, g.All P) (hf : fieldAt fields position = some f) : P f := by
  induction position generalizing fields with
  | nil => cases hf
  | cons i position ih =>
    cases position with
    | nil =>
      obtain ⟨here, -⟩ := h f (List.mem_of_getElem? hf)
      exact here
    | cons j position =>
      obtain ⟨g, hg, hf⟩ := Option.bind_eq_some_iff.mp hf
      obtain ⟨-, below⟩ := h g (List.mem_of_getElem? hg)
      exact ih below hf

lemma Field.All.mono {P Q : Field → Prop} (hPQ : ∀ f, P f → Q f) {f : Field} (h : f.All P) :
    f.All Q := by
  induction h with
  | intro here _ ih => exact .intro (hPQ _ here) ih

/-! ### What fields show -/

/-- The names of the options of TCP, for a number of rounds. -/
def optionItems : ℕ → List UInt8 → List String
  | 0, _ => []
  | _, [] => []
  | rounds + 1, kind :: data =>
    if kind = 1 then optionItems rounds data
    else if kind = 2 then "Maximum segment size" :: optionItems rounds (data.drop 3)
    else if kind = 3 then "Window scale" :: optionItems rounds (data.drop 2)
    else if kind = 4 then "Selective ACK permitted" :: optionItems rounds (data.drop 1)
    else if kind = 8 then "Timestamps" :: optionItems rounds (data.drop 9)
    else []

/-- Some of the bytes. -/
def part (data : List UInt8) (i k : ℕ) : List UInt8 := (data.drop i).take k

/-- The byte at an index of some bytes. -/
def byteAt (data : List UInt8) (i : ℕ) : ℕ := (data.getD i 0).toNat

/-- A flag of TCP in its byte. -/
def tcpFlag (name : String) (value : ℕ) : Attr := .boolean ((Flags.ofClass .tcp value).get name)

/-- An address, if there are as many bytes as it has. -/
def ipv4Attr (data : List UInt8) : Option Attr :=
  (IPv4Address.new data).toOption.map fun x => .instance (.ipv4Address x)

def ipv6Attr (data : List UInt8) : Option Attr :=
  (IPv6Address.new data).toOption.map fun x => .instance (.ipv6Address x)

def macAttr (data : List UInt8) : Option Attr :=
  (MACAddress.new data).toOption.map fun x => .instance (.macAddress x)

def enumAttr (c : EnumClass) (value : ℕ) : Attr := .instance (.enum (.ofClass c value))

/-- What a field shows, by the bytes of its range. -/
def rangeValue (name : String) (data : List UInt8) : Option Attr :=
  match name with
  | "Hardware length" | "Protocol length" | "Source port" | "Destination port" | "Length"
  | "Checksum" | "Sequence number" | "Acknowledgment number" | "Window size" | "Urgent pointer"
  | "My timestamp" | "Payload Length" | "Hop Limit" | "Hdr Ext Len" | "ID" | "Question Count"
  | "Answer Record Count" | "Authority Record Count" | "Additional Record Count" =>
    some (.number (BigEndian.value data))
  | "Payload" | "Padding" | "Options and Padding" => some (.buffer data)
  | "Hardware type" => some (enumAttr .hardware (BigEndian.value data))
  | "Protocol type" => some (enumAttr .arpProtocol (BigEndian.value data))
  | "Operation" => some (enumAttr .arpOperation (BigEndian.value data))
  | "Sender hardware address" | "Target hardware address" => macAttr data
  | "Sender protocol address" => ipv4Attr data
  | "Version" | "Data offset" => some (.number (byteAt data 0 >>> 4))
  | "Flags" => some (.instance (.flags (.ofClass .tcp
      (byteAt data 1 ||| ((byteAt data 0 &&& 0x1) <<< 8) : ℕ))))
  | "NS" => some (tcpFlag "NS" ((byteAt data 0 &&& 0x1) <<< 8))
  | "CWR" => some (tcpFlag "CWR" (byteAt data 0))
  | "ECE" => some (tcpFlag "ECE" (byteAt data 0))
  | "URG" => some (tcpFlag "URG" (byteAt data 0))
  | "ACK" => some (tcpFlag "ACK" (byteAt data 0))
  | "PSH" => some (tcpFlag "PSH" (byteAt data 0))
  | "RST" => some (tcpFlag "RST" (byteAt data 0))
  | "SYN" => some (tcpFlag "SYN" (byteAt data 0))
  | "FIN" => some (tcpFlag "FIN" (byteAt data 0))
  | "Options" => some (.string (",".intercalate (optionItems data.length data)))
  | "NOP" | "Selective ACK permitted" => some (.string "")
  | "Maximum segment size" => some (.number (BigEndian.value (part data 2 2)))
  | "Window scale" => some (.number (BigEndian.value (part data 2 1)))
  | "Timestamps" => some (.string (toString (BigEndian.value (part data 2 4)) ++ " - " ++
      toString (BigEndian.value (part data 2 4))))
  | "Traffic Class" => some (.number (((byteAt data 0 &&& 0b00001111) <<< 4) |||
      ((byteAt data 1 &&& 0b11110000) >>> 4)))
  | "Flow Label" => some (.number (BigEndian.value (part data 1 2) |||
      ((byteAt data 0 &&& 0b00001111) <<< 16)))
  | "Next Header" | "Protocol" => some (enumAttr .ipv6Protocol (BigEndian.value data))
  | "Source IP Address" | "Destination IP Address" => ipv6Attr data
  | "Query/Response Flag" => some (.boolean (byteAt data 0 >>> 7 ≠ 0))
  | "Operation Code" => some (enumAttr .dnsOperation ((byteAt data 0 >>> 3) &&& 0b00001111))
  | "Authoritative Answer Flag" => some (.boolean ((byteAt data 0 >>> 2) &&& 1 ≠ 0))
  | "Truncation Flag" => some (.boolean ((byteAt data 0 >>> 1) &&& 1 ≠ 0))
  | "Recursion Desired" => some (.boolean ((byteAt data 0 >>> 0) &&& 1 ≠ 0))
  | "Recursion Available" => some (.boolean (byteAt data 0 >>> 7 ≠ 0))
  | "Response Code" => some (enumAttr .dnsRecord (byteAt data 0 &&& 0b00001111))
  -- the extension headers of IPv6 show nothing
  | _ => none

/-- The four bytes that begin `n` bytes before a range. -/
def bytesBefore (n : ℕ) (data : Payload) : List UInt8 := (data.vec.drop (data.start - n)).take 4

/-- What a field shows, by its name and its range. -/
def dataValue (name : String) (data : Payload) : Option Attr :=
  if name = "Target protocol address" then ipv4Attr (bytesBefore 10 data)
  else if name = "Echo reply timestamp" then
    some (.number (BigEndian.value (bytesBefore 4 data)))
  else rangeValue name data.bytes

/-- How far before its range a field shows bytes. -/
def reach (name : String) : ℕ :=
  if name = "Target protocol address" then 10 else if name = "Echo reply timestamp" then 4 else 0

/-- A field shows what its name and its range of a frame say. -/
structure Determined (frame : List UInt8) (attrs : String → Option Attr) (f : Field) : Prop where
  vec_eq : f.data.vec = frame
  shown_eq : shown attrs f = dataValue f.name f.data
  reach_le : reach f.name ≤ f.data.start

/-! ### Bytes of ranges -/

section Ranges

variable {payload : Payload} {s e i k n : ℕ}

lemma byteAt_slice (he : e ≤ payload.length) (h : s + i < e) :
    byteAt (payload.slice s e).bytes i = payload.byte (s + i) := payload.byte_slice he h

lemma value_slice_one (h : i < payload.length) :
    BigEndian.value (payload.slice i (i + 1)).bytes = payload.byte i := by
  rw [payload.bytes_slice_one h, BigEndian.value_cons, BigEndian.value_nil]
  simp [Nat.mod_eq_of_lt (payload.byte_lt i)]

lemma number_congr {m n : ℕ} (h : m = n) : some (Attr.number m) = some (.number n) := by rw [h]

/-- The bytes before a slice are a slice, too. -/
lemma bytesBefore_slice (hn : k + n ≤ payload.length) (hk : k + 4 ≤ payload.length) :
    bytesBefore n (payload.slice (k + n) e) = (payload.slice k (k + 4)).bytes := by
  rw [bytesBefore, payload.start_slice hn, payload.bytes_slice (by omega) hk, Buffer.bytes,
    List.drop_take, List.drop_drop, List.take_take, show (payload.slice (k + n) e).vec = payload.vec
    from rfl, show payload.start + (k + n) - n = payload.start + k by omega,
    show min (k + 4 - k) (payload.length - k) = 4 by omega]

/-- A part of a slice is a slice, too. -/
lemma part_slice (he : e ≤ payload.length) (h : s + i + k ≤ e) :
    part (payload.slice s e).bytes i k = (payload.slice (s + i) (s + i + k)).bytes := by
  rw [part, payload.bytes_slice (by omega) he, payload.bytes_slice (by omega) (by omega),
    List.drop_take, List.drop_drop, List.take_take, show min k (e - s - i) = k by omega,
    Nat.add_sub_cancel_left]

end Ranges

lemma ipv4Attr_of_new {data : List UInt8} {x : IPv4Address} (h : IPv4Address.new data = .ok x) :
    ipv4Attr data = some (.instance (.ipv4Address x)) := by
  rw [ipv4Attr, h]
  rfl

lemma ipv6Attr_of_new {data : List UInt8} {x : IPv6Address} (h : IPv6Address.new data = .ok x) :
    ipv6Attr data = some (.instance (.ipv6Address x)) := by
  rw [ipv6Attr, h]
  rfl

lemma macAttr_of_new {data : List UInt8} {x : MACAddress} (h : MACAddress.new data = .ok x) :
    macAttr data = some (.instance (.macAddress x)) := by
  rw [macAttr, h]
  rfl

/-! ### The judgement -/

namespace Dissect

/-- The attribute that a field without a value shows. -/
def keyOf (f : Field) : String := f.attr.getD "undefined"

variable {α β : Type} {parent : ParentLayer} {sets : List (String × Attr)} {payload : Payload}
  {frame : List UInt8}

/-- A field that is determined and stays so when other attributes are set. -/
structure Settled (frame : List UInt8) (sets : List (String × Attr)) (f : Field) : Prop where
  determined : Determined frame (fun key => sets.lookup key) f
  key_mem : f.value = none → keyOf f ∈ "undefined" :: sets.map Prod.fst

/-- These attributes are set, and all fields are settled. -/
structure Sound (parent : ParentLayer) (sets : List (String × Attr)) (a : Analysis) : Prop where
  attrs : a.layer.attrs = fun key => sets.lookup key
  fields : ∀ f ∈ a.layer.fields, f.All (Settled parent.payload.vec sets)
  parentLayer : a.parentLayer = parent

/-- The trees of fields at the end: those of the layer, and those that the parent has got. -/
structure AllDetermined (parent : ParentLayer) (a : Analysis) : Prop where
  layer : ∀ f ∈ a.layer.fields, f.All (Determined parent.payload.vec a.layer.attrs)
  parentLayer : ∀ f ∈ a.parentLayer.fields.drop parent.fields.length,
    f.All (Determined parent.payload.vec a.parentLayer.attrs)

/-- What returns leaves a sound state that `R` relates to the value; an exception leaves all fields
determined. -/
def Says (parent : ParentLayer) (sets : List (String × Attr)) (x : Dissect α)
    (R : α → List (String × Attr) → Prop) : Prop :=
  Triple (Sound parent sets) x (fun v a => ∃ sets', R v sets' ∧ Sound parent sets' a)
    fun _ => AllDetermined parent

lemma Sound.allDetermined {a : Analysis} (h : Sound parent sets a) : AllDetermined parent a where
  layer f hf := (h.fields f hf).mono fun _ hg => h.attrs ▸ hg.determined
  parentLayer f hf := by
    rw [h.parentLayer, List.drop_length] at hf
    cases hf

lemma lookup_cons_of_ne {key key' : String} {value : Attr} (h : key' ≠ key) :
    ((key, value) :: sets).lookup key' = sets.lookup key' := by
  rw [List.lookup_cons, beq_eq_false_iff_ne.mpr h]

lemma lookup_eq_none {key : String} (h : key ∉ sets.map Prod.fst) : sets.lookup key = none := by
  rw [List.lookup_eq_none_iff]
  intro kv hkv
  rw [bne_iff_ne]
  rintro rfl
  exact h (List.mem_map_of_mem hkv)

/-- Another attribute that is set leaves a field settled. -/
lemma Settled.cons {f : Field} {key : String} {value : Attr} (h : Settled frame sets f)
    (hkey : key ∉ "undefined" :: sets.map Prod.fst) : Settled frame ((key, value) :: sets) f := by
  constructor
  · have hshown : shown (fun key' => ((key, value) :: sets).lookup key') f =
        shown (fun key' => sets.lookup key') f := by
      unfold shown
      cases hvalue : f.value with
      | some v => rfl
      | none =>
        have hne : f.attr.getD "undefined" ≠ key := fun heq => hkey (heq ▸ h.key_mem hvalue)
        exact lookup_cons_of_ne hne
    exact ⟨h.determined.vec_eq, hshown.trans h.determined.shown_eq, h.determined.reach_le⟩
  · intro hvalue
    have hmem := h.key_mem hvalue
    rw [List.mem_cons] at hmem ⊢
    exact hmem.imp_right (List.mem_cons_of_mem key)

lemma Sound.setAttr {a : Analysis} {key : String} {value : Attr} (h : Sound parent sets a)
    (hkey : key ∉ "undefined" :: sets.map Prod.fst) :
    Sound parent ((key, value) :: sets) { a with layer := { a.layer with
      attrs := Function.update a.layer.attrs key (some value) } } where
  attrs := by
    funext key'
    show Function.update a.layer.attrs key (some value) key' = _
    by_cases heq : key' = key
    · rw [heq, Function.update_self, List.lookup_cons_self]
    · rw [Function.update_of_ne heq, lookup_cons_of_ne heq, h.attrs]
  fields f hf := (h.fields f hf).mono fun _ hg => hg.cons hkey
  parentLayer := h.parentLayer

lemma Sound.push {a : Analysis} {field : Field} (h : Sound parent sets a)
    (hfield : field.All (Settled parent.payload.vec sets)) :
    Sound parent sets { a with layer := { a.layer with fields := a.layer.fields ++ [field] } } where
  attrs := h.attrs
  fields f hf := by
    rcases List.mem_append.mp hf with hf | hf
    · exact h.fields f hf
    · rwa [List.mem_singleton.mp hf]
  parentLayer := h.parentLayer

/-- A field with a value. -/
lemma settled_of_value {field : Field} {u : Attr} (hvalue : field.value = some u)
    (hvec : field.data.vec = frame) (hreach : reach field.name ≤ field.data.start)
    (hshown : dataValue field.name field.data = some u) : Settled frame sets field := by
  constructor
  · refine ⟨hvec, ?_, hreach⟩
    rw [shown, hvalue, hshown]
  · intro hnone
    rw [hvalue] at hnone
    cases hnone

/-- A field with the attribute that was set last. -/
lemma settled_of_attr {field : Field} {key : String} {u : Attr} (hvalue : field.value = none)
    (hattr : field.attr = some key) (hvec : field.data.vec = frame)
    (hreach : reach field.name ≤ field.data.start)
    (hshown : dataValue field.name field.data = some u) :
    Settled frame ((key, u) :: sets) field := by
  constructor
  · refine ⟨hvec, ?_, hreach⟩
    rw [shown, hvalue, hattr, hshown]
    exact List.lookup_cons_self
  · intro _
    rw [keyOf, hattr]
    exact List.mem_cons_of_mem _ List.mem_cons_self

/-- A field with a value and no fields below it. -/
lemma all_of_value {name : String} {u : Attr} {data : Payload} {note : Option String}
    (hvec : data.vec = frame) (hname : reach name = 0) (hshown : dataValue name data = some u) :
    Field.All (Settled frame sets) { name := name, value := some u, data := data, note := note } :=
  .intro (settled_of_value rfl hvec (hname.le.trans (Nat.zero_le _)) hshown) nofun

/-! ### Rules -/

section Rules

variable {x : Dissect α} {f : α → Dissect β} {R : α → List (String × Attr) → Prop}
  {S : β → List (String × Attr) → Prop} {v : α} {i n : ℕ}

lemma says_pure (h : R v sets) : Says parent sets (pure v) R :=
  triple_pure fun _ hs => ⟨sets, h, hs⟩

lemma says_throw (e : ReadError) : Says parent sets (throw e : Dissect α) R :=
  triple_throw fun _ hs => hs.allDetermined

lemma Says.bind (hx : Says parent sets x R)
    (hf : ∀ v sets', R v sets' → Says parent sets' (f v) S) : Says parent sets (x >>= f) S := by
  refine Triple.bind hx fun v a ⟨sets', hR, hsound⟩ => ?_
  exact hf v sets' hR a hsound

/-- A step that leaves the objects as they are. -/
lemma Says.after (hx : ∀ a, Returns x a v a) (hf : Says parent sets (f v) S) :
    Says parent sets (x >>= f) S := triple_bind_of_returns (fun a _ => hx a) hf

lemma Says.ofExcept {x : Except ReadError α} (hf : ∀ v, x = .ok v → Says parent sets (f v) S) :
    Says parent sets (MonadExcept.ofExcept x >>= f) S := by
  cases x with
  | error e => exact (says_throw (R := fun _ _ => False) e).bind fun _ _ h => h.elim
  | ok v => exact hf v rfl

lemma Says.assertLength {f : PUnit → Dissect β}
    (hf : n ≤ payload.length → Says parent sets (f ⟨⟩) S) :
    Says parent sets (assertLength payload n >>= f) S := by
  rcases Nat.lt_or_ge payload.length n with hlt | hle
  · rw [Dissect.assertLength, if_pos hlt]
    exact (says_throw (R := fun _ _ => False) _).bind fun _ _ h => h.elim
  · exact .after (returns_assertLength hle) (hf hle)

lemma Says.construct {x : Except String α} (hf : ∀ v, x = .ok v → Says parent sets (f v) S) :
    Says parent sets (construct x >>= f) S := by
  refine .ofExcept fun v hv => hf v ?_
  cases x with
  | error e => cases hv
  | ok w => exact congrArg Except.ok (Except.ok.inj hv)

/-- A step on the layer that keeps it sound. -/
lemma Says.modifyLayer {g : ScriptLayer → ScriptLayer} {f : PUnit → Dissect β}
    {sets' : List (String × Attr)}
    (hg : ∀ a, Sound parent sets a → Sound parent sets' { a with layer := g a.layer })
    (hf : Says parent sets' (f ⟨⟩) S) : Says parent sets (modifyLayer g >>= f) S := by
  intro a ha
  rw [(returns_modifyLayer g a).outcome_bind]
  exact hf _ (hg a ha)

lemma Says.push {field : Field} {f : PUnit → Dissect β}
    (hfield : field.All (Settled parent.payload.vec sets)) (hf : Says parent sets (f ⟨⟩) S) :
    Says parent sets (push field >>= f) S :=
  .modifyLayer (fun _ ha => ha.push hfield) hf

lemma Says.setAttr {key : String} {value : Attr} {f : PUnit → Dissect β}
    (hkey : key ∉ "undefined" :: sets.map Prod.fst)
    (hf : Says parent ((key, value) :: sets) (f ⟨⟩) S) :
    Says parent sets (setAttr key value >>= f) S :=
  .modifyLayer (fun _ ha => ha.setAttr hkey) hf

/-- A field whose attribute is set right after it. -/
lemma Says.pushSet {field : Field} {key : String} {u : Attr} {f : PUnit → Dissect β}
    (hkey : key ∉ "undefined" :: sets.map Prod.fst)
    (hfield : field.All (Settled parent.payload.vec ((key, u) :: sets)))
    (hf : Says parent ((key, u) :: sets) (f ⟨⟩) S) :
    Says parent sets (Dissect.push field >>= fun _ => Dissect.setAttr key u >>= f) S := by
  intro a ha
  have hpush : Returns (Dissect.push field) a ⟨⟩ _ := returns_modifyLayer _ a
  have hset : ∀ a, Returns (Dissect.setAttr key u) a ⟨⟩ _ := returns_modifyLayer _
  rw [hpush.outcome_bind, (hset _).outcome_bind]
  exact hf _ ((ha.setAttr hkey).push hfield)

lemma Says.pushAttr {name attr : String} {data : Payload} {value : Dissect Attr} {u : Attr}
    {f : PUnit → Dissect β} (hkey : attr ∉ "undefined" :: sets.map Prod.fst)
    (hvalue : ∀ a, Returns value a u a) (hvec : data.vec = parent.payload.vec)
    (hname : reach name = 0) (hshown : dataValue name data = some u)
    (hf : Says parent ((attr, u) :: sets) (f ⟨⟩) S) :
    Says parent sets (Dissect.pushAttr name attr data value >>= f) S := by
  intro a ha
  have hret : Returns (Dissect.pushAttr name attr data value) a ⟨⟩ _ :=
    (returns_modifyLayer _ a).bind ((hvalue _).bind (returns_modifyLayer _ _))
  rw [hret.outcome_bind]
  have hsettled : Settled parent.payload.vec ((attr, u) :: sets)
      { name := name, attr := some attr, data := data } :=
    settled_of_attr rfl rfl hvec (hname.le.trans (Nat.zero_le _)) hshown
  exact hf _ ((ha.setAttr hkey).push (.intro hsettled nofun))

/-- A step on the layer that leaves its fields and attributes. -/
lemma Says.other {g : ScriptLayer → ScriptLayer} {f : PUnit → Dissect β}
    (hg : ∀ l, (g l).fields = l.fields ∧ (g l).attrs = l.attrs)
    (hf : Says parent sets (f ⟨⟩) S) : Says parent sets (Dissect.modifyLayer g >>= f) S := by
  refine .modifyLayer (fun a ha => ⟨?_, ?_, ha.parentLayer⟩) hf
  · rw [(hg a.layer).2, ha.attrs]
  · rw [(hg a.layer).1]
    exact ha.fields

/-- The last step. -/
lemma Says.last (h : Says parent sets (x >>= pure) R) : Says parent sets x R := by
  rwa [bind_pure] at h

/-- The payload and its field. -/
lemma Says.pushPayload {data : Payload} {f : PUnit → Dissect β}
    (hvec : data.vec = parent.payload.vec) (hf : Says parent sets (f ⟨⟩) S) :
    Says parent sets (Dissect.pushPayload data >>= f) S := by
  rw [Dissect.pushPayload, bind_assoc]
  refine .other (fun _ => ⟨rfl, rfl⟩) ?_
  exact .push (all_of_value hvec rfl rfl) hf

end Rules

/-! ### The end of a method -/

/-- However `x` ends, all fields are determined. -/
def Ends (parent : ParentLayer) (sets : List (String × Attr)) (x : Dissect α) : Prop :=
  Triple (Sound parent sets) x (fun _ => AllDetermined parent) fun _ => AllDetermined parent

lemma Says.ends {x : Dissect α} {R : α → List (String × Attr) → Prop} (h : Says parent sets x R) :
    Ends parent sets x :=
  h.mono (fun _ => id) (fun _ _ ⟨_, _, hsound⟩ => hsound.allDetermined) fun _ _ => id

lemma Says.bind_ends {x : Dissect α} {f : α → Dissect β} {R : α → List (String × Attr) → Prop}
    (hx : Says parent sets x R) (hf : ∀ v sets', R v sets' → Ends parent sets' (f v)) :
    Ends parent sets (x >>= f) := by
  refine Triple.bind hx fun v a ⟨sets', hR, hsound⟩ => ?_
  exact hf v sets' hR a hsound

/-- A new layer has no fields. -/
lemma sound_new {layer : ScriptLayer} (hfields : layer.fields = [])
    (hattrs : layer.attrs = fun _ => none) : Sound parent [] ⟨layer, parent⟩ where
  attrs := hattrs
  fields f hf := by
    rw [show (⟨layer, parent⟩ : Analysis).layer.fields = [] from hfields] at hf
    cases hf
  parentLayer := rfl

lemma Ends.catchError {body : Dissect PUnit} {a : Analysis} (h : Ends parent [] body)
    (ha : Sound parent [] a) : AllDetermined parent (outcome (catchError body) a).2 := by
  obtain ⟨hok, herror⟩ := h a ha
  rcases hout : outcome body a with ⟨e | u, t⟩
  · rw [returns_catchError_of_error hout]
    obtain ⟨hlayer, hparent⟩ := herror e t hout
    exact ⟨hlayer, hparent⟩
  · rw [returns_catchError hout]
    exact hok u t hout

lemma Ends.run {body : Dissect PUnit} {a : Analysis} (h : Ends parent [] body)
    (ha : Sound parent [] a) : AllDetermined parent (run body a) := by
  obtain ⟨t, ht⟩ : ∃ t, Returns (Dissect.catchError body) a ⟨⟩ t := by
    rcases hout : outcome body a with ⟨e | u, t⟩
    · exact ⟨_, returns_catchError_of_error hout⟩
    · exact ⟨_, returns_catchError hout⟩
  have hend := h.catchError ha
  rw [ht] at hend
  rw [Dissect.run, ht.outcome_bind]
  exact ⟨hend.layer, hend.parentLayer⟩

end Dissect

end Dripcap
