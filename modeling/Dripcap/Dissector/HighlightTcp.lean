import Dripcap.Dissector.Highlight
import Dripcap.Dissector.TcpOptions
import Mathlib.Data.Nat.Bitwise

/-!
# What is shown of TCP

The judgement of the TCP dissector: its ports, which UDP has, too, its flags and its options.
-/

namespace Dripcap

open Outcome Dissect

variable {parent : ParentLayer} {sets : List (String × Attr)} {payload : Payload}

/-! ### Ports -/

namespace Dissect

lemma says_newHost (addr : Option Attr) (port : ℕ) :
    Says parent sets (newHost addr port) fun _ sets' => sets' = sets := by
  unfold newHost
  split
  · exact says_throw _
  · exact .last (.construct fun v _ => says_pure rfl)
  · exact .last (.construct fun v _ => says_pure rfl)
  · exact says_throw _

lemma says_ports (parentLayer : ParentLayer) : Says parentLayer [] (ports parentLayer)
    fun _ sets => sets.map Prod.fst = ["dst", "src"] := by
  unfold ports
  refine .assertLength fun h2 => ?_
  refine .after (returns_readUInt16BE h2) ?_
  refine .push (all_of_value rfl rfl rfl) ?_
  refine (says_newHost _ _).bind fun src sets hsets => ?_
  subst hsets
  refine .setAttr (by simp) ?_
  refine .assertLength fun h4 => ?_
  refine .after (returns_readUInt16BE h4) ?_
  refine .push (all_of_value rfl rfl rfl) ?_
  refine (says_newHost _ _).bind fun dst sets hsets => ?_
  subst hsets
  refine .setAttr (by simp) ?_
  exact says_pure rfl

end Dissect

namespace TCPDissector

/-! ### Flags -/

lemma bitAnd_or (x y : ℕ) (mask : ℤ) :
    bitAnd (x ||| y : ℕ) mask ≠ 0 ↔ bitAnd x mask ≠ 0 ∨ bitAnd y mask ≠ 0 := by
  have hzero : ∀ b : BitVec 32, b.toInt = 0 ↔ b = 0#32 := by
    intro b
    rw [← BitVec.toInt_zero, BitVec.toInt_inj]
  simp only [bitAnd, ne_eq, hzero, BitVec.ofInt_natCast, BitVec.ofNat_or,
    BitVec.and_or_distrib_right, BitVec.or_eq_zero_iff, not_and_or]

/-- A flag is set in one of two parts. -/
lemma get_or (name : String) (x y : ℕ) : (Flags.ofClass .tcp (x ||| y : ℕ)).get name =
    ((Flags.ofClass .tcp x).get name || (Flags.ofClass .tcp y).get name) := by
  unfold Flags.get Flags.ofClass
  cases FlagsClass.tcp.table.lookup name with
  | none => rfl
  | some mask => simp only [bitAnd_or, Bool.decide_or]

/-- The lower byte has not the flag `NS`. -/
lemma get_NS_eq_false {low : ℕ} (h : low < 256) : (Flags.ofClass .tcp low).get "NS" = false := by
  have hbits : BitVec.ofInt 32 low &&& BitVec.ofInt 32 0x100 = 0#32 := by
    apply BitVec.eq_of_toNat_eq
    rw [BitVec.toNat_and, BitVec.ofInt_natCast, BitVec.toNat_ofNat, Nat.mod_eq_of_lt (by omega)]
    show low &&& 2 ^ 8 = 0
    rw [Nat.and_two_pow, Nat.testBit_lt_two_pow h]
    rfl
  show decide (bitAnd low 0x100 ≠ 0) = false
  rw [bitAnd, hbits]
  rfl

/-- The bit above the lower byte is the flag `NS`. -/
lemma get_eq_false {name : String} (high : ℕ)
    (h : name ∈ ["CWR", "ECE", "URG", "ACK", "PSH", "RST", "SYN", "FIN"]) :
    (Flags.ofClass .tcp ((high &&& 0x1) <<< 8 : ℕ)).get name = false := by
  have hall : ∀ bit : Fin 2, ∀ name ∈ ["CWR", "ECE", "URG", "ACK", "PSH", "RST", "SYN", "FIN"],
      (Flags.ofClass .tcp ((bit : ℕ) <<< 8 : ℕ)).get name = false := by decide
  rw [Nat.and_one_is_mod]
  exact hall ⟨high % 2, Nat.mod_lt _ (by decide)⟩ name h

/-- The fields of the flags show the flags of their bytes. -/
lemma all_flagField {name : String} {data : Payload} {flags : Flags} {value : Attr}
    {frame : List UInt8} (hvec : data.vec = frame) (hname : reach name = 0)
    (hshown : dataValue name data = some value) (hvalue : Attr.boolean (flags.get name) = value) :
    (flagField flags name data).All (Settled frame sets) :=
  all_of_value hvec hname (hshown.trans (congrArg some hvalue.symm))

lemma all_flagFields (hlen : 14 ≤ payload.length) :
    ∀ f ∈ flagFields
      (Flags.ofClass .tcp (payload.byte 13 ||| ((payload.byte 12 &&& 0x1) <<< 8) : ℕ)) payload, f.All (Settled payload.vec sets) := by
  have h12 : byteAt (payload.slice 12 13).bytes 0 = payload.byte 12 :=
    byteAt_slice (by omega) (by omega)
  have h13 : byteAt (payload.slice 13 14).bytes 0 = payload.byte 13 := byteAt_slice hlen (by omega)
  have hlow : ∀ name ∈ ["CWR", "ECE", "URG", "ACK", "PSH", "RST", "SYN", "FIN"],
      Attr.boolean ((Flags.ofClass .tcp
        (payload.byte 13 ||| ((payload.byte 12 &&& 0x1) <<< 8) : ℕ)).get name) = tcpFlag name (byteAt (payload.slice 13 14).bytes 0) := by
    intro name hname
    rw [tcpFlag, get_or, get_eq_false _ hname, Bool.or_false, h13]
  have hhigh : Attr.boolean
      ((Flags.ofClass .tcp (payload.byte 13 ||| ((payload.byte 12 &&& 0x1) <<< 8) : ℕ)).get "NS") =
      tcpFlag "NS" ((byteAt (payload.slice 12 13).bytes 0 &&& 0x1) <<< 8) := by
    rw [tcpFlag, get_or, get_NS_eq_false (payload.byte_lt 13), Bool.false_or, h12]
  intro f hf
  simp only [flagFields, List.mem_cons, List.not_mem_nil, or_false] at hf
  rcases hf with rfl | rfl | rfl | rfl | rfl | rfl | rfl | rfl | rfl
  · exact all_flagField rfl rfl rfl hhigh
  all_goals exact all_flagField rfl rfl rfl (hlow _ (by decide))

/-! ### The header -/

lemma says_readFlags (hsets : sets.map Prod.fst = ["dataOffset", "ack", "seq", "dst", "src"]) :
    Says parent sets (readFlags parent.payload) fun _ sets' =>
      sets'.map Prod.fst = ["flags", "dataOffset", "ack", "seq", "dst", "src"] := by
  unfold readFlags
  refine .assertLength fun h14 => ?_
  refine .after (returns_readUInt8 h14) ?_
  refine .after (returns_readUInt8 (by omega)) ?_
  refine .pushSet (by simp [hsets]) (.intro (settled_of_attr rfl rfl rfl (Nat.zero_le _) ?_)
    (all_flagFields h14)) ?_
  · have h0 : byteAt (parent.payload.slice 12 14).bytes 0 = parent.payload.byte 12 :=
      byteAt_slice h14 (by omega)
    have h1 : byteAt (parent.payload.slice 12 14).bytes 1 = parent.payload.byte 13 :=
      byteAt_slice h14 (by omega)
    show some (Attr.instance (.flags (.ofClass .tcp (byteAt (parent.payload.slice 12 14).bytes 1 |||
      ((byteAt (parent.payload.slice 12 14).bytes 0 &&& 0x1) <<< 8) : ℕ)))) = _
    rw [h0, h1]
  exact says_pure (by simp [hsets])

lemma says_readHeader (parentLayer : ParentLayer) :
    Says parentLayer [] (readHeader parentLayer) fun _ sets => 20 ≤ parentLayer.payload.length ∧
      sets.map Prod.fst = ["urgent", "checksum", "window", "flags", "dataOffset", "ack", "seq",
        "dst", "src"] := by
  unfold readHeader
  refine (says_ports parentLayer).bind fun hosts sets hsets => ?_
  refine .assertLength fun h8 => ?_
  refine .after (returns_readUInt32BE h8) ?_
  refine .pushAttr (by simp [hsets]) (fun _ => rfl) rfl rfl rfl ?_
  refine .assertLength fun h12 => ?_
  refine .after (returns_readUInt32BE h12) ?_
  refine .pushAttr (by simp [hsets]) (fun _ => rfl) rfl rfl rfl ?_
  refine .assertLength fun h13 => ?_
  refine .after (returns_readUInt8 h13) ?_
  refine .pushAttr (by simp [hsets]) (fun _ => rfl) rfl rfl ?_ ?_
  · exact congrArg (fun n => some (Attr.number (n >>> 4))) (byteAt_slice h13 (by omega))
  refine (says_readFlags (by simp [hsets])).bind fun flags sets' hsets' => ?_
  refine .assertLength fun h16 => ?_
  refine .pushAttr (by simp [hsets']) (returns_map (returns_readUInt16BE h16) _) rfl rfl rfl ?_
  refine .assertLength fun h18 => ?_
  refine .pushAttr (by simp [hsets']) (returns_map (returns_readUInt16BE h18) _) rfl rfl rfl ?_
  refine .assertLength fun h20 => ?_
  refine .pushAttr (by simp [hsets']) (returns_map (returns_readUInt16BE h20) _) rfl rfl rfl ?_
  exact says_pure ⟨h20, by simp [hsets']⟩

/-! ### Options -/

section Options

variable {optionData : Payload} {offset n : ℕ}

lemma drop_of_get {kind : UInt8}
    (h : (optionData.get offset).mapError ReadError.thrown = .ok kind) :
    optionData.bytes.drop offset = kind :: optionData.bytes.drop (offset + 1) := by
  rw [Buffer.get_eq] at h
  split_ifs at h with hlt
  · rw [List.drop_eq_getElem_cons hlt, Except.ok.inj h]
  · cases h

/-- The names of the options from one round to the next. -/
lemma optionItems_round {kind : UInt8} {m : ℕ} {items : List String}
    (hkind : ∀ k data, optionItems (k + 1) (kind :: data) = items ++ optionItems k (data.drop m))
    (hdrop : optionData.bytes.drop offset = kind :: optionData.bytes.drop (offset + 1)) (k : ℕ) :
    optionItems (k + 1) (optionData.bytes.drop offset) =
      items ++ optionItems k (optionData.bytes.drop (offset + (m + 1))) := by
  rw [hdrop, hkind, List.drop_drop, Nat.add_assoc, Nat.add_comm 1 m]

/-- A round that pushes one field. -/
lemma round_field {kind : UInt8} {m : ℕ} {items : List String} {frame : List UInt8} {field : Field}
    (hkind : ∀ k data, optionItems (k + 1) (kind :: data) = items ++ optionItems k (data.drop m))
    (hdrop : optionData.bytes.drop offset = kind :: optionData.bytes.drop (offset + 1))
    (hfield : field.All (Settled frame sets)) :
    (∀ f ∈ [field], f.All (Settled frame sets)) ∧ ∀ k,
      optionItems (k + 1) (optionData.bytes.drop offset) =
        items ++ optionItems k (optionData.bytes.drop (offset + (m + 1))) :=
  ⟨List.forall_mem_singleton.mpr hfield, optionItems_round hkind hdrop⟩

section Parts

variable {i e value : ℕ} (he : e ≤ payload.length)
include he

lemma part_uint8 (h : payload.uint8 (offset + i) = .ok value) (hi : offset + i + 1 ≤ e) :
    BigEndian.value (part (payload.slice offset e).bytes i 1) = value := by
  rw [payload.uint8_eq (by omega)] at h
  rw [part_slice he hi, value_slice_one (by omega), Except.ok.inj h]

lemma part_uint16 (h : payload.uint16 (offset + i) = .ok value) (hi : offset + i + 2 ≤ e) :
    BigEndian.value (part (payload.slice offset e).bytes i 2) = value := by
  rw [payload.uint16_eq (by omega)] at h
  rw [part_slice he hi, Except.ok.inj h]

lemma part_uint32 (h : payload.uint32 (offset + i) = .ok value) (hi : offset + i + 4 ≤ e) :
    BigEndian.value (part (payload.slice offset e).bytes i 4) = value := by
  rw [payload.uint32_eq (by omega)] at h
  rw [part_slice he hi, Except.ok.inj h]

end Parts

/-- The field of the timestamps; the second one shows the bytes before it. -/
lemma all_timestamps {mt et : ℕ} (hlen : offset + 10 ≤ payload.length)
    (hmt : payload.uint32 (offset + 2) = .ok mt) (het : payload.uint32 (offset + 2) = .ok et) :
    Field.All (Settled payload.vec sets) {
      name := "Timestamps"
      value := some (.string (toString mt ++ " - " ++ toString et))
      data := payload.slice offset (offset + 10)
      fields :=
        [{ name := "My timestamp", value := some (.number mt),
           data := payload.slice (offset + 2) (offset + 6) },
         { name := "Echo reply timestamp", value := some (.number et),
           data := payload.slice (offset + 6) (offset + 10) }] } := by
  obtain rfl := Except.ok.inj (hmt.symm.trans het)
  have hpart := part_uint32 hlen hmt (by omega)
  have hslice : BigEndian.value (payload.slice (offset + 2) (offset + 2 + 4)).bytes = mt := by
    rw [← hpart, part_slice hlen (by omega)]
  have hbefore : bytesBefore 4 (payload.slice (offset + 2 + 4) (offset + 10)) =
    (payload.slice (offset + 2) (offset + 2 + 4)).bytes := bytesBefore_slice (by omega) (by omega)
  refine .intro (settled_of_value rfl rfl (Nat.zero_le _) ?_) ?_
  · show some (Attr.string (toString (BigEndian.value (part _ 2 4)) ++ " - " ++
      toString (BigEndian.value (part _ 2 4)))) = _
    rw [hpart]
  · rw [List.forall_mem_cons, List.forall_mem_singleton]
    constructor
    · exact all_of_value rfl rfl (number_congr hslice)
    · refine .intro (settled_of_value rfl rfl ?_ ?_) nofun
      · show 4 ≤ (payload.slice (offset + 6) (offset + 10)).start
        rw [payload.start_slice (by omega)]
        omega
      · show some (Attr.number (BigEndian.value (bytesBefore 4
          (payload.slice (offset + 2 + 4) (offset + 10))))) = _
        rw [hbefore, hslice]

/-- One round pushes fields that show what their bytes say, and the names of its options. -/
lemma readOption_says (hn : n ≤ payload.length) {r : ℕ × List String × List Field}
    (h : readOption payload (payload.slice 0 n) offset = .ok r) :
    (∀ f ∈ r.2.2, f.All (Settled payload.vec sets)) ∧ ∀ k,
      optionItems (k + 1) ((payload.slice 0 n).bytes.drop offset) =
        r.2.1 ++ optionItems k ((payload.slice 0 n).bytes.drop r.1) := by
  have hlen : (payload.slice 0 n).length = n := payload.length_slice (Nat.zero_le n) hn
  obtain ⟨kind, hkind, h⟩ := exists_of_except_bind h
  have hdrop := drop_of_get hkind
  split_ifs at h with h0 h1 h2 h3 h4 h5 h8
  · obtain rfl := Except.ok.inj h
    subst h0
    refine ⟨nofun, fun k => ?_⟩
    rw [hdrop, List.drop_eq_nil_of_le (Buffer.length_bytes _).le]
    cases k with
    | zero => rfl
    | succ k => rfl
  · obtain rfl := Except.ok.inj h
    subst h1
    exact round_field (fun _ _ => rfl) hdrop (all_of_value rfl rfl rfl)
  · obtain ⟨_, hcheck, h⟩ := exists_of_except_bind h
    obtain ⟨value, hvalue, h⟩ := exists_of_except_bind h
    obtain rfl := Except.ok.inj h
    subst h2
    have hle := le_of_checkLength hcheck
    have hpart := part_uint16 (show offset + 4 ≤ payload.length by omega) hvalue (by omega)
    refine round_field (fun _ _ => rfl) hdrop (all_of_value rfl rfl ?_)
    exact number_congr hpart
  · obtain ⟨_, hcheck, h⟩ := exists_of_except_bind h
    obtain ⟨value, hvalue, h⟩ := exists_of_except_bind h
    obtain rfl := Except.ok.inj h
    subst h3
    have hle := le_of_checkLength hcheck
    have hpart := part_uint8 (show offset + 3 ≤ payload.length by omega) hvalue (by omega)
    refine round_field (fun _ _ => rfl) hdrop (all_of_value rfl rfl ?_)
    exact number_congr hpart
  · obtain ⟨-, -, h⟩ := exists_of_except_bind h
    obtain rfl := Except.ok.inj h
    subst h4
    exact round_field (fun _ _ => rfl) hdrop (all_of_value rfl rfl rfl)
  · obtain ⟨-, -, h⟩ := exists_of_except_bind h
    obtain ⟨length, -, h⟩ := exists_of_except_bind h
    cases h
  · obtain ⟨_, hcheck, h⟩ := exists_of_except_bind h
    obtain ⟨mt, hmt, h⟩ := exists_of_except_bind h
    obtain ⟨et, het, h⟩ := exists_of_except_bind h
    obtain rfl := Except.ok.inj h
    subst h8
    have hle := le_of_checkLength hcheck
    exact round_field (fun _ _ => rfl) hdrop (all_timestamps (by omega) hmt het)

/-- The loop pushes fields that show what their bytes say, and the names of all options. -/
lemma readOptions_says (hn : n ≤ payload.length) {rounds k : ℕ} {items items' : List String}
    {fields fields' : List Field} (hfields : ∀ f ∈ fields, f.All (Settled payload.vec sets))
    (hk : n - offset ≤ k)
    (h : readOptions payload (payload.slice 0 n) rounds offset items fields =
      some (.ok (items', fields'))) :
    (∀ f ∈ fields', f.All (Settled payload.vec sets)) ∧
      items' = items ++ optionItems k ((payload.slice 0 n).bytes.drop offset) := by
  have hlen : (payload.slice 0 n).length = n := payload.length_slice (Nat.zero_le n) hn
  induction rounds generalizing offset items fields k with
  | zero => cases h
  | succ rounds ih =>
    rw [readOptions] at h
    split_ifs at h with hlt
    · cases hround : readOption payload (payload.slice 0 n) offset with
      | error e =>
        rw [hround] at h
        cases h
      | ok r =>
        rw [hround] at h
        obtain ⟨hnew, hitems⟩ := readOption_says hn hround
        have hnext := lt_of_readOption hlt hround
        obtain ⟨k, rfl⟩ := Nat.exists_eq_succ_of_ne_zero (show k ≠ 0 by omega)
        have hall : ∀ f ∈ fields ++ r.2.2, f.All (Settled payload.vec sets) :=
          fun f hf => (List.mem_append.mp hf).elim (hfields f) (hnew f)
        obtain ⟨hfields', rfl⟩ := ih hall (show n - r.1 ≤ k by omega) h
        exact ⟨hfields', by rw [hitems, List.append_assoc]⟩
    · obtain ⟨rfl, rfl⟩ := Prod.mk.inj (Except.ok.inj (Option.some.inj h))
      refine ⟨hfields, ?_⟩
      rw [List.drop_eq_nil_of_le (by rw [Buffer.length_bytes]; omega)]
      cases k with
      | zero => exact (List.append_nil _).symm
      | succ k => exact (List.append_nil _).symm

end Options

/-! ### The method -/

/-- The bytes of the options are those of the range of their field. -/
lemma bytes_options {n : ℕ} (hlen : 20 ≤ payload.length) (hn : n ≤ payload.length) :
    (payload.slice 0 n).bytes.drop 20 = (payload.slice 20 n).bytes := by
  rw [payload.bytes_slice (Nat.zero_le _) hn, payload.bytes_slice hlen hn, List.drop_take,
    List.drop_zero, Nat.sub_zero]

lemma length_options {n : ℕ} (hlen : 20 ≤ payload.length) (hn : n ≤ payload.length) :
    n - 20 ≤ (payload.slice 20 n).bytes.length := by
  rw [← bytes_options hlen hn, List.length_drop, Buffer.length_bytes,
    payload.length_slice (Nat.zero_le n) hn, Nat.sub_zero]

lemma ends_readBody {parentLayer : ParentLayer} (hlen : 20 ≤ parentLayer.payload.length)
    (header : Header) : Ends parentLayer sets (readBody parentLayer header) := by
  unfold readBody
  refine Says.ends (R := fun _ _ => True) (.assertLength fun hn => ?_)
  cases hopts : readOptions parentLayer.payload
      (parentLayer.payload.slice 0 (header.dataOffset * 4)) (parentLayer.payload.length + 1) 20
      [] [] with
  | none => exact says_pure trivial
  | some result =>
    refine .ofExcept fun options hresult => ?_
    subst hresult
    have hnone : ∀ f ∈ [], Field.All (Settled parentLayer.payload.vec sets) f :=
      fun _ hf => absurd hf List.not_mem_nil
    obtain ⟨hfields, hitems⟩ := readOptions_says hn hnone (length_options hlen hn) hopts
    rw [List.nil_append, bytes_options hlen hn] at hitems
    unfold finish
    refine .push (.intro (settled_of_value rfl rfl (Nat.zero_le _) ?_) hfields) ?_
    · exact congrArg (fun items => some (Attr.string (",".intercalate items))) hitems.symm
    refine .pushPayload rfl ?_
    refine .other (fun _ => ⟨rfl, rfl⟩) ?_
    exact .last (.other (fun _ => ⟨rfl, rfl⟩) (says_pure trivial))

lemma ends_body (parentLayer : ParentLayer) : Ends parentLayer [] (body parentLayer) :=
  (says_readHeader parentLayer).bind_ends fun header _ h => ends_readBody h.1 header

end TCPDissector

end Dripcap
