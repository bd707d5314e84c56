import Dripcap.Dissector.Tcp

/-!
# Options of TCP

What the loop over the options makes of the encodings of options, and where the dissector keeps what
the segment says.
-/

namespace Dripcap

open Outcome Dissect

/-! ### Options -/

/-- The options that the dissector knows. -/
inductive TCPOption where
  | nop
  | maximumSegmentSize (value : UInt16)
  | windowScale (value : UInt8)
  | sackPermitted
  | sack (blocks : List (UInt32 × UInt32))
  | timestamps (value echo : UInt32)
  deriving DecidableEq

namespace TCPOption

/-- The blocks of a selective acknowledgment. -/
def encodeBlocks (blocks : List (UInt32 × UInt32)) : List UInt8 :=
  blocks.flatMap fun b => BigEndian.bytes 4 b.1.toNat ++ BigEndian.bytes 4 b.2.toNat

def encode : TCPOption → List UInt8
  | .nop => [1]
  | .maximumSegmentSize value => 2 :: 4 :: BigEndian.bytes 2 value.toNat
  | .windowScale value => [3, 3, value]
  | .sackPermitted => [4, 2]
  | .sack blocks => 5 :: UInt8.ofNat (2 + 8 * blocks.length) :: encodeBlocks blocks
  | .timestamps value echo =>
    8 :: 10 :: (BigEndian.bytes 4 value.toNat ++ BigEndian.bytes 4 echo.toNat)

/-- The field of an option at an offset of the payload. -/
def field (payload : Payload) (offset : ℕ) : TCPOption → Field
  | .nop => { name := "NOP", value := some (.string ""), data := payload.slice offset (offset + 1) }
  | .maximumSegmentSize value =>
    { name := "Maximum segment size", value := some (.number value.toNat),
      data := payload.slice offset (offset + 4) }
  | .windowScale value =>
    { name := "Window scale", value := some (.number value.toNat),
      data := payload.slice offset (offset + 3) }
  | .sackPermitted =>
    { name := "Selective ACK permitted", value := some (.string ""),
      data := payload.slice offset (offset + 2) }
  | .sack blocks =>
    { name := "Selective ACK", value := some (.buffer (encodeBlocks blocks)),
      data := payload.slice offset (offset + (2 + 8 * blocks.length)) }
  | .timestamps value echo =>
    { name := "Timestamps",
      value := some (.string (toString value.toNat ++ " - " ++ toString echo.toNat)),
      data := payload.slice offset (offset + 10),
      fields :=
        [{ name := "My timestamp", value := some (.number value.toNat),
           data := payload.slice (offset + 2) (offset + 6) },
         { name := "Echo reply timestamp", value := some (.number echo.toNat),
           data := payload.slice (offset + 6) (offset + 10) }] }

/-- The fields of options that follow each other. -/
def fields (payload : Payload) (offset : ℕ) : List TCPOption → List Field
  | [] => []
  | o :: options => o.field payload offset :: fields payload (offset + o.encode.length) options

/-- What the dissector takes an option for: it reads the first timestamp twice. -/
def asRead : TCPOption → TCPOption
  | .timestamps value _ => .timestamps value value
  | o => o

/-- What is pushed to `optionItems`. -/
def items : TCPOption → List String
  | .nop => []
  | .maximumSegmentSize _ => ["Maximum segment size"]
  | .windowScale _ => ["Window scale"]
  | .sackPermitted => ["Selective ACK permitted"]
  | .sack _ => ["Selective ACK"]
  | .timestamps _ _ => ["Timestamps"]

/-- Is it a selective acknowledgment? -/
def IsSack (o : TCPOption) : Prop := ∃ blocks, o = .sack blocks

lemma length_bytes16 (value : UInt16) : (BigEndian.bytes 2 value.toNat).length = 2 :=
  BigEndian.length_bytes value.toNat_lt

lemma length_bytes32 (value : UInt32) : (BigEndian.bytes 4 value.toNat).length = 4 :=
  BigEndian.length_bytes value.toNat_lt

lemma length_encode_asRead (o : TCPOption) : o.asRead.encode.length = o.encode.length := by
  cases o <;> simp [asRead, encode, length_bytes32]

/-- An option is read as it is if it is not a pair of different timestamps. -/
lemma asRead_eq_iff (o : TCPOption) :
    o.asRead = o ↔ ∀ value echo, o = .timestamps value echo → value = echo := by
  cases o with
  | timestamps value echo => simp [asRead, eq_comm]
  | _ => simp [asRead]

/-- The fields of different timestamps differ. -/
lemma field_asRead_iff (payload : Payload) (offset : ℕ) (o : TCPOption) :
    o.asRead.field payload offset = o.field payload offset ↔ o.asRead = o := by
  constructor
  · intro h
    cases o with
    | timestamps value echo =>
      have hfields := congrArg Field.fields h
      simp only [asRead, field, List.cons.injEq, Field.mk.injEq, Option.some.injEq,
        Attr.number.injEq] at hfields
      obtain rfl := UInt32.toNat_inj.mp hfields.2.1.2.1
      rfl
    | _ => rfl
  · intro h
    rw [h]

lemma length_encode_pos (o : TCPOption) : 0 < o.encode.length := by
  cases o <;> simp [encode]

lemma fields_asRead_iff (payload : Payload) (offset : ℕ) (options : List TCPOption) :
    fields payload offset (options.map asRead) = fields payload offset options ↔
      ∀ o ∈ options, o.asRead = o := by
  induction options generalizing offset with
  | nil => simp [fields]
  | cons o options ih =>
    rw [List.map_cons, fields, fields, List.cons.injEq, field_asRead_iff, length_encode_asRead, ih,
      List.forall_mem_cons]

end TCPOption

namespace TCPDissector

open TCPOption

/-! ### One round of the loop -/

variable {payload optionData : Payload} {offset : ℕ} {rest : List UInt8}

lemma checkLength_ok {k x : UInt8} {len : ℕ} {data : List UInt8} (hx : x.toNat = len)
    (hle : len ≤ data.length + 2) (h : optionData.HasAt offset (k :: x :: data)) :
    checkLength optionData offset len = .ok ⟨⟩ := by
  have hlen := h.le
  simp only [List.length_cons] at hlen
  rw [checkLength, if_pos (by omega), h.tail.get]
  exact if_pos hx

/-- A round at the encoding of an option. -/
lemma readOption_encode {n : ℕ} (hn : n ≤ payload.length) (o : TCPOption) (hsack : ¬ o.IsSack)
    (h : (payload.slice 0 n).HasAt offset o.encode) :
    readOption payload (payload.slice 0 n) offset =
      .ok (offset + o.encode.length, o.items, [o.asRead.field payload offset]) := by
  have hp := h.of_slice hn
  cases o with
  | nop =>
    simp only [readOption, h.get]
    rfl
  | maximumSegmentSize value =>
    have hcheck : checkLength (payload.slice 0 n) offset 4 = .ok ⟨⟩ :=
      checkLength_ok rfl (by simp [length_bytes16]) h
    have hvalue := hp.tail.tail.uint16 (length_bytes16 value)
    rw [readOption, h.get]
    show (checkLength (payload.slice 0 n) offset 4 >>= fun _ => payload.uint16 (offset + 2) >>=
      fun value => pure _) = _
    rw [hcheck, hvalue, BigEndian.value_bytes, encode, List.length_cons, List.length_cons,
      length_bytes16]
    rfl
  | windowScale value =>
    have hcheck : checkLength (payload.slice 0 n) offset 3 = .ok ⟨⟩ :=
      checkLength_ok rfl (by simp) h
    have hvalue := hp.tail.tail.uint8
    rw [readOption, h.get]
    show (checkLength (payload.slice 0 n) offset 3 >>= fun _ => payload.uint8 (offset + 2) >>=
      fun value => pure _) = _
    rw [hcheck, hvalue]
    rfl
  | sackPermitted =>
    have hcheck : checkLength (payload.slice 0 n) offset 2 = .ok ⟨⟩ :=
      checkLength_ok rfl (by simp) h
    rw [readOption, h.get]
    show (checkLength (payload.slice 0 n) offset 2 >>= fun _ => pure _) = _
    rw [hcheck]
    rfl
  | sack blocks => exact absurd ⟨blocks, rfl⟩ hsack
  | timestamps value echo =>
    have hcheck : checkLength (payload.slice 0 n) offset 10 = .ok ⟨⟩ :=
      checkLength_ok rfl (by simp [length_bytes32]) h
    have hvalue := hp.tail.tail.left.uint32 (length_bytes32 value)
    rw [readOption, h.get]
    show (checkLength (payload.slice 0 n) offset 10 >>= fun _ => payload.uint32 (offset + 2) >>=
      fun mt => payload.uint32 (offset + 2) >>= fun et => pure _) = _
    rw [hcheck, hvalue, BigEndian.value_bytes, encode, List.length_cons, List.length_cons,
      List.length_append, length_bytes32, length_bytes32]
    rfl

/-- A selective acknowledgment is refused. -/
lemma readOption_sack {n : ℕ} {blocks : List (UInt32 × UInt32)}
    (h : (payload.slice 0 n).HasAt offset (encode (.sack blocks))) :
    ∃ e, readOption payload (payload.slice 0 n) offset = .error e := by
  rw [readOption, h.get]
  show ∃ e, (checkLength (payload.slice 0 n) offset 2 >>= fun _ => payload.uint8 (offset + 1) >>=
    fun length => checkLengthOfNumber >>= fun _ => pure _) = .error e
  cases checkLength (payload.slice 0 n) offset 2 with
  | error e => exact ⟨e, rfl⟩
  | ok u =>
    cases payload.uint8 (offset + 1) with
    | error e => exact ⟨e, rfl⟩
    | ok length => exact ⟨_, rfl⟩

lemma readOption_end {data : List UInt8} (h : optionData.HasAt offset (0 :: data)) :
    readOption payload optionData offset = .ok (optionData.length, [], []) := by
  rw [readOption, h.get]
  rfl

lemma le_of_checkLength {len : ℕ} {u : PUnit} (h : checkLength optionData offset len = .ok u) :
    offset + len ≤ optionData.length := by
  unfold checkLength at h
  split_ifs at h with hle
  exact hle

/-- A round that goes on goes forward. -/
lemma lt_of_readOption {r : ℕ × List String × List Field} (hlt : offset < optionData.length)
    (h : readOption payload optionData offset = .ok r) : offset < r.1 := by
  obtain ⟨kind, -, h⟩ := exists_of_except_bind h
  split_ifs at h
  · obtain rfl := Except.ok.inj h
    exact hlt
  · obtain rfl := Except.ok.inj h
    exact Nat.lt_succ_self offset
  · obtain ⟨-, -, h⟩ := exists_of_except_bind h
    obtain ⟨value, -, h⟩ := exists_of_except_bind h
    obtain rfl := Except.ok.inj h
    exact Nat.lt_add_of_pos_right (by decide)
  · obtain ⟨-, -, h⟩ := exists_of_except_bind h
    obtain ⟨value, -, h⟩ := exists_of_except_bind h
    obtain rfl := Except.ok.inj h
    exact Nat.lt_add_of_pos_right (by decide)
  · obtain ⟨-, -, h⟩ := exists_of_except_bind h
    obtain rfl := Except.ok.inj h
    exact Nat.lt_add_of_pos_right (by decide)
  · obtain ⟨-, -, h⟩ := exists_of_except_bind h
    obtain ⟨length, -, h⟩ := exists_of_except_bind h
    cases h
  · obtain ⟨-, -, h⟩ := exists_of_except_bind h
    obtain ⟨mt, -, h⟩ := exists_of_except_bind h
    obtain ⟨et, -, h⟩ := exists_of_except_bind h
    obtain rfl := Except.ok.inj h
    exact Nat.lt_add_of_pos_right (by decide)

/-! ### The loop -/

/-- The loop ends before the rounds do, if there is one for each byte that is left and one more. -/
lemma readOptions_ends {rounds : ℕ} {items : List String} {fields : List Field}
    (h : optionData.length - offset < rounds) :
    readOptions payload optionData rounds offset items fields ≠ none := by
  induction rounds generalizing offset items fields with
  | zero => exact absurd h (Nat.not_lt_zero _)
  | succ rounds ih =>
    rw [readOptions]
    split_ifs with hlt
    · cases hround : readOption payload optionData offset with
      | error e => simp
      | ok r =>
        have hnext := lt_of_readOption hlt hround
        exact ih (by omega)
    · simp

/-- What may follow the options: nothing, or the end of options and padding. -/
def IsEnding (ending : List UInt8) : Prop := ending = [] ∨ ∃ padding, ending = 0 :: padding

section Loop

variable {n rounds : ℕ} {items : List String} {fields : List Field} {ending : List UInt8}

lemma readOptions_ending (hn : n ≤ payload.length) (hending : IsEnding ending)
    (h : (payload.slice 0 n).HasAt offset ending) (hoffset : offset + ending.length = n)
    (hrounds : n - offset < rounds) :
    readOptions payload (payload.slice 0 n) rounds offset items fields =
      some (.ok (items, fields)) := by
  have hlen : (payload.slice 0 n).length = n := payload.length_slice (Nat.zero_le n) hn
  cases rounds with
  | zero => exact absurd hrounds (Nat.not_lt_zero _)
  | succ rounds =>
    rw [readOptions]
    rcases hending with rfl | ⟨padding, rfl⟩
    · rw [if_neg (by rw [hlen, ← hoffset]; exact Nat.lt_irrefl _)]
    · simp only [List.length_cons] at hoffset
      rw [if_pos (by omega), readOption_end h]
      cases rounds with
      | zero => omega
      | succ rounds =>
        show readOptions payload (payload.slice 0 n) (rounds + 1) (payload.slice 0 n).length _ _ = _
        rw [readOptions, if_neg (Nat.lt_irrefl _), List.append_nil, List.append_nil]

/-- The options one after the other. -/
lemma readOptions_options (hn : n ≤ payload.length) (hending : IsEnding ending)
    {options : List TCPOption} (hsack : ∀ o ∈ options, ¬ o.IsSack)
    (h : (payload.slice 0 n).HasAt offset (options.flatMap encode ++ ending))
    (hoffset : offset + (options.flatMap encode ++ ending).length = n)
    (hrounds : n - offset < rounds) :
    readOptions payload (payload.slice 0 n) rounds offset items fields =
      some (.ok (items ++ options.flatMap TCPOption.items,
        fields ++ TCPOption.fields payload offset (options.map asRead))) := by
  have hlen : (payload.slice 0 n).length = n := payload.length_slice (Nat.zero_le n) hn
  induction options generalizing offset items fields rounds with
  | nil =>
    rw [readOptions_ending hn hending h hoffset hrounds]
    simp [TCPOption.fields]
  | cons o options ih =>
    rw [List.flatMap_cons, List.append_assoc] at h hoffset
    rw [List.length_append] at hoffset
    have hpos := o.length_encode_pos
    cases rounds with
    | zero => exact absurd hrounds (Nat.not_lt_zero _)
    | succ rounds =>
      have hround := readOption_encode hn o (hsack o List.mem_cons_self) h.left
      rw [readOptions, if_pos (by omega), hround]
      show readOptions payload (payload.slice 0 n) rounds (offset + o.encode.length)
        (items ++ o.items) (fields ++ [o.asRead.field payload offset]) = _
      rw [ih (fun o' ho' => hsack o' (List.mem_cons_of_mem o ho')) h.right (by omega) (by omega),
        List.flatMap_cons, List.map_cons, TCPOption.fields, length_encode_asRead]
      simp

/-- A selective acknowledgment ends the loop by an exception. -/
lemma readOptions_sack (hn : n ≤ payload.length) {options : List TCPOption}
    (hsack : ∃ o ∈ options, o.IsSack)
    (h : (payload.slice 0 n).HasAt offset (options.flatMap encode ++ ending))
    (hrounds : n - offset < rounds) :
    ∃ e, readOptions payload (payload.slice 0 n) rounds offset items fields = some (.error e) := by
  have hlen : (payload.slice 0 n).length = n := payload.length_slice (Nat.zero_le n) hn
  induction options generalizing offset items fields rounds with
  | nil =>
    obtain ⟨o, ho, -⟩ := hsack
    cases ho
  | cons o options ih =>
    rw [List.flatMap_cons, List.append_assoc] at h
    have hpos := o.length_encode_pos
    have hle := h.left.le
    cases rounds with
    | zero => exact absurd hrounds (Nat.not_lt_zero _)
    | succ rounds =>
      rw [readOptions, if_pos (by omega)]
      by_cases ho : o.IsSack
      · obtain ⟨blocks, rfl⟩ := ho
        obtain ⟨e, he⟩ := readOption_sack h.left
        rw [he]
        exact ⟨e, rfl⟩
      · rw [readOption_encode hn o ho h.left]
        have hsack' : ∃ o ∈ options, o.IsSack := by
          obtain ⟨o', ho', his⟩ := hsack
          rcases List.mem_cons.mp ho' with rfl | ho'
          · exact absurd his ho
          · exact ⟨o', ho', his⟩
        exact ih hsack' h.right (by omega)

end Loop

/-! ### The layer -/

section Layer

variable {parentLayer : ParentLayer} {header : Header} {items : List String} {fields : List Field}

/-- The fields `Options` and `Payload`. -/
def optionsField (payload : Payload) (length : ℕ) (items : List String) (fields : List Field) : Field :=
  { name := "Options", value := some (.string (",".intercalate items)),
    data := payload.slice 20 length, fields := fields }

def payloadField (data : Payload) : Field :=
  { name := "Payload", value := some (.buffer data.bytes), data := data }

/-- The stream of a segment. -/
def streamOf (parentLayer : ParentLayer) (header : Header) : LayerStream where
  name := "TCP Stream"
  ns := parentLayer.ns
  id := header.src.toString ++ "/" ++ header.dst.toString
  data := parentLayer.payload.slice (header.dataOffset * 4) parentLayer.payload.length
  flag := if header.flags.get "FIN" && header.flags.get "ACK" then .end else .noop

/-- The layer after the options. -/
def bodyLayer (parentLayer : ParentLayer) (header : Header) (items : List String)
    (fields : List Field) (l : ScriptLayer) : ScriptLayer :=
  let data := parentLayer.payload.slice (header.dataOffset * 4) parentLayer.payload.length
  { l with
    fields := l.fields ++ [optionsField parentLayer.payload (header.dataOffset * 4) items fields] ++
      [payloadField data]
    payload := some data
    streams := l.streams ++ [streamOf parentLayer header]
    summary := some (header.src.toString ++ " -> " ++ header.dst.toString ++ " seq:" ++
      toString header.seq ++ " ack:" ++ toString header.ack) }

lemma returns_readBody (hlen : header.dataOffset * 4 ≤ parentLayer.payload.length)
    (h : readOptions parentLayer.payload (parentLayer.payload.slice 0 (header.dataOffset * 4))
      (parentLayer.payload.length + 1) 20 [] [] = some (.ok (items, fields))) (a : Analysis) :
    Returns (readBody parentLayer header) a ⟨⟩
      { a with layer := bodyLayer parentLayer header items fields a.layer } := by
  refine (returns_assertLength hlen a).bind ?_
  rw [h]
  refine (returns_ofExcept rfl a).bind ?_
  rfl

lemma outcome_readBody_error (hlen : header.dataOffset * 4 ≤ parentLayer.payload.length)
    {e : ReadError}
    (h : readOptions parentLayer.payload (parentLayer.payload.slice 0 (header.dataOffset * 4))
      (parentLayer.payload.length + 1) 20 [] [] = some (.error e)) (a : Analysis) :
    outcome (readBody parentLayer header) a = (.error e, a) := by
  refine ((returns_assertLength hlen a).outcome_bind _).trans ?_
  rw [h]
  rfl

variable {x y : NetAddress} {t : Analysis}

lemma exists_header (h : HasAddresses parentLayer x y) (hlen : 20 ≤ parentLayer.payload.length) :
    ∃ header t, header.dataOffset = parentLayer.payload.byte 12 >>> 4 ∧ Grows (start parentLayer) t ∧
      Returns (readHeader parentLayer) (start parentLayer) header t := by
  obtain ⟨t, hgrows, hret⟩ := gives_readHeader h hlen (start parentLayer)
  exact ⟨_, t, rfl, hgrows, hret⟩

/-- The layer of a segment whose options have been parsed. -/
lemma layer_analyze (hret : Returns (readHeader parentLayer) (start parentLayer) header t)
    (hlen : header.dataOffset * 4 ≤ parentLayer.payload.length)
    (h : readOptions parentLayer.payload (parentLayer.payload.slice 0 (header.dataOffset * 4))
      (parentLayer.payload.length + 1) 20 [] [] = some (.ok (items, fields))) :
    (analyze parentLayer).layer = bodyLayer parentLayer header items fields t.layer :=
  layer_run (hret.bind (returns_readBody hlen h t))

/-- The layer of a segment with options that have been refused. -/
lemma error_analyze (hret : Returns (readHeader parentLayer) (start parentLayer) header t)
    (hlen : header.dataOffset * 4 ≤ parentLayer.payload.length) {e : ReadError}
    (h : readOptions parentLayer.payload (parentLayer.payload.slice 0 (header.dataOffset * 4))
      (parentLayer.payload.length + 1) 20 [] [] = some (.error e)) :
    (analyze parentLayer).layer.error = some e := by
  have hbody := (hret.outcome_bind fun header => readBody parentLayer header).trans
    (outcome_readBody_error hlen h t)
  exact congrArg ScriptLayer.error (layer_run_of_error hbody)

/-- A payload without a whole header. -/
lemma short_analyze (h : parentLayer.payload.length < 20) :
    (analyze parentLayer).layer.error ≠ none ∧ (analyze parentLayer).layer.streams = [] := by
  have hgrows := onlyGrows_readHeader parentLayer (start parentLayer)
  rcases hout : outcome (readHeader parentLayer) (start parentLayer) with ⟨e | header, t⟩
  · rw [hout] at hgrows
    have hlayer : (analyze parentLayer).layer = { t.layer with error := some e } :=
      layer_run_of_error (outcome_bind_error hout fun header => readBody parentLayer header)
    rw [hlayer]
    exact ⟨Option.some_ne_none e, hgrows.streams⟩
  · exact absurd (le_of_returns_readHeader hout) (Nat.not_le_of_lt h)

end Layer

/-! ### What the segment says -/

/-- The area of the options is the encoding of `options`, with an ending. -/
structure SegmentOf (payload : Payload) (options : List TCPOption) : Prop where
  five_le : 5 ≤ payload.byte 12 >>> 4
  fits : (payload.byte 12 >>> 4) * 4 ≤ payload.length
  area : ∃ ending, IsEnding ending ∧
    (payload.slice 20 ((payload.byte 12 >>> 4) * 4)).bytes = options.flatMap encode ++ ending

/-- The layer has the options of the segment, and its payload. -/
structure ParsesBack (l : ScriptLayer) (segment : Payload) (options : List TCPOption) : Prop where
  error : l.error = none
  payload : l.payload = some (segment.slice ((segment.byte 12 >>> 4) * 4) segment.length)
  fields : ∃ fs f g, l.fields = fs ++ [f, g] ∧ f.name = "Options" ∧
    f.fields = TCPOption.fields segment 20 options

variable {parentLayer : ParentLayer} {x y : NetAddress} {options : List TCPOption}

/-- What is left of the statement when the options have been parsed. -/
lemma parsesBack_bodyLayer {header : Header} {items : List String} {fields : List Field}
    {l : ScriptLayer} (herror : l.error = none)
    (hoffset : header.dataOffset = parentLayer.payload.byte 12 >>> 4) :
    ParsesBack (bodyLayer parentLayer header items fields l) parentLayer.payload options ↔
      fields = TCPOption.fields parentLayer.payload 20 options := by
  have hfields : (bodyLayer parentLayer header items fields l).fields = l.fields ++
      [optionsField parentLayer.payload (header.dataOffset * 4) items fields,
        payloadField (parentLayer.payload.slice (header.dataOffset * 4) parentLayer.payload.length)] :=
    List.append_assoc _ _ _
  constructor
  · rintro ⟨-, -, fs, f, g, hfg, -, hf⟩
    have hlast := List.append_inj_right' (hfields.symm.trans hfg) rfl
    obtain ⟨rfl, -⟩ := List.cons.inj hlast
    exact hf
  · intro h
    exact {
      error := herror
      payload := by rw [← hoffset]; rfl
      fields := ⟨l.fields, _, _, hfields, rfl, h⟩ }

lemma parsesBack_iff (haddr : HasAddresses parentLayer x y)
    (hsegment : SegmentOf parentLayer.payload options) :
    ParsesBack (analyze parentLayer).layer parentLayer.payload options ↔
      (∀ o ∈ options, ¬ o.IsSack) ∧ ∀ o ∈ options, o.asRead = o := by
  obtain ⟨hfive, hfits, ending, hending, harea⟩ := hsegment
  have hlen : 20 ≤ parentLayer.payload.length := by omega
  obtain ⟨header, t, hoffset, hgrows, hret⟩ := exists_header haddr hlen
  rw [← hoffset] at hfive hfits harea
  have hhas := Buffer.hasAt_slice (by omega) hfits harea
  have hend : 20 + (options.flatMap encode ++ ending).length = header.dataOffset * 4 := by
    rw [← harea, Buffer.length_bytes, Payload.length_slice _ (by omega) hfits]
    omega
  have hrounds : header.dataOffset * 4 - 20 < parentLayer.payload.length + 1 := by omega
  by_cases hsack : ∀ o ∈ options, ¬ o.IsSack
  · have hoptions : readOptions parentLayer.payload _ _ 20 [] [] = _ :=
      readOptions_options hfits hending hsack hhas hend hrounds
    rw [layer_analyze hret hfits hoptions, parsesBack_bodyLayer hgrows.error hoffset,
      List.nil_append, fields_asRead_iff]
    exact (and_iff_right hsack).symm
  · have hsome : ∃ o ∈ options, o.IsSack := by
      by_contra hnone
      exact hsack fun o ho his => hnone ⟨o, ho, his⟩
    obtain ⟨e, he⟩ : ∃ e, readOptions parentLayer.payload _ _ 20 [] [] = some (.error e) :=
      readOptions_sack hfits hsome hhas hrounds
    have herror := error_analyze hret hfits he
    refine iff_of_false ?_ fun h => hsack h.1
    rintro ⟨hnone, -, -⟩
    rw [herror] at hnone
    cases hnone

/-- A segment with a data offset below 5 is refused exactly if it is shorter than a header. -/
lemma refused_iff (haddr : HasAddresses parentLayer x y)
    (hsmall : parentLayer.payload.byte 12 >>> 4 < 5) :
    ((analyze parentLayer).layer.error ≠ none ∧ (analyze parentLayer).layer.streams = []) ↔
      parentLayer.payload.length < 20 := by
  refine ⟨?_, short_analyze⟩
  rintro ⟨-, hstreams⟩
  by_contra hlen
  obtain ⟨header, t, hoffset, hgrows, hret⟩ := exists_header haddr (Nat.le_of_not_lt hlen)
  rw [← hoffset] at hsmall
  have hfits : header.dataOffset * 4 ≤ parentLayer.payload.length := by omega
  have hshort : (parentLayer.payload.slice 0 (header.dataOffset * 4)).length ≤ 20 := by
    rw [Payload.length_slice _ (Nat.zero_le _) hfits]
    omega
  have hoptions : readOptions parentLayer.payload
      (parentLayer.payload.slice 0 (header.dataOffset * 4)) (parentLayer.payload.length + 1) 20 [] [] =
        some (.ok ([], [])) := by
    rw [readOptions, if_neg (Nat.not_lt.mpr hshort)]
  rw [layer_analyze hret hfits hoptions] at hstreams
  have hlast : streamOf parentLayer header ∈ t.layer.streams ++ [streamOf parentLayer header] :=
    List.mem_append_right _ (List.mem_singleton.mpr rfl)
  rw [show t.layer.streams ++ [streamOf parentLayer header] = [] from hstreams] at hlast
  cases hlast

/-- The dissector keeps exactly the options without a selective acknowledgment and with an echo that
is the timestamp itself; a small data offset is refused only in a payload that is too short anyway;
and the loop over the options always ends. -/
theorem options_iff (haddr : HasAddresses parentLayer x y) :
    (∀ options, SegmentOf parentLayer.payload options →
      (ParsesBack (analyze parentLayer).layer parentLayer.payload options ↔
        (∀ blocks, .sack blocks ∉ options) ∧
          ∀ value echo, .timestamps value echo ∈ options → value = echo)) ∧
    (parentLayer.payload.byte 12 >>> 4 < 5 →
      (((analyze parentLayer).layer.error ≠ none ∧ (analyze parentLayer).layer.streams = []) ↔
        parentLayer.payload.length < 20)) ∧
    ∀ n, readOptions parentLayer.payload (parentLayer.payload.slice 0 n)
      (parentLayer.payload.length + 1) 20 [] [] ≠ none := by
  refine ⟨fun options hsegment => ?_, refused_iff haddr, fun n => ?_⟩
  · rw [parsesBack_iff haddr hsegment]
    refine and_congr ?_ ?_
    · constructor
      · intro h blocks hmem
        exact h _ hmem ⟨blocks, rfl⟩
      · rintro h o ho ⟨blocks, rfl⟩
        exact h blocks ho
    · constructor
      · intro h value echo hmem
        exact (asRead_eq_iff _).mp (h _ hmem) value echo rfl
      · intro h o ho
        rw [asRead_eq_iff]
        rintro value echo rfl
        exact h value echo ho
  · apply readOptions_ends
    have hle := parentLayer.payload.length_slice_le (e := n) (Nat.zero_le _)
    omega

/-- A layer of IPv4 between 192.168.0.1 and 192.168.0.2. -/
def sampleParent (payload : Payload) : ParentLayer where
  ns := "::Ethernet::IPv4::<TCP>"
  payload := payload
  fields := []
  attrs key :=
    if key = "src" then some (.instance (.ipv4Address ⟨[192, 168, 0, 1], rfl⟩))
    else if key = "dst" then some (.instance (.ipv4Address ⟨[192, 168, 0, 2], rfl⟩))
    else none
  layers := fun _ => none

lemma hasAddresses_sample (payload : Payload) : HasAddresses (sampleParent payload)
    (.ipv4 ⟨[192, 168, 0, 1], rfl⟩) (.ipv4 ⟨[192, 168, 0, 2], rfl⟩) := ⟨rfl, rfl⟩

/-- A segment with the first timestamp 1 and the second 2. -/
def timestampsSegment : Payload := Hex.ofVec
  [0, 80, 0, 81, 0, 0, 0, 1, 0, 0, 0, 2, 0x80, 0x10, 0, 0, 0, 0, 0, 0,
   1, 1, 8, 10, 0, 0, 0, 1, 0, 0, 0, 2, 0x61] (by decide)

/-- A segment that acknowledges the bytes from 1 to 2. -/
def sackSegment : Payload := Hex.ofVec
  [0, 80, 0, 81, 0, 0, 0, 1, 0, 0, 0, 2, 0x80, 0x10, 0, 0, 0, 0, 0, 0,
   1, 1, 5, 10, 0, 0, 0, 1, 0, 0, 0, 2, 0x61] (by decide)

/-- A header with the data offset 4. -/
def smallSegment : Payload := Hex.ofVec
  [0, 80, 0, 81, 0, 0, 0, 1, 0, 0, 0, 2, 0x40, 0x10, 0, 0, 0, 0, 0, 0] (by decide)

lemma segmentOf_sample {payload : Payload} {options : List TCPOption}
    (hfive : 5 ≤ payload.byte 12 >>> 4) (hfits : (payload.byte 12 >>> 4) * 4 ≤ payload.length)
    (h : (payload.slice 20 ((payload.byte 12 >>> 4) * 4)).bytes = options.flatMap encode) :
    SegmentOf payload options :=
  ⟨hfive, hfits, [], .inl rfl, by rw [h, List.append_nil]⟩

lemma segmentOf_timestamps : SegmentOf timestampsSegment [.nop, .nop, .timestamps 1 2] :=
  segmentOf_sample (by decide) (by decide) (by decide)

theorem options_iff_sample :
    (ParsesBack (analyze (sampleParent timestampsSegment)).layer timestampsSegment
        [.nop, .nop, .timestamps 1 2] ↔
      (∀ blocks, .sack blocks ∉ [TCPOption.nop, .nop, .timestamps 1 2]) ∧
        ∀ value echo, .timestamps value echo ∈ [TCPOption.nop, .nop, .timestamps 1 2] →
          value = echo) ∧
    (((analyze (sampleParent smallSegment)).layer.error ≠ none ∧
        (analyze (sampleParent smallSegment)).layer.streams = []) ↔ smallSegment.length < 20) ∧
    ∀ n, readOptions smallSegment (smallSegment.slice 0 n) (smallSegment.length + 1) 20 [] [] ≠ none :=
  ⟨(options_iff (hasAddresses_sample timestampsSegment)).1 _ segmentOf_timestamps,
    (options_iff (hasAddresses_sample smallSegment)).2.1 (by decide),
    (options_iff (hasAddresses_sample smallSegment)).2.2⟩

/-- The second timestamp and the selective acknowledgment are lost, and a data offset of 4 makes a
stream. -/
theorem options_lost :
    (SegmentOf timestampsSegment [.nop, .nop, .timestamps 1 2] ∧
      ¬ ParsesBack (analyze (sampleParent timestampsSegment)).layer timestampsSegment
        [.nop, .nop, .timestamps 1 2]) ∧
    (SegmentOf sackSegment [.nop, .nop, .sack [(1, 2)]] ∧
      (analyze (sampleParent sackSegment)).layer.error = some (.thrown "invalid option")) ∧
    (smallSegment.byte 12 >>> 4 = 4 ∧ (analyze (sampleParent smallSegment)).layer.error = none ∧
      (analyze (sampleParent smallSegment)).layer.streams ≠ []) := by
  have hsack : SegmentOf sackSegment [.nop, .nop, .sack [(1, 2)]] :=
    segmentOf_sample (by decide) (by decide) (by decide)
  refine ⟨⟨segmentOf_timestamps, ?_⟩, ⟨hsack, rfl⟩, by decide, rfl, ?_⟩
  · intro hback
    obtain ⟨-, h⟩ :=
      (parsesBack_iff (hasAddresses_sample timestampsSegment) segmentOf_timestamps).mp hback
    exact absurd (h (.timestamps 1 2) (by decide)) (by decide)
  · exact List.cons_ne_nil _ _

end TCPDissector

end Dripcap
