import Dripcap.Dissector.HighlightTcp

/-!
# What the packet view shows is highlighted

The judgement of the dissectors of ARP, UDP, IPv6, TCP and DNS, and from it what two runs show at
fields of one name and one range.
-/

namespace Dripcap

open Outcome Dissect

variable {parent : ParentLayer} {sets : List (String × Attr)} {payload : Payload}

/-! ### ARP -/

namespace ARPDissector

lemma says_readTypes : Says parent [] (readTypes parent.payload) fun _ sets =>
    sets.map Prod.fst = ["operation", "plen", "hlen", "ptype", "htype"] := by
  unfold readTypes
  refine .assertLength fun h2 => ?_
  refine .after (returns_readUInt16BE h2) ?_
  refine .pushAttr (by simp) (fun _ => rfl) rfl rfl rfl ?_
  refine .assertLength fun h4 => ?_
  refine .after (returns_readUInt16BE h4) ?_
  refine .pushAttr (by simp) (fun _ => rfl) rfl rfl rfl ?_
  refine .assertLength fun h5 => ?_
  refine .after (returns_readUInt8 h5) ?_
  refine .pushAttr (by simp) (fun _ => rfl) rfl rfl ?_ ?_
  · exact number_congr (value_slice_one h5)
  refine .assertLength fun h6 => ?_
  refine .after (returns_readUInt8 h6) ?_
  refine .pushAttr (by simp) (fun _ => rfl) rfl rfl ?_ ?_
  · exact number_congr (value_slice_one h6)
  refine .assertLength fun h8 => ?_
  refine .after (returns_readUInt16BE h8) ?_
  refine .pushAttr (by simp) (fun _ => rfl) rfl rfl rfl ?_
  exact says_pure rfl

lemma says_readSender
    (hsets : sets.map Prod.fst = ["operation", "plen", "hlen", "ptype", "htype"]) :
    Says parent sets (readSender parent.payload) fun sender sets' =>
      sets'.map Prod.fst = ["spa", "sha", "operation", "plen", "hlen", "ptype", "htype"] ∧
      sets'.lookup "spa" = some (.instance (.ipv4Address sender.2)) ∧
      IPv4Address.new (parent.payload.slice 14 18).bytes = .ok sender.2 := by
  unfold readSender
  refine .assertLength fun _ => ?_
  refine .construct fun sha hsha => ?_
  refine .pushAttr (by simp [hsets]) (fun _ => rfl) rfl rfl (macAttr_of_new hsha) ?_
  refine .assertLength fun _ => ?_
  refine .construct fun spa hspa => ?_
  refine .pushAttr (by simp [hsets]) (fun _ => rfl) rfl rfl (ipv4Attr_of_new hspa) ?_
  exact says_pure ⟨by simp [hsets], rfl, hspa⟩

/-- The address of the target is shown as that of the sender. -/
lemma says_readTarget {spa : IPv4Address}
    (hsets : sets.map Prod.fst = ["spa", "sha", "operation", "plen", "hlen", "ptype", "htype"])
    (hlookup : sets.lookup "spa" = some (.instance (.ipv4Address spa)))
    (hspa : IPv4Address.new (parent.payload.slice 14 18).bytes = .ok spa) :
    Says parent sets (readTarget parent.payload) fun _ _ => True := by
  unfold readTarget
  refine .assertLength fun _ => ?_
  refine .construct fun tha htha => ?_
  refine .pushAttr (by simp [hsets]) (fun _ => rfl) rfl rfl (macAttr_of_new htha) ?_
  refine .assertLength fun h28 => ?_
  refine .construct fun tpa _ => ?_
  refine .push (.intro ⟨⟨rfl, ?_, ?_⟩, ?_⟩ nofun) ?_
  · have hbefore : bytesBefore 10 (parent.payload.slice 24 28) =
        (parent.payload.slice 14 18).bytes := bytesBefore_slice (k := 14) (by omega) (by omega)
    have hshown : dataValue "Target protocol address" (parent.payload.slice 24 28) = _ :=
      ipv4Attr_of_new (hbefore ▸ hspa)
    exact hlookup.trans hshown.symm
  · show 10 ≤ (parent.payload.slice 24 28).start
    rw [parent.payload.start_slice (by omega)]
    omega
  · intro _
    simp [keyOf, hsets]
  refine .setAttr (by simp [hsets]) ?_
  exact says_pure trivial

/-- The padding of the parent is shown, too. -/
lemma ends_takePadding (summary : String) :
    Ends parent sets (takePadding parent.payload >>= fun _ => setSummary summary) := by
  refine triple_of_returns fun a ha => ⟨⟨⟩, _, ((returns_modify (u := ⟨⟩)).mpr rfl).bind
    (returns_modifyLayer _ _), ha.allDetermined.layer, ?_⟩
  intro f hf
  have hmem : f ∈ (a.parentLayer.fields ++ [_]).drop parent.fields.length := hf
  rw [ha.parentLayer, List.drop_left, List.mem_singleton] at hmem
  subst hmem
  refine .intro ⟨rfl, ?_, Nat.zero_le _⟩ nofun
  show Function.update a.parentLayer.attrs "padding" _ "padding" = _
  rw [Function.update_self]
  rfl

lemma ends_body (parent : ParentLayer) : Ends parent [] (body parent.payload) := by
  unfold body
  refine says_readTypes.bind_ends fun operation sets hsets => ?_
  refine (says_readSender hsets).bind_ends fun sender sets' ⟨hsets', hlookup, hspa⟩ => ?_
  refine (says_readTarget hsets' hlookup hspa).bind_ends fun target sets'' _ => ?_
  exact ends_takePadding _

end ARPDissector

/-! ### UDP -/

namespace UDPDissector

lemma says_readLength (hsets : sets.map Prod.fst = ["dst", "src"]) :
    Says parent sets (readLength parent.payload) fun _ _ => True := by
  unfold readLength
  refine .assertLength fun h6 => ?_
  refine .after (returns_readUInt16BE h6) ?_
  refine .pushAttr (by simp [hsets]) (fun _ => rfl) rfl rfl rfl ?_
  refine .assertLength fun h8 => ?_
  refine .after (returns_readUInt16BE h8) ?_
  refine .pushAttr (by simp [hsets]) (fun _ => rfl) rfl rfl rfl ?_
  exact says_pure trivial

lemma ends_body (parentLayer : ParentLayer) : Ends parentLayer [] (body parentLayer) := by
  unfold body
  refine (says_ports parentLayer).bind_ends fun hosts sets hsets => ?_
  refine (says_readLength hsets).bind_ends fun length sets' _ => ?_
  refine Says.ends (R := fun _ _ => True) (.assertLength fun _ => ?_)
  refine .pushPayload rfl ?_
  exact .last (.other (fun _ => ⟨rfl, rfl⟩) (says_pure trivial))

end UDPDissector

/-! ### DNS -/

namespace DNSDissector

lemma says_refuse (p : Prop) [Decidable p] (text : String) :
    Says parent sets (refuse p text) fun _ sets' => sets' = sets := by
  unfold refuse
  split_ifs
  · exact says_throw _
  · exact says_pure rfl

/-- What is read of a header. -/
structure IsHeader (payload : Payload) (header : Header) : Prop where
  length_le : 12 ≤ payload.length
  id : header.id = BigEndian.value (payload.slice 0 2).bytes
  flags0 : header.flags0 = payload.byte 2
  flags1 : header.flags1 = payload.byte 3
  opcode : header.opcode = .ofClass .dnsOperation ((payload.byte 2 >>> 3) &&& 0b00001111 : ℕ)
  rcode : header.rcode = .ofClass .dnsRecord (payload.byte 3 &&& 0b00001111 : ℕ)
  qdCount : header.qdCount = BigEndian.value (payload.slice 4 6).bytes
  anCount : header.anCount = BigEndian.value (payload.slice 6 8).bytes
  nsCount : header.nsCount = BigEndian.value (payload.slice 8 10).bytes
  arCount : header.arCount = BigEndian.value (payload.slice 10 12).bytes

lemma says_readHeader : Says parent [] (readHeader parent.payload) fun header sets =>
    IsHeader parent.payload header ∧ sets = [] := by
  unfold readHeader
  refine .assertLength fun h12 => ?_
  refine .after (returns_readUInt16BE (by omega)) ?_
  refine .after (returns_readUInt8 (by omega)) ?_
  refine .after (returns_readUInt8 (by omega)) ?_
  refine (says_refuse _ _).bind fun _ sets hsets => ?_
  subst hsets
  refine (says_refuse _ _).bind fun _ sets hsets => ?_
  subst hsets
  refine (says_refuse _ _).bind fun _ sets hsets => ?_
  subst hsets
  refine .after (returns_readUInt16BE (by omega)) ?_
  refine .after (returns_readUInt16BE (by omega)) ?_
  refine .after (returns_readUInt16BE (by omega)) ?_
  refine .after (returns_readUInt16BE (by omega)) ?_
  exact says_pure ⟨⟨h12, rfl, rfl, rfl, rfl, rfl, rfl, rfl, rfl, rfl⟩, rfl⟩

variable {header : Header}

lemma says_pushFlags (h : IsHeader parent.payload header) (hsets : sets.map Prod.fst = ["id"]) :
    Says parent sets (pushFlags parent.payload header) fun _ sets' =>
      sets'.map Prod.fst = ["rcode", "ra", "rd", "tc", "aa", "opcode", "qr", "id"] := by
  have hlen := h.length_le
  have h2 : byteAt (parent.payload.slice 2 3).bytes 0 = header.flags0 :=
    (byteAt_slice (by omega) (by omega)).trans h.flags0.symm
  have h3 : byteAt (parent.payload.slice 3 4).bytes 0 = header.flags1 :=
    (byteAt_slice (by omega) (by omega)).trans h.flags1.symm
  have hopcode : enumAttr .dnsOperation
      ((byteAt (parent.payload.slice 2 3).bytes 0 >>> 3) &&& 0b00001111) = .instance (.enum header.opcode) := by
    rw [h.opcode, h2, h.flags0]
    rfl
  have hrcode : enumAttr .dnsRecord (byteAt (parent.payload.slice 3 4).bytes 0 &&& 0b00001111) =
      .instance (.enum header.rcode) := by
    rw [h.rcode, h3, h.flags1]
    rfl
  unfold pushFlags
  refine .pushAttr (by simp [hsets]) (fun _ => rfl) rfl rfl
    (congrArg (fun n => some (Attr.boolean (n >>> 7 ≠ 0))) h2) ?_
  refine .pushAttr (by simp [hsets]) (fun _ => rfl) rfl rfl (congrArg some hopcode) ?_
  refine .pushAttr (by simp [hsets]) (fun _ => rfl) rfl rfl
    (congrArg (fun n => some (Attr.boolean ((n >>> 2) &&& 1 ≠ 0))) h2) ?_
  refine .pushAttr (by simp [hsets]) (fun _ => rfl) rfl rfl
    (congrArg (fun n => some (Attr.boolean ((n >>> 1) &&& 1 ≠ 0))) h2) ?_
  refine .pushAttr (by simp [hsets]) (fun _ => rfl) rfl rfl
    (congrArg (fun n => some (Attr.boolean ((n >>> 0) &&& 1 ≠ 0))) h2) ?_
  refine .pushAttr (by simp [hsets]) (fun _ => rfl) rfl rfl
    (congrArg (fun n => some (Attr.boolean (n >>> 7 ≠ 0))) h3) ?_
  refine .last (.pushAttr (by simp [hsets]) (fun _ => rfl) rfl rfl (congrArg some hrcode) ?_)
  exact says_pure (by simp [hsets])

lemma says_pushCounts (h : IsHeader parent.payload header)
    (hsets : sets.map Prod.fst = ["rcode", "ra", "rd", "tc", "aa", "opcode", "qr", "id"]) :
    Says parent sets (pushCounts parent.payload header) fun _ _ => True := by
  unfold pushCounts
  refine .pushAttr (by simp [hsets]) (fun _ => rfl) rfl rfl (number_congr h.qdCount.symm) ?_
  refine .pushAttr (by simp [hsets]) (fun _ => rfl) rfl rfl (number_congr h.anCount.symm) ?_
  refine .pushAttr (by simp [hsets]) (fun _ => rfl) rfl rfl (number_congr h.nsCount.symm) ?_
  refine .last (.pushAttr (by simp [hsets]) (fun _ => rfl) rfl rfl (number_congr h.arCount.symm) ?_)
  exact says_pure trivial

lemma ends_attach : Ends parent sets attach :=
  triple_of_returns fun _ ha => ⟨⟨⟩, _, (returns_modify (u := ⟨⟩)).mpr rfl,
    ha.allDetermined.layer, ha.allDetermined.parentLayer⟩

lemma ends_body (parent : ParentLayer) : Ends parent [] (body parent.payload) := by
  unfold body
  refine says_readHeader.bind_ends fun header sets ⟨h, hsets⟩ => ?_
  subst hsets
  have hid : dataValue "ID" (parent.payload.slice 0 2) = some (.number header.id) :=
    number_congr h.id.symm
  have hpush : Says parent []
      (pushAttr "ID" "id" (parent.payload.slice 0 2) (pure (.number header.id))) fun _ sets => sets.map Prod.fst = ["id"] :=
    .last (.pushAttr (by simp) (fun _ => rfl) rfl rfl hid (says_pure rfl))
  refine hpush.bind_ends fun _ sets hsets => ?_
  refine (says_pushFlags h hsets).bind_ends fun _ sets hsets => ?_
  refine (says_pushCounts h hsets).bind_ends fun _ sets _ => ?_
  have hpayload : Says parent sets (pushPayload (parent.payload.slice 12 parent.payload.length))
      fun _ _ => True := .last (.pushPayload rfl (says_pure trivial))
  refine hpayload.bind_ends fun _ sets _ => ?_
  have hsummary : ∀ summary, Says parent sets (setSummary summary) fun _ _ => True :=
    fun _ => .last (.other (fun _ => ⟨rfl, rfl⟩) (says_pure trivial))
  exact (hsummary _).bind_ends fun _ _ _ => ends_attach

end DNSDissector

/-! ### IPv6 -/

namespace IPv6Dissector

lemma says_readLengths : Says parent [] (readLengths parent.payload) fun _ sets =>
    sets.map Prod.fst = ["payloadLength", "flowLevel", "trafficClass", "version"] := by
  unfold readLengths
  refine .assertLength fun h1 => ?_
  refine .pushAttr (by simp) (returns_map (returns_readUInt8 h1) _) rfl rfl ?_ ?_
  · exact congrArg (fun n => some (Attr.number (n >>> 4))) (byteAt_slice h1 (by omega))
  refine .assertLength fun h2 => ?_
  refine .pushAttr (by simp) (fun a => (returns_readUInt8 h1 a).bind
    ((returns_readUInt8 h2 a).bind rfl)) rfl rfl ?_ ?_
  · have hhigh : byteAt (parent.payload.slice 0 2).bytes 0 = parent.payload.byte 0 :=
      byteAt_slice h2 (by omega)
    have hlow : byteAt (parent.payload.slice 0 2).bytes 1 = parent.payload.byte 1 :=
      byteAt_slice h2 (by omega)
    show some (Attr.number (((byteAt (parent.payload.slice 0 2).bytes 0 &&& _) <<< 4) |||
      ((byteAt (parent.payload.slice 0 2).bytes 1 &&& _) >>> 4))) = _
    rw [hhigh, hlow]
  refine .assertLength fun h4 => ?_
  refine .after (returns_readUInt16BE h4) ?_
  refine .after (returns_readUInt8 h2) ?_
  refine .pushAttr (by simp) (fun _ => rfl) rfl rfl ?_ ?_
  · have hhigh : byteAt (parent.payload.slice 1 4).bytes 0 = parent.payload.byte 1 :=
      byteAt_slice h4 (by omega)
    have hlow : part (parent.payload.slice 1 4).bytes 1 2 = (parent.payload.slice 2 4).bytes :=
      part_slice h4 (by omega)
    show some (Attr.number (BigEndian.value (part (parent.payload.slice 1 4).bytes 1 2) |||
      ((byteAt (parent.payload.slice 1 4).bytes 0 &&& _) <<< 16))) = _
    rw [hhigh, hlow]
  refine .assertLength fun h6 => ?_
  refine .after (returns_readUInt16BE h6) ?_
  refine .pushAttr (by simp) (fun _ => rfl) rfl rfl rfl ?_
  exact says_pure rfl

lemma says_readAddresses (hsets : sets.map Prod.fst =
      ["hopLimit", "payloadLength", "flowLevel", "trafficClass", "version"]) :
    Says parent sets (readAddresses parent.payload) fun _ sets' => sets'.map Prod.fst =
      ["dst", "src", "hopLimit", "payloadLength", "flowLevel", "trafficClass", "version"] := by
  unfold readAddresses
  refine .assertLength fun _ => ?_
  refine .construct fun source hsource => ?_
  refine .pushAttr (by simp [hsets]) (fun _ => rfl) rfl rfl (ipv6Attr_of_new hsource) ?_
  refine .assertLength fun _ => ?_
  refine .construct fun destination hdestination => ?_
  refine .pushAttr (by simp [hsets]) (fun _ => rfl) rfl rfl (ipv6Attr_of_new hdestination) ?_
  exact says_pure (by simp [hsets])

lemma says_readHeader : Says parent [] (readHeader parent.payload) fun header sets =>
    sets.map Prod.fst =
      ["dst", "src", "hopLimit", "payloadLength", "flowLevel", "trafficClass", "version"] ∧
    header.nextHeader = BigEndian.value (parent.payload.slice 6 7).bytes := by
  unfold readHeader
  refine says_readLengths.bind fun length sets hsets => ?_
  refine .assertLength fun h7 => ?_
  refine .after (returns_readUInt8 h7) ?_
  refine .push (all_of_value rfl rfl ?_) ?_
  · exact congrArg (fun n => some (protocolEnum n)) (value_slice_one h7)
  refine .assertLength fun h8 => ?_
  refine .pushAttr (by simp [hsets]) (returns_map (returns_readUInt8 h8) _) rfl rfl ?_ ?_
  · exact number_congr (value_slice_one h8)
  refine (says_readAddresses (by simp [hsets])).bind fun addresses sets' hsets' => ?_
  exact says_pure ⟨hsets', (value_slice_one h7).symm⟩

/-- A field that gets a field below it. -/
lemma says_unshiftField {g : Field} (hg : g.All (Settled parent.payload.vec sets)) :
    Says parent sets (unshiftField g) fun _ sets' => sets' = sets := by
  intro a ha
  rcases List.eq_nil_or_concat' a.layer.fields with hnil | ⟨fields, f, hconcat⟩
  · have hthrow : outcome (unshiftField g) a =
        (.error (.thrown "Cannot read property 'fields' of undefined"), a) := by
      have hget : Returns (get : Dissect Analysis) a a a := rfl
      rw [unshiftField, hget.outcome_bind, hnil]
      rfl
    rw [hthrow]
    exact ⟨nofun, fun _ _ h => (Prod.mk.inj h).2 ▸ ha.allDetermined⟩
  · rw [returns_unshiftField hconcat]
    refine ⟨?_, nofun⟩
    rintro u t ⟨⟩
    refine ⟨sets, rfl, ha.attrs, fun f' hf' => ?_, ha.parentLayer⟩
    rcases List.mem_append.mp hf' with hf' | hf'
    · exact ha.fields f' (hconcat ▸ List.mem_append_left _ hf')
    · rw [List.mem_singleton.mp hf']
      obtain ⟨here, below⟩ := ha.fields f (hconcat ▸ List.mem_append_right _ List.mem_cons_self)
      obtain ⟨⟨hvec, hshown, hreach⟩, hkey⟩ := here
      refine .intro ⟨⟨hvec, hshown, hreach⟩, hkey⟩ ?_
      exact List.forall_mem_cons.mpr ⟨hg, below⟩

/-- The next header is the byte of its range. -/
structure Reads (payload : Payload) (position : Position) : Prop where
  vec_eq : position.nextHeaderData.vec = payload.vec
  nextHeader_eq : position.nextHeader = BigEndian.value position.nextHeaderData.bytes

/-- The field of an extension header shows nothing, and the fields below it show their bytes. -/
lemma all_extension (hsets : sets.lookup "undefined" = none) {offset : ℕ}
    (hlen : offset + 1 < payload.length) (nextHeader e : ℕ) (note : Option String) :
    Field.All (Settled payload.vec sets) {
      name := if nextHeader = 0 then "Hop-by-Hop Options" else "Destination Options"
      data := payload.slice offset e
      fields :=
        [{ name := "Hdr Ext Len", value := some (.number (payload.byte (offset + 1))),
           note := note, data := payload.slice (offset + 1) (offset + 2) },
         { name := "Options and Padding",
           value := some (.buffer (payload.slice (offset + 2) e).bytes),
           data := payload.slice (offset + 2) e }] } := by
  have hnone : ∀ name ∈ ["Hop-by-Hop Options", "Destination Options"],
      dataValue name (payload.slice offset e) = none ∧ reach name = 0 := by
    intro name hname
    rcases List.mem_pair.mp hname with rfl | rfl
    · exact ⟨rfl, rfl⟩
    · exact ⟨rfl, rfl⟩
  have hname : (if nextHeader = 0 then "Hop-by-Hop Options" else "Destination Options") ∈
      ["Hop-by-Hop Options", "Destination Options"] := by
    split_ifs
    · exact List.mem_cons_self
    · exact List.mem_cons_of_mem _ List.mem_cons_self
  obtain ⟨hshown, hreach⟩ := hnone _ hname
  refine .intro ⟨⟨rfl, hsets.trans hshown.symm, hreach.le.trans (Nat.zero_le _)⟩, ?_⟩ ?_
  · intro _
    exact List.mem_cons_self
  · rw [List.forall_mem_cons, List.forall_mem_singleton]
    exact ⟨all_of_value rfl rfl (number_congr (value_slice_one hlen)),
      all_of_value rfl rfl rfl⟩

/-- One round of the loop. -/
lemma says_readExtension (hsets : sets.lookup "undefined" = none) (nextHeader offset : ℕ) :
    Says parent sets (readExtension parent.payload nextHeader offset) fun position sets' =>
      sets' = sets ∧ Reads parent.payload position := by
  unfold readExtension
  refine .ofExcept (x := parent.payload.uint8 (offset + 1)) fun byte _ => ?_
  refine .assertLength fun hlen => ?_
  have hbyte : offset + 1 < parent.payload.length := by omega
  refine .after (returns_readUInt8 hbyte) ?_
  refine .push (all_extension hsets hbyte nextHeader _ _) ?_
  refine .after (returns_readUInt8 (by omega)) ?_
  have hvalue := value_slice_one (show offset < parent.payload.length by omega)
  have hfield : Field.All (Settled parent.payload.vec sets) {
      name := "Next Header"
      value := some (protocolEnum (parent.payload.byte offset))
      data := parent.payload.slice offset (offset + 1) } :=
    all_of_value rfl rfl (congrArg (fun n => some (protocolEnum n)) hvalue)
  refine (says_unshiftField hfield).bind fun _ sets' hsets' => ?_
  exact says_pure ⟨hsets', rfl, hvalue.symm⟩

/-- The rounds of the loop: the next header is always the byte of its range. -/
lemma says_readExtensions (hsets : sets.lookup "undefined" = none) (rounds : ℕ)
    (position : Position) (h : Reads parent.payload position) :
    Says parent sets (readExtensions parent.payload rounds position) fun result sets' =>
      sets' = sets ∧ ∀ p, result = some p → Reads parent.payload p := by
  induction rounds generalizing position with
  | zero => exact says_pure ⟨rfl, nofun⟩
  | succ rounds ih =>
    rw [readExtensions]
    split_ifs
    · refine (says_readExtension hsets _ _).bind fun next sets' hround => ?_
      obtain ⟨rfl, hnext⟩ := hround
      exact ih next hnext
    · exact says_pure ⟨rfl, fun p hp => Option.some.inj hp ▸ h⟩

lemma says_setProtocol (ns : String) (protocol : Enum) :
    Says parent sets (setProtocol ns protocol) fun _ sets' => sets' = sets := by
  unfold setProtocol
  split_ifs
  · exact .last (.other (fun _ => ⟨rfl, rfl⟩) (says_pure rfl))
  · exact says_pure rfl

lemma says_finish {position : Position} (h : Reads parent.payload position)
    (hkey : "protocol" ∉ "undefined" :: sets.map Prod.fst) (header : Header) :
    Says parent sets (finish parent.payload header position) fun _ _ => True := by
  unfold finish summarize
  refine (says_setProtocol _ _).bind fun _ sets' hsets' => ?_
  subst hsets'
  refine .pushAttr hkey (fun _ => rfl) h.vec_eq rfl ?_ ?_
  · exact congrArg (fun n => some (protocolEnum n)) h.nextHeader_eq.symm
  refine .pushPayload rfl ?_
  exact .last (.other (fun _ => ⟨rfl, rfl⟩) (says_pure trivial))

lemma says_assertPayload (length : ℕ) :
    Says parent sets (assertPayload parent.payload length) fun _ sets' => sets' = sets := by
  unfold assertPayload
  split_ifs
  · exact .last (.assertLength fun _ => says_pure rfl)
  · exact says_pure rfl

lemma ends_body (parent : ParentLayer) : Ends parent [] (body parent.payload) := by
  unfold body
  refine says_readHeader.bind_ends fun header sets ⟨hsets, hnext⟩ => ?_
  have hundefined : sets.lookup "undefined" = none := lookup_eq_none (by simp [hsets])
  unfold readBody
  refine (says_assertPayload _).bind_ends fun _ sets' hsets' => ?_
  subst hsets'
  have hloop := says_readExtensions hundefined (parent.payload.length + 1)
    ⟨header.nextHeader, parent.payload.slice 6 7, 40⟩ ⟨rfl, hnext⟩
  refine hloop.bind_ends fun result sets' ⟨hsets', h⟩ => ?_
  subst hsets'
  cases result with
  | none => exact (says_pure (R := fun _ _ => True) trivial).ends
  | some position => exact (says_finish (h position rfl) (by simp [hsets]) header).ends

end IPv6Dissector

/-! ### Two runs -/

/-- The bytes of the frame that a layer is in. -/
def frameBytes (p : ParentLayer) (i k : ℕ) : List UInt8 := (p.payload.vec.drop i).take k

section TwoRuns

variable {x y : Payload} {n : ℕ}

lemma length_bytesBefore (hn : 4 ≤ n) (h : n ≤ x.start) : (bytesBefore n x).length = 4 := by
  have hstart := x.start_le
  have hfin := x.fin_le
  rw [bytesBefore, List.length_take, List.length_drop]
  omega

lemma ipv4Attr_inj {data data' : List UInt8} (h : data.length = 4) (h' : data'.length = 4) :
    ipv4Attr data = ipv4Attr data' ↔ data = data' := by
  rw [ipv4Attr_of_new (dif_pos h), ipv4Attr_of_new (dif_pos h')]
  simp

/-- Two ranges in the same place with the same bytes are shown alike, but for the fields that show
bytes before them. -/
lemma dataValue_eq_iff {name : String} (hstart : x.start = y.start) (hbytes : x.bytes = y.bytes)
    (hreach : reach name ≤ x.start) : dataValue name x = dataValue name y ↔
      (name = "Target protocol address" → bytesBefore 10 x = bytesBefore 10 y) ∧
      (name = "Echo reply timestamp" → bytesBefore 4 x = bytesBefore 4 y) := by
  by_cases htarget : name = "Target protocol address"
  · subst htarget
    have h10 : 10 ≤ x.start := hreach
    have hlen := length_bytesBefore (by decide) h10
    have hlen' := length_bytesBefore (by decide) (hstart ▸ h10)
    have hinj : dataValue "Target protocol address" x = dataValue "Target protocol address" y ↔ _ :=
      ipv4Attr_inj hlen hlen'
    rw [hinj]
    exact ⟨fun h => ⟨fun _ => h, fun hname => absurd hname (by decide)⟩, fun h => h.1 rfl⟩
  by_cases hecho : name = "Echo reply timestamp"
  · subst hecho
    have h4 : 4 ≤ x.start := hreach
    have hlen := length_bytesBefore le_rfl h4
    have hlen' := length_bytesBefore le_rfl (hstart ▸ h4)
    have hinj : dataValue "Echo reply timestamp" x = dataValue "Echo reply timestamp" y ↔
        bytesBefore 4 x = bytesBefore 4 y := by
      show some (Attr.number _) = some (Attr.number _) ↔ _
      rw [Option.some.injEq, Attr.number.injEq]
      exact BigEndian.value_inj (hlen.trans hlen'.symm)
    rw [hinj]
    exact ⟨fun h => ⟨fun hname => absurd hname htarget, fun _ => h⟩, fun h => h.2 rfl⟩
  · rw [dataValue, dataValue, if_neg htarget, if_neg htarget, if_neg hecho, if_neg hecho, hbytes]
    exact ⟨fun _ => ⟨fun h => absurd h htarget, fun h => absurd h hecho⟩, fun _ => rfl⟩

end TwoRuns

/-- The dissectors whose fields are compared. -/
inductive Dissector where
  | arp | udp | ipv6 | tcp | dns

/-- The layer that has a field: the new one, or the one that `analyze` is called with. -/
inductive Owner where
  | layer | parentLayer

namespace Dissector

def analyze : Dissector → ParentLayer → Analysis
  | .arp => ARPDissector.analyze
  | .udp => UDPDissector.analyze
  | .ipv6 => IPv6Dissector.analyze
  | .tcp => TCPDissector.analyze
  | .dns => DNSDissector.analyze

/-- The fields that a run pushes. -/
def pushed (d : Dissector) (p : ParentLayer) : Owner → List Field
  | .layer => (d.analyze p).layer.fields
  | .parentLayer => (d.analyze p).parentLayer.fields.drop p.fields.length

/-- The attributes that they are shown with. -/
def attrs (d : Dissector) (p : ParentLayer) : Owner → String → Option Attr
  | .layer => (d.analyze p).layer.attrs
  | .parentLayer => (d.analyze p).parentLayer.attrs

lemma allDetermined (d : Dissector) (p : ParentLayer) : AllDetermined p (d.analyze p) := by
  cases d with
  | arp => exact (ARPDissector.ends_body p).run (sound_new rfl rfl)
  | udp => exact (UDPDissector.ends_body p).run (sound_new rfl rfl)
  | ipv6 => exact (IPv6Dissector.ends_body p).run (sound_new rfl rfl)
  | tcp => exact (TCPDissector.ends_body p).run (sound_new rfl rfl)
  | dns => exact (DNSDissector.ends_body p).catchError (sound_new rfl rfl)

lemma determined_of_fieldAt {d : Dissector} {p : ParentLayer} {owner : Owner} {position : List ℕ}
    {f : Field} (hf : fieldAt (d.pushed p owner) position = some f) :
    Determined p.payload.vec (d.attrs p owner) f := by
  obtain ⟨hlayer, hparent⟩ := d.allDetermined p
  cases owner with
  | layer => exact Field.All.of_fieldAt hlayer hf
  | parentLayer => exact Field.All.of_fieldAt hparent hf

/-- What two runs show at fields of one position, name and range whose bytes are the same. -/
theorem shown_iff (d : Dissector) (owner : Owner) {p q : ParentLayer} {position : List ℕ}
    {f g : Field} (hf : fieldAt (d.pushed p owner) position = some f)
    (hg : fieldAt (d.pushed q owner) position = some g) (hname : f.name = g.name)
    (hstart : f.data.start = g.data.start) (hfin : f.data.fin = g.data.fin)
    (hbytes : frameBytes p f.data.start f.data.length = frameBytes q f.data.start f.data.length) :
    shown (d.attrs p owner) f = shown (d.attrs q owner) g ↔
      (f.name = "Target protocol address" →
        frameBytes p (f.data.start - 10) 4 = frameBytes q (f.data.start - 10) 4) ∧
      (f.name = "Echo reply timestamp" →
        frameBytes p (f.data.start - 4) 4 = frameBytes q (f.data.start - 4) 4) := by
  obtain ⟨hvec, hshown, hreach⟩ := determined_of_fieldAt hf
  obtain ⟨hvec', hshown', -⟩ := determined_of_fieldAt hg
  have hlength : f.data.length = g.data.length := by rw [Buffer.length, Buffer.length, hstart, hfin]
  have hbytes' : f.data.bytes = g.data.bytes := by
    rw [Buffer.bytes, Buffer.bytes, hvec, hvec', ← hstart, ← hlength]
    exact hbytes
  have hbefore : ∀ n, bytesBefore n f.data = frameBytes p (f.data.start - n) 4 := by
    intro n
    rw [bytesBefore, hvec, frameBytes]
  have hbefore' : ∀ n, bytesBefore n g.data = frameBytes q (f.data.start - n) 4 := by
    intro n
    rw [bytesBefore, hvec', hstart, frameBytes]
  rw [hshown, hshown', ← hname, dataValue_eq_iff hstart hbytes' hreach]
  simp only [hbefore, hbefore']

/-- A layer of Ethernet with a request of ARP from `10.0.0.x` for `10.0.0.9`. -/
def request (x : UInt8) : ParentLayer where
  ns := "::Ethernet::<ARP>"
  payload := Hex.ofVec [0, 1, 8, 0, 6, 4, 0, 1, 0, 0, 0, 0, 0, 1, 10, 0, 0, x,
    0, 0, 0, 0, 0, 0, 10, 0, 0, 9] (by simp)
  fields := []
  attrs := fun _ => none
  layers := fun _ => none

/-- The field of the target of a request. -/
def targetField (x : UInt8) : Field where
  name := "Target protocol address"
  attr := some "spa"
  data := (request x).payload.slice 24 28

lemma fieldAt_request (x : UInt8) :
    fieldAt (pushed .arp (request x) .layer) [8] = some (targetField x) := rfl

/-- A segment with the first timestamp `x` and the second 2. -/
def segment (x : UInt8) : ParentLayer := TCPDissector.sampleParent (Hex.ofVec
  [0, 80, 0, 81, 0, 0, 0, 1, 0, 0, 0, 2, 0x80, 0x10, 0, 0, 0, 0, 0, 0,
   1, 1, 8, 10, 0, 0, 0, x, 0, 0, 0, 2, 0x61] (by simp))

/-- The field of the second timestamp of a segment. -/
def echoField (x : UInt8) : Field where
  name := "Echo reply timestamp"
  value := some (.number x.toNat)
  data := (segment x).payload.slice 28 32

theorem shown_iff_requests :
    shown (attrs .arp (request 1) .layer) (targetField 1) =
        shown (attrs .arp (request 2) .layer) (targetField 2) ↔
      ("Target protocol address" = "Target protocol address" →
        frameBytes (request 1) 14 4 = frameBytes (request 2) 14 4) ∧
      ("Target protocol address" = "Echo reply timestamp" →
        frameBytes (request 1) 20 4 = frameBytes (request 2) 20 4) :=
  shown_iff .arp .layer (fieldAt_request 1) (fieldAt_request 2) rfl rfl rfl rfl

/-- Fields of one position, name and range whose bytes are the same are shown differently. -/
def Misleads (d : Dissector) (p q : ParentLayer) (position : List ℕ) (f g : Field) : Prop :=
  fieldAt (d.pushed p .layer) position = some f ∧ fieldAt (d.pushed q .layer) position = some g ∧
    f.name = g.name ∧ f.data.start = g.data.start ∧ f.data.fin = g.data.fin ∧
    frameBytes p f.data.start f.data.length = frameBytes q f.data.start f.data.length ∧
    shown (d.attrs p .layer) f ≠ shown (d.attrs q .layer) g

/-- The address of the target and the second timestamp are shown from other bytes. -/
theorem highlight_misleads :
    Misleads .arp (request 1) (request 2) [8] (targetField 1) (targetField 2) ∧
    Misleads .tcp (segment 1) (segment 3) [9, 2, 1] (echoField 1) (echoField 3) := by
  have hsender : ∀ x, shown (attrs .arp (request x) .layer) (targetField x) =
      some (.instance (.ipv4Address ⟨[10, 0, 0, x], rfl⟩)) := fun _ => rfl
  constructor
  · refine ⟨fieldAt_request 1, fieldAt_request 2, rfl, rfl, rfl, rfl, ?_⟩
    rw [hsender, hsender]
    decide
  · refine ⟨rfl, rfl, rfl, rfl, rfl, rfl, ?_⟩
    show some (Attr.number 1) ≠ some (Attr.number 3)
    decide

end Dissector

end Dripcap
