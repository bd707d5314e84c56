import Dripcap.Client.PcapFile
import Dripcap.Script.Packing

/-!
# Importing a pcap file

The packets of a file are sent to the server as the argument of `analyze`, where
`convert<PacketPtr>` takes every one of them. The importer multiplies microseconds by 1000 and looks
at nothing but lengths; the converter has 32 bits for the product.
-/

namespace Dripcap.PcapFile

open Packing

/-- An element of the argument of `analyze`. -/
def analyzeMembers (p : Packet) : List (String × Object) :=
  [("ts_sec", .integer p.ts_sec), ("ts_nsec", .integer p.ts_nsec), ("len", .integer p.len),
    ("payload", .bin p.payload)]

/-- The element as a msgpack map. -/
def analyzeArg (p : Packet) : Object := .map (entryMap (analyzeMembers p))

/-- The converter takes the packet, with the values that have been imported. -/
def Analyzable [Platform] (text : List UInt8 → String) (decode : List UInt8 → Option Object)
    (bytes : Object → List UInt8) (p : Packet) : Prop :=
  ∃ pkt, convertPacket text decode bytes (analyzeArg p) = some pkt ∧
    pkt.ts_sec.toNat = p.ts_sec ∧ pkt.ts_nsec.toNat = p.ts_nsec ∧ pkt.len.toNat = p.len ∧
    pkt.payload = p.payload

/-! ### The fields of a record -/

lemma readUInt32_lt (le : Bool) (data : List UInt8) (offset : ℕ) :
    readUInt32 le data offset < 2 ^ 32 := by
  have hword : ((data.drop offset).take 4).length ≤ 4 := by
    rw [List.length_take]
    exact min_le_left _ _
  have hpow : 256 ^ ((data.drop offset).take 4).length ≤ 2 ^ 32 :=
    Nat.pow_le_pow_right (by norm_num) hword
  cases le
  · exact (BigEndian.value_lt _).trans_le hpow
  · exact (LittleEndian.value_lt _).trans_le hpow

/-- All fields that are read fit into four bytes. -/
lemma Records.encodable {le : Bool} {data : List UInt8} {records : List Record}
    (h : Records le data records) : ∀ r ∈ records, r.Encodable := by
  induction h with
  | nil =>
    intro r hr
    cases hr
  | @cons header payload rest records hheader hpayload _ ih =>
    refine List.forall_mem_cons.mpr ⟨⟨readUInt32_lt _ _ _, readUInt32_lt _ _ _, readUInt32_lt _ _ _, ?_⟩, ih⟩
    show payload.length < 2 ^ 32
    rw [hpayload]
    exact readUInt32_lt _ _ _

/-! ### The converter -/

section Convert

variable (text : List UInt8 → String) (decode : List UInt8 → Option Object)
  (bytes : Object → List UInt8) {p : Packet}

lemma asMap_analyzeArg (p : Packet) : asMap text (analyzeArg p) = some (analyzeMembers p) := by
  apply asMap_entryMap
  show ["ts_sec", "ts_nsec", "len", "payload"].Nodup
  decide

lemma asUInt32_iff {n : ℕ} : (∃ v, asUInt32 (.integer n) = some v) ↔ n < 2 ^ 32 := by
  constructor
  · rintro ⟨v, hv⟩
    by_contra hlt
    have hbound : ¬ ((0 : ℤ) ≤ n ∧ (n : ℤ) < 2 ^ 32) := fun h => hlt (by exact_mod_cast h.2)
    rw [asUInt32, if_neg hbound] at hv
    cases hv
  · intro h
    refine ⟨UInt32.ofNat n, ?_⟩
    have hn := asUInt32_toNat (UInt32.ofNat n)
    rwa [UInt32.toNat_ofNat_of_lt' h] at hn

/-- What a packet is converted to. -/
def imported (p : Packet) : RawPacket where
  ts_sec := .ofNat p.ts_sec
  ts_nsec := .ofNat p.ts_nsec
  len := .ofNat p.len
  payload := p.payload

variable [Platform]

lemma convertPacket_of_lt (hsec : p.ts_sec < 2 ^ 64) (hnsec : p.ts_nsec < 2 ^ 32)
    (hlen : p.len < 2 ^ 32) : convertPacket text decode bytes (analyzeArg p) = some (imported p) := by
  have hsec' := asUInt64_toNat (.ofNat p.ts_sec)
  have hnsec' := asUInt32_toNat (.ofNat p.ts_nsec)
  have hlen' := asUInt32_toNat (.ofNat p.len)
  rw [UInt64.toNat_ofNat_of_lt' hsec] at hsec'
  rw [UInt32.toNat_ofNat_of_lt' hnsec] at hnsec'
  rw [UInt32.toNat_ofNat_of_lt' hlen] at hlen'
  exact convertPacket_of_members text (asMap_analyzeArg text p) rfl hsec' hnsec' hlen' rfl rfl rfl

lemma analyzable_of_lt (hsec : p.ts_sec < 2 ^ 64) (hnsec : p.ts_nsec < 2 ^ 32)
    (hlen : p.len < 2 ^ 32) : Analyzable text decode bytes p :=
  ⟨imported p, convertPacket_of_lt text decode bytes hsec hnsec hlen,
    UInt64.toNat_ofNat_of_lt' hsec, UInt32.toNat_ofNat_of_lt' hnsec, UInt32.toNat_ofNat_of_lt' hlen,
    rfl⟩

/-- A packet with small seconds and length is taken exactly when its nanoseconds fit. -/
lemma analyzable_iff_lt (hsec : p.ts_sec < 2 ^ 64) (hlen : p.len < 2 ^ 32) :
    Analyzable text decode bytes p ↔ p.ts_nsec < 2 ^ 32 := by
  constructor
  · rintro ⟨pkt, _, _, hnsec, _⟩
    rw [← hnsec]
    exact pkt.ts_nsec.toNat_lt
  · intro h
    exact analyzable_of_lt text decode bytes hsec h hlen

/-- Nothing is converted without the nanoseconds. -/
lemma member_of_convertPacket {o : Object} {m : List (String × Object)} {pkt : RawPacket}
    (hmap : asMap text o = some m) (h : convertPacket text decode bytes o = some pkt) :
    ∃ nsec, member m "ts_nsec" 0 asUInt32 = some nsec := by
  simp only [convertPacket, hmap, Option.bind_eq_bind, Option.bind_some,
    Option.bind_eq_some_iff] at h
  obtain ⟨_, _, _, _, nsec, hnsec, _⟩ := h
  exact ⟨nsec, hnsec⟩

/-- A microsecond field of more than 4294967 makes the converter throw. -/
lemma convertPacket_throws (h : 2 ^ 32 ≤ p.ts_nsec) :
    convertPacket text decode bytes (analyzeArg p) = none := by
  rw [← Option.not_isSome_iff_eq_none, Option.isSome_iff_exists]
  rintro ⟨pkt, hpkt⟩
  obtain ⟨nsec, hnsec⟩ :=
    member_of_convertPacket text decode bytes (asMap_analyzeArg text p) hpkt
  have hlookup : (analyzeMembers p).lookup "ts_nsec" = some (.integer p.ts_nsec) := rfl
  simp only [member, hlookup] at hnsec
  exact Nat.not_lt.mpr h (asUInt32_iff.mp ⟨nsec, hnsec⟩)

end Convert

/-- Every packet of a file can be analyzed exactly when the file counts nanoseconds or every
microsecond field is at most 4294967. -/
theorem analyzable_iff [Platform] (text : List UInt8 → String) (decode : List UInt8 → Option Object)
    (bytes : Object → List UInt8) {data : List UInt8} {p : Pcap} (hp : pcap data = .ok p) :
    ∃ f records, IsFile f records data ∧
      ((∀ pkt ∈ p.packets, Analyzable text decode bytes pkt) ↔
        f.nanosec = true ∨ ∀ r ∈ records, r.tsUsec ≤ 4294967) := by
  obtain ⟨f, records, hfile, hpackets⟩ := (pcap_iff data p.packets).mp ⟨p, hp, rfl⟩
  refine ⟨f, records, hfile, ?_⟩
  obtain ⟨header, body, -, -, hrecords⟩ := hfile
  have hiff : ∀ r ∈ records, Analyzable text decode bytes (f.packet r) ↔
      f.nanosec = true ∨ r.tsUsec ≤ 4294967 := by
    intro r hr
    obtain ⟨hsec, husec, horig, -⟩ := hrecords.encodable r hr
    rw [analyzable_iff_lt text decode bytes (hsec.trans (by norm_num)) horig]
    cases hnanosec : f.nanosec with
    | true =>
      simp only [Format.packet, hnanosec, if_true, true_or, iff_true]
      exact husec
    | false =>
      simp only [Format.packet, hnanosec, Bool.false_eq_true, if_false, false_or]
      omega
  rw [hpackets, List.forall_mem_map]
  constructor
  · intro h
    by_cases hnanosec : f.nanosec = true
    · exact Or.inl hnanosec
    · refine Or.inr fun r hr => ?_
      exact ((hiff r hr).mp (h r hr)).resolve_left hnanosec
  · intro h r hr
    rw [hiff r hr]
    exact h.imp id fun hall => hall r hr

/-- A file with one record, whose microsecond field is `usec`. -/
def fileOf (usec : ℕ) : List UInt8 :=
  Format.magic ⟨true, false⟩ ++ List.replicate 20 0 ++
    [(⟨1, usec, 60, [7, 8]⟩ : Record)].flatMap (Record.encode true)

lemma pcap_fileOf {usec : ℕ} (h : usec < 2 ^ 32) :
    ∃ p, pcap (fileOf usec) = .ok p ∧ p.packets = [⟨1, usec * 1000, 60, [7, 8]⟩] := by
  have hlen : (Format.magic ⟨true, false⟩ ++ List.replicate 20 0).length = 24 := rfl
  have hbounds : 1 < 2 ^ 32 ∧ 60 < 2 ^ 32 ∧ 2 < 2 ^ 32 := by decide
  have hall : ∀ r ∈ [(⟨1, usec, 60, [7, 8]⟩ : Record)], r.Encodable := by
    intro r hr
    obtain rfl := List.mem_singleton.mp hr
    exact ⟨hbounds.1, h, hbounds.2.1, hbounds.2.2⟩
  exact pcap_encode hlen hall

theorem analyzable_iff_small : ∃ p, pcap (fileOf 2) = .ok p ∧
    ∃ f records, IsFile f records (fileOf 2) ∧
      ((∀ pkt ∈ p.packets, Analyzable (fun _ => "") (fun _ => none) (fun _ => []) pkt) ↔
        f.nanosec = true ∨ ∀ r ∈ records, r.tsUsec ≤ 4294967) := by
  obtain ⟨p, hp, -⟩ := pcap_fileOf (show 2 < 2 ^ 32 by decide)
  exact ⟨p, hp, analyzable_iff (fun _ => "") (fun _ => none) (fun _ => []) hp⟩

/-- A file is accepted with a packet that the converter does not take. -/
theorem not_analyzable : ∃ p, pcap (fileOf 4294968) = .ok p ∧
    p.packets = [⟨1, 4294968000, 60, [7, 8]⟩] ∧
    convertPacket (fun _ => "") (fun _ => none) (fun _ => [])
      (analyzeArg ⟨1, 4294968000, 60, [7, 8]⟩) = none := by
  obtain ⟨p, hp, hpackets⟩ := pcap_fileOf (show 4294968 < 2 ^ 32 by decide)
  refine ⟨p, hp, hpackets, ?_⟩
  apply convertPacket_throws
  decide

end Dripcap.PcapFile
