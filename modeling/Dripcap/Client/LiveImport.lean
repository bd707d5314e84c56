import Dripcap.Client.PcapImport

/-!
# Captured and imported frames

The loop that `Pcap::start` runs makes a packet of the header that `pcap_next_ex` gives and of the
bytes with it. The same frame in a file of microseconds becomes a packet by way of the parser and
`convert<PacketPtr>`. The parser makes nanoseconds of the microseconds, the loop does not.
-/

namespace Dripcap.PcapFile

open Packing

/-- What `pcap_next_ex` gives: the members of a `pcap_pkthdr`, and its `caplen` bytes. -/
structure CapturedFrame where
  tv_sec : ℕ
  tv_usec : ℕ
  len : ℕ
  data : List UInt8
  tv_sec_lt : tv_sec < 2 ^ 32
  tv_usec_lt : tv_usec < 10 ^ 6
  len_lt : len < 2 ^ 32
  caplen_lt : data.length < 2 ^ 32

namespace CapturedFrame

variable (frame : CapturedFrame)

/-- The packet that the loop of `Pcap::start` gives to the handler. -/
def captured (id : UInt64) : RawPacket where
  id := id
  ts_sec := .ofNat frame.tv_sec
  ts_nsec := .ofNat frame.tv_usec
  len := .ofNat frame.len
  payload := frame.data

/-- The record of a file. -/
def toRecord : Record := ⟨frame.tv_sec, frame.tv_usec, frame.len, frame.data⟩

lemma encodable_toRecord : frame.toRecord.Encodable where
  tsSec_lt := frame.tv_sec_lt
  tsUsec_lt := frame.tv_usec_lt.trans (by decide)
  origLen_lt := frame.len_lt
  length_lt := frame.caplen_lt

end CapturedFrame

/-- Two packets have the same times, length and payload. -/
structure Agree (p q : RawPacket) : Prop where
  ts_sec : p.ts_sec = q.ts_sec
  ts_nsec : p.ts_nsec = q.ts_nsec
  len : p.len = q.len
  payload : p.payload = q.payload

/-- A file in which a record stands between others. -/
def fileWith (littleEndian : Bool) (header : List UInt8) (before after : List Record) (r : Record) :
    List UInt8 :=
  Format.magic ⟨littleEndian, false⟩ ++ header ++
    (before ++ r :: after).flatMap (Record.encode littleEndian)

/-- The product has room in 32 bits. -/
lemma ofNat_mul_iff {usec : ℕ} (h : usec < 10 ^ 6) :
    UInt32.ofNat usec = UInt32.ofNat (usec * 1000) ↔ usec = 0 := by
  have hsize : UInt32.size = 2 ^ 32 := rfl
  rw [← UInt32.toNat_inj, UInt32.toNat_ofNat_of_lt' (by omega),
    UInt32.toNat_ofNat_of_lt' (by omega)]
  omega

section LiveImport

variable {text : List UInt8 → String} {decode : List UInt8 → Option Object}
  {bytes : Object → List UInt8} {littleEndian : Bool} {header : List UInt8}
  {before after : List Record}

/-- The packet that a frame in a file is converted to. -/
lemma convert_fileWith (frame : CapturedFrame) (hheader : header.length = 20)
    (hrecords : ∀ r ∈ before ++ after, r.Encodable) :
    ∃ p pkt, pcap (fileWith littleEndian header before after frame.toRecord) = .ok p ∧
      p.packets[before.length]? = some pkt ∧ pkt.ts_sec = frame.tv_sec ∧
      pkt.ts_nsec = frame.tv_usec * 1000 ∧ pkt.len = frame.len ∧ pkt.payload = frame.data := by
  have hall : ∀ r ∈ before ++ frame.toRecord :: after, r.Encodable := by
    intro r hr
    rcases List.mem_append.mp hr with hbefore | hcons
    · exact hrecords r (List.mem_append_left _ hbefore)
    · rcases List.mem_cons.mp hcons with rfl | hafter
      · exact frame.encodable_toRecord
      · exact hrecords r (List.mem_append_right _ hafter)
  have hlen : (Format.magic ⟨littleEndian, false⟩ ++ header).length = 24 := by
    rw [List.length_append, length_magic, hheader]
  obtain ⟨p, hp, hpackets⟩ := pcap_encode hlen hall
  refine ⟨p, Format.packet ⟨littleEndian, false⟩ frame.toRecord, hp, ?_, rfl, rfl, rfl, rfl⟩
  rw [hpackets, List.map_append, List.map_cons, List.getElem?_append_right (by simp)]
  simp

/-- A captured frame and the same frame in a file become packets that agree exactly if the frame has
no microseconds. -/
theorem agree_iff [Platform] (frame : CapturedFrame) (id : UInt64) (hheader : header.length = 20)
    (hrecords : ∀ r ∈ before ++ after, r.Encodable) :
    (∃ p pkt raw, pcap (fileWith littleEndian header before after frame.toRecord) = .ok p ∧
      p.packets[before.length]? = some pkt ∧
      convertPacket text decode bytes (analyzeArg pkt) = some raw ∧
      Agree (frame.captured id) raw) ↔ frame.tv_usec = 0 := by
  obtain ⟨p, pkt, hp, hpkt, hsec, hnsec, hlen, hpayload⟩ :=
    convert_fileWith frame hheader hrecords
  have hsec_lt := frame.tv_sec_lt
  have husec_lt := frame.tv_usec_lt
  have hlen_lt := frame.len_lt
  have hconvert := convertPacket_of_lt text decode bytes (p := pkt) (by omega) (by omega) (by omega)
  constructor
  · rintro ⟨p', pkt', raw, hp', hpkt', hconvert', hagree⟩
    obtain rfl := Except.ok.inj (hp.symm.trans hp')
    obtain rfl := Option.some.inj (hpkt.symm.trans hpkt')
    obtain rfl := Option.some.inj (hconvert.symm.trans hconvert')
    have heq : UInt32.ofNat frame.tv_usec = UInt32.ofNat (frame.tv_usec * 1000) :=
      hagree.ts_nsec.trans (congrArg UInt32.ofNat hnsec)
    exact (ofNat_mul_iff husec_lt).mp heq
  · intro hzero
    refine ⟨p, pkt, _, hp, hpkt, hconvert, ?_⟩
    exact {
      ts_sec := congrArg UInt64.ofNat hsec.symm
      ts_nsec := congrArg UInt32.ofNat (by rw [hnsec, hzero])
      len := congrArg UInt32.ofNat hlen.symm
      payload := hpayload.symm }

end LiveImport

/-- A frame of two bytes. -/
def smallFrame (usec : ℕ) (h : usec < 10 ^ 6) : CapturedFrame :=
  ⟨1, usec, 60, [7, 8], by decide, h, by decide, by decide⟩

/-- A file with this frame only. -/
def smallFile (frame : CapturedFrame) : List UInt8 :=
  fileWith true (List.replicate 20 0) [] [] frame.toRecord

theorem agree_iff_small :
    (∃ p pkt raw, pcap (smallFile (smallFrame 0 (by decide))) = .ok p ∧ p.packets[0]? = some pkt ∧
      convertPacket (fun _ => "") (fun _ => none) (fun _ => []) (analyzeArg pkt) = some raw ∧
      Agree ((smallFrame 0 (by decide)).captured 1) raw) ↔
    (smallFrame 0 (by decide)).tv_usec = 0 :=
  agree_iff (smallFrame 0 (by decide)) 1 (List.length_replicate ..) nofun

/-- Two microseconds are two nanoseconds in the one packet and 2000 in the other one. -/
theorem nanoseconds_differ :
    ∃ p pkt raw, pcap (smallFile (smallFrame 2 (by decide))) = .ok p ∧ p.packets[0]? = some pkt ∧
      convertPacket (fun _ => "") (fun _ => none) (fun _ => []) (analyzeArg pkt) = some raw ∧
      ((smallFrame 2 (by decide)).captured 1).ts_nsec = 2 ∧ raw.ts_nsec = 2000 ∧
      ¬ Agree ((smallFrame 2 (by decide)).captured 1) raw := by
  obtain ⟨p, pkt, hp, hpkt, hsec, hnsec, hlen, -⟩ :=
    @convert_fileWith true (List.replicate 20 0) [] [] (smallFrame 2 (by decide)) rfl nofun
  have hconvert := convertPacket_of_lt (fun _ => "") (fun _ => none) (fun _ => []) (p := pkt)
    (by rw [hsec]; decide) (by rw [hnsec]; decide) (by rw [hlen]; decide)
  have hraw : (imported pkt).ts_nsec = 2000 := congrArg UInt32.ofNat hnsec
  refine ⟨p, pkt, _, hp, hpkt, hconvert, rfl, hraw, fun hagree => ?_⟩
  exact absurd (hagree.ts_nsec.trans hraw) (by decide)

end Dripcap.PcapFile
