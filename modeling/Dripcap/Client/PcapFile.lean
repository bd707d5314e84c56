import Dripcap.Library.LittleEndian

/-!
# Pcap files

The class `Pcap` of the package `pcap-file`, which reads a file in one of four formats: the magic
number tells the byte order and whether the second time field of a record counts microseconds or
nanoseconds. All numbers of the source stay far below `2 ^ 53`, so they are natural numbers here.
-/

namespace Dripcap.PcapFile

/-! ### Reading numbers -/

/-- `readUInt32LE` and `readUInt32BE` inside of a buffer. -/
def readUInt32 (littleEndian : Bool) (data : List UInt8) (offset : ℕ) : ℕ :=
  let word := (data.drop offset).take 4
  if littleEndian then LittleEndian.value word else BigEndian.value word

/-- `readUInt16LE` and `readUInt16BE` -/
def readUInt16 (littleEndian : Bool) (data : List UInt8) (offset : ℕ) : ℕ :=
  let word := (data.drop offset).take 2
  if littleEndian then LittleEndian.value word else BigEndian.value word

/-- `readInt16LE` and `readInt16BE` -/
def readInt16 (littleEndian : Bool) (data : List UInt8) (offset : ℕ) : ℤ :=
  Int.bmod (readUInt16 littleEndian data offset) (2 ^ 16)

/-! ### The constructor -/

/-- What the magic number says about a file. -/
structure Format where
  littleEndian : Bool
  nanosec : Bool
deriving DecidableEq, Repr

/-- The cases of the `switch`. -/
def formatOf (magicNumber : ℕ) : Except String Format :=
  if magicNumber = 0xd4c3b2a1 then .ok ⟨true, false⟩
  else if magicNumber = 0xa1b2c3d4 then .ok ⟨false, false⟩
  else if magicNumber = 0x4d3cb2a1 then .ok ⟨true, true⟩
  else if magicNumber = 0xa1b23c4d then .ok ⟨false, true⟩
  else .error "wrong magic_number"

/-- An element of `packets`. -/
structure Packet where
  ts_sec : ℕ
  ts_nsec : ℕ
  len : ℕ
  payload : List UInt8
deriving DecidableEq, Repr

/-- The members of a `Pcap`. -/
structure Pcap where
  versionMajor : ℕ
  versionMinor : ℕ
  thiszone : ℤ
  sigfigs : ℕ
  snaplen : ℕ
  network : ℕ
  packets : List Packet
deriving DecidableEq, Repr

/-- The loop over the records; `packets` are those pushed so far. -/
def readPackets (f : Format) (data : List UInt8) (offset : ℕ) (packets : List Packet) :
    Except String (List Packet) :=
  if offset < data.length then
    if data.length - offset < 16 then .error "too short packet header"
    else
      let tsSec := readUInt32 f.littleEndian data offset
      let tsUsec := readUInt32 f.littleEndian data (offset + 4)
      let inclLen := readUInt32 f.littleEndian data (offset + 8)
      let origLen := readUInt32 f.littleEndian data (offset + 12)
      if data.length - (offset + 16) < inclLen then .error "too short packet body"
      else
        let payload := (data.drop (offset + 16)).take inclLen
        readPackets f data (offset + 16 + inclLen) (packets ++
          [⟨tsSec, if f.nanosec then tsUsec else tsUsec * 1000, origLen, payload⟩])
  else .ok packets
termination_by data.length - offset

/-- `Pcap`: the constructor, applied to the contents of the file. -/
def pcap (data : List UInt8) : Except String Pcap :=
  if data.length < 24 then .error "too short global header"
  else do
    let f ← formatOf (readUInt32 false data 0)
    let packets ← readPackets f data 24 []
    .ok {
      versionMajor := readUInt16 f.littleEndian data 4
      versionMinor := readUInt16 f.littleEndian data 6
      thiszone := readInt16 f.littleEndian data 8
      sigfigs := readUInt32 f.littleEndian data 12
      snaplen := readUInt32 f.littleEndian data 16
      network := readUInt32 f.littleEndian data 20
      packets }

/-! ### The grammar -/

/-- What stands in a record. -/
structure Record where
  tsSec : ℕ
  tsUsec : ℕ
  origLen : ℕ
  payload : List UInt8
deriving DecidableEq, Repr

/-- The record with this header. -/
def record (littleEndian : Bool) (header payload : List UInt8) : Record where
  tsSec := readUInt32 littleEndian header 0
  tsUsec := readUInt32 littleEndian header 4
  origLen := readUInt32 littleEndian header 12
  payload := payload

/-- Zero or more records, each a header of 16 bytes and as many bytes as its third field says. -/
inductive Records (littleEndian : Bool) : List UInt8 → List Record → Prop
  | nil : Records littleEndian [] []
  | cons {header payload rest : List UInt8} {records : List Record} (hheader : header.length = 16)
      (hpayload : payload.length = readUInt32 littleEndian header 8)
      (hrest : Records littleEndian rest records) :
      Records littleEndian (header ++ payload ++ rest)
        (record littleEndian header payload :: records)

/-- The bytes a file of a format begins with. -/
def Format.magic : Format → List UInt8
  | ⟨true, false⟩ => [0xd4, 0xc3, 0xb2, 0xa1]
  | ⟨false, false⟩ => [0xa1, 0xb2, 0xc3, 0xd4]
  | ⟨true, true⟩ => [0x4d, 0x3c, 0xb2, 0xa1]
  | ⟨false, true⟩ => [0xa1, 0xb2, 0x3c, 0x4d]

/-- A file: a global header of 24 bytes that begins with the magic number, and records. -/
def IsFile (f : Format) (records : List Record) (data : List UInt8) : Prop :=
  ∃ header body, data = f.magic ++ header ++ body ∧ (f.magic ++ header).length = 24 ∧
    Records f.littleEndian body records

/-- The packet of a record. -/
def Format.packet (f : Format) (r : Record) : Packet where
  ts_sec := r.tsSec
  ts_nsec := if f.nanosec then r.tsUsec else r.tsUsec * 1000
  len := r.origLen
  payload := r.payload

/-! ### Records and where they stand -/

section Records

variable {le : Bool} {data header payload rest : List UInt8} {records : List Record} {k n : ℕ}

lemma readUInt32_drop (le : Bool) (data : List UInt8) (offset k : ℕ) :
    readUInt32 le data (offset + k) = readUInt32 le (data.drop offset) k := by
  simp only [readUInt32, List.drop_drop]

lemma readUInt32_take (le : Bool) (data : List UInt8) (h : k + 4 ≤ n) :
    readUInt32 le (data.take n) k = readUInt32 le data k := by
  have htake : ((data.take n).drop k).take 4 = (data.drop k).take 4 := by
    rw [List.drop_take, List.take_take, min_eq_left (Nat.le_sub_of_add_le' h)]
  simp only [readUInt32, htake]

lemma readUInt32_append (le : Bool) (rest : List UInt8) (h : k + 4 ≤ header.length) :
    readUInt32 le (header ++ rest) k = readUInt32 le header k := by
  rw [← readUInt32_take le (header ++ rest) h, List.take_left]

lemma take_header (hheader : header.length = 16) : (header ++ payload ++ rest).take 16 = header := by
  rw [List.append_assoc, ← hheader, List.take_left]

lemma drop_header (hheader : header.length = 16) :
    (header ++ payload ++ rest).drop 16 = payload ++ rest := by
  rw [List.append_assoc, ← hheader, List.drop_left]

/-- A record at the beginning is cut out by the length in its header. -/
lemma records_of_fits (hlen : 16 + readUInt32 le data 8 ≤ data.length) :
    Records le data records ↔ ∃ records', records =
        record le (data.take 16) ((data.drop 16).take (readUInt32 le data 8)) :: records' ∧
      Records le (data.drop (16 + readUInt32 le data 8)) records' := by
  constructor
  · intro h
    cases h with
    | nil => simp at hlen
    | @cons header payload rest records' hheader hpayload hrest =>
      have hincl : readUInt32 le (header ++ payload ++ rest) 8 = payload.length := by
        rw [List.append_assoc, readUInt32_append le _ (by omega), hpayload]
      refine ⟨records', ?_, ?_⟩
      · rw [hincl, take_header hheader, drop_header hheader, List.take_left]
      · rwa [hincl, ← List.drop_drop, drop_header hheader, List.drop_left]
  · rintro ⟨records', rfl, hrest⟩
    have hsplit : data = data.take 16 ++ (data.drop 16).take (readUInt32 le data 8) ++
        data.drop (16 + readUInt32 le data 8) := by
      rw [List.append_assoc, ← List.drop_drop, List.take_append_drop, List.take_append_drop]
    have hheader : (data.take 16).length = 16 := by
      rw [List.length_take]
      omega
    have hpayload : ((data.drop 16).take (readUInt32 le data 8)).length =
        readUInt32 le (data.take 16) 8 := by
      rw [readUInt32_take le data (by omega), List.length_take, List.length_drop]
      omega
    have hcons := Records.cons hheader hpayload hrest
    rwa [← hsplit] at hcons

/-- Bytes that end inside of a record are no records. -/
lemma not_records_of_short (hne : data ≠ [])
    (hlen : data.length < 16 + readUInt32 le data 8) :
    ¬ Records le data records := by
  intro h
  cases h with
  | nil => exact hne rfl
  | @cons header payload rest records' hheader hpayload hrest =>
    have hincl : readUInt32 le (header ++ payload ++ rest) 8 = payload.length := by
      rw [List.append_assoc, readUInt32_append le _ (by omega), hpayload]
    rw [hincl] at hlen
    simp only [List.length_append] at hlen
    omega

lemma records_nil_iff : Records le [] records ↔ records = [] := by
  constructor
  · intro h
    by_contra hne
    generalize hdata : ([] : List UInt8) = data at h
    cases h with
    | nil => exact hne rfl
    | @cons header payload rest records' hheader hpayload hrest =>
      have hlength := congrArg List.length hdata
      simp only [List.length_nil, List.length_append] at hlength
      omega
  · rintro rfl
    exact .nil

end Records

/-! ### The loop -/

variable (f : Format) (data : List UInt8) {offset : ℕ} {packets : List Packet}

lemma readPackets_end (h : data.length ≤ offset) :
    readPackets f data offset packets = .ok packets := by
  rw [readPackets, if_neg (Nat.not_lt.mpr h)]

/-- The loop fails where a record is cut off, in its header or behind it. -/
lemma readPackets_short (hoffset : offset < data.length)
    (h : (data.drop offset).length < 16 + readUInt32 f.littleEndian (data.drop offset) 8) :
    ∃ e, readPackets f data offset packets = .error e := by
  rw [List.length_drop] at h
  by_cases hheader : data.length - offset < 16
  · rw [readPackets, if_pos hoffset, if_pos hheader]
    exact ⟨_, rfl⟩
  · rw [readPackets, if_pos hoffset, if_neg hheader]
    simp only [readUInt32_drop f.littleEndian data offset 8]
    rw [if_pos (by omega)]
    exact ⟨_, rfl⟩

/-- The loop takes a record that is there. -/
lemma readPackets_record (hoffset : offset < data.length)
    (h : 16 + readUInt32 f.littleEndian (data.drop offset) 8 ≤ (data.drop offset).length) :
    readPackets f data offset packets =
      readPackets f data (offset + (16 + readUInt32 f.littleEndian (data.drop offset) 8))
        (packets ++ [f.packet (record f.littleEndian ((data.drop offset).take 16)
          (((data.drop offset).drop 16).take (readUInt32 f.littleEndian (data.drop offset) 8)))]) := by
  rw [List.length_drop] at h
  have hsec : readUInt32 f.littleEndian data offset =
      readUInt32 f.littleEndian ((data.drop offset).take 16) 0 := by
    rw [readUInt32_take _ _ (by decide), ← readUInt32_drop, Nat.add_zero]
  rw [readPackets, if_pos hoffset, if_neg (by omega)]
  simp only [readUInt32_drop f.littleEndian data offset 8]
  rw [if_neg (by omega), Nat.add_assoc]
  simp only [Format.packet, record, hsec, List.drop_drop]
  rw [readUInt32_take _ _ (by decide), readUInt32_take _ _ (by decide),
    readUInt32_take _ _ (by decide), ← readUInt32_drop _ _ offset 4, ← readUInt32_drop _ _ offset 12]

/-- The loop pushes the packets of the records behind `offset`, and fails if there are other
bytes. -/
lemma readPackets_iff (result : List Packet) (hle : offset ≤ data.length) :
    readPackets f data offset packets = .ok result ↔
      ∃ records, Records f.littleEndian (data.drop offset) records ∧
        result = packets ++ records.map f.packet := by
  induction offset using Nat.strongRecMeasure (fun offset => data.length - offset)
    generalizing packets with
  | ind offset ih =>
    rcases Nat.eq_or_lt_of_le hle with heq | hlt
    · rw [readPackets_end f data heq.ge, List.drop_eq_nil_of_le heq.ge]
      simp only [records_nil_iff, exists_eq_left, List.map_nil, List.append_nil, Except.ok.injEq]
      exact eq_comm
    · by_cases hfits : 16 + readUInt32 f.littleEndian (data.drop offset) 8 ≤
          (data.drop offset).length
      · have hfits' := hfits
        rw [List.length_drop] at hfits'
        rw [readPackets_record f data hlt hfits, ih _ (by omega) (by omega)]
        simp only [records_of_fits hfits, ← List.drop_drop]
        constructor
        · rintro ⟨records, hrecords, rfl⟩
          exact ⟨_, ⟨records, rfl, hrecords⟩, by simp⟩
        · rintro ⟨_, ⟨records, rfl, hrecords⟩, rfl⟩
          exact ⟨records, hrecords, by simp⟩
      · have hshort := Nat.lt_of_not_le hfits
        have hfail : ∃ e, readPackets f data offset packets = .error e :=
          readPackets_short f data hlt hshort
        obtain ⟨e, he⟩ := hfail
        rw [he]
        refine iff_of_false (fun h => by cases h) ?_
        rintro ⟨records, hrecords, _⟩
        apply not_records_of_short ?_ hshort hrecords
        exact List.ne_nil_of_length_pos (by rw [List.length_drop]; omega)

/-! ### The global header -/

/-- The magic numbers are those of the four formats. -/
lemma formatOf_iff (n : ℕ) (f : Format) :
    formatOf n = .ok f ↔ n = BigEndian.value f.magic := by
  have hvalues : BigEndian.value (Format.magic ⟨true, false⟩) = 0xd4c3b2a1 ∧
      BigEndian.value (Format.magic ⟨false, false⟩) = 0xa1b2c3d4 ∧
      BigEndian.value (Format.magic ⟨true, true⟩) = 0x4d3cb2a1 ∧
      BigEndian.value (Format.magic ⟨false, true⟩) = 0xa1b23c4d := by decide
  obtain ⟨h1, h2, h3, h4⟩ := hvalues
  obtain ⟨littleEndian, nanosec⟩ := f
  unfold formatOf
  cases littleEndian <;> cases nanosec <;> simp only [h1, h2, h3, h4] <;> split_ifs <;> simp_all

lemma length_magic (f : Format) : f.magic.length = 4 := by
  obtain ⟨littleEndian, nanosec⟩ := f
  cases littleEndian <;> cases nanosec <;> rfl

/-- A file begins with the magic number of its format. -/
lemma take_magic {f : Format} (h : 4 ≤ data.length) :
    formatOf (readUInt32 false data 0) = .ok f ↔ data.take 4 = f.magic := by
  have hlen : (data.take 4).length = 4 := by
    rw [List.length_take]
    omega
  rw [formatOf_iff]
  exact BigEndian.value_inj (hlen.trans (length_magic f).symm)

/-! ### The parser -/

/-- The constructor succeeds if the header is long enough, its magic number is one of the four and
the records can be read. -/
lemma pcap_ok_iff (result : List Packet) :
    (∃ p, pcap data = .ok p ∧ p.packets = result) ↔ 24 ≤ data.length ∧
      ∃ f, formatOf (readUInt32 false data 0) = .ok f ∧ readPackets f data 24 [] = .ok result := by
  constructor
  · rintro ⟨p, hp, rfl⟩
    rw [pcap] at hp
    split_ifs at hp with hlen
    refine ⟨Nat.le_of_not_lt hlen, ?_⟩
    cases hformat : formatOf (readUInt32 false data 0) with
    | error e =>
      rw [hformat] at hp
      cases hp
    | ok f =>
      cases hpackets : readPackets f data 24 [] with
      | error e =>
        simp only [bind, Except.bind, hformat, hpackets] at hp
        cases hp
      | ok packets =>
        simp only [bind, Except.bind, hformat, hpackets] at hp
        cases hp
        exact ⟨f, rfl, hpackets⟩
  · rintro ⟨hlen, f, hformat, hpackets⟩
    rw [pcap, if_neg (Nat.not_lt.mpr hlen)]
    simp only [bind, Except.bind, hformat, hpackets]
    exact ⟨_, rfl, rfl⟩

/-- The constructor succeeds with the packets of the records of a file, and on nothing else. -/
lemma pcap_iff (result : List Packet) :
    (∃ p, pcap data = .ok p ∧ p.packets = result) ↔
      ∃ f records, IsFile f records data ∧ result = records.map f.packet := by
  rw [pcap_ok_iff]
  constructor
  · rintro ⟨hlen, f, hformat, hpackets⟩
    obtain ⟨records, hrecords, rfl⟩ := (readPackets_iff f data result hlen).mp hpackets
    have hmagic := (take_magic data (by omega)).mp hformat
    refine ⟨f, records, ⟨(data.drop 4).take 20, data.drop 24, ?_, ?_, hrecords⟩, rfl⟩
    · rw [← hmagic, ← List.take_add, List.take_append_drop]
    · rw [← hmagic, ← List.take_add, List.length_take]
      omega
  · rintro ⟨f, records, ⟨header, body, rfl, hlen, hrecords⟩, rfl⟩
    have hle : 24 ≤ (f.magic ++ header ++ body).length := by
      rw [List.length_append, hlen]
      exact Nat.le_add_right _ _
    have htake : (f.magic ++ header ++ body).take 4 = f.magic := by
      rw [List.append_assoc, ← length_magic f, List.take_left]
    have hdrop : (f.magic ++ header ++ body).drop 24 = body := by
      rw [← hlen, List.drop_left]
    refine ⟨hle, f, (take_magic _ (by omega)).mpr htake, ?_⟩
    rw [readPackets_iff f _ _ hle]
    exact ⟨records, by rwa [hdrop], rfl⟩

/-! ### Encoded records -/

/-- A number of four bytes in the byte order of a file. -/
def word (littleEndian : Bool) (n : ℕ) : List UInt8 :=
  if littleEndian then LittleEndian.bytes 4 n else BigEndian.bytes 4 n

/-- A record as bytes. -/
def Record.encode (littleEndian : Bool) (r : Record) : List UInt8 :=
  word littleEndian r.tsSec ++ word littleEndian r.tsUsec ++ word littleEndian r.payload.length ++
    word littleEndian r.origLen ++ r.payload

/-- The fields of the record fit into four bytes. -/
structure Record.Encodable (r : Record) : Prop where
  tsSec_lt : r.tsSec < 2 ^ 32
  tsUsec_lt : r.tsUsec < 2 ^ 32
  origLen_lt : r.origLen < 2 ^ 32
  length_lt : r.payload.length < 2 ^ 32

lemma length_word (le : Bool) {n : ℕ} (h : n < 2 ^ 32) : (word le n).length = 4 := by
  cases le
  · exact BigEndian.length_bytes h
  · exact LittleEndian.length_bytes h

/-- A word is read back wherever it stands. -/
lemma readUInt32_word (le : Bool) {n k : ℕ} (h : n < 2 ^ 32) (front rest : List UInt8)
    (hk : front.length = k) : readUInt32 le (front ++ word le n ++ rest) k = n := by
  have hword : ((front ++ word le n ++ rest).drop k).take 4 = word le n := by
    rw [List.append_assoc, ← hk, List.drop_left, ← length_word le h, List.take_left]
  cases le
  · simp only [readUInt32, hword]
    exact BigEndian.value_bytes 4 n
  · simp only [readUInt32, hword]
    exact LittleEndian.value_bytes 4 n

lemma records_encode (le : Bool) {records : List Record} (h : ∀ r ∈ records, r.Encodable) :
    Records le (records.flatMap (Record.encode le)) records := by
  induction records with
  | nil => exact .nil
  | cons r records ih =>
    obtain ⟨hr, hrest⟩ := List.forall_mem_cons.mp h
    obtain ⟨hsec, husec, horig, hlength⟩ := hr
    have h1 := length_word le hsec
    have h2 := length_word le husec
    have h3 := length_word le hlength
    have h4 := length_word le horig
    have hheader : (word le r.tsSec ++ word le r.tsUsec ++ word le r.payload.length ++
        word le r.origLen).length = 16 := by
      simp only [List.length_append, h1, h2, h3, h4]
    have hpayload : readUInt32 le (word le r.tsSec ++ word le r.tsUsec ++
        word le r.payload.length ++ word le r.origLen) 8 = r.payload.length := by
      apply readUInt32_word le hlength
      rw [List.length_append, h1, h2]
    have hrecord : record le (word le r.tsSec ++ word le r.tsUsec ++ word le r.payload.length ++
        word le r.origLen) r.payload = r := by
      have hfirst := readUInt32_word le hsec []
        (word le r.tsUsec ++ word le r.payload.length ++ word le r.origLen) (k := 0) rfl
      have hsecond := readUInt32_word le husec (word le r.tsSec)
        (word le r.payload.length ++ word le r.origLen) h1
      have hfourth := readUInt32_word le horig
        (word le r.tsSec ++ word le r.tsUsec ++ word le r.payload.length) [] (k := 12)
        (by simp only [List.length_append, h1, h2, h3])
      simp only [List.append_assoc, List.nil_append, List.append_nil] at hfirst hsecond hfourth
      simp only [record, List.append_assoc, hfirst, hsecond, hfourth]
    have hcons := Records.cons hheader hpayload.symm (ih hrest)
    rw [hrecord] at hcons
    exact hcons

/-- Parsing gives encoded records back. -/
lemma pcap_encode {f : Format} {header : List UInt8} {records : List Record}
    (hlen : (f.magic ++ header).length = 24) (h : ∀ r ∈ records, r.Encodable) :
    ∃ p, pcap (f.magic ++ header ++ records.flatMap (Record.encode f.littleEndian)) = .ok p ∧
      p.packets = records.map f.packet := by
  apply (pcap_iff _ _).mpr
  exact ⟨f, records, ⟨header, _, rfl, hlen, records_encode f.littleEndian h⟩, rfl⟩

/-- The parser accepts exactly its grammar, lists the records that a file consists of, and gives
back every list of records from its encoding in any of the formats. -/
theorem pcap_grammar (data : List UInt8) :
    ((∃ p, pcap data = .ok p) ↔ ∃ f records, IsFile f records data) ∧
    (∀ p f records, pcap data = .ok p → IsFile f records data →
      p.packets = records.map f.packet) ∧
    ∀ (f : Format) (header : List UInt8) (records : List Record),
      (f.magic ++ header).length = 24 → (∀ r ∈ records, r.Encodable) →
      ∃ p, pcap (f.magic ++ header ++ records.flatMap (Record.encode f.littleEndian)) = .ok p ∧
        p.packets = records.map f.packet := by
  refine ⟨?_, ?_, ?_⟩
  · constructor
    · rintro ⟨p, hp⟩
      obtain ⟨f, records, hfile, -⟩ := (pcap_iff data p.packets).mp ⟨p, hp, rfl⟩
      exact ⟨f, records, hfile⟩
    · rintro ⟨f, records, hfile⟩
      obtain ⟨p, hp, -⟩ := (pcap_iff data (records.map f.packet)).mpr ⟨f, records, hfile, rfl⟩
      exact ⟨p, hp⟩
  · intro p f records hp hfile
    obtain ⟨p', hp', hpackets⟩ :=
      (pcap_iff data (records.map f.packet)).mpr ⟨f, records, hfile, rfl⟩
    rw [hp] at hp'
    cases hp'
    exact hpackets
  · intro f header records hlen h
    exact pcap_encode hlen h

/-- A record of two bytes in a file with little-endian numbers and microseconds. -/
def smallRecord : Record := ⟨1, 2, 60, [7, 8]⟩

theorem pcap_grammar_small :
    ∃ p, pcap (Format.magic ⟨true, false⟩ ++ List.replicate 20 0 ++
        [smallRecord].flatMap (Record.encode true)) = .ok p ∧
      p.packets = [⟨1, 2000, 60, [7, 8]⟩] :=
  (pcap_grammar []).2.2 ⟨true, false⟩ (List.replicate 20 0) [smallRecord] rfl
    fun r hr => by
      obtain rfl := List.mem_singleton.mp hr
      exact ⟨by decide, by decide, by decide, by decide⟩

end Dripcap.PcapFile
