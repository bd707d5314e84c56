import Dripcap.Script.Buffer

/-!
# The TCP stream dissector

`TCPStreamDissector` of `tcp_stream.es`, which is given the segments of one direction of a
connection one after the other, and what is expected of it on the segments of a byte stream
without gaps. Numbers of the script are integers.
-/

namespace Dripcap

/-- What `analyze` reads of a TCP layer: `namespace`, `attrs.src`, `attrs.dst`, `attrs.seq` and
`payload`. -/
structure TCPLayer where
  ns : String
  src : String
  dst : String
  seq : ℕ
  payload : Payload

/-- A `PacketStream` of a script with its property `data`. -/
structure PayloadStream where
  name : String
  ns : String
  id : String
  data : Payload

/-- `TCPStreamDissector` -/
structure TCPStreamDissector where
  seq : ℤ := -1
  length : ℤ := 0

namespace TCPStreamDissector

/-- `analyze`, with what it pushes to `output`. -/
def analyze (d : TCPStreamDissector) (layer : TCPLayer) : TCPStreamDissector × List PayloadStream :=
  if layer.payload.length > 0 then
    let stream : PayloadStream :=
      ⟨"TCP Stream", layer.ns, layer.src ++ "/" ++ layer.dst, layer.payload⟩
    if d.seq < 0 then
      (⟨layer.seq, d.length + layer.payload.length⟩, [stream])
    else
      let start := d.seq + d.length
      let length : ℤ :=
        if start > layer.seq then layer.payload.length - (start - layer.seq)
        else layer.payload.length
      (⟨layer.seq, d.length + length⟩, [stream])
  else (d, [])

/-- A sequence of calls, with all that is pushed to their outputs. -/
def analyzeAll (d : TCPStreamDissector) : List TCPLayer → TCPStreamDissector × List PayloadStream
  | [] => (d, [])
  | layer :: layers =>
    let r := d.analyze layer
    let rs := r.1.analyzeAll layers
    (rs.1, r.2 ++ rs.2)

end TCPStreamDissector

/-- A segment of the byte stream `bytes` with the initial sequence number `s₀`. -/
structure Segment (bytes : List UInt8) (s₀ : ℕ) where
  layer : TCPLayer
  offset : ℕ
  seq_eq : layer.seq = s₀ + offset
  pos : 0 < layer.payload.length
  fits : offset + layer.payload.length ≤ bytes.length
  bytes_eq : layer.payload.bytes = (bytes.drop offset).take layer.payload.length

namespace Segment

variable {bytes : List UInt8} {s₀ : ℕ}

/-- The number of bytes covered by `n` bytes and a list of segments. -/
def covered (n : ℕ) : List (Segment bytes s₀) → ℕ
  | [] => n
  | seg :: segs => covered (max n (seg.offset + seg.layer.payload.length)) segs

/-- Each segment begins inside or right behind the bytes covered before. -/
def NoGap (n : ℕ) : List (Segment bytes s₀) → Prop
  | [] => True
  | seg :: segs => seg.offset ≤ n ∧ NoGap (max n (seg.offset + seg.layer.payload.length)) segs

end Segment

namespace TCPStreamDissector

variable {bytes : List UInt8} {s₀ : ℕ}

/-- The dissector of a new stream after a list of segments, with its output. -/
def after (segs : List (Segment bytes s₀)) : TCPStreamDissector × List PayloadStream :=
  ({} : TCPStreamDissector).analyzeAll (segs.map Segment.layer)

/-- The bytes of an output. -/
def outputBytes (streams : List PayloadStream) : List UInt8 := streams.flatMap fun st => st.data.bytes

/-- At every moment the bytes covered so far have been put out once, and `seq + length` is the
next sequence number. -/
def Reassembles (segs : List (Segment bytes s₀)) : Prop :=
  ∀ pre, pre <+: segs →
    outputBytes (after pre).2 = bytes.take (Segment.covered 0 pre) ∧
      (pre ≠ [] → (after pre).1.seq + (after pre).1.length = s₀ + Segment.covered 0 pre)

/-- The first segment. -/
lemma analyze_first {d : TCPStreamDissector} (hd : d.seq < 0) (seg : Segment bytes s₀) :
    d.analyze seg.layer = (⟨s₀ + seg.offset, d.length + seg.layer.payload.length⟩,
      [⟨"TCP Stream", seg.layer.ns, seg.layer.src ++ "/" ++ seg.layer.dst, seg.layer.payload⟩]) := by
  have hseq := congrArg (Nat.cast (R := ℤ)) seg.seq_eq
  push_cast at hseq
  simp only [analyze, gt_iff_lt, seg.pos, if_true, hd, hseq]

/-- A later segment: the number of bytes that are new is added to `length`, while `seq` becomes
the sequence number of this segment. -/
lemma analyze_next {d : TCPStreamDissector} (hd : 0 ≤ d.seq) (seg : Segment bytes s₀) :
    d.analyze seg.layer = (⟨s₀ + seg.offset, d.length + (seg.layer.payload.length -
        max 0 (d.seq + d.length - (s₀ + seg.offset)))⟩,
      [⟨"TCP Stream", seg.layer.ns, seg.layer.src ++ "/" ++ seg.layer.dst, seg.layer.payload⟩]) := by
  have hseq := congrArg (Nat.cast (R := ℤ)) seg.seq_eq
  push_cast at hseq
  simp only [analyze, gt_iff_lt, seg.pos, if_true, not_lt.mpr hd, if_false, hseq]
  split_ifs with hstart
  · rw [max_eq_right (by omega)]
  · rw [max_eq_left (by omega), Int.sub_zero]

/-- Whole payloads are put out, whatever has been seen of them before. -/
lemma outputBytes_analyzeAll (d : TCPStreamDissector) (segs : List (Segment bytes s₀)) :
    outputBytes (d.analyzeAll (segs.map Segment.layer)).2 =
      segs.flatMap fun seg => seg.layer.payload.bytes := by
  induction segs generalizing d with
  | nil => rfl
  | cons seg segs ih =>
    have hout : outputBytes (d.analyze seg.layer).2 = seg.layer.payload.bytes := by
      by_cases hd : d.seq < 0
      · simp [analyze_first hd, outputBytes]
      · simp [analyze_next (not_lt.mp hd), outputBytes]
    have happ : ∀ xs ys, outputBytes (xs ++ ys) = outputBytes xs ++ outputBytes ys :=
      fun xs ys => List.flatMap_append
    rw [List.map_cons, analyzeAll, happ, hout, ih, List.flatMap_cons]

lemma reassembles_nil : Reassembles ([] : List (Segment bytes s₀)) := by
  intro pre hpre
  obtain rfl := List.prefix_nil.mp hpre
  exact ⟨rfl, fun h => absurd rfl h⟩

lemma reassembles_single {seg : Segment bytes s₀} (h : Segment.NoGap 0 [seg]) :
    Reassembles [seg] := by
  have h0 : seg.offset = 0 := Nat.le_zero.mp h.1
  intro pre hpre
  rcases List.prefix_cons_iff.mp hpre with rfl | ⟨t, rfl, ht⟩
  · exact reassembles_nil [] (List.prefix_refl [])
  · obtain rfl := List.prefix_nil.mp ht
    constructor
    · rw [after, outputBytes_analyzeAll]
      simp [Segment.covered, seg.bytes_eq, h0]
    · intro _
      simp only [after, List.map_cons, List.map_nil, analyzeAll,
        analyze_first (by decide : ({} : TCPStreamDissector).seq < 0), Segment.covered, h0]
      simp

/-- With the second segment either the output or the expected number is wrong: if it overlaps the
first one, bytes are repeated, and if it does not, its own offset is counted twice. -/
lemma not_reassembles_pair {seg₁ seg₂ : Segment bytes s₀} (h : Segment.NoGap 0 [seg₁, seg₂]) :
    ¬ Reassembles [seg₁, seg₂] := by
  intro hre
  obtain ⟨hout, hnext⟩ := hre _ (List.prefix_refl _)
  have h1 : seg₁.offset = 0 := Nat.le_zero.mp h.1
  have h2 : seg₂.offset ≤ seg₁.layer.payload.length := by simpa [h1] using h.2.1
  have hpos₁ := seg₁.pos
  have hpos₂ := seg₂.pos
  have hfits₁ := seg₁.fits
  have hfits₂ := seg₂.fits
  have hcov : Segment.covered 0 [seg₁, seg₂] =
      max seg₁.layer.payload.length (seg₂.offset + seg₂.layer.payload.length) := by
    simp [Segment.covered, h1]
  have hlen : seg₁.layer.payload.length + seg₂.layer.payload.length =
      Segment.covered 0 [seg₁, seg₂] := by
    have := congrArg List.length hout
    rw [after, outputBytes_analyzeAll] at this
    simp only [List.flatMap_cons, List.flatMap_nil, List.append_nil, List.length_append,
      Buffer.length_bytes, List.length_take] at this
    omega
  have hinorder : seg₂.offset = seg₁.layer.payload.length := by omega
  have hseq : ((after [seg₁, seg₂]).1.seq : ℤ) = s₀ + seg₂.offset ∧
      (after [seg₁, seg₂]).1.length = seg₁.layer.payload.length + seg₂.layer.payload.length := by
    simp only [after, List.map_cons, List.map_nil, analyzeAll,
      analyze_first (by decide : ({} : TCPStreamDissector).seq < 0)]
    rw [analyze_next (by simp only; omega)]
    simp [h1, hinorder]
  have hsum := hnext (by simp)
  rw [hseq.1, hseq.2, ← hlen] at hsum
  push_cast at hsum
  omega

/-- The dissector does what is expected of it only on streams of at most one segment. -/
theorem reassembles_iff {segs : List (Segment bytes s₀)} (h : Segment.NoGap 0 segs) :
    Reassembles segs ↔ segs.length ≤ 1 := by
  match segs with
  | [] => exact iff_of_true reassembles_nil (by simp)
  | [seg] => exact iff_of_true (reassembles_single h) (by simp)
  | seg₁ :: seg₂ :: segs =>
    refine iff_of_false (fun hre => ?_) (by simp)
    refine not_reassembles_pair ⟨h.1, h.2.1, trivial⟩ fun pre hpre => hre pre ?_
    exact hpre.trans ⟨segs, rfl⟩

/-- One byte of the stream `[7, 8]` whose first sequence number is 100. -/
def segmentOf (i : Fin 2) : Segment [7, 8] 100 where
  layer :=
    { ns := "::Ethernet::IPv4::TCP", src := "10.0.0.1:80", dst := "10.0.0.2:5000", seq := 100 + i
      payload := ⟨[7, 8], i, i + 1, Nat.le_succ i, Nat.succ_le_of_lt i.isLt, by decide⟩ }
  offset := i
  seq_eq := rfl
  pos := by simp [Buffer.length]
  fits := by
    show (i : ℕ) + (i + 1 - i) ≤ 2
    rw [Nat.add_sub_cancel_left]
    exact i.isLt
  bytes_eq := by simp [Buffer.bytes, Buffer.length]

/-- The same stream up to one of its bytes, in one segment. -/
def segmentTo (i : Fin 2) : Segment [7, 8] 100 where
  layer :=
    { ns := "::Ethernet::IPv4::TCP", src := "10.0.0.1:80", dst := "10.0.0.2:5000", seq := 100
      payload := ⟨[7, 8], 0, i + 1, Nat.zero_le _, Nat.succ_le_of_lt i.isLt, by decide⟩ }
  offset := 0
  seq_eq := rfl
  pos := by simp [Buffer.length]
  fits := by
    show 0 + ((i : ℕ) + 1 - 0) ≤ 2
    rw [Nat.zero_add]
    exact i.isLt
  bytes_eq := by simp [Buffer.bytes, Buffer.length]

/-- The second segment overlaps with the first and goes on behind it, the third has nothing new. -/
theorem reassembles_iff_overlap : Segment.NoGap 0 [segmentOf 0, segmentTo 1, segmentOf 1] ∧
    (Reassembles [segmentOf 0, segmentTo 1, segmentOf 1] ↔
      [segmentOf 0, segmentTo 1, segmentOf 1].length ≤ 1) := by
  have hgap : Segment.NoGap 0 [segmentOf 0, segmentTo 1, segmentOf 1] :=
    ⟨by decide, by decide, by decide, trivial⟩
  exact ⟨hgap, reassembles_iff hgap⟩

/-- After two segments in order `seq + length` is 103, the next sequence number is 102. -/
theorem sequence_drifts : Segment.NoGap 0 [segmentOf 0, segmentOf 1] ∧
    (after [segmentOf 0, segmentOf 1]).1.seq + (after [segmentOf 0, segmentOf 1]).1.length = 103 ∧
    100 + Segment.covered 0 [segmentOf 0, segmentOf 1] = 102 ∧
    ¬ Reassembles [segmentOf 0, segmentOf 1] := by
  have hgap : Segment.NoGap 0 [segmentOf 0, segmentOf 1] :=
    ⟨by decide, by decide, trivial⟩
  exact ⟨hgap, by decide, by decide, not_reassembles_pair hgap⟩

end TCPStreamDissector

end Dripcap
