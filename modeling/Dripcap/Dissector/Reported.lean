import Dripcap.Dissector.Arp
import Dripcap.Dissector.Ethernet
import Dripcap.Dissector.Ipv4
import Dripcap.Dissector.Ipv6
import Dripcap.Dissector.TcpOptions
import Dripcap.Dissector.Udp

/-!
# Frames that are cut off

What the dissectors do when bytes are missing: at which places `analyze` throws, and what the layer
is that it attaches.
-/

namespace Dripcap

open Outcome Dissect

/-- The dissectors of headers. -/
inductive FrameDissector where
  | ethernet | arp | ipv4 | ipv6 | tcp | udp
  deriving DecidableEq

namespace FrameDissector

def start : FrameDissector → ParentLayer → Analysis
  | .ethernet => EthrenetDissector.start
  | .arp => ARPDissector.start
  | .ipv4 => IPv4Dissector.start
  | .ipv6 => IPv6Dissector.start
  | .tcp => TCPDissector.start
  | .udp => UDPDissector.start

/-- What is read in front of `parentLayer.layers[layer.namespace] = layer`. -/
def body : FrameDissector → ParentLayer → Dissect PUnit
  | .ethernet, p => EthrenetDissector.body p.payload
  | .arp, p => ARPDissector.body p.payload
  | .ipv4, p => IPv4Dissector.body p.payload
  | .ipv6, p => IPv6Dissector.body p.payload
  | .tcp, p => TCPDissector.body p
  | .udp, p => UDPDissector.body p

/-- `analyze`: all but one have the body in a `try`. -/
def analyze (d : FrameDissector) (p : ParentLayer) : Dissect PUnit :=
  match d with
  | .ethernet => EthrenetDissector.analyze p
  | d => do catchError (d.body p); attach

end FrameDissector

/-! ### Nothing but `attach` touches the layers of the parent -/

/-- What the parent has been given. -/
def attached (a : Analysis) : String → Option ScriptLayer := a.parentLayer.layers

section Keeps

variable {payload : Payload} {α : Type}

@[simp] lemma keeps_modifyLayer (f : ScriptLayer → ScriptLayer) : Keeps attached (modifyLayer f) :=
  fun _ => rfl

@[simp] lemma keeps_push (field : Field) : Keeps attached (push field) := keeps_modifyLayer _

@[simp] lemma keeps_setAttr (key : String) (value : Attr) : Keeps attached (setAttr key value) :=
  keeps_modifyLayer _

@[simp] lemma keeps_setSummary (summary : String) : Keeps attached (setSummary summary) :=
  keeps_modifyLayer _

@[simp] lemma keeps_pushStream (stream : LayerStream) : Keeps attached (pushStream stream) :=
  keeps_modifyLayer _

@[simp] lemma keeps_pushAttr (name attr : String) (data : Payload) {value : Dissect Attr}
    (h : Keeps attached value) : Keeps attached (pushAttr name attr data value) :=
  keeps_bind (keeps_push _) fun _ => keeps_bind h fun _ => keeps_setAttr _ _

@[simp] lemma keeps_pushPayload (payload : Payload) : Keeps attached (pushPayload payload) :=
  keeps_bind (keeps_modifyLayer _) fun _ => keeps_push _

@[simp] lemma keeps_setProtocol (ns : String) (protocol : Enum) :
    Keeps attached (setProtocol ns protocol) := by
  unfold setProtocol
  split_ifs
  · exact keeps_modifyLayer _
  · exact keeps_pure _

@[simp] lemma keeps_assertLength (n : ℕ) : Keeps attached (assertLength payload n) := by
  unfold assertLength
  split_ifs
  · exact keeps_throw _
  · exact keeps_pure _

@[simp] lemma keeps_readUInt8 (i : ℕ) : Keeps attached (readUInt8 payload i) := keeps_ofExcept _

@[simp] lemma keeps_readUInt16BE (i : ℕ) : Keeps attached (readUInt16BE payload i) :=
  keeps_ofExcept _

@[simp] lemma keeps_readUInt32BE (i : ℕ) : Keeps attached (readUInt32BE payload i) :=
  keeps_ofExcept _

@[simp] lemma keeps_construct (x : Except String α) : Keeps attached (construct x) :=
  keeps_ofExcept _

@[simp] lemma keeps_summarize (protocol : Enum) (addresses : String) :
    Keeps attached (summarize protocol addresses) := keeps_setSummary _

@[simp] lemma keeps_newHost (addr : Option Attr) (port : ℕ) :
    Keeps attached (newHost addr port) := by
  unfold newHost
  split
  · exact keeps_throw _
  · exact keeps_construct _
  · exact keeps_construct _
  · exact keeps_throw _

@[simp] lemma keeps_takePadding : Keeps attached (ARPDissector.takePadding payload) :=
  fun _ => rfl

lemma keeps_unshiftField (field : Field) : Keeps attached (unshiftField field) := by
  intro a
  rw [unshiftField, Returns.outcome_bind (show Returns get a a a from rfl)]
  cases a.layer.fields.getLast? with
  | none => rfl
  | some f => rfl

end Keeps

lemma EthrenetDissector.keeps_readType (payload : Payload) : Keeps attached (readType payload) := by
  unfold readType
  refine keeps_bind (by simp) fun _ => keeps_bind (by simp) fun type => ?_
  split_ifs
  · exact keeps_bind (by simp) fun _ => by simp
  · repeat refine keeps_bind (by simp) fun _ => ?_
    simp

lemma EthrenetDissector.keeps_body (payload : Payload) : Keeps attached (body payload) := by
  simp only [body, readAddresses, bind_assoc]
  iterate 9 refine keeps_bind (by simp) fun _ => ?_
  refine keeps_bind (keeps_readType payload) fun _ => ?_
  exact keeps_bind (by simp) fun _ => by simp

lemma ARPDissector.keeps_body (payload : Payload) : Keeps attached (body payload) := by
  simp only [body, readTypes, readSender, readTarget, bind_assoc]
  repeat refine keeps_bind (by simp) fun _ => ?_
  simp

lemma IPv4Dissector.keeps_body (payload : Payload) : Keeps attached (body payload) := by
  simp only [body, readHeader, readLengths, readFragment, readProtocol, readAddresses, finish,
    bind_assoc]
  repeat refine keeps_bind (by simp) fun _ => ?_
  simp

namespace IPv6Dissector

lemma keeps_readExtensions (payload : Payload) (rounds : ℕ) (position : Position) :
    Keeps attached (readExtensions payload rounds position) := by
  induction rounds generalizing position with
  | zero => exact keeps_pure _
  | succ rounds ih =>
    rw [readExtensions]
    split_ifs
    · simp only [readExtension, bind_assoc]
      repeat refine keeps_bind (by simp) fun _ => ?_
      exact keeps_bind (keeps_unshiftField _) fun _ => keeps_bind (keeps_pure _) fun next => ih next
    · exact keeps_pure _

lemma keeps_finish (payload : Payload) (header : Header) (position : Position) :
    Keeps attached (finish payload header position) := by
  unfold finish
  repeat refine keeps_bind (by simp) fun _ => ?_
  simp

lemma keeps_readHeader (payload : Payload) : Keeps attached (readHeader payload) := by
  simp only [readHeader, readLengths, readAddresses, bind_assoc]
  iterate 3 refine keeps_bind (by simp) fun _ => ?_
  -- the traffic class is read of two bytes
  refine keeps_bind (keeps_pushAttr _ _ _ (keeps_bind (by simp) fun _ => by simp)) fun _ => ?_
  repeat refine keeps_bind (by simp) fun _ => ?_
  simp

lemma keeps_body (payload : Payload) : Keeps attached (body payload) := by
  refine keeps_bind (keeps_readHeader payload) fun header => keeps_bind ?_ fun _ =>
    keeps_bind (keeps_readExtensions payload _ _) fun position => ?_
  · unfold assertPayload
    split_ifs
    · exact keeps_assertLength _
    · exact keeps_pure _
  · cases position with
    | none => exact keeps_pure _
    | some position => exact keeps_finish payload header position

end IPv6Dissector

namespace TCPDissector

lemma keeps_readHeader (p : ParentLayer) : Keeps attached (readHeader p) := by
  simp only [readHeader, ports, readFlags, bind_assoc]
  repeat refine keeps_bind (by simp) fun _ => ?_
  simp

lemma keeps_finish (p : ParentLayer) (header : Header) (options : List String × List Field) :
    Keeps attached (finish p header options) := by
  unfold finish
  repeat refine keeps_bind (by simp) fun _ => ?_
  simp

lemma keeps_body (p : ParentLayer) : Keeps attached (body p) := by
  refine keeps_bind (keeps_readHeader p) fun header => keeps_bind (keeps_assertLength _) fun _ => ?_
  split
  · exact keeps_pure _
  · exact keeps_bind (keeps_ofExcept _) fun options => keeps_finish p header options

end TCPDissector

lemma UDPDissector.keeps_body (p : ParentLayer) : Keeps attached (body p) := by
  simp only [body, ports, readLength, bind_assoc]
  repeat refine keeps_bind (by simp) fun _ => ?_
  simp

lemma FrameDissector.keeps_body (d : FrameDissector) (p : ParentLayer) :
    Keeps attached (d.body p) := by
  cases d with
  | ethernet => exact EthrenetDissector.keeps_body _
  | arp => exact ARPDissector.keeps_body _
  | ipv4 => exact IPv4Dissector.keeps_body _
  | ipv6 => exact IPv6Dissector.keeps_body _
  | tcp => exact TCPDissector.keeps_body _
  | udp => exact UDPDissector.keeps_body _

/-! ### Missing bytes -/

/-- An extension header that begins at an offset, or one after it, is not all there. -/
inductive MissingExtension (payload : Payload) : ℕ → ℕ → Prop where
  | here {nextHeader offset : ℕ} (known : nextHeader = 0 ∨ nextHeader = 60)
      (short : payload.length < offset + (payload.byte (offset + 1) + 1) * 8) :
      MissingExtension payload nextHeader offset
  | next {nextHeader offset : ℕ} (known : nextHeader = 0 ∨ nextHeader = 60)
      (rest : MissingExtension payload (payload.byte offset)
        (offset + (payload.byte (offset + 1) + 1) * 8)) :
      MissingExtension payload nextHeader offset

/-- An option that begins at an offset of the header, or one after it, is not all there. But for the
first two kinds its second byte says how long it is. -/
inductive MissingOption (optionData : Payload) : ℕ → Prop where
  | nop {offset : ℕ} (kind : optionData.byte offset = 1)
      (rest : MissingOption optionData (offset + 1)) : MissingOption optionData offset
  | here {offset : ℕ} (kind : 1 < optionData.byte offset)
      (short : optionData.length < offset + max 2 (optionData.byte (offset + 1))) :
      MissingOption optionData offset
  | next {offset : ℕ} (kind : 1 < optionData.byte offset)
      (rest : MissingOption optionData (offset + optionData.byte (offset + 1))) :
      MissingOption optionData offset

/-- A byte is missing: one of the header, or one of what the header says to follow. -/
def FrameDissector.Missing (payload : Payload) : FrameDissector → Prop
  | .ethernet => payload.length < 14
  | .arp => payload.length < 28
  | .ipv4 => payload.length < 20 ∨ payload.length < BigEndian.value (payload.slice 2 4).bytes
  | .ipv6 => payload.length < 40 ∨
      (0 < BigEndian.value (payload.slice 4 6).bytes ∧
        payload.length < BigEndian.value (payload.slice 4 6).bytes + 40) ∨
      MissingExtension payload (payload.byte 6) 40
  | .tcp => payload.length < 20 ∨ payload.length < (payload.byte 12 >>> 4) * 4 ∨
      MissingOption (payload.slice 0 ((payload.byte 12 >>> 4) * 4)) 20
  | .udp => payload.length < 8 ∨ payload.length < BigEndian.value (payload.slice 4 6).bytes

/-! ### Where they throw -/

section Yields

variable {payload : Payload} {i n : ℕ} {α : Type} {x : Dissect α} {v : α}

lemma fails_assertLength (h : payload.length < n) : Fails (assertLength payload n) :=
  fun a => ⟨_, a, outcome_assertLength h a⟩

lemma yields_assertLength : Yields (assertLength payload n) fun _ => n ≤ payload.length :=
  fun _ _ _ => le_of_returns_assertLength

lemma yields_of_returns (h : ∀ a, Returns x a v a) : Yields x fun w => w = v :=
  fun a _ _ hret => (hret.unique (h a)).1

lemma yields_readUInt8 (payload : Payload) (i : ℕ) :
    Yields (readUInt8 payload i) fun v => i < payload.length → v = payload.byte i :=
  fun a _ _ hret hi => (hret.unique (returns_readUInt8 hi a)).1

end Yields

lemma EthrenetDissector.fails_body {payload : Payload} (h : payload.length < 14) :
    Fails (body payload) := by
  refine fails_bind fun _ => Fails.bind ?_
  exact (fails_assertLength h).bind

lemma ARPDissector.fails_body {payload : Payload} (h : payload.length < 28) :
    Fails (body payload) := by
  refine fails_bind fun _ => fails_bind fun _ => Fails.bind ?_
  unfold readTarget
  iterate 3 refine fails_bind fun _ => ?_
  exact (fails_assertLength h).bind

namespace IPv4Dissector

lemma yields_readHeader (payload : Payload) : Yields (readHeader payload) fun header =>
    20 ≤ payload.length ∧ header.totalLength = BigEndian.value (payload.slice 2 4).bytes := by
  simp only [readHeader, readLengths, readAddresses, bind_assoc, pure_bind]
  iterate 5 refine yields_true.bind fun _ _ => ?_
  refine yields_assertLength.bind fun _ h4 => ?_
  refine (yields_of_returns (returns_readUInt16BE h4)).bind fun totalLength htotal => ?_
  iterate 8 refine yields_true.bind fun _ _ => ?_
  refine yields_assertLength.bind fun _ h20 => ?_
  iterate 2 refine yields_true.bind fun _ _ => ?_
  exact yields_pure ⟨h20, htotal⟩

lemma fails_body {payload : Payload} (h : FrameDissector.ipv4.Missing payload) :
    Fails (body payload) := by
  refine (yields_readHeader payload).fails_bind fun header ⟨h20, htotal⟩ => ?_
  rcases h with hshort | hshort
  · exact absurd h20 (Nat.not_le.mpr hshort)
  · exact (fails_assertLength (htotal ▸ hshort)).bind

end IPv4Dissector

lemma UDPDissector.yields_readLength (payload : Payload) : Yields (readLength payload) fun length =>
    8 ≤ payload.length ∧ length = BigEndian.value (payload.slice 4 6).bytes := by
  refine yields_assertLength.bind fun _ h6 => ?_
  refine (yields_of_returns (returns_readUInt16BE h6)).bind fun length hlength => ?_
  refine yields_true.bind fun _ _ => ?_
  refine yields_assertLength.bind fun _ h8 => ?_
  iterate 2 refine yields_true.bind fun _ _ => ?_
  exact yields_pure ⟨h8, hlength⟩

lemma UDPDissector.fails_body {p : ParentLayer} (h : FrameDissector.udp.Missing p.payload) :
    Fails (body p) := by
  refine fails_bind fun _ => (yields_readLength p.payload).fails_bind fun length ⟨h8, hlength⟩ => ?_
  rcases h with hshort | hshort
  · exact absurd h8 (Nat.not_le.mpr hshort)
  · exact (fails_assertLength (hlength ▸ hshort)).bind

namespace IPv6Dissector

lemma yields_readHeader (payload : Payload) : Yields (readHeader payload) fun header =>
    40 ≤ payload.length ∧ header.payloadLength = BigEndian.value (payload.slice 4 6).bytes ∧
      header.nextHeader = payload.byte 6 := by
  simp only [readHeader, readLengths, readAddresses, bind_assoc, pure_bind]
  iterate 8 refine yields_true.bind fun _ _ => ?_
  refine yields_assertLength.bind fun _ h6 => ?_
  refine (yields_of_returns (returns_readUInt16BE h6)).bind fun payloadLength hlength => ?_
  refine yields_true.bind fun _ _ => ?_
  refine yields_assertLength.bind fun _ h7 => ?_
  refine (yields_of_returns (returns_readUInt8 h7)).bind fun nextHeader hnext => ?_
  iterate 6 refine yields_true.bind fun _ _ => ?_
  refine yields_assertLength.bind fun _ h40 => ?_
  iterate 2 refine yields_true.bind fun _ _ => ?_
  exact yields_pure ⟨h40, hlength, hnext⟩

/-- The length of an extension header is read where it is, or there is not enough for the least
one. -/
lemma yields_readExtension (payload : Payload) (nextHeader offset : ℕ) :
    Yields (readExtension payload nextHeader offset) fun position =>
      position.nextHeader = payload.byte offset ∧
        position.offset = offset + (payload.byte (offset + 1) + 1) * 8 ∧
        position.offset ≤ payload.length := by
  refine (yields_readUInt8 payload _).bind fun byte hbyte => ?_
  refine yields_assertLength.bind fun _ hlen => ?_
  iterate 2 refine yields_true.bind fun _ _ => ?_
  refine (yields_readUInt8 payload _).bind fun next hnext => ?_
  refine yields_true.bind fun _ _ => ?_
  have hbyte' := hbyte (by omega)
  subst hbyte'
  exact yields_pure ⟨hnext (by omega), rfl, hlen⟩

/-- The loop does not get over an extension header that is not all there. -/
lemma yields_readExtensions {payload : Payload} {nextHeader offset : ℕ}
    (h : MissingExtension payload nextHeader offset) (rounds : ℕ) (data : Payload) :
    Yields (readExtensions payload rounds ⟨nextHeader, data, offset⟩) fun r => r = none := by
  induction h generalizing rounds data with
  | @here nextHeader offset known short =>
    cases rounds with
    | zero => exact yields_pure rfl
    | succ rounds =>
      rw [readExtensions, if_pos known]
      refine (yields_readExtension payload _ _).bind fun position hposition => ?_
      obtain ⟨-, hoffset, hle⟩ := hposition
      exact absurd hle (Nat.not_le.mpr (hoffset ▸ short))
  | @next nextHeader offset known rest ih =>
    cases rounds with
    | zero => exact yields_pure rfl
    | succ rounds =>
      rw [readExtensions, if_pos known]
      refine (yields_readExtension payload _ _).bind fun position hposition => ?_
      obtain ⟨next, data', offset'⟩ := position
      obtain ⟨hnext, hoffset, -⟩ := hposition
      obtain rfl : next = _ := hnext
      obtain rfl : offset' = _ := hoffset
      exact ih rounds data'

lemma fails_body {payload : Payload} (h : FrameDissector.ipv6.Missing payload) :
    Fails (body payload) := by
  refine (yields_readHeader payload).fails_bind fun header ⟨h40, hlength, hnext⟩ => ?_
  rcases h with hshort | ⟨hpos, hshort⟩ | hmissing
  · exact absurd h40 (Nat.not_le.mpr hshort)
  · refine Fails.bind ?_
    rw [assertPayload, hlength, if_pos hpos]
    exact fails_assertLength hshort
  · rw [← hnext] at hmissing
    refine fails_bind fun _ => ?_
    intro a
    have hnone := yields_readExtensions hmissing (payload.length + 1) (payload.slice 6 7) a
    rcases hout : outcome (readExtensions payload (payload.length + 1)
      ⟨header.nextHeader, payload.slice 6 7, 40⟩) a with ⟨e | position, t⟩
    · exact ⟨e, t, outcome_bind_error hout _⟩
    · obtain rfl := hnone position t hout
      exact absurd hout (readExtensions_ends (by omega))

end IPv6Dissector

namespace TCPDissector

lemma yields_readHeader (p : ParentLayer) : Yields (readHeader p) fun header =>
    20 ≤ p.payload.length ∧ header.dataOffset = p.payload.byte 12 >>> 4 := by
  unfold readHeader
  iterate 7 refine yields_true.bind fun _ _ => ?_
  refine yields_assertLength.bind fun _ h13 => ?_
  refine (yields_of_returns (returns_readUInt8 h13)).bind fun byte hbyte => ?_
  iterate 6 refine yields_true.bind fun _ _ => ?_
  refine yields_assertLength.bind fun _ h20 => ?_
  refine yields_true.bind fun _ _ => ?_
  subst hbyte
  exact yields_pure ⟨h20, rfl⟩

variable {payload optionData : Payload} {offset len : ℕ} {r : ℕ × List String × List Field}

lemma byte_of_get {x : UInt8} (h : (optionData.get offset).mapError ReadError.thrown = .ok x) :
    optionData.byte offset = x.toNat := by
  rw [Buffer.get_eq] at h
  split_ifs at h with hlt
  · rw [Buffer.byte, List.getD_eq_getElem?_getD, List.getElem?_eq_getElem hlt, ← Except.ok.inj h]
    rfl
  · cases h

/-- Behind the end there are no bytes but zero. -/
lemma lt_of_byte (h : optionData.byte offset ≠ 0) : offset < optionData.length := by
  by_contra hle
  apply h
  rw [Buffer.byte, List.getD_eq_getElem?_getD, List.getElem?_eq_none]
  · rfl
  · rw [optionData.length_bytes]
    exact Nat.le_of_not_lt hle

/-- The second byte of an option that passes the check is its length. -/
lemma byte_of_checkLength {u : PUnit} (h : checkLength optionData offset len = .ok u) :
    optionData.byte (offset + 1) = len := by
  unfold checkLength at h
  split_ifs at h with hle
  obtain ⟨byte, hget, h⟩ := exists_of_except_bind h
  split_ifs at h with hbyte
  exact (byte_of_get hget).trans hbyte

/-- A round that goes on goes over the padding of one byte or over all of an option. -/
lemma next_of_readOption (h : readOption payload optionData offset = .ok r) :
    (optionData.byte offset = 1 → r.1 = offset + 1) ∧
      (1 < optionData.byte offset → r.1 = offset + optionData.byte (offset + 1) ∧
        offset + max 2 (optionData.byte (offset + 1)) ≤ optionData.length) := by
  obtain ⟨kind, hget, h⟩ := exists_of_except_bind h
  rw [byte_of_get hget]
  have hchecked : ∀ {len : ℕ} {u : PUnit}, 2 ≤ len → checkLength optionData offset len = .ok u →
      offset + len = offset + optionData.byte (offset + 1) ∧
        offset + max 2 (optionData.byte (offset + 1)) ≤ optionData.length := by
    intro len u hlen hcheck
    rw [byte_of_checkLength hcheck, max_eq_right hlen]
    exact ⟨rfl, le_of_checkLength hcheck⟩
  split_ifs at h with h0 h1
  · subst h0
    exact ⟨fun h => absurd h (by decide), fun h => absurd h (by decide)⟩
  · subst h1
    obtain rfl := Except.ok.inj h
    exact ⟨fun _ => rfl, fun h => absurd h (by decide)⟩
  all_goals
    refine ⟨fun hkind => absurd (UInt8.toNat_inj.mp (hkind.trans (by rfl))) h1, fun _ => ?_⟩
    obtain ⟨_, hcheck, h⟩ := exists_of_except_bind h
  · obtain ⟨value, -, h⟩ := exists_of_except_bind h
    obtain rfl := Except.ok.inj h
    exact hchecked (by decide) hcheck
  · obtain ⟨value, -, h⟩ := exists_of_except_bind h
    obtain rfl := Except.ok.inj h
    exact hchecked (by decide) hcheck
  · obtain rfl := Except.ok.inj h
    exact hchecked (by decide) hcheck
  · obtain ⟨length, -, h⟩ := exists_of_except_bind h
    cases h
  · obtain ⟨mt, -, h⟩ := exists_of_except_bind h
    obtain ⟨et, -, h⟩ := exists_of_except_bind h
    obtain rfl := Except.ok.inj h
    exact hchecked (by decide) hcheck

variable {out : List String × List Field}

/-- Bytes before the end have to be read. -/
lemma readOptions_ne (hlt : offset < optionData.length)
    (hrest : ∀ r, readOption payload optionData offset = .ok r → ∀ rounds items fields,
      readOptions payload optionData rounds r.1 items fields ≠ some (.ok out))
    (rounds : ℕ) (items : List String) (fields : List Field) :
    readOptions payload optionData rounds offset items fields ≠ some (.ok out) := by
  cases rounds with
  | zero =>
    intro h
    cases h
  | succ rounds =>
    rw [readOptions, if_pos hlt]
    cases hout : readOption payload optionData offset with
    | error e =>
      intro h
      cases h
    | ok r => exact hrest r hout rounds _ _

/-- The loop does not get over an option that is not all there. -/
lemma readOptions_missing (h : MissingOption optionData offset) (rounds : ℕ) (items : List String)
    (fields : List Field) :
    readOptions payload optionData rounds offset items fields ≠ some (.ok out) := by
  induction h generalizing rounds items fields with
  | nop kind rest ih =>
    refine readOptions_ne (lt_of_byte (by omega)) (fun r hout => ?_) rounds items fields
    rw [(next_of_readOption hout).1 kind]
    exact ih
  | here kind short =>
    refine readOptions_ne (lt_of_byte (by omega)) (fun r hout => ?_) rounds items fields
    exact absurd ((next_of_readOption hout).2 kind).2 (Nat.not_le.mpr short)
  | next kind rest ih =>
    refine readOptions_ne (lt_of_byte (by omega)) (fun r hout => ?_) rounds items fields
    rw [((next_of_readOption hout).2 kind).1]
    exact ih

lemma fails_body {p : ParentLayer} (h : FrameDissector.tcp.Missing p.payload) : Fails (body p) := by
  refine (yields_readHeader p).fails_bind fun header ⟨h20, hoffset⟩ => ?_
  rcases h with hshort | hshort | hmissing
  · exact absurd h20 (Nat.not_le.mpr hshort)
  · exact (fails_assertLength (hoffset ▸ hshort)).bind
  · rw [← hoffset] at hmissing
    refine yields_assertLength.fails_bind fun _ hlen => ?_
    have hlength := p.payload.length_slice (Nat.zero_le _) hlen
    split
    next hnone => exact absurd hnone (readOptions_ends (by omega))
    next result hresult =>
      cases result with
      | error e => exact Fails.bind (fails_throw e)
      | ok out => exact absurd hresult (readOptions_missing hmissing _ _ _)

end TCPDissector

lemma FrameDissector.fails_body {d : FrameDissector} {p : ParentLayer} (h : d.Missing p.payload) :
    Fails (d.body p) := by
  cases d with
  | ethernet => exact EthrenetDissector.fails_body h
  | arp => exact ARPDissector.fails_body h
  | ipv4 => exact IPv4Dissector.fails_body h
  | ipv6 => exact IPv6Dissector.fails_body h
  | tcp => exact TCPDissector.fails_body h
  | udp => exact UDPDissector.fails_body h

/-! ### What is reported -/

namespace EthrenetDissector

variable {payload : Payload}

lemma new_slice {s : ℕ} (h : s + 6 ≤ payload.length) :
    ∃ x, MACAddress.new (payload.slice s (s + 6)).bytes = .ok x := by
  have hlength : (payload.slice s (s + 6)).bytes.length = 6 := by
    rw [Buffer.length_bytes, payload.length_slice (Nat.le_add_right _ _) h]
    omega
  exact ⟨⟨_, hlength⟩, dif_pos hlength⟩

lemma fills_readAddresses {dst src : MACAddress} (h : 12 ≤ payload.length)
    (hdst : MACAddress.new (payload.slice 0 6).bytes = .ok dst)
    (hsrc : MACAddress.new (payload.slice 6 12).bytes = .ok src) :
    Fills (readAddresses payload) (dst, src) 2
      [("dst", .instance (.macAddress dst)), ("src", .instance (.macAddress src))] := by
  refine .after (returns_assertLength (by omega)) ?_
  refine .push ?_
  refine .after (returns_construct hdst) ?_
  refine .setAttr ?_
  refine .after (returns_assertLength h) ?_
  refine .push ?_
  refine .after (returns_construct hsrc) ?_
  refine .setAttr ?_
  exact fills_pure _

lemma fills_readType (h : 14 ≤ payload.length) :
    ∃ etherType attrs, Fills (readType payload) etherType 1 attrs := by
  by_cases htype : BigEndian.value (payload.slice 12 14).bytes ≤ 1500
  · refine ⟨none, [], ?_⟩
    refine .after (returns_assertLength h) (.after (returns_readUInt16BE h) ?_)
    rw [if_pos htype]
    exact .push (fills_pure _)
  · let etherType := Enum.ofClass .ethType (BigEndian.value (payload.slice 12 14).bytes)
    refine ⟨some etherType, [("etherType", .instance (.enum etherType))], ?_⟩
    refine .after (returns_assertLength h) (.after (returns_readUInt16BE h) ?_)
    rw [if_neg htype]
    refine .after (returns_readUInt16BE h) ?_
    refine .push ?_
    refine .setAttr ?_
    exact (fills_setProtocol _ _).bind (fills_pure _)

/-- With 14 bytes nothing is thrown. -/
lemma returns_body (h : 14 ≤ payload.length) (a : Analysis) :
    ∃ t, Returns (body payload) a ⟨⟩ t := by
  obtain ⟨dst, hdst⟩ := new_slice (s := 0) (by omega : 0 + 6 ≤ payload.length)
  obtain ⟨src, hsrc⟩ := new_slice (s := 6) (by omega : 6 + 6 ≤ payload.length)
  obtain ⟨etherType, attrs, htype⟩ := fills_readType h
  obtain ⟨t, hret, -⟩ := fills_readAddresses (by omega) hdst hsrc a
  obtain ⟨u, hret', -⟩ := htype t
  exact ⟨_, hret.bind (hret'.bind rfl)⟩

end EthrenetDissector

namespace FrameDissector

variable {d : FrameDissector} {p : ParentLayer}

/-- `analyze` returns, it attaches a layer and nothing else, and the layer has an error if bytes are
missing. -/
def Reported (d : FrameDissector) (p : ParentLayer) : Prop :=
  ∃ a layer, Returns (d.analyze p) (d.start p) ⟨⟩ a ∧
    a.parentLayer.layers = Function.update p.layers layer.ns (some layer) ∧
    (d.Missing p.payload → layer.error ≠ none)

lemma start_parentLayer (d : FrameDissector) (p : ParentLayer) : (d.start p).parentLayer = p := by
  cases d <;> rfl

/-- An exception is caught. -/
lemma reported_of_ne (h : d ≠ .ethernet) : d.Reported p := by
  have hanalyze : d.analyze p = (do catchError (d.body p); attach) := by
    cases d with
    | ethernet => exact absurd rfl h
    | _ => rfl
  have hkeeps := d.keeps_body p (d.start p)
  rw [attached, attached, d.start_parentLayer] at hkeeps
  rw [Reported, hanalyze]
  rcases hout : outcome (d.body p) (d.start p) with ⟨e | u, t⟩
  · rw [hout] at hkeeps
    refine ⟨_, _, (returns_catchError_of_error hout).bind rfl,
      congrArg (Function.update · _ _) hkeeps, fun _ => ?_⟩
    exact Option.some_ne_none e
  · rw [hout] at hkeeps
    refine ⟨_, _, (returns_catchError hout).bind rfl, congrArg (Function.update · _ _) hkeeps,
      fun hmissing => ?_⟩
    obtain ⟨e, t', herror⟩ := fails_body hmissing (d.start p)
    cases hout.symm.trans herror

lemma reported_ethernet : FrameDissector.ethernet.Reported p ↔ 14 ≤ p.payload.length := by
  have hkeeps := FrameDissector.ethernet.keeps_body p (EthrenetDissector.start p)
  constructor
  · rintro ⟨a, layer, hret, -, -⟩
    by_contra hshort
    obtain ⟨e, t, herror⟩ := EthrenetDissector.fails_body (Nat.lt_of_not_le hshort)
      (EthrenetDissector.start p)
    cases hret.symm.trans (outcome_bind_error herror _)
  · intro h
    obtain ⟨t, hret⟩ := EthrenetDissector.returns_body h (EthrenetDissector.start p)
    rw [body, hret] at hkeeps
    exact ⟨_, _, hret.bind rfl, congrArg (Function.update · _ _) hkeeps,
      fun hmissing => absurd h (Nat.not_le.mpr hmissing)⟩

/-- All dissectors report frames that are cut off but the one of Ethernet, which throws where bytes
of its header are missing. -/
theorem reported_iff (d : FrameDissector) (p : ParentLayer) :
    d.Reported p ↔ (d = .ethernet → 14 ≤ p.payload.length) := by
  by_cases h : d = .ethernet
  · subst h
    rw [reported_ethernet]
    exact ⟨fun hlen _ => hlen, fun hlen => hlen rfl⟩
  · exact iff_of_true (reported_of_ne h) fun heq => absurd heq h

/-- A frame of five bytes. -/
def cutOff : ParentLayer where
  ns := "::<Ethernet>"
  payload := Hex.ofVec [0, 1, 2, 3, 4] (by decide)
  fields := []
  attrs := fun _ => none
  layers := fun _ => none

/-- The frame has no layer at all. -/
theorem frame_lost :
    (outcome (FrameDissector.ethernet.analyze cutOff) (FrameDissector.ethernet.start cutOff)).1 =
      .error (.thrown "too short frame") ∧
    (outcome (FrameDissector.ethernet.analyze cutOff)
      (FrameDissector.ethernet.start cutOff)).2.parentLayer.layers = cutOff.layers ∧
    ¬ FrameDissector.ethernet.Reported cutOff := by
  refine ⟨rfl, rfl, ?_⟩
  rw [reported_ethernet]
  decide

end FrameDissector

end Dripcap
