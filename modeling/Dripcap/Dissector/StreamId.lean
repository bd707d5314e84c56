import Dripcap.Dissector.TcpOptions

/-!
# Identifiers of TCP streams

The dissector names a stream by the texts of its hosts with a slash between them. All segments of
one connection in one direction have one name, and those of different ones have different names.
-/

namespace Dripcap

open Outcome Dissect

namespace TCPDissector

variable {parentLayer parentLayer' : ParentLayer} {x y x' y' : NetAddress} {header : Header}

/-- After the header nothing happens, or all that `finish` does. -/
lemma readBody_cases (parentLayer : ParentLayer) (header : Header) (a : Analysis) :
    (∃ r, outcome (readBody parentLayer header) a = (r, a)) ∨ ∃ items fields,
      Returns (readBody parentLayer header) a ⟨⟩
        { a with layer := bodyLayer parentLayer header items fields a.layer } := by
  rcases Nat.lt_or_ge parentLayer.payload.length (header.dataOffset * 4) with hlt | hlen
  · exact .inl ⟨_, outcome_bind_error (outcome_assertLength hlt a) _⟩
  · rcases hoptions : readOptions parentLayer.payload
      (parentLayer.payload.slice 0 (header.dataOffset * 4)) (parentLayer.payload.length + 1) 20 [] []
      with _ | e | ⟨items, fields⟩
    · refine .inl ⟨.ok ⟨⟩, ((returns_assertLength hlen a).outcome_bind _).trans ?_⟩
      rw [hoptions]
      rfl
    · exact .inl ⟨_, outcome_readBody_error hlen hoptions a⟩
    · exact .inr ⟨items, fields, returns_readBody hlen hoptions a⟩

lemma streams_run (body : Dissect PUnit) (a : Analysis) :
    (run body a).layer.streams = (outcome body a).2.layer.streams := by
  rcases hbody : outcome body a with ⟨e | u, t⟩
  · rw [layer_run_of_error hbody]
  · rw [layer_run hbody]

/-- A stream has the name of the hosts. -/
lemma id_of_mem_streams (h : HasAddresses parentLayer x y) {st : LayerStream}
    (hst : st ∈ (analyze parentLayer).layer.streams) :
    ∃ hsrc hdst, st.id =
      (x.host (BigEndian.value (parentLayer.payload.slice 0 2).bytes) hsrc).toString ++ "/" ++
        (y.host (BigEndian.value (parentLayer.payload.slice 2 4).bytes) hdst).toString := by
  have hlen : 20 ≤ parentLayer.payload.length := by
    by_contra hshort
    rw [(short_analyze (Nat.lt_of_not_le hshort)).2] at hst
    cases hst
  obtain ⟨t, hgrows, hret⟩ := gives_readHeader h hlen (start parentLayer)
  rw [analyze, streams_run, body, hret.outcome_bind] at hst
  refine ⟨value_le _ (by omega), value_le _ (by omega), ?_⟩
  have hstreams : t.layer.streams = [] := hgrows.streams
  rcases readBody_cases parentLayer (headerOf parentLayer.payload x y hlen) t with
    ⟨r, hbody⟩ | ⟨items, fields, hbody⟩
  · rw [hbody, hstreams] at hst
    cases hst
  · rw [hbody] at hst
    have hmem : st ∈ t.layer.streams ++
      [streamOf parentLayer (headerOf parentLayer.payload x y hlen)] := hst
    rw [hstreams, List.nil_append, List.mem_singleton] at hmem
    rw [hmem]
    rfl

/-- Two streams have one name exactly if they are between the same hosts. -/
theorem id_eq_iff (h : HasAddresses parentLayer x y) (h' : HasAddresses parentLayer' x' y')
    {st st' : LayerStream} (hst : st ∈ (analyze parentLayer).layer.streams)
    (hst' : st' ∈ (analyze parentLayer').layer.streams) :
    st.id = st'.id ↔
      x = x' ∧ BigEndian.value (parentLayer.payload.slice 0 2).bytes =
          BigEndian.value (parentLayer'.payload.slice 0 2).bytes ∧
        y = y' ∧ BigEndian.value (parentLayer.payload.slice 2 4).bytes =
          BigEndian.value (parentLayer'.payload.slice 2 4).bytes := by
  obtain ⟨hsrc, hdst, hid⟩ := id_of_mem_streams h hst
  obtain ⟨hsrc', hdst', hid'⟩ := id_of_mem_streams h' hst'
  have hslash : "/".toList = ['/'] := rfl
  rw [hid, hid', ← String.toList_inj]
  simp only [String.toList_append, hslash, List.append_assoc, List.singleton_append]
  rw [List.append_cons_inj_of_notMem NetAddress.slash_notMem NetAddress.slash_notMem,
    String.toList_inj, String.toList_inj, NetAddress.host_toString_inj, NetAddress.host_toString_inj,
    and_assoc, and_iff_right rfl]

/-- A segment from port 80 to port 81. -/
def sampleSegment : Payload := Hex.ofVec
  [0, 80, 0, 81, 0, 0, 0, 1, 0, 0, 0, 2, 0x50, 0x10, 0, 0, 0, 0, 0, 0, 0x61] (by decide)

theorem id_eq_iff_sample : ∃ st st',
    st ∈ (analyze (sampleParent sampleSegment)).layer.streams ∧
    st' ∈ (analyze (sampleParent timestampsSegment)).layer.streams ∧
    (st.id = st'.id ↔
      NetAddress.ipv4 ⟨[192, 168, 0, 1], rfl⟩ = .ipv4 ⟨[192, 168, 0, 1], rfl⟩ ∧
        BigEndian.value (sampleSegment.slice 0 2).bytes =
          BigEndian.value (timestampsSegment.slice 0 2).bytes ∧
        NetAddress.ipv4 ⟨[192, 168, 0, 2], rfl⟩ = .ipv4 ⟨[192, 168, 0, 2], rfl⟩ ∧
        BigEndian.value (sampleSegment.slice 2 4).bytes =
          BigEndian.value (timestampsSegment.slice 2 4).bytes) := by
  refine ⟨_, _, List.mem_singleton.mpr rfl, List.mem_singleton.mpr rfl, ?_⟩
  exact id_eq_iff (hasAddresses_sample sampleSegment) (hasAddresses_sample timestampsSegment)
    (List.mem_singleton.mpr rfl) (List.mem_singleton.mpr rfl)

end TCPDissector

end Dripcap
