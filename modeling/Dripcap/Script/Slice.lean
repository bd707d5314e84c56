import Dripcap.Script.Buffer

/-!
# Slices of views

`sliceRange` adds the first argument to `start` before it takes the minimum with `end`, so an
argument close to `2 ^ 64`, which is what a negative number of a script becomes, goes around and
names a place in front of the view.
-/

namespace Dripcap.Buffer

variable (b : Buffer) {s e : ℕ}

/-! ### The range of a slice -/

lemma bytes_eq_drop : b.bytes = (b.vec.take b.fin).drop b.start := by
  rw [bytes, List.drop_take, ← b.start_add_length, Nat.add_sub_cancel_left]

/-- Views of one vector denote the same bytes when they have the same range. -/
lemma bytes_congr {v w : Buffer} (hvec : v.vec = w.vec) (hstart : v.start = w.start)
    (hfin : v.fin = w.fin) : v.bytes = w.bytes := by
  rw [bytes_eq_drop, bytes_eq_drop, hvec, hstart, hfin]

lemma bytes_eq_nil_iff : b.bytes = [] ↔ b.start = b.fin := by
  rw [← List.length_eq_zero_iff, length_bytes, ← b.start_add_length]
  omega

lemma slice_start_of_lt (h : b.start + s < 2 ^ 64) :
    (b.slice s e).start = min (b.start + s) b.fin := by
  show min ((b.start + s) % 2 ^ 64) b.fin = _
  rw [Nat.mod_eq_of_lt h]

/-- The sum goes around: the slice begins in front of the view. -/
lemma slice_start_of_ge (hs : s < 2 ^ 64) (h : 2 ^ 64 ≤ b.start + s) :
    (b.slice s e).start = b.start + s - 2 ^ 64 := by
  have hle := b.start_le
  have hfin := b.fin_le
  have hsize := b.size_lt
  have hmod : (b.start + s) % 2 ^ 64 = b.start + s - 2 ^ 64 := by
    rw [Nat.mod_eq_sub_mod h, Nat.mod_eq_of_lt (by omega)]
  show min ((b.start + s) % 2 ^ 64) b.fin = _
  rw [hmod]
  apply min_eq_left
  omega

lemma slice_fin : (b.slice s e).fin = b.start + min (max s (min e b.length)) b.length := rfl

lemma slice_fin_le : (b.slice s e).fin ≤ b.fin := by
  rw [slice_fin, ← b.start_add_length]
  exact Nat.add_le_add_left (min_le_right _ _) _

/-- The end of a range in order. -/
lemma slice_fin_of_le (hse : s ≤ e) (he : e ≤ b.length) : (b.slice s e).fin = b.start + e := by
  rw [slice_fin, min_eq_left he, max_eq_right hse, min_eq_left he]

/-- A range that begins behind the view ends where the view does. -/
lemma slice_fin_of_ge (hs : b.length ≤ s) : (b.slice s e).fin = b.fin := by
  rw [slice_fin, min_eq_right (hs.trans (le_max_left _ _)), start_add_length]

/-- A range that is not in order has no bytes. -/
lemma slice_bytes_nil (h : b.start + s < 2 ^ 64) (hes : min e b.length ≤ s) :
    (b.slice s e).bytes = [] := by
  rw [bytes_eq_nil_iff, slice_start_of_lt b h, slice_fin, max_eq_left hes, ← b.start_add_length,
    Nat.add_min_add_left]

/-- The second argument is never larger than the length. -/
lemma slice_min : b.slice s (min e b.length) = b.slice s e := by
  simp only [slice, min_assoc, min_self]

/-! ### Slices inside their parent -/

/-- `v` is a part of the view `b`, and the bytes from `s` to `e` for a range in order. -/
structure Denotes (v : Buffer) (s e : ℕ) : Prop where
  start_le_start : b.start ≤ v.start
  start_le_fin : v.start ≤ v.fin
  fin_le_fin : v.fin ≤ b.fin
  bytes_eq : s ≤ e → v.bytes = (b.bytes.take (min e b.length)).drop (min s b.length)

/-- As long as the sum does not go around, a slice in order is the range it is asked for. -/
lemma slice_bytes_of_lt (h : b.start + s < 2 ^ 64) (hse : s ≤ e) :
    (b.slice s e).bytes = (b.bytes.take (min e b.length)).drop (min s b.length) := by
  rcases Nat.lt_or_ge b.length s with hlt | hle
  · have hnil : min e b.length ≤ s := (min_le_right _ _).trans hlt.le
    rw [slice_bytes_nil b h hnil, min_eq_right hlt.le, List.drop_eq_nil_of_le]
    rw [List.length_take]
    exact (min_le_left _ _).trans (min_le_right _ _)
  · have hs : s ≤ min e b.length := le_min hse hle
    rw [← slice_min, slice_bytes b hle (min_le_right _ _), min_eq_left hle, List.drop_take]

/-- A slice stays inside and denotes its range exactly when `start + s` does not go around. -/
lemma denotes_slice_iff (hs : s < 2 ^ 64) : b.Denotes (b.slice s e) s e ↔ b.start + s < 2 ^ 64 := by
  constructor
  · intro h
    by_contra hge
    have hle := h.start_le_start
    rw [slice_start_of_ge b hs (Nat.le_of_not_lt hge)] at hle
    omega
  · intro h
    exact {
      start_le_start := by
        rw [slice_start_of_lt b h]
        exact le_min (Nat.le_add_right _ _) b.start_le
      start_le_fin := (b.slice s e).start_le
      fin_le_fin := b.slice_fin_le
      bytes_eq := slice_bytes_of_lt b h }

/-! ### Slices of slices -/

variable {a f c d : ℕ}

/-- The range of `slice(a, f)` inside the view. -/
lemma slice_range (ha : a ≤ f) (hf : f ≤ b.length) :
    (b.slice a f).start = b.start + a ∧ (b.slice a f).fin = b.start + f := by
  have hlen := b.start_add_length
  have hfin := b.fin_le
  have hsize := b.size_lt
  refine ⟨?_, b.slice_fin_of_le ha hf⟩
  rw [slice_start_of_lt b (by omega)]
  apply min_eq_left
  omega

/-- No sum goes around: both have the range from `a + c` to `min (a + d) f`, or are empty. -/
lemma slice_slice_of_lt (ha : a ≤ f) (hf : f ≤ b.length) (hcd : c ≤ d)
    (h : b.start + a + c < 2 ^ 64) :
    ((b.slice a f).slice c d).bytes = (b.slice (a + c) (min (a + d) f)).bytes := by
  obtain ⟨hstart, hfin⟩ := b.slice_range ha hf
  have hlength : (b.slice a f).length = f - a := by
    rw [length, hstart, hfin, Nat.add_sub_add_left]
  have hsum₁ : (b.slice a f).start + c < 2 ^ 64 := by rwa [hstart]
  have hsum₂ : b.start + (a + c) < 2 ^ 64 := by rwa [← Nat.add_assoc]
  rcases Nat.lt_or_ge f (a + c) with hlt | hle
  · have hnil₁ : min d (b.slice a f).length ≤ c := by
      apply (min_le_right _ _).trans
      rw [hlength]
      exact Nat.sub_le_of_le_add (Nat.add_comm a c ▸ hlt.le)
    have hnil₂ : min (min (a + d) f) b.length ≤ a + c :=
      ((min_le_left _ _).trans (min_le_right _ _)).trans hlt.le
    rw [slice_bytes_nil _ hsum₁ hnil₁, slice_bytes_nil _ hsum₂ hnil₂]
  · have hc : c ≤ f - a := Nat.le_sub_of_add_le' hle
    have hmin : a + min d (f - a) = min (a + d) f := by
      rw [← Nat.add_min_add_left, Nat.add_sub_of_le ha]
    apply bytes_congr
    · rfl
    · rw [slice_start_of_lt _ hsum₁, slice_start_of_lt _ hsum₂, hstart, hfin, Nat.add_assoc,
        min_eq_left (Nat.add_le_add_left hle _)]
      apply (min_eq_left _).symm
      rw [← b.start_add_length]
      exact Nat.add_le_add_left (hle.trans hf) _
    · rw [← slice_min (b.slice a f), slice_fin_of_le _ (le_min hcd (hlength ▸ hc)) (min_le_right _ _),
        slice_fin_of_le b (le_min (Nat.add_le_add_left hcd a) hle) ((min_le_right _ _).trans hf),
        hstart, hlength, Nat.add_assoc, hmin]

/-- `start + a + c` goes around and `a + c` does not: both begin at the same place in front of the
view, the slice of the slice ends where the slice does and the other one where the view does. -/
lemma slice_slice_of_ge (ha : a ≤ f) (hf : f ≤ b.length) (hc : c < 2 ^ 64)
    (hac : a + c < 2 ^ 64) (h : 2 ^ 64 ≤ b.start + a + c) :
    ((b.slice a f).slice c d).bytes = (b.slice (a + c) (min (a + d) f)).bytes ↔ f = b.length := by
  obtain ⟨hstart, hfin⟩ := b.slice_range ha hf
  have hlen := b.start_add_length
  have hfin_le := b.fin_le
  have hsize := b.size_lt
  have hlength : (b.slice a f).length ≤ c := by
    rw [length, hstart, hfin]
    omega
  have hs₁ : ((b.slice a f).slice c d).start = b.start + a + c - 2 ^ 64 := by
    rw [slice_start_of_ge _ hc (by rwa [hstart]), hstart]
  have hs₂ : (b.slice (a + c) (min (a + d) f)).start = b.start + a + c - 2 ^ 64 := by
    rw [slice_start_of_ge _ hac (by rwa [← Nat.add_assoc]), Nat.add_assoc]
  have hf₁ : ((b.slice a f).slice c d).fin = b.start + f := by
    rw [slice_fin_of_ge _ hlength, hfin]
  have hf₂ : (b.slice (a + c) (min (a + d) f)).fin = b.fin := by
    apply slice_fin_of_ge
    omega
  constructor
  · intro heq
    have hbytes := congrArg List.length heq
    rw [length_bytes, length_bytes, length, length, hs₁, hs₂, hf₁, hf₂] at hbytes
    omega
  · rintro rfl
    apply bytes_congr
    · rfl
    · rw [hs₁, hs₂]
    · rw [hf₁, hf₂, hlen]

/-- Already `a + c` goes around: both begin in front of the slice and end where it does. -/
lemma slice_slice_of_wrapped (ha : a ≤ f) (hf : f ≤ b.length) (hc : c < 2 ^ 64)
    (hac : 2 ^ 64 ≤ a + c) (hcd : c ≤ d) :
    ((b.slice a f).slice c d).bytes = (b.slice ((a + c) % 2 ^ 64) (min (a + d) f)).bytes := by
  obtain ⟨hstart, hfin⟩ := b.slice_range ha hf
  have hlen := b.start_add_length
  have hfin_le := b.fin_le
  have hsize := b.size_lt
  obtain ⟨x, hx⟩ := Nat.exists_eq_add_of_le' hac
  have hmod : (a + c) % 2 ^ 64 = x := by
    rw [hx, Nat.add_mod_right, Nat.mod_eq_of_lt (by omega)]
  have hmin : min (a + d) f = f := by
    apply min_eq_right
    omega
  have hlength : (b.slice a f).length ≤ c := by
    rw [length, hstart, hfin]
    omega
  have hxf : x ≤ f := by omega
  have hsum : b.start + a + c = b.start + x + 2 ^ 64 := by
    rw [Nat.add_assoc, hx, Nat.add_assoc]
  have hs₁ : ((b.slice a f).slice c d).start = b.start + x := by
    rw [slice_start_of_ge _ hc (by rw [hstart, hsum]; exact Nat.le_add_left _ _), hstart, hsum,
      Nat.add_sub_cancel]
  have hs₂ : (b.slice x f).start = b.start + x := by
    rw [slice_start_of_lt b (by omega)]
    apply min_eq_left
    omega
  rw [hmod, hmin]
  apply bytes_congr
  · rfl
  · rw [hs₁, hs₂]
  · rw [slice_fin_of_ge _ hlength, hfin, slice_fin_of_le b hxf hf]

/-- The second slice of a chain and the slice it should be agree exactly when `start + a + c` does
not go around, except where the first slice reaches the end of the view or `a + c` goes around by
itself on its way to `slice`. -/
lemma slice_slice_iff (ha : a ≤ f) (hf : f ≤ b.length) (hcd : c ≤ d) (hc : c < 2 ^ 64) :
    ((b.slice a f).slice c d).bytes = (b.slice ((a + c) % 2 ^ 64) (min (a + d) f)).bytes ↔
      b.start + a + c < 2 ^ 64 ∨ f = b.length ∨ 2 ^ 64 ≤ a + c := by
  rcases Nat.lt_or_ge (a + c) (2 ^ 64) with hac | hac
  · rw [Nat.mod_eq_of_lt hac]
    rcases Nat.lt_or_ge (b.start + a + c) (2 ^ 64) with hlt | hge
    · exact iff_of_true (b.slice_slice_of_lt ha hf hcd hlt) (Or.inl hlt)
    · rw [b.slice_slice_of_ge ha hf hc hac hge]
      constructor
      · intro h
        exact Or.inr (Or.inl h)
      · rintro (h | h | h)
        · exact absurd h (Nat.not_lt.mpr hge)
        · exact h
        · exact absurd hac (Nat.not_lt.mpr h)
  · exact iff_of_true (b.slice_slice_of_wrapped ha hf hc hac hcd) (Or.inr (Or.inr hac))

/-- What slices promise, and exactly when they keep it. A slice is inside its parent and denotes
the bytes from `s` to `e`, and a slice of a slice is a slice of the parent. A sum `a + c` that is
too large arrives modulo `2 ^ 64` like any other number. -/
theorem slice_iff (hs : s < 2 ^ 64) (ha : a ≤ f) (hf : f ≤ b.length) (hcd : c ≤ d)
    (hc : c < 2 ^ 64) :
    ((b.Denotes (b.slice s e) s e ↔ b.start + s < 2 ^ 64) ∧
      (b.Denotes (Payload.slice b s e) s e ↔ b.start + s < 2 ^ 64)) ∧
    (((b.slice a f).slice c d).bytes = (b.slice ((a + c) % 2 ^ 64) (min (a + d) f)).bytes ↔
      b.start + a + c < 2 ^ 64 ∨ f = b.length ∨ 2 ^ 64 ≤ a + c) :=
  ⟨⟨b.denotes_slice_iff hs, b.denotes_slice_iff hs⟩, b.slice_slice_iff ha hf hcd hc⟩

theorem slice_iff_sliced :
    ((sliced.Denotes (sliced.slice 1 2) 1 2 ↔ sliced.start + 1 < 2 ^ 64) ∧
      (sliced.Denotes (Payload.slice sliced 1 2) 1 2 ↔ sliced.start + 1 < 2 ^ 64)) ∧
    (((sliced.slice 0 2).slice 1 2).bytes =
        (sliced.slice ((0 + 1) % 2 ^ 64) (min (0 + 2) 2)).bytes ↔
      sliced.start + 0 + 1 < 2 ^ 64 ∨ 2 = sliced.length ∨ 2 ^ 64 ≤ 0 + 1) :=
  slice_iff sliced (by decide) (by decide) (by decide) (by decide) (by decide)

/-- `slice(-1)` of the view `"cd"` begins one byte in front of the view. -/
theorem slice_before_start : (sliced.slice (2 ^ 64 - 1) 2).bytes = [0x62, 0x63, 0x64] ∧
    ¬ sliced.Denotes (sliced.slice (2 ^ 64 - 1) 2) (2 ^ 64 - 1) 2 ∧
    ((sliced.slice 0 1).slice (2 ^ 64 - 1) (2 ^ 64 - 1)).bytes = [0x62, 0x63] ∧
    (sliced.slice (0 + (2 ^ 64 - 1)) (min (0 + (2 ^ 64 - 1)) 1)).bytes = [0x62, 0x63, 0x64] := by
  refine ⟨by decide, fun h => ?_, by decide, by decide⟩
  exact absurd h.start_le_start (by decide)

end Dripcap.Buffer
