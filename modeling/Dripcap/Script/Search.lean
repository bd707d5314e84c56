import Dripcap.Library.Occurrence
import Dripcap.Script.Buffer

/-!
# Substring search

`search` compares the window that ends at `index` from its last byte to its first. A mismatch
does not end the comparison unless the byte is found further to the front of `sub`: the loop goes
on, and matches behind the mismatch lower the shift. That the shift stays positive and skips no
occurrence is the invariant `Compared`.
-/

namespace Dripcap

open Occurrence

variable {str sub : List UInt8}

/-! ### The loop over `j` -/

/-- `findShift` returns the distance to the last `c` among the first `n` bytes of `sub`. -/
lemma findShift_eq (c : UInt8) {n : ℕ} (hn : n ≤ sub.length) (j : ℕ) :
    (findShift sub c j n = some none ∧ ∀ k < n, sub[k]? ≠ some c) ∨
    ∃ d < n, findShift sub c j n = some (some (j + d)) ∧
      ∀ k < n, n - 1 - d < k → sub[k]? ≠ some c := by
  induction n generalizing j with
  | zero => exact Or.inl ⟨rfl, fun k hk => absurd hk (Nat.not_lt_zero k)⟩
  | succ n ih =>
    have hlast : ∃ x, sub[n]? = some x := ⟨_, List.getElem?_eq_getElem hn⟩
    obtain ⟨x, hx⟩ := hlast
    by_cases hxc : x = c
    · refine Or.inr ⟨0, Nat.succ_pos n, ?_, fun k hk hlt => ?_⟩
      · simp [findShift, hx, hxc]
      · omega
    · have hstep : findShift sub c j (n + 1) = findShift sub c (j + 1) n := by
        simp [findShift, hx, hxc]
      have hne : sub[n]? ≠ some c := by simp [hx, hxc]
      rw [hstep]
      rcases ih (Nat.le_of_succ_le hn) (j + 1) with ⟨hnone, hall⟩ | ⟨d, hd, hsome, hall⟩
      · refine Or.inl ⟨hnone, fun k hk => ?_⟩
        rcases Nat.lt_succ_iff_lt_or_eq.mp hk with hlt | rfl
        · exact hall k hlt
        · exact hne
      · refine Or.inr ⟨d + 1, Nat.succ_lt_succ hd, ?_, fun k hk hlt => ?_⟩
        · rw [hsome, Nat.add_assoc, Nat.add_comm 1 d]
        · rcases Nat.lt_succ_iff_lt_or_eq.mp hk with hlt' | rfl
          · exact hall k hlt' (by omega)
          · exact hne

/-! ### The loop over `i` -/

/-- What is known of the window at `w` when its first `n` bytes are left to compare: nothing but
matches so far, or a shift that is larger than `n` and skips no occurrence. -/
def Compared (str sub : List UInt8) (w n shift : ℕ) : Prop :=
  (shift = n ∧ ∀ k, n ≤ k → k < sub.length → str[w + k]? = sub[k]?) ∨
  (n < shift ∧ shift ≤ sub.length ∧ Free sub str w shift)

variable {w n shift : ℕ}

lemma compared_init (w : ℕ) : Compared str sub w sub.length sub.length :=
  Or.inl ⟨rfl, fun _ hk hlt => absurd hlt (Nat.not_lt.mpr hk)⟩

lemma Compared.match (h : Compared str sub w (n + 1) shift) (hm : str[w + n]? = sub[n]?) :
    Compared str sub w n (shift - 1) := by
  rcases h with ⟨rfl, hall⟩ | ⟨hlt, hle, hfree⟩
  · refine Or.inl ⟨rfl, fun k hk hlt => ?_⟩
    rcases Nat.eq_or_lt_of_le hk with rfl | hk
    · exact hm
    · exact hall k hk hlt
  · exact Or.inr ⟨Nat.lt_sub_of_add_lt hlt, (Nat.sub_le shift 1).trans hle,
      hfree.mono (Nat.sub_le shift 1)⟩

/-- A byte that does not occur further to the front keeps every match of it away. -/
lemma Compared.mismatch (h : Compared str sub w (n + 1) shift) (hn : n < sub.length)
    {c : UInt8} (hc : str[w + n]? = some c) (hall : ∀ k < n + 1, sub[k]? ≠ some c) :
    Compared str sub w n shift := by
  rcases h with ⟨rfl, -⟩ | ⟨hlt, hle, hfree⟩
  · refine Or.inr ⟨Nat.lt_succ_self n, hn, ?_⟩
    apply free_of_ne hn le_rfl
    intro d _
    rw [hc]
    exact (hall (n - d) (Nat.lt_succ_of_le (Nat.sub_le n d))).symm
  · exact Or.inr ⟨Nat.lt_of_succ_lt hlt, hle, hfree⟩

/-- The shift that brings the byte to its last place further to the front. -/
lemma free_of_findShift (hn : n < sub.length) {c : UInt8} (hc : str[w + n]? = some c)
    (hne : sub[n]? ≠ some c) {d : ℕ} (hd : d < n)
    (hall : ∀ k < n, n - 1 - d < k → sub[k]? ≠ some c) : Free sub str w (1 + d) := by
  apply free_of_ne hn
  · omega
  · intro d' hd'
    rw [hc]
    rcases Nat.eq_zero_or_pos d' with rfl | hpos
    · exact hne.symm
    · exact (hall (n - d') (by omega) (by omega)).symm

/-- The window at `w` is an occurrence and the shift is zero, or the shift is positive and skips
no occurrence. -/
lemma searchShift_eq {index : ℕ} (hw : index = w + sub.length) (hstr : index ≤ str.length)
    (hn : n ≤ sub.length) (h : Compared str sub w n shift) :
    ∃ r, searchShift str sub sub.length index shift n = some r ∧ Compared str sub w 0 r := by
  induction n generalizing shift with
  | zero => exact ⟨shift, rfl, h⟩
  | succ n ih =>
    have hplace : index - (sub.length - n) = w + n := by omega
    obtain ⟨c, hc⟩ : ∃ c, str[w + n]? = some c :=
      ⟨_, List.getElem?_eq_getElem (by omega)⟩
    obtain ⟨x, hx⟩ : ∃ x, sub[n]? = some x := ⟨_, List.getElem?_eq_getElem hn⟩
    have hle : n ≤ sub.length := Nat.le_of_succ_le hn
    by_cases hxc : x = c
    · have hstep : searchShift str sub sub.length index shift (n + 1) =
          searchShift str sub sub.length index (shift - 1) n := by
        simp [searchShift, hplace, hc, hx, hxc]
      rw [hstep]
      apply ih hle
      apply h.match
      rw [hc, hx, hxc]
    · have hne : sub[n]? ≠ some c := by simp [hx, hxc]
      rcases findShift_eq c hle 1 with ⟨hnone, hall⟩ | ⟨d, hd, hsome, hall⟩
      · have hstep : searchShift str sub sub.length index shift (n + 1) =
            searchShift str sub sub.length index shift n := by
          simp [searchShift, hplace, hc, hx, hxc, hnone]
        rw [hstep]
        apply ih hle
        apply h.mismatch hn hc
        intro k hk
        rcases Nat.lt_succ_iff_lt_or_eq.mp hk with hlt | rfl
        · exact hall k hlt
        · exact hne
      · refine ⟨1 + d, ?_, Or.inr ⟨by omega, by omega, free_of_findShift hn hc hne hd hall⟩⟩
        simp [searchShift, hplace, hc, hx, hxc, hsome]

/-! ### The loop over `index` -/

/-- What a search has to return: the least index of an occurrence, or `-1`. -/
def LeastIndex (str sub : List UInt8) (r : ℤ) : Prop :=
  (∃ i : ℕ, r = i ∧ IsLeast {i | At sub str i} i) ∨ (r = -1 ∧ ∀ i, ¬ At sub str i)

lemma searchFrom_eq (hstr : str.length < 2 ^ 30) (hne : sub ≠ []) {index : ℕ}
    (hw : index = w + sub.length) (hfree : Free sub str 0 w) :
    ∃ r, searchFrom str str.length sub sub.length index = some r ∧ LeastIndex str sub r := by
  induction w using Nat.strongRecMeasure (fun w => str.length + 1 - w) generalizing index with
  | ind w ih =>
    rw [searchFrom]
    split_ifs with hle
    · obtain ⟨shift, hshift, hcompared⟩ := searchShift_eq hw hle le_rfl (compared_init w)
      rw [hshift, Option.bind_some]
      rcases hcompared with ⟨rfl, hall⟩ | ⟨hpos, hshift_le, hskip⟩
      · rw [if_pos rfl]
        have hat : At sub str w := at_iff.mpr fun k hk => hall k (Nat.zero_le k) hk
        refine ⟨_, rfl, Or.inl ⟨w, ?_, isLeast_of_free hfree hat⟩⟩
        omega
      · rw [if_neg (Nat.ne_of_gt hpos), if_neg (by omega)]
        apply ih (w + shift)
        · omega
        · omega
        · apply hfree.append
          rwa [Nat.zero_add]
    · refine ⟨-1, rfl, Or.inr ⟨rfl, not_at_of_free hne hfree ?_⟩⟩
      omega

/-- `search` returns, and its result is the least index at which `sub` occurs in `str`, or `-1`.
No comparison reads outside of a string and no index leaves the `int` range, where `search` would
be `none`. -/
theorem search_leastIndex (str sub : List UInt8) (hstr : str.length < 2 ^ 30)
    (hsub : sub.length < 2 ^ 30) :
    ∃ r, search str str.length sub sub.length = some r ∧ LeastIndex str sub r ∧
      (sub = [] → r = 0) := by
  unfold search
  split_ifs with hlt hzero hneg
  · have hne : sub ≠ [] := by
      rintro rfl
      exact absurd hlt (Int.not_lt.mpr (Int.natCast_nonneg _))
    refine ⟨-1, rfl, Or.inr ⟨rfl, not_at_of_free hne free_zero ?_⟩, fun h => absurd h hne⟩
    omega
  · obtain rfl : sub = [] := List.length_eq_zero_iff.mp (by exact_mod_cast hzero)
    exact ⟨0, rfl, Or.inl ⟨0, rfl, isLeast_of_free free_zero at_nil⟩, fun _ => rfl⟩
  · omega
  · have hne : sub ≠ [] := by
      rintro rfl
      exact hzero rfl
    obtain ⟨r, hr, hleast⟩ := searchFrom_eq (w := 0) hstr hne (Nat.zero_add _).symm free_zero
    exact ⟨r, hr, hleast, fun h => absurd h hne⟩

/-- The byte is found one place further to the front, and the next window is an occurrence. -/
theorem search_leastIndex_aab :
    ([0x61, 0x61, 0x62] : List UInt8).length < 2 ^ 30 ∧
    ([0x61, 0x62] : List UInt8).length < 2 ^ 30 ∧
    ∃ r, search [0x61, 0x61, 0x62] ([0x61, 0x61, 0x62] : List UInt8).length [0x61, 0x62]
        ([0x61, 0x62] : List UInt8).length = some r ∧
      LeastIndex [0x61, 0x61, 0x62] [0x61, 0x62] r ∧ (([0x61, 0x62] : List UInt8) = [] → r = 0) :=
  ⟨by decide, by decide,
    search_leastIndex [0x61, 0x61, 0x62] [0x61, 0x62] (by decide) (by decide)⟩

/-- `Buffer::indexOf` finds the bytes of one view in those of another. -/
theorem Buffer.indexOf_leastIndex (b c : Buffer) (hb : b.length < 2 ^ 30)
    (hc : c.length < 2 ^ 30) :
    ∃ r, b.indexOf c = some r ∧ LeastIndex b.bytes c.bytes r := by
  have hint : ∀ n : ℕ, n < 2 ^ 30 → int32 n = n := by
    intro n hn
    apply Int.bmod_eq_of_le
    · omega
    · omega
  rw [← length_bytes] at hb hc
  obtain ⟨r, hr, hleast, -⟩ := search_leastIndex b.bytes c.bytes hb hc
  refine ⟨r, ?_, hleast⟩
  rw [indexOf_eq, hint _ hb, hint _ hc, hr]

end Dripcap
