import Dripcap.Builtin.Address
import Dripcap.Library.AddressText
import Dripcap.Library.Pairs

/-!
# The text of an IPv6 address

What `IPv6Address.toString` writes, as the groups of the address: it replaces the first run of two
or more zero groups that leaves out the first and the last group.
-/

namespace Dripcap

open AddressText Pairs

namespace IPv6Address

/-! ### Groups -/

/-- The numbers of two bytes each. -/
def words : List UInt8 → List ℕ
  | a :: b :: data => (256 * a.toNat + b.toNat) :: words data
  | _ => []

/-- The bytes of numbers of two bytes each. -/
def ofWords (gs : List ℕ) : List UInt8 :=
  gs.flatMap fun g => [UInt8.ofNat (g / 256), UInt8.ofNat (g % 256)]

/-- The eight groups of an address. -/
def groups (x : IPv6Address) : List ℕ := words x.data

lemma ofWords_words {data : List UInt8} (h : Even data.length) : ofWords (words data) = data := by
  induction data using pairs_induction with
  | nil => rfl
  | single a => simp at h
  | pair a b data ih =>
    have hdata := ih ((even_length_cons_cons a b).mp h)
    have ha : (256 * a.toNat + b.toNat) / 256 = a.toNat := by
      have hb := b.toNat_lt
      omega
    have hb : (256 * a.toNat + b.toNat) % 256 = b.toNat := by
      have hb := b.toNat_lt
      omega
    unfold ofWords at hdata
    simp [words, ofWords, ha, hb, hdata]

lemma words_lt (data : List UInt8) : ∀ g ∈ words data, g < 65536 := by
  induction data using pairs_induction with
  | nil => simp [words]
  | single a => simp [words]
  | pair a b data ih =>
    have ha := a.toNat_lt
    have hb := b.toNat_lt
    rw [words, List.forall_mem_cons]
    exact ⟨by omega, ih⟩

lemma length_words (data : List UInt8) : (words data).length = data.length / 2 := by
  induction data using pairs_induction with
  | nil => rfl
  | single a => simp [words]
  | pair a b data ih =>
    simp only [words, List.length_cons, ih]
    omega

@[simp] lemma length_groups (x : IPv6Address) : x.groups.length = 8 := by
  simp [groups, length_words, x.length_eq]

lemma ofWords_groups (x : IPv6Address) : ofWords x.groups = x.data :=
  ofWords_words (by rw [x.length_eq]; decide)

/-! ### The expanded text -/

/-- One more digit behind the digits of a number. -/
lemma toDigits_snoc {n d : ℕ} (hn : n ≠ 0) (hd : d < 16) :
    Nat.toDigits 16 (16 * n + d) = Nat.toDigits 16 n ++ [Nat.digitChar d] := by
  rw [← Nat.toDigits_append_toDigits (by decide) (Nat.pos_of_ne_zero hn) hd,
    Nat.toDigits_of_lt_base hd]

/-- Four digits without the zeros in front of them. -/
lemma dropZeros_digits {a b c d : ℕ} (ha : a < 16) (hb : b < 16) (hc : c < 16) (hd : d < 16) :
    dropZeros [Nat.digitChar a, Nat.digitChar b, Nat.digitChar c, Nat.digitChar d] =
      Nat.toDigits 16 (16 * (16 * (16 * a + b) + c) + d) := by
  have hzero : ∀ v < 16, v ≠ 0 → Nat.digitChar v ≠ '0' := fun v hv hne h =>
    hne (digitChar_eq_zero v hv h)
  rcases Nat.eq_zero_or_pos a with rfl | ha'
  · rcases Nat.eq_zero_or_pos b with rfl | hb'
    · rcases Nat.eq_zero_or_pos c with rfl | hc'
      · rcases Nat.eq_zero_or_pos d with rfl | hd'
        · decide
        · simp [dropZeros, hzero d hd hd'.ne', Nat.toDigits_of_lt_base hd]
      · rw [toDigits_snoc (by omega) hd]
        simp [dropZeros, hzero c hc hc'.ne', Nat.toDigits_of_lt_base hc]
    · rw [toDigits_snoc (by omega) hd, toDigits_snoc (by omega) hc]
      simp [dropZeros, hzero b hb hb'.ne', Nat.toDigits_of_lt_base hb]
  · rw [toDigits_snoc (by omega) hd, toDigits_snoc (by omega) hc, toDigits_snoc (by omega) hb]
    simp [dropZeros, hzero a ha ha'.ne', Nat.toDigits_of_lt_base ha]

lemma hex_toList_cons (a : UInt8) (data : List UInt8) : (hex (a :: data)).toList =
    Nat.digitChar (a.toNat / 16) :: Nat.digitChar (a.toNat % 16) :: (hex data).toList := by
  simp [hex, String.toList_join, Hex.hexByte_toList]

lemma dropZeros_word (a b : UInt8) :
    dropZeros [Nat.digitChar (a.toNat / 16), Nat.digitChar (a.toNat % 16),
      Nat.digitChar (b.toNat / 16), Nat.digitChar (b.toNat % 16)] =
      Nat.toDigits 16 (256 * a.toNat + b.toNat) := by
  have ha := a.toNat_lt
  have hb := b.toNat_lt
  rw [dropZeros_digits (by omega) (by omega) (by omega) (by omega)]
  congr 1
  omega

/-- The loop over the groups. -/
lemma flatMap_groups (data : List UInt8) {n : ℕ} (h : data.length = 2 * n) :
    ((List.range n).flatMap fun i => dropZeros (((hex data).toList.drop (i * 4)).take 4) ++ [':']) =
      (words data).flatMap fun g => Nat.toDigits 16 g ++ [':'] := by
  induction data using pairs_induction generalizing n with
  | nil =>
    rw [List.length_nil] at h
    obtain rfl : n = 0 := by omega
    rfl
  | single a =>
    rw [List.length_singleton] at h
    omega
  | pair a b data ih =>
    cases n with
    | zero => simp at h
    | succ n =>
      have hlen : data.length = 2 * n := by
        rw [List.length_cons, List.length_cons] at h
        omega
      rw [List.range_succ_eq_map, List.flatMap_cons, List.flatMap_map, words, List.flatMap_cons,
        ← ih hlen, hex_toList_cons, hex_toList_cons]
      congr 1
      · rw [← dropZeros_word a b]
        rfl
      · apply List.flatMap_congr
        intro i _
        rw [Nat.succ_mul]
        rfl

lemma dropLast_flatMap {ps : List (List Char)} (h : ps ≠ []) :
    (ps.flatMap fun p => p ++ [':']).dropLast = joined ps := by
  induction ps with
  | nil => exact absurd rfl h
  | cons p ps ih =>
    cases ps with
    | nil => simp [joined]
    | cons q ps =>
      have hne : (q :: ps).flatMap (fun p => p ++ [':']) ≠ [] := by simp
      rw [List.flatMap_cons, List.dropLast_append_of_ne_nil hne, ih (List.cons_ne_nil q ps),
        joined_cons (List.cons_ne_nil q ps), List.append_assoc]
      rfl

/-- The texts of groups, with colons between them. -/
def text (gs : List ℕ) : List Char := joined (gs.map (Nat.toDigits 16))

lemma expanded_eq (x : IPv6Address) : expanded (hex x.data).toList = text x.groups := by
  have hne : x.groups.map (Nat.toDigits 16) ≠ [] := by
    intro h
    have hlen := congrArg List.length h
    simp at hlen
  rw [expanded, flatMap_groups x.data x.length_eq, text, ← dropLast_flatMap hne, List.flatMap_map]
  rfl

/-! ### The first match is replaced -/

/-- The first match in a text becomes two colons. -/
def replaceMatch : List Char → List Char
  | [] => []
  | c :: text =>
    match matchZeros (c :: text) with
    | some found => ':' :: ':' :: (c :: text).drop found.length
    | none => c :: replaceMatch text

lemma sortMatches_eq (seq : List (List Char)) : sortMatches seq = seq :=
  List.mergeSort_of_pairwise (List.pairwise_of_forall fun _ _ => rfl)

lemma zeros_append (k : ℕ) (text : List Char) :
    zeros ((List.replicate k ['0', ':']).flatten ++ text) = k + zeros text := by
  induction k with
  | zero => simp
  | succ k ih =>
    show zeros ((List.replicate k ['0', ':']).flatten ++ text) + 1 = _
    rw [ih, Nat.add_right_comm]

/-- A match is a colon and two or more zeros with their colons. -/
lemma exists_of_mem_matchAll {found text : List Char} {skip : ℕ} (h : found ∈ matchAll skip text) :
    ∃ k, 2 ≤ k ∧ found = ':' :: (List.replicate k ['0', ':']).flatten := by
  induction text generalizing skip with
  | nil => cases h
  | cons c text ih =>
    cases skip with
    | succ skip => exact ih h
    | zero =>
      rw [matchAll] at h
      cases hfound : matchZeros (c :: text) with
      | none =>
        rw [hfound] at h
        exact ih h
      | some m =>
        rw [hfound] at h
        rcases List.mem_cons.mp h with rfl | h
        · unfold matchZeros at hfound
          split at hfound
          · split_ifs at hfound with hk
            exact ⟨_, hk, (Option.some.inj hfound).symm⟩
          · cases hfound
        · exact ih h

/-- Where the text of a match stands, there is a match. -/
lemma matchZeros_of_isPrefix {k : ℕ} {text : List Char} (hk : 2 ≤ k)
    (h : ':' :: (List.replicate k ['0', ':']).flatten <+: text) : matchZeros text ≠ none := by
  obtain ⟨rest, rfl⟩ := h
  rw [List.cons_append, matchZeros, zeros_append, if_pos (Nat.le_add_right_of_le hk)]
  exact Option.some_ne_none _

/-- The zeros at the beginning of a text stand there. -/
lemma zeros_isPrefix (text : List Char) :
    (List.replicate (zeros text) ['0', ':']).flatten <+: text := by
  fun_induction zeros text with
  | case1 text ih => exact (List.prefix_append_right_inj ['0', ':']).mpr ih
  | case2 => exact List.nil_prefix

lemma isPrefix_of_matchZeros {found text : List Char} (h : matchZeros text = some found) :
    found <+: text := by
  unfold matchZeros at h
  split at h
  · split_ifs at h with hk
    obtain rfl := Option.some.inj h
    exact List.cons_prefix_cons.mpr ⟨rfl, zeros_isPrefix _⟩
  · cases h

lemma replaceMatch_of_nil {text : List Char} (h : matchAll 0 text = []) :
    replaceMatch text = text := by
  induction text with
  | nil => rfl
  | cons c text ih =>
    rw [matchAll] at h
    rw [replaceMatch]
    cases hfound : matchZeros (c :: text) with
    | some found =>
      rw [hfound] at h
      cases h
    | none =>
      rw [hfound] at h
      exact congrArg (c :: ·) (ih h)

lemma replaceFirst_of_cons {found text : List Char} {rest : List (List Char)}
    (h : matchAll 0 text = found :: rest) :
    replaceFirst found [':', ':'] text = replaceMatch text := by
  induction text with
  | nil => cases h
  | cons c text ih =>
    rw [replaceFirst, replaceMatch]
    cases hfound : matchZeros (c :: text) with
    | some m =>
      rw [matchAll, hfound] at h
      obtain rfl := (List.cons.inj h).1
      rw [if_pos (List.isPrefixOf_iff_prefix.mpr (isPrefix_of_matchZeros hfound))]
      rfl
    | none =>
      obtain ⟨k, hk, rfl⟩ := exists_of_mem_matchAll (h ▸ List.mem_cons_self)
      rw [matchAll, hfound] at h
      rw [if_neg, ih h]
      intro hpre
      exact matchZeros_of_isPrefix hk (List.isPrefixOf_iff_prefix.mp hpre) hfound

/-- The sort leaves the matches in their order, and the first one stands nowhere before. -/
lemma compress_eq (text : List Char) : compress text = replaceMatch text := by
  rw [compress, sortMatches_eq]
  cases h : matchAll 0 text with
  | nil => exact (replaceMatch_of_nil h).symm
  | cons found rest => exact replaceFirst_of_cons h

/-! ### The groups that are left out -/

/-- How many zero groups come first, when the last group does not count. -/
def run (gs : List ℕ) : ℕ := (gs.dropLast.takeWhile fun g => g = 0).length

/-- The place and the number of the groups that `toString` replaces by two colons. -/
def place : List ℕ → Option (ℕ × ℕ)
  | [] => none
  | _ :: gs => if 2 ≤ run gs then some (1, run gs) else (place gs).map fun p => (p.1 + 1, p.2)

/-- The text with two colons for the groups at a place. -/
def shortText (gs : List ℕ) : List Char :=
  match place gs with
  | none => text gs
  | some (i, n) => text (gs.take i) ++ ':' :: ':' :: text (gs.drop (i + n))

lemma text_cons {g : ℕ} {gs : List ℕ} (h : gs ≠ []) :
    text (g :: gs) = Nat.toDigits 16 g ++ ':' :: text gs := by
  rw [text, List.map_cons, joined_cons (by simpa using h), text]

lemma text_singleton (g : ℕ) : text [g] = Nat.toDigits 16 g := by simp [text, joined]

lemma run_cons {g h : ℕ} {gs : List ℕ} :
    run (g :: h :: gs) = if g = 0 then run (h :: gs) + 1 else 0 := by
  by_cases hg : g = 0 <;> simp [run, hg]

lemma zeros_of_ne {c : Char} {cs : List Char} (h : c ≠ '0') : zeros (c :: cs) = 0 := by
  unfold zeros
  split
  · rename_i heq
    exact absurd (List.cons.inj heq).1 h
  · rfl

lemma zeros_text (gs : List ℕ) : zeros (text gs) = run gs := by
  induction gs with
  | nil => rfl
  | cons g gs ih =>
    cases hdigits : Nat.toDigits 16 g with
    | nil => exact absurd hdigits Nat.toDigits_ne_nil
    | cons c cs =>
      cases gs with
      | nil =>
        rw [text_singleton]
        by_cases hc : c = '0'
        · obtain rfl := toDigits_zero_cons (hc ▸ hdigits)
          rfl
        · rw [hdigits, zeros_of_ne hc]
          rfl
      | cons h gs =>
        rw [text_cons (List.cons_ne_nil h gs), run_cons]
        by_cases hc : c = '0'
        · obtain rfl := toDigits_zero_cons (hc ▸ hdigits)
          rw [if_pos rfl, ← ih]
          rfl
        · have hg : g ≠ 0 := by
            rintro rfl
            exact hc (List.cons.inj hdigits).1.symm
          rw [if_neg hg, hdigits, List.cons_append, zeros_of_ne hc]

/-- A match takes zero groups with their colons away. -/
lemma drop_text (gs : List ℕ) {k : ℕ} (hk : k ≤ run gs) :
    (text gs).drop (2 * k) = text (gs.drop k) := by
  induction gs generalizing k with
  | nil => simp [text, joined]
  | cons g gs ih =>
    cases k with
    | zero => rfl
    | succ k =>
      cases gs with
      | nil => simp [run] at hk
      | cons h gs =>
        rw [run_cons] at hk
        split_ifs at hk with hg
        · rw [hg, text_cons (List.cons_ne_nil h gs), List.drop_succ_cons,
            ← ih (Nat.succ_le_succ_iff.mp hk)]
          rfl
        · exact absurd hk (Nat.not_succ_le_zero k)

lemma replaceMatch_append {piece : List Char} (h : ':' ∉ piece) (rest : List Char) :
    replaceMatch (piece ++ rest) = piece ++ replaceMatch rest := by
  induction piece with
  | nil => rfl
  | cons c piece ih =>
    obtain ⟨hc, hpiece⟩ := not_or.mp (mt List.mem_cons.mpr h)
    have hnone : matchZeros (c :: (piece ++ rest)) = none := by
      unfold matchZeros
      split
      · rename_i heq
        exact absurd (List.cons.inj heq).1.symm hc
      · rfl
    rw [List.cons_append, replaceMatch, hnone]
    exact congrArg (c :: ·) (ih hpiece)

lemma colon_notMem (g : ℕ) : ':' ∉ Nat.toDigits 16 g := by
  intro h
  obtain ⟨v, hv, hc⟩ := exists_of_mem_toDigits h
  exact (digitChar_ne v hv).1 hc.symm

lemma one_le_place {gs : List ℕ} {i n : ℕ} (h : place gs = some (i, n)) : 1 ≤ i := by
  cases gs with
  | nil => cases h
  | cons g gs =>
    rw [place] at h
    split_ifs at h with hrun
    · cases h
      exact le_rfl
    · obtain ⟨p, -, hp⟩ := Option.map_eq_some_iff.mp h
      cases hp
      exact Nat.succ_pos _

lemma replaceMatch_text (gs : List ℕ) : replaceMatch (text gs) = shortText gs := by
  induction gs with
  | nil => rfl
  | cons g gs ih =>
    by_cases hgs : gs = []
    · subst hgs
      have hpiece := replaceMatch_append (colon_notMem g) []
      rw [List.append_nil] at hpiece
      rw [text_singleton, hpiece]
      show Nat.toDigits 16 g ++ [] = text [g]
      rw [text_singleton, List.append_nil]
    · have hmatch : matchZeros (':' :: text gs) = if 2 ≤ run gs then
          some (':' :: (List.replicate (run gs) ['0', ':']).flatten) else none := by
        rw [matchZeros, zeros_text]
      rw [text_cons hgs, replaceMatch_append (colon_notMem g), replaceMatch, hmatch, shortText,
        place]
      split_ifs with hrun
      · have hlen : (':' :: (List.replicate (run gs) ['0', ':']).flatten).length =
            2 * run gs + 1 := by
          simp [Nat.mul_comm]
        show Nat.toDigits 16 g ++ ':' :: ':' :: (':' :: text gs).drop _ =
          text [g] ++ ':' :: ':' :: text ((g :: gs).drop (1 + run gs))
        rw [hlen, List.drop_succ_cons, drop_text gs le_rfl, text_singleton, Nat.add_comm 1,
          List.drop_succ_cons]
      · show Nat.toDigits 16 g ++ ':' :: replaceMatch (text gs) = _
        rw [ih, shortText]
        cases hplace : place gs with
        | none => exact (text_cons hgs).symm
        | some p =>
          obtain ⟨i, n⟩ := p
          have hi := one_le_place hplace
          have htake : gs.take i ≠ [] := by
            simp [hgs]
            omega
          show Nat.toDigits 16 g ++ ':' :: (text (gs.take i) ++ ':' :: ':' :: text _) =
            text ((g :: gs).take (i + 1)) ++ ':' :: ':' :: text ((g :: gs).drop (i + 1 + n))
          rw [List.take_succ_cons, text_cons htake, Nat.add_right_comm, List.drop_succ_cons]
          simp

/-- The text of an address. -/
lemma toString_eq (x : IPv6Address) : x.toString.toList = shortText x.groups := by
  rw [toString, String.toList_ofList, compress_eq, expanded_eq, replaceMatch_text]

/-! ### Which groups are left out -/

lemma run_lt {gs : List ℕ} (h : gs ≠ []) : run gs < gs.length := by
  have hle := (List.takeWhile_sublist (fun g => decide (g = 0)) (l := gs.dropLast)).length_le
  rw [List.length_dropLast] at hle
  have hpos := List.length_pos_iff.mpr h
  unfold run
  omega

lemma isRun_run (gs : List ℕ) : IsRun gs 0 (run gs) := by
  induction gs with
  | nil => exact nofun
  | cons g gs ih =>
    cases gs with
    | nil => exact nofun
    | cons h gs =>
      rw [run_cons]
      split_ifs with hg
      · exact isRun_zero_cons.mpr ⟨hg, ih⟩
      · exact nofun

lemma le_run {gs : List ℕ} {n : ℕ} (h : IsRun gs 0 n) (hn : n < gs.length) : n ≤ run gs := by
  induction gs generalizing n with
  | nil => exact absurd hn (Nat.not_lt_zero n)
  | cons g gs ih =>
    cases n with
    | zero => exact Nat.zero_le _
    | succ n =>
      obtain ⟨hg, hrun⟩ := isRun_zero_cons.mp h
      cases gs with
      | nil => simp at hn
      | cons h gs =>
        rw [run_cons, if_pos hg]
        exact Nat.succ_le_succ (ih hrun (Nat.lt_of_succ_lt_succ hn))

lemma inner_cons {gs : List ℕ} {g i n : ℕ} : IsInnerRun (g :: gs) (i + 1) n ↔
    (i = 0 ∧ n < gs.length ∧ IsRun gs 0 n) ∨ IsInnerRun gs i n := by
  unfold IsInnerRun
  rw [isRun_cons, List.length_cons]
  rcases Nat.eq_zero_or_pos i with rfl | hi
  · simp
    omega
  · simp [hi.ne', Nat.succ_le_of_lt hi]
    omega

/-- The place has the first inner run of two zero groups, as far as it goes. -/
structure IsPlace (gs : List ℕ) (i n : ℕ) : Prop where
  two_le : 2 ≤ n
  inner : IsInnerRun gs i n
  first : ∀ k, IsInnerRun gs k 2 → i ≤ k
  longest : ∀ m, IsInnerRun gs i m → m ≤ n

lemma isPlace_of_place {gs : List ℕ} {i n : ℕ} (h : place gs = some (i, n)) : IsPlace gs i n := by
  induction gs generalizing i n with
  | nil => cases h
  | cons g gs ih =>
    rw [place] at h
    split_ifs at h with hrun
    · cases h
      have hgs : gs ≠ [] := by
        rintro rfl
        simp [run] at hrun
      exact {
        two_le := hrun
        inner := inner_cons.mpr (.inl ⟨rfl, run_lt hgs, isRun_run gs⟩)
        first := fun k hk => hk.1
        longest := fun m hm => by
          rcases inner_cons.mp hm with ⟨-, hm, hisRun⟩ | hinner
          · exact le_run hisRun hm
          · exact absurd hinner.1 (Nat.not_succ_le_zero 0) }
    · obtain ⟨⟨i', n'⟩, hplace, heq⟩ := Option.map_eq_some_iff.mp h
      cases heq
      have hi := one_le_place hplace
      obtain ⟨two_le, inner, first, longest⟩ := ih hplace
      exact {
        two_le := two_le
        inner := inner_cons.mpr (.inr inner)
        first := fun k hk => by
          obtain ⟨k, rfl⟩ := Nat.exists_eq_add_of_le' hk.1
          rcases inner_cons.mp hk with ⟨-, hlen, hisRun⟩ | hinner
          · exact absurd (le_run hisRun hlen) hrun
          · exact Nat.succ_le_succ (first k hinner)
        longest := fun m hm => by
          rcases inner_cons.mp hm with ⟨rfl, -⟩ | hinner
          · exact absurd hi (Nat.not_succ_le_zero 0)
          · exact longest m hinner }

lemma not_inner_of_place {gs : List ℕ} (h : place gs = none) (i : ℕ) : ¬ IsInnerRun gs i 2 := by
  induction gs generalizing i with
  | nil => exact fun hinner => Nat.not_lt_zero _ hinner.2.1
  | cons g gs ih =>
    rw [place] at h
    split_ifs at h with hrun
    · intro hinner
      obtain ⟨i, rfl⟩ := Nat.exists_eq_add_of_le' hinner.1
      rcases inner_cons.mp hinner with ⟨-, hlen, hisRun⟩ | hinner
      · exact hrun (le_run hisRun hlen)
      · exact ih (Option.map_eq_none_iff.mp h) i hinner

/-! ### The text is right -/

/-- The text is read as the groups, and the two colons stand for the groups at the place. -/
lemma read_shortText {gs : List ℕ} (hgs : ∀ g ∈ gs, g < 65536) (hne : gs ≠ []) :
    read gs.length (shortText gs) = some gs ∧ gap gs.length (shortText gs) = place gs := by
  have hpieces := pieces_toDigits
  rw [shortText]
  cases hplace : place gs with
  | none =>
    have hne' : gs.map (Nat.toDigits 16) ≠ [] := by simpa using hne
    refine ⟨?_, gap_joined (hpieces gs) hne'⟩
    exact (read_joined (hpieces gs) hne' (List.length_map _)).trans (mapM_group hgs)
  | some p =>
    obtain ⟨i, n⟩ := p
    obtain ⟨htwo, ⟨hi, hlen, hrun⟩, -, -⟩ := isPlace_of_place hplace
    have hl : (gs.take i).map (Nat.toDigits 16) ≠ [] := by
      simp [hne]
      omega
    have hr : (gs.drop (i + n)).map (Nat.toDigits 16) ≠ [] := by
      simp
      omega
    have hlength : gs.length - (((gs.take i).map (Nat.toDigits 16)).length +
        ((gs.drop (i + n)).map (Nat.toDigits 16)).length) = n := by
      simp
      omega
    have hi' : ((gs.take i).map (Nat.toDigits 16)).length = i := by
      simp
      omega
    refine ⟨?_, ?_⟩
    · refine (read_short (hpieces _) (hpieces _) hl hr ?_).trans ?_
      · simp
        omega
      · rw [mapM_group fun g hg => hgs g (List.mem_of_mem_take hg),
          mapM_group fun g hg => hgs g (List.mem_of_mem_drop hg), hlength]
        exact congrArg some hrun.eq_replicate.symm
    · refine (gap_short (hpieces _) (hpieces _) hl hr).trans ?_
      rw [hlength, hi']

lemma read_toString (x : IPv6Address) : read 8 x.toString.toList = some x.groups := by
  have hne : x.groups ≠ [] := List.ne_nil_of_length_eq_add_one x.length_groups
  have hread := (read_shortText (words_lt x.data) hne).1
  rwa [toString_eq, ← length_groups x]

lemma gap_toString (x : IPv6Address) : gap 8 x.toString.toList = place x.groups := by
  have hne : x.groups ≠ [] := List.ne_nil_of_length_eq_add_one x.length_groups
  have hgap := (read_shortText (words_lt x.data) hne).2
  rwa [toString_eq, ← length_groups x]

/-- Addresses with the same text are the same. -/
lemma toString_injective : Function.Injective toString := by
  intro x y h
  have hgroups : x.groups = y.groups := by
    apply Option.some.inj
    rw [← read_toString, ← read_toString, h]
  have hdata : x.data = y.data := by rw [← ofWords_groups, ← ofWords_groups, hgroups]
  obtain ⟨data, hx⟩ := x
  obtain ⟨data', hy⟩ := y
  cases hdata
  rfl

/-- If there is a run of two or more zero groups, the two colons stand for a longest one. -/
def ReplacesLongest (x : IPv6Address) : Prop :=
  (∃ i n, 2 ≤ n ∧ IsRun x.groups i n) →
    ∃ i n, gap 8 x.toString.toList = some (i, n) ∧ IsRun x.groups i n ∧
      ∀ k m, IsRun x.groups k m → m ≤ n

/-- Every run of two or more zero groups is no longer than an inner run that begins where the first
two inner zero groups are. -/
def FirstIsLongest (gs : List ℕ) : Prop :=
  ∀ i n, 2 ≤ n → IsRun gs i n → ∃ k m, n ≤ m ∧ IsInnerRun gs k m ∧ ∀ j, IsInnerRun gs j 2 → k ≤ j

lemma replacesLongest_iff (x : IPv6Address) : x.ReplacesLongest ↔ FirstIsLongest x.groups := by
  unfold ReplacesLongest
  rw [gap_toString]
  constructor
  · intro h i n hn hrun
    obtain ⟨k, m, hplace, -, hlongest⟩ := h ⟨i, n, hn, hrun⟩
    have hisPlace := isPlace_of_place hplace
    exact ⟨k, m, hlongest i n hrun, hisPlace.inner, hisPlace.first⟩
  · rintro h ⟨i, n, hn, hrun⟩
    obtain ⟨k, m, hnm, hinner, hfirst⟩ := h i n hn hrun
    have htwo : ∀ {k m}, 2 ≤ m → IsInnerRun x.groups k m → IsInnerRun x.groups k 2 := by
      intro k m hm hinner
      exact ⟨hinner.1, by have hlen := hinner.2.1; omega, hinner.2.2.mono hm⟩
    cases hplace : place x.groups with
    | none => exact absurd (htwo (hn.trans hnm) hinner) (not_inner_of_place hplace k)
    | some p =>
      obtain ⟨i', n'⟩ := p
      have hisPlace := isPlace_of_place hplace
      refine ⟨i', n', rfl, hisPlace.inner.2.2, fun j l hl => ?_⟩
      rcases Nat.lt_or_ge l 2 with hlt | hge
      · exact hlt.le.trans hisPlace.two_le
      · obtain ⟨k, m, hlm, hinner, hfirst⟩ := h j l hge hl
        obtain rfl : k = i' := by
          apply le_antisymm
          · exact hfirst i' (htwo hisPlace.two_le hisPlace.inner)
          · exact hisPlace.first k (htwo (hge.trans hlm) hinner)
        exact hlm.trans (hisPlace.longest m hinner)

/-- The text denotes the address, and it is as short as it can be exactly if the first inner run of
zero groups is as long as any run. -/
theorem text_iff (x : IPv6Address) :
    ((read 8 x.toString.toList).map ofWords = some x.data ∧ x.ReplacesLongest) ↔
      FirstIsLongest x.groups := by
  rw [read_toString, Option.map_some, ofWords_groups, replacesLongest_iff]
  exact and_iff_right rfl

/-- `1:0:0:2:0:0:0:3` is written as `1::2:0:0:0:3`. -/
theorem text_longer : ∃ x : IPv6Address, x.data = [0, 1, 0, 0, 0, 0, 0, 2, 0, 0, 0, 0, 0, 0, 0, 3] ∧
    x.toString.toList = ['1', ':', ':', '2', ':', '0', ':', '0', ':', '0', ':', '3'] ∧
    ¬ ((read 8 x.toString.toList).map ofWords = some x.data ∧ x.ReplacesLongest) := by
  refine ⟨⟨[0, 1, 0, 0, 0, 0, 0, 2, 0, 0, 0, 0, 0, 0, 0, 3], rfl⟩, rfl, ?_, ?_⟩
  · rw [toString_eq]
    decide
  · rintro ⟨-, hlongest⟩
    obtain ⟨k, m, hm, ⟨hk, -, hrun⟩, hfirst⟩ :=
      (replacesLongest_iff _).mp hlongest 4 3 (by decide) (by decide)
    obtain rfl : k = 1 := le_antisymm (hfirst 1 ⟨le_rfl, by decide, by decide⟩) hk
    exact absurd (hrun 2 hm) (by decide)

end IPv6Address

end Dripcap
