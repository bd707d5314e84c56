import Dripcap.Library.Pairs
import Dripcap.Script.Buffer

/-!
# Hexadecimal strings

The constructor of `Buffer` for strings and `toString('hex')`. The constructor gives every two
bytes of the string to `std::stoul`, which reads as much of a number as there is: white space and
a sign may stand in front of a digit, and anything behind one. Script strings are sequences of
UTF-16 code units; how V8 writes them as bytes is a parameter, of which only the ASCII part is
fixed.
-/

namespace Dripcap.Hex

open Pairs

/-! ### The number parser -/

/-- `isspace` in the C locale. -/
def isSpace (c : UInt8) : Bool := c = 0x20 || (0x09 ≤ c && c ≤ 0x0d)

/-- `isxdigit` -/
def isXDigit (c : UInt8) : Bool :=
  (0x30 ≤ c && c ≤ 0x39) || (0x41 ≤ c && c ≤ 0x46) || (0x61 ≤ c && c ≤ 0x66)

/-- The value of a hexadecimal digit. -/
def digitValue (c : UInt8) : ℕ :=
  if c ≤ 0x39 then c.toNat - 0x30 else if c ≤ 0x46 then c.toNat - 0x37 else c.toNat - 0x57

/-- What `std::stoul` throws. -/
inductive StoulError where
  | invalidArgument
  | outOfRange
deriving DecidableEq, Repr

/-- A sign in front of a number. -/
def sign : List UInt8 → Bool × List UInt8
  | 0x2d :: str => (true, str)
  | 0x2b :: str => (false, str)
  | str => (false, str)

/-- The prefix `0x` is one only in front of a digit. -/
def skipPrefix : List UInt8 → List UInt8
  | 0x30 :: x :: c :: str =>
    if (x = 0x78 || x = 0x58) && isXDigit c then c :: str else 0x30 :: x :: c :: str
  | str => str

/-- `std::stoul(str, nullptr, 16)`. A negative number is its magnitude negated as an
`unsigned long`. -/
def stoul (str : List UInt8) : Except StoulError ℕ :=
  let (negative, str) := sign (str.dropWhile isSpace)
  let digits := (skipPrefix str).takeWhile isXDigit
  if digits = [] then .error .invalidArgument
  else
    let value := digits.foldl (fun n c => 16 * n + digitValue c) 0
    if 2 ^ 64 ≤ value then .error .outOfRange
    else .ok (if negative then (2 ^ 64 - value) % 2 ^ 64 else value)

/-! ### The constructor -/

/-- How the constructor fails: with `std::invalid_argument` or with an exception it does not
catch. -/
inductive BufferError where
  | invalidArgument (what : String)
  | outOfRange
deriving DecidableEq, Repr

/-- The loop of the encoding `hex`: the bytes that are pushed. -/
def pushBytes (str : List UInt8) : Except StoulError (List UInt8) :=
  (List.range (str.length / 2)).mapM fun i =>
    (stoul ((str.drop (i * 2)).take 2)).map UInt8.ofNat

/-- `Buffer::Buffer` for a string: the vector it makes. -/
def ofString (str : List UInt8) (type : String) : Except BufferError (List UInt8) :=
  if type = "utf8" then .ok str
  else if type = "hex" then
    match if str.length % 2 ≠ 0 then .error .invalidArgument else pushBytes str with
    | .ok vec => .ok vec
    | .error .invalidArgument => .error (.invalidArgument "Invalid hex string")
    | .error .outOfRange => .error .outOfRange
  else .error (.invalidArgument ("Unknown encoding: " ++ type))

/-- The view of a whole vector, as the constructor leaves it. -/
def ofVec (vec : List UInt8) (h : vec.length < 2 ^ 63) : Buffer :=
  ⟨vec, 0, vec.length, Nat.zero_le _, le_rfl, h⟩

/-! ### Two bytes -/

/-- Which two bytes `std::stoul` reads a number from: a digit in front of anything, or a digit
behind white space or a sign. -/
def accepts (c d : UInt8) : Bool :=
  isXDigit c || ((isSpace c || c = 0x2b || c = 0x2d) && isXDigit d)

variable {c d : UInt8} {str : List UInt8}

lemma isXDigit_iff : isXDigit c = true ↔ (48 ≤ c.toNat ∧ c.toNat ≤ 57) ∨
    (65 ≤ c.toNat ∧ c.toNat ≤ 70) ∨ (97 ≤ c.toNat ∧ c.toNat ≤ 102) := by
  simp [isXDigit, UInt8.le_iff_toNat_le, or_assoc]

lemma isSpace_iff : isSpace c = true ↔ c.toNat = 32 ∨ (9 ≤ c.toNat ∧ c.toNat ≤ 13) := by
  simp [isSpace, UInt8.le_iff_toNat_le, ← UInt8.toNat_inj]

lemma digitValue_lt (h : isXDigit c = true) : digitValue c < 16 := by
  rw [isXDigit_iff] at h
  simp only [digitValue, UInt8.le_iff_toNat_le]
  split_ifs with h1 h2
  all_goals simp at *
  all_goals omega

/-- Digits stand for themselves: no white space, no sign. -/
lemma isXDigit_plain (h : isXDigit c = true) : isSpace c = false ∧ c ≠ 0x2b ∧ c ≠ 0x2d := by
  rw [isXDigit_iff] at h
  refine ⟨?_, ?_, ?_⟩
  · rw [← Bool.not_eq_true, isSpace_iff]
    omega
  · rintro rfl
    simp at h
  · rintro rfl
    simp at h

lemma sign_of_ne (h₁ : c ≠ 0x2b) (h₂ : c ≠ 0x2d) : sign (c :: str) = (false, c :: str) := by
  unfold sign
  split
  · rename_i heq
    cases heq
    exact absurd rfl h₂
  · rename_i heq
    cases heq
    exact absurd rfl h₁
  · rfl

lemma skipPrefix_pair (c d : UInt8) : skipPrefix [c, d] = [c, d] := by
  unfold skipPrefix
  split
  · rename_i heq
    cases heq
  · rfl

/-- What `std::stoul` makes of a number of at most two digits. -/
lemma stoul_eq {negative : Bool} {rest digits : List UInt8}
    (hsign : sign (str.dropWhile isSpace) = (negative, rest))
    (hdigits : (skipPrefix rest).takeWhile isXDigit = digits) (hne : digits ≠ [])
    (hlt : digits.foldl (fun n c => 16 * n + digitValue c) 0 < 256) :
    ∃ n, stoul str = .ok n ∧
      (negative = false → n = digits.foldl (fun n c => 16 * n + digitValue c) 0) := by
  have hsmall : ¬ 2 ^ 64 ≤ digits.foldl (fun n c => 16 * n + digitValue c) 0 := by
    apply Nat.not_le.mpr
    exact hlt.trans (by decide)
  unfold stoul
  rw [hsign]
  simp only [hdigits, if_neg hne, if_neg hsmall]
  refine ⟨_, rfl, fun hnegative => ?_⟩
  rw [hnegative]
  rfl

lemma stoul_error {negative : Bool} {rest : List UInt8}
    (hsign : sign (str.dropWhile isSpace) = (negative, rest))
    (hdigits : (skipPrefix rest).takeWhile isXDigit = []) :
    stoul str = .error .invalidArgument := by
  unfold stoul
  rw [hsign]
  simp only [hdigits, if_true]

lemma dropWhile_plain (h : isSpace c = false) : (c :: str).dropWhile isSpace = c :: str := by
  rw [List.dropWhile_cons, if_neg]
  simp [h]

lemma dropWhile_space (h : isSpace c = true) :
    (c :: str).dropWhile isSpace = str.dropWhile isSpace := by
  rw [List.dropWhile_cons, if_pos h]

lemma sign_digit (h : isXDigit c = true) :
    sign ((c :: str).dropWhile isSpace) = (false, c :: str) := by
  obtain ⟨hspace, hplus, hminus⟩ := isXDigit_plain h
  rw [dropWhile_plain hspace, sign_of_ne hplus hminus]

/-- Two digits are read as a byte. -/
lemma stoul_digits (hc : isXDigit c = true) (hd : isXDigit d = true) :
    stoul [c, d] = .ok (16 * digitValue c + digitValue d) := by
  have hdigits : (skipPrefix [c, d]).takeWhile isXDigit = [c, d] := by
    rw [skipPrefix_pair]
    simp [hc, hd]
  have hfold : [c, d].foldl (fun n c => 16 * n + digitValue c) 0 =
      16 * digitValue c + digitValue d := by
    simp
  have hlt : 16 * digitValue c + digitValue d < 256 := by
    have hc' := digitValue_lt hc
    have hd' := digitValue_lt hd
    omega
  obtain ⟨n, hn, hvalue⟩ := stoul_eq (sign_digit hc) hdigits (List.cons_ne_nil _ _)
    (by rwa [hfold])
  rw [hn, hvalue rfl, hfold]

/-- A single digit, with nothing or no digit behind it. -/
lemma stoul_digit {negative : Bool} {rest : List UInt8}
    (hsign : sign (str.dropWhile isSpace) = (negative, rest))
    (hdigits : (skipPrefix rest).takeWhile isXDigit = [c]) (hc : isXDigit c = true) :
    ∃ n, stoul str = .ok n := by
  have hlt : [c].foldl (fun n c => 16 * n + digitValue c) 0 < 256 := by
    have hc' := digitValue_lt hc
    simp only [List.foldl_cons, List.foldl_nil]
    omega
  obtain ⟨n, hn, _⟩ := stoul_eq hsign hdigits (List.cons_ne_nil _ _) hlt
  exact ⟨n, hn⟩

lemma accepts_space (h : isSpace c = true) : accepts c d = isXDigit d := by
  have hnot : isXDigit c = false := by
    rw [← Bool.not_eq_true]
    intro hdigit
    rw [(isXDigit_plain hdigit).1] at h
    cases h
  simp [accepts, h, hnot]

lemma accepts_sign (h : c = 0x2b ∨ c = 0x2d) : accepts c d = isXDigit d := by
  rcases h with rfl | rfl
  · simp [accepts, show isXDigit 0x2b = false from rfl]
  · simp [accepts, show isXDigit 0x2d = false from rfl]

lemma takeWhile_single (d : UInt8) :
    (skipPrefix [d]).takeWhile isXDigit = if isXDigit d then [d] else [] := by
  have hskip : skipPrefix [d] = [d] := by
    unfold skipPrefix
    split
    · rename_i heq
      cases heq
    · rfl
  rw [hskip, List.takeWhile_cons, List.takeWhile_nil]

/-- A byte that is no digit leaves nothing to read, also as white space or a sign. -/
lemma sign_single (hd : isXDigit d = false) :
    (skipPrefix (sign ([d].dropWhile isSpace)).2).takeWhile isXDigit = [] := by
  have hrest : (sign ([d].dropWhile isSpace)).2 = [] ∨ (sign ([d].dropWhile isSpace)).2 = [d] := by
    by_cases hspace : isSpace d = true
    · rw [dropWhile_space hspace]
      exact Or.inl rfl
    · rw [dropWhile_plain (Bool.not_eq_true _ ▸ hspace)]
      unfold sign
      split
      · rename_i heq
        cases heq
        exact Or.inl rfl
      · rename_i heq
        cases heq
        exact Or.inl rfl
      · exact Or.inr rfl
  rcases hrest with h | h
  · rw [h]
    rfl
  · rw [h, takeWhile_single, hd]
    rfl

/-- Two bytes are read as a number or refused with `std::invalid_argument`. -/
lemma stoul_pair (c d : UInt8) :
    (accepts c d = true ∧ ∃ n, stoul [c, d] = .ok n) ∨
    (accepts c d = false ∧ stoul [c, d] = .error .invalidArgument) := by
  by_cases hc : isXDigit c = true
  · refine Or.inl ⟨by simp [accepts, hc], ?_⟩
    by_cases hd : isXDigit d = true
    · exact ⟨_, stoul_digits hc hd⟩
    · apply stoul_digit (sign_digit hc) ?_ hc
      rw [skipPrefix_pair]
      simp [hc, hd]
  · by_cases hspace : isSpace c = true
    · rw [accepts_space hspace]
      have hrest : [c, d].dropWhile isSpace = [d].dropWhile isSpace := dropWhile_space hspace
      cases hd : isXDigit d with
      | true =>
        refine Or.inl ⟨rfl, stoul_digit (by rw [hrest, sign_digit hd]) ?_ hd⟩
        rw [takeWhile_single, if_pos hd]
      | false =>
        refine Or.inr ⟨rfl, stoul_error (by rw [hrest]) ?_⟩
        exact sign_single hd
    · have hplain : [c, d].dropWhile isSpace = [c, d] :=
        dropWhile_plain (Bool.not_eq_true _ ▸ hspace)
      by_cases hsign : c = 0x2b ∨ c = 0x2d
      · rw [accepts_sign hsign]
        have hrest : ∃ negative, sign [c, d] = (negative, [d]) := by
          rcases hsign with rfl | rfl
          · exact ⟨false, rfl⟩
          · exact ⟨true, rfl⟩
        obtain ⟨negative, hrest⟩ := hrest
        cases hd : isXDigit d with
        | true =>
          refine Or.inl ⟨rfl, stoul_digit (by rw [hplain, hrest]) ?_ hd⟩
          rw [takeWhile_single, if_pos hd]
        | false =>
          refine Or.inr ⟨rfl, stoul_error (by rw [hplain, hrest]) ?_⟩
          rw [takeWhile_single, hd]
          rfl
      · have hne := not_or.mp hsign
        refine Or.inr ⟨by simp [accepts, hc, hspace, hne], ?_⟩
        apply stoul_error
        · rw [hplain, sign_of_ne hne.1 hne.2]
        · rw [skipPrefix_pair]
          simp [hc]

/-! ### The strings that are accepted -/

/-- The first two bytes, and the rest. -/
lemma pushBytes_cons (c d : UInt8) (str : List UInt8) : pushBytes (c :: d :: str) =
    (stoul [c, d]).bind fun n => (pushBytes str).map fun vec => UInt8.ofNat n :: vec := by
  have hrange : ∀ str : List UInt8, pushBytes str = ((List.range (str.length / 2)).map
      fun i => (str.drop (i * 2)).take 2).mapM fun sub => (stoul sub).map UInt8.ofNat := by
    intro str
    rw [List.mapM_map]
    rfl
  rw [hrange, hrange, map_range_pairs (fun sub => sub), List.mapM_cons]
  cases stoul [c, d] with
  | error e => rfl
  | ok n => rfl

/-- The byte every pair of digits stands for. -/
def decoded : List UInt8 → List UInt8
  | c :: d :: str => UInt8.ofNat (16 * digitValue c + digitValue d) :: decoded str
  | _ => []

lemma pushBytes_digits (h : InPairs (fun c d => isXDigit c = true ∧ isXDigit d = true) str) :
    pushBytes str = .ok (decoded str) := by
  induction str using pairs_induction with
  | nil => rfl
  | single c => exact absurd h (inPairs_singleton c)
  | pair c d str ih =>
    rw [pushBytes_cons, stoul_digits h.1.1 h.1.2, ih h.2]
    rfl

lemma pushBytes_eq (h : Even str.length) :
    (InPairs (fun c d => accepts c d = true) str ∧ ∃ vec, pushBytes str = .ok vec) ∨
    (¬ InPairs (fun c d => accepts c d = true) str ∧ pushBytes str = .error .invalidArgument) := by
  induction str using pairs_induction with
  | nil => exact Or.inl ⟨trivial, [], rfl⟩
  | single c => exact absurd h (by simp)
  | pair c d str ih =>
    rw [even_length_cons_cons] at h
    rw [pushBytes_cons, inPairs_cons]
    rcases stoul_pair c d with ⟨hpair, n, hn⟩ | ⟨hpair, herror⟩
    · rcases ih h with ⟨hrest, vec, hvec⟩ | ⟨hrest, herror⟩
      · refine Or.inl ⟨⟨hpair, hrest⟩, UInt8.ofNat n :: vec, ?_⟩
        rw [hn, hvec]
        rfl
      · refine Or.inr ⟨fun hall => hrest hall.2, ?_⟩
        rw [hn, herror]
        rfl
    · refine Or.inr ⟨fun hall => ?_, ?_⟩
      · rw [hpair] at hall
        cases hall.1
      · rw [herror]
        rfl

/-- The constructor takes pairs of bytes that are numbers and refuses everything else. -/
lemma ofString_hex (str : List UInt8) :
    (InPairs (fun c d => accepts c d = true) str ∧ ∃ vec, ofString str "hex" = .ok vec) ∨
    (¬ InPairs (fun c d => accepts c d = true) str ∧
      ofString str "hex" = .error (.invalidArgument "Invalid hex string")) := by
  by_cases heven : Even str.length
  · have hmod : ¬ str.length % 2 ≠ 0 := not_not.mpr (Nat.even_iff.mp heven)
    rcases pushBytes_eq heven with ⟨hpairs, vec, hvec⟩ | ⟨hpairs, herror⟩
    · refine Or.inl ⟨hpairs, vec, ?_⟩
      simp only [ofString, if_neg hmod, hvec]
      rfl
    · refine Or.inr ⟨hpairs, ?_⟩
      simp only [ofString, if_neg hmod, herror]
      rfl
  · have hmod : str.length % 2 ≠ 0 := fun h => heven (Nat.even_iff.mpr h)
    refine Or.inr ⟨fun hpairs => heven hpairs.even, ?_⟩
    simp only [ofString, if_pos hmod]
    rfl

lemma ofString_digits (h : InPairs (fun c d => isXDigit c = true ∧ isXDigit d = true) str) :
    ofString str "hex" = .ok (decoded str) := by
  have hmod : ¬ str.length % 2 ≠ 0 := not_not.mpr (Nat.even_iff.mp h.even)
  simp only [ofString, if_neg hmod, pushBytes_digits h]
  rfl

/-! ### Script strings -/

/-- What is known of V8's UTF-8 encoder: an ASCII character is a byte, any other code unit begins
with two bytes that are none. -/
structure Utf8 (utf8 : List UInt16 → List UInt8) : Prop where
  nil : utf8 [] = []
  ascii : ∀ u s, u < 0x80 → utf8 (u :: s) = u.toUInt8 :: utf8 s
  other : ∀ u s, 0x80 ≤ u → ∃ x y rest, utf8 (u :: s) = x :: y :: rest ∧ 0x80 ≤ x ∧ 0x80 ≤ y

/-- The code units of a string. -/
def utf16 (t : String) : List UInt16 := t.toList.flatMap fun c =>
  if c.toNat < 0x10000 then [UInt16.ofNat c.toNat]
  else [UInt16.ofNat (0xd800 + (c.toNat - 0x10000) / 0x400),
    UInt16.ofNat (0xdc00 + (c.toNat - 0x10000) % 0x400)]

/-- A hexadecimal digit of a script string. -/
def IsHexDigit (u : UInt16) : Prop :=
  (0x30 ≤ u ∧ u ≤ 0x39) ∨ (0x41 ≤ u ∧ u ≤ 0x46) ∨ (0x61 ≤ u ∧ u ≤ 0x66)

instance (u : UInt16) : Decidable (IsHexDigit u) := inferInstanceAs (Decidable (_ ∨ _))

/-- White space or a sign. -/
def IsLead (u : UInt16) : Prop := u = 0x20 ∨ (0x09 ≤ u ∧ u ≤ 0x0d) ∨ u = 0x2b ∨ u = 0x2d

/-- A pair of characters that is read as a number. -/
def Readable (u v : UInt16) : Prop := (IsHexDigit u ∧ v < 0x80) ∨ (IsLead u ∧ IsHexDigit v)

/-- The lower case of an ASCII character. -/
def toLower (u : UInt16) : UInt16 := if 0x41 ≤ u ∧ u ≤ 0x5a then u + 0x20 else u

section Units

variable {utf8 : List UInt16 → List UInt8} {s : List UInt16} {u v : UInt16}

lemma toNat_of_lt (h : u < 0x80) : u.toUInt8.toNat = u.toNat := by
  rw [UInt16.toNat_toUInt8]
  apply Nat.mod_eq_of_lt
  have hlt : u.toNat < 128 := h
  omega

lemma isHexDigit_iff : IsHexDigit u ↔ (48 ≤ u.toNat ∧ u.toNat ≤ 57) ∨
    (65 ≤ u.toNat ∧ u.toNat ≤ 70) ∨ (97 ≤ u.toNat ∧ u.toNat ≤ 102) := by
  simp [IsHexDigit, UInt16.le_iff_toNat_le]

lemma isLead_iff : IsLead u ↔ u.toNat = 32 ∨ (9 ≤ u.toNat ∧ u.toNat ≤ 13) ∨ u.toNat = 43 ∨
    u.toNat = 45 := by
  simp [IsLead, UInt16.le_iff_toNat_le, ← UInt16.toNat_inj]

lemma isXDigit_toUInt8 (h : u < 0x80) : isXDigit u.toUInt8 = true ↔ IsHexDigit u := by
  rw [isXDigit_iff, isHexDigit_iff, toNat_of_lt h]

lemma IsHexDigit.lt (h : IsHexDigit u) : u < 0x80 := by
  rw [isHexDigit_iff] at h
  show u.toNat < 128
  omega

lemma IsLead.lt (h : IsLead u) : u < 0x80 := by
  rw [isLead_iff] at h
  show u.toNat < 128
  omega

lemma Readable.lt (h : Readable u v) : u < 0x80 ∧ v < 0x80 := by
  rcases h with ⟨hu, hv⟩ | ⟨hu, hv⟩
  · exact ⟨hu.lt, hv⟩
  · exact ⟨hu.lt, hv.lt⟩

lemma accepts_iff : accepts c d = true ↔ isXDigit c = true ∨
    ((isSpace c = true ∨ c.toNat = 43 ∨ c.toNat = 45) ∧ isXDigit d = true) := by
  simp [accepts, ← UInt8.toNat_inj, or_assoc]

lemma accepts_toUInt8 (hu : u < 0x80) (hv : v < 0x80) :
    accepts u.toUInt8 v.toUInt8 = true ↔ Readable u v := by
  rw [accepts_iff, isXDigit_toUInt8 hu, isXDigit_toUInt8 hv, isSpace_iff, toNat_of_lt hu, Readable,
    isLead_iff]
  simp only [hv, and_true, or_assoc]

/-- A byte that is no ASCII character begins no number. -/
lemma not_accepts (h : 0x80 ≤ c) : ¬ accepts c d = true := by
  have hle : 128 ≤ c.toNat := h
  rw [accepts_iff, isXDigit_iff, isSpace_iff]
  omega

lemma utf8_map (h : Utf8 utf8) (hs : ∀ u ∈ s, u < 0x80) : utf8 s = s.map UInt16.toUInt8 := by
  induction s with
  | nil => exact h.nil
  | cons u s ih =>
    obtain ⟨hu, hrest⟩ := List.forall_mem_cons.mp hs
    rw [h.ascii u s hu, ih hrest]
    rfl

/-- A string with a character outside ASCII is never read: its bytes stand in front of a pair, or
one of them does. -/
lemma inPairs_utf8 (h : Utf8 utf8) (s : List UInt16) :
    InPairs (fun c d => accepts c d = true) (utf8 s) ↔ InPairs Readable s := by
  induction s using pairs_induction with
  | nil => rw [h.nil]; exact Iff.rfl
  | single u =>
    refine iff_of_false ?_ (inPairs_singleton u)
    by_cases hu : u < 0x80
    · rw [h.ascii u [] hu, h.nil]
      exact inPairs_singleton _
    · obtain ⟨x, y, rest, hutf8, hx, hy⟩ := h.other u [] (UInt16.not_lt.mp hu)
      rw [hutf8]
      exact fun hpairs => not_accepts hx hpairs.1
  | pair u v s ih =>
    rw [inPairs_cons, ← ih]
    by_cases hu : u < 0x80
    · by_cases hv : v < 0x80
      · rw [h.ascii u _ hu, h.ascii v _ hv, inPairs_cons, accepts_toUInt8 hu hv]
      · refine iff_of_false ?_ fun hpairs => hv hpairs.1.lt.2
        obtain ⟨x, y, rest, hutf8, hx, hy⟩ := h.other v s (UInt16.not_lt.mp hv)
        rw [h.ascii u _ hu, hutf8]
        intro hpairs
        cases rest with
        | nil => exact hpairs.2
        | cons z rest => exact not_accepts hy hpairs.2.1
    · refine iff_of_false ?_ fun hpairs => hu hpairs.1.lt.1
      obtain ⟨x, y, rest, hutf8, hx, hy⟩ := h.other u (v :: s) (UInt16.not_lt.mp hu)
      rw [hutf8]
      exact fun hpairs => not_accepts hx hpairs.1

end Units

/-! ### The text of bytes -/

/-- The character of a digit. -/
def digitUnit (v : ℕ) : UInt16 := UInt16.ofNat (Nat.digitChar v).toNat

/-- The code units of `toString('hex')`. -/
def hexText (vec : List UInt8) : List UInt16 :=
  vec.flatMap fun x => [digitUnit (x.toNat / 16), digitUnit (x.toNat % 16)]

lemma isHexDigit_digitUnit : ∀ v < 16, IsHexDigit (digitUnit v) ∧
    digitValue (digitUnit v).toUInt8 = v := by
  decide

lemma digitUnit_digitValue : ∀ n < 128, IsHexDigit (UInt16.ofNat n) →
    digitUnit (digitValue (UInt16.ofNat n).toUInt8) = toLower (UInt16.ofNat n) := by
  decide

lemma digitChar_lt : ∀ v < 16, (Nat.digitChar v).toNat < 0x10000 := by decide

lemma hexByte_toList (x : UInt8) :
    (hexByte x).toList = [Nat.digitChar (x.toNat / 16), Nat.digitChar (x.toNat % 16)] := by
  have hlt := x.toNat_lt
  rcases Nat.lt_or_ge x.toNat 16 with hx | hx
  · have hdigits : Nat.toDigits 16 x.toNat = [Nat.digitChar x.toNat] := Nat.toDigits_of_lt_base hx
    rw [hexByte, hdigits, Nat.div_eq_of_lt hx, Nat.mod_eq_of_lt hx]
    simp
  · have hdigits : Nat.toDigits 16 x.toNat =
        [Nat.digitChar (x.toNat / 16), Nat.digitChar (x.toNat % 16)] := by
      rw [Nat.toDigits_of_base_le (by decide) hx, Nat.toDigits_of_lt_base (by omega)]
      rfl
    rw [hexByte, hdigits]
    simp

lemma utf16_hex (vec : List UInt8) : utf16 (String.join (vec.map hexByte)) = hexText vec := by
  rw [utf16, String.toList_join, List.flatMap_map, List.flatMap_assoc]
  refine List.flatMap_congr fun x _ => ?_
  have hlt := x.toNat_lt
  have hhigh := digitChar_lt (x.toNat / 16) (by omega)
  have hlow := digitChar_lt (x.toNat % 16) (by omega)
  rw [hexByte_toList]
  simp [hhigh, hlow, digitUnit]

variable {utf8 : List UInt16 → List UInt8} {s : List UInt16}

/-- Digits in pairs, as bytes. -/
lemma inPairs_digits (h : Utf8 utf8) (heven : Even s.length) (hs : ∀ u ∈ s, IsHexDigit u) :
    utf8 s = s.map UInt16.toUInt8 ∧
      InPairs (fun c d => isXDigit c = true ∧ isXDigit d = true) (utf8 s) := by
  have hmap := utf8_map h fun u hu => (hs u hu).lt
  refine ⟨hmap, ?_⟩
  rw [hmap, inPairs_and_iff]
  refine ⟨by rwa [List.length_map], fun c hc => ?_⟩
  obtain ⟨u, hu, rfl⟩ := List.mem_map.mp hc
  exact (isXDigit_toUInt8 (hs u hu).lt).mpr (hs u hu)

lemma hexText_even (vec : List UInt8) : Even (hexText vec).length := by
  induction vec with
  | nil => exact Even.zero
  | cons x vec ih => exact (even_length_cons_cons _ _).mpr ih

lemma hexText_digits (vec : List UInt8) : ∀ u ∈ hexText vec, IsHexDigit u := by
  intro u hu
  obtain ⟨x, _, hu⟩ := List.mem_flatMap.mp hu
  have hlt := x.toNat_lt
  rcases List.mem_pair.mp hu with rfl | rfl
  · exact (isHexDigit_digitUnit _ (by omega)).1
  · exact (isHexDigit_digitUnit _ (by omega)).1

/-- The text of bytes is read as these bytes. -/
lemma decoded_hexText (vec : List UInt8) : decoded ((hexText vec).map UInt16.toUInt8) = vec := by
  induction vec with
  | nil => rfl
  | cons x vec ih =>
    have hlt := x.toNat_lt
    have hhigh := (isHexDigit_digitUnit (x.toNat / 16) (by omega)).2
    have hlow := (isHexDigit_digitUnit (x.toNat % 16) (by omega)).2
    have htext : (hexText (x :: vec)).map UInt16.toUInt8 = (digitUnit (x.toNat / 16)).toUInt8 ::
        (digitUnit (x.toNat % 16)).toUInt8 :: (hexText vec).map UInt16.toUInt8 := rfl
    rw [htext, decoded, ih, hhigh, hlow, Nat.div_add_mod, UInt8.ofNat_toNat]

/-- The text of the bytes that are read is the string in lower case. -/
lemma hexText_decoded (heven : Even s.length) (hs : ∀ u ∈ s, IsHexDigit u) :
    hexText (decoded (s.map UInt16.toUInt8)) = s.map toLower := by
  induction s using pairs_induction with
  | nil => rfl
  | single u => exact absurd heven (by simp)
  | pair u v s ih =>
    have hpair := (inPairs_and_iff IsHexDigit).mpr ⟨heven, hs⟩
    have hlower : ∀ u, IsHexDigit u → digitValue u.toUInt8 < 16 ∧
        digitUnit (digitValue u.toUInt8) = toLower u := by
      intro u hu
      have hspec := digitUnit_digitValue u.toNat hu.lt
      rw [UInt16.ofNat_toNat] at hspec
      exact ⟨digitValue_lt ((isXDigit_toUInt8 hu.lt).mpr hu), hspec hu⟩
    obtain ⟨hu, hu'⟩ := hlower u hpair.1.1
    obtain ⟨hv, hv'⟩ := hlower v hpair.1.2
    have hbyte : (UInt8.ofNat (16 * digitValue u.toUInt8 + digitValue v.toUInt8)).toNat =
        16 * digitValue u.toUInt8 + digitValue v.toUInt8 := by
      rw [UInt8.toNat_ofNat']
      apply Nat.mod_eq_of_lt
      omega
    have hrest := (inPairs_and_iff IsHexDigit).mp hpair.2
    rw [List.map_cons, List.map_cons, decoded, hexText, List.flatMap_cons, hbyte]
    have hdiv : (16 * digitValue u.toUInt8 + digitValue v.toUInt8) / 16 = digitValue u.toUInt8 := by
      omega
    have hmod : (16 * digitValue u.toUInt8 + digitValue v.toUInt8) % 16 = digitValue v.toUInt8 := by
      omega
    rw [hdiv, hmod, hu', hv']
    exact congrArg (fun l => toLower u :: toLower v :: l) (ih hrest.1 hrest.2)

/-! ### The codec -/

/-- Even length and nothing but digits. -/
def IsHex (s : List UInt16) : Prop := Even s.length ∧ ∀ u ∈ s, IsHexDigit u

/-- What the constructor has to do with a string: it takes it exactly when it is hexadecimal, and
the buffer then reads as the string in lower case. -/
def Exact (utf8 : List UInt16 → List UInt8) (decode : List UInt8 → String) (s : List UInt16) :
    Prop :=
  ((∃ vec, ofString (utf8 s) "hex" = .ok vec) ↔ IsHex s) ∧
  ∀ vec (h : vec.length < 2 ^ 63), IsHex s → ofString (utf8 s) "hex" = .ok vec →
    ∃ t, (ofVec vec h).toString decode "hex" = .ok t ∧ utf16 t = s.map toLower

variable (decode : List UInt8 → String)

lemma bytes_ofVec {vec : List UInt8} (h : vec.length < 2 ^ 63) : (ofVec vec h).bytes = vec := by
  show (vec.drop 0).take (vec.length - 0) = vec
  rw [List.drop_zero, Nat.sub_zero, List.take_length]

/-- The constructor reads the hexadecimal text of bytes. -/
lemma ofString_hex_bytes (h : Utf8 utf8) (vec : List UInt8) :
    ofString (utf8 (utf16 (String.join (vec.map hexByte)))) "hex" = .ok vec := by
  obtain ⟨hmap, hpairs⟩ := inPairs_digits h (hexText_even vec) (hexText_digits vec)
  rw [utf16_hex, ofString_digits hpairs, hmap, decoded_hexText]

/-- A buffer made of the hexadecimal text of a view has the bytes of the view. -/
lemma ofString_toString (h : Utf8 utf8) (b : Buffer) :
    ∃ t, b.toString decode "hex" = .ok t ∧ ofString (utf8 (utf16 t)) "hex" = .ok b.bytes :=
  ⟨_, Buffer.toString_hex decode b, ofString_hex_bytes h b.bytes⟩

/-- The constructor takes the strings of readable pairs. -/
lemma ofString_ok_iff (h : Utf8 utf8) :
    (∃ vec, ofString (utf8 s) "hex" = .ok vec) ↔ InPairs Readable s := by
  rw [← inPairs_utf8 h]
  rcases ofString_hex (utf8 s) with ⟨hpairs, hok⟩ | ⟨hpairs, herror⟩
  · exact iff_of_true hok hpairs
  · refine iff_of_false ?_ hpairs
    rintro ⟨vec, hvec⟩
    rw [herror] at hvec
    cases hvec

lemma IsHex.readable (h : IsHex s) : InPairs Readable s :=
  ((inPairs_and_iff IsHexDigit).mpr h).imp fun _ _ hpair => Or.inl ⟨hpair.1, hpair.2.lt⟩

lemma toString_ofString (h : Utf8 utf8) {vec : List UInt8} (hvec : vec.length < 2 ^ 63)
    (hs : IsHex s) (hok : ofString (utf8 s) "hex" = .ok vec) :
    ∃ t, (ofVec vec hvec).toString decode "hex" = .ok t ∧ utf16 t = s.map toLower := by
  obtain ⟨hmap, hpairs⟩ := inPairs_digits h hs.1 hs.2
  rw [ofString_digits hpairs, hmap] at hok
  cases hok
  refine ⟨_, Buffer.toString_hex decode _, ?_⟩
  rw [bytes_ofVec, utf16_hex, hexText_decoded hs.1 hs.2]

/-- The codec on every view and every string. A string is treated as it has to be exactly when it
is hexadecimal or not made of readable pairs. -/
theorem exact_iff (h : Utf8 utf8) :
    (∀ b : Buffer, ∃ t vec, ∃ hvec : vec.length < 2 ^ 63, b.toString decode "hex" = .ok t ∧
      ofString (utf8 (utf16 t)) "hex" = .ok vec ∧ (ofVec vec hvec).bytes = b.bytes) ∧
    ∀ s, Exact utf8 decode s ↔ (InPairs Readable s → IsHex s) := by
  constructor
  · intro b
    obtain ⟨t, ht, hok⟩ := ofString_toString decode h b
    have hlt : b.bytes.length < 2 ^ 63 := by
      have hfin := b.fin_le
      have hsize := b.size_lt
      rw [Buffer.length_bytes, Buffer.length]
      omega
    exact ⟨t, b.bytes, hlt, ht, hok, bytes_ofVec hlt⟩
  · intro s
    constructor
    · intro hexact hpairs
      exact hexact.1.mp ((ofString_ok_iff h).mpr hpairs)
    · intro himp
      refine ⟨?_, fun vec hvec hs hok => toString_ofString decode h hvec hs hok⟩
      rw [ofString_ok_iff h]
      exact ⟨himp, IsHex.readable⟩

/-- The bytes of a code unit that is no half of a surrogate pair. -/
def utf8Unit (u : UInt16) : List UInt8 :=
  if u < 0x80 then [u.toUInt8]
  else if u < 0x800 then [(0xc0 : UInt8) ||| (u >>> 6).toUInt8, (0x80 : UInt8) ||| u.toUInt8 % 64]
  else [(0xe0 : UInt8) ||| (u >>> 12).toUInt8, (0x80 : UInt8) ||| (u >>> 6).toUInt8 % 64,
    (0x80 : UInt8) ||| u.toUInt8 % 64]

lemma le_or {m : UInt8} (h : 0x80 ≤ m) (x : UInt8) : 0x80 ≤ m ||| x := by
  rw [UInt8.le_iff_toNat_le, UInt8.toNat_or]
  exact le_trans h Nat.left_le_or

lemma utf8_units : Utf8 fun s => s.flatMap utf8Unit where
  nil := rfl
  ascii u s hu := by
    simp [utf8Unit, hu]
  other u s hu := by
    have hnot : ¬ u < 0x80 := UInt16.not_lt.mpr hu
    by_cases h : u < 0x800
    · have hunit : utf8Unit u =
          [(0xc0 : UInt8) ||| (u >>> 6).toUInt8, (0x80 : UInt8) ||| u.toUInt8 % 64] := by
        rw [utf8Unit, if_neg hnot, if_pos h]
      refine ⟨(0xc0 : UInt8) ||| (u >>> 6).toUInt8, (0x80 : UInt8) ||| u.toUInt8 % 64,
        s.flatMap utf8Unit, ?_, le_or (by decide) _, le_or (by decide) _⟩
      simp [hunit]
    · have hunit : utf8Unit u = [(0xe0 : UInt8) ||| (u >>> 12).toUInt8,
          (0x80 : UInt8) ||| (u >>> 6).toUInt8 % 64, (0x80 : UInt8) ||| u.toUInt8 % 64] := by
        rw [utf8Unit, if_neg hnot, if_neg h]
      refine ⟨(0xe0 : UInt8) ||| (u >>> 12).toUInt8, (0x80 : UInt8) ||| (u >>> 6).toUInt8 % 64,
        ((0x80 : UInt8) ||| u.toUInt8 % 64) :: s.flatMap utf8Unit, ?_, le_or (by decide) _,
        le_or (by decide) _⟩
      simp [hunit]

theorem exact_iff_units :
    (∀ b : Buffer, ∃ t vec, ∃ hvec : vec.length < 2 ^ 63,
      b.toString Buffer.asciiText "hex" = .ok t ∧
      ofString ((utf16 t).flatMap utf8Unit) "hex" = .ok vec ∧ (ofVec vec hvec).bytes = b.bytes) ∧
    ∀ s, Exact (fun s => s.flatMap utf8Unit) Buffer.asciiText s ↔
      (InPairs Readable s → IsHex s) :=
  exact_iff Buffer.asciiText utf8_units

/-- `"1g"`, `"-1"` and `"0x"` are taken, as the bytes 01, ff and 00. -/
theorem junk_accepted : ofString ([0x31, 0x67].flatMap utf8Unit) "hex" = .ok [0x01] ∧
    ofString ([0x2d, 0x31].flatMap utf8Unit) "hex" = .ok [0xff] ∧
    ofString ([0x30, 0x78].flatMap utf8Unit) "hex" = .ok [0x00] ∧
    ¬ Exact (fun s => s.flatMap utf8Unit) Buffer.asciiText [0x31, 0x67] := by
  have hread : ofString ([0x31, 0x67].flatMap utf8Unit) "hex" = .ok [0x01] := by decide
  refine ⟨hread, by decide, by decide, fun h => ?_⟩
  have hdigit := (h.1.mp ⟨[0x01], hread⟩).2 0x67 (by simp)
  exact absurd hdigit (by decide)

end Dripcap.Hex
