import Dripcap.Library.LittleEndian
import Dripcap.Library.PolishNotation
import Mathlib.Algebra.Group.Int.Defs

/-!
# MessagePack

A value is a term of arrays and maps with scalars as leaves, in Polish notation: every token begins
with a byte that says what it is, and there may be a size and the bytes of a scalar behind it.

`lex` takes the first token off a list of bytes, `values` are the values that are complete in a list
of bytes. A token is read in the same way whatever follows it (`lex_append`), so that values written
one after the other are found again (`values_append`).
-/

namespace MessagePack

open Polish

/-- A leaf; `S` is the type of strings, `F` that of numbers with a fraction. An extension begins
with its type. -/
inductive Scalar (S F : Type*) where
  | nil
  | boolean (b : Bool)
  | integer (d : ℤ)
  | float (d : F)
  | str (s : S)
  | bin (s : S)
  | ext (s : S)
  deriving DecidableEq

/-- The strings are replaced. -/
def Scalar.mapStrings {S S' F : Type*} (f : S → S') : Scalar S F → Scalar S' F
  | .nil => .nil
  | .boolean b => .boolean b
  | .integer d => .integer d
  | .float d => .float d
  | .str s => .str (f s)
  | .bin s => .bin (f s)
  | .ext s => .ext (f s)

def Scalar.strings {S F : Type*} : Scalar S F → List S
  | .str s | .bin s | .ext s => [s]
  | .nil | .boolean _ | .integer _ | .float _ => []

lemma mapStrings_congr {S S' F : Type*} {f g : S → S'} {a : Scalar S F}
    (h : ∀ s ∈ a.strings, f s = g s) : a.mapStrings f = a.mapStrings g := by
  cases a with
  | nil | boolean | integer | float => rfl
  | str s => exact congrArg Scalar.str (h s List.mem_cons_self)
  | bin s => exact congrArg Scalar.bin (h s List.mem_cons_self)
  | ext s => exact congrArg Scalar.ext (h s List.mem_cons_self)

variable {F : Type*}

/-- The leaves of what is read. -/
abbrev Leaf (F : Type*) : Type _ := Scalar (List UInt8) F

/-- A signed number of so many bytes. -/
def signed (data : List UInt8) : ℤ := (BigEndian.value data : ℤ).bmod (256 ^ data.length)

/-! ### Tokens -/

section Lex

/-- A scalar of `n` bytes. -/
def plain (n : ℕ) (bytes : List UInt8) (scalar : List UInt8 → Leaf F) :
    Option (Token (Leaf F) × List UInt8) :=
  if n ≤ bytes.length then some (.leaf (scalar (bytes.take n)), bytes.drop n) else none

/-- A scalar behind its size, which is a number of `w` bytes; `extra` bytes are not counted in the
size. -/
def sized (w extra : ℕ) (bytes : List UInt8) (scalar : List UInt8 → Leaf F) :
    Option (Token (Leaf F) × List UInt8) :=
  if w ≤ bytes.length then plain (BigEndian.value (bytes.take w) + extra) (bytes.drop w) scalar
  else none

/-- A number of parts, of `w` bytes. -/
def counted (w : ℕ) (bytes : List UInt8) (token : ℕ → Token (Leaf F)) :
    Option (Token (Leaf F) × List UInt8) :=
  if w ≤ bytes.length then some (token (BigEndian.value (bytes.take w)), bytes.drop w) else none

-- the number that the bytes of a float stand for
variable (float : List UInt8 → F)

/-- The tokens that have a byte of their own in front of a size or a scalar. -/
def lexFormat (format : ℕ) (bytes : List UInt8) : Option (Token (Leaf F) × List UInt8) :=
  match format with
  | 0x00 => some (.leaf .nil, bytes)
  | 0x02 => some (.leaf (.boolean false), bytes)
  | 0x03 => some (.leaf (.boolean true), bytes)
  | 0x04 => sized 1 0 bytes .bin
  | 0x05 => sized 2 0 bytes .bin
  | 0x06 => sized 4 0 bytes .bin
  | 0x07 => sized 1 1 bytes .ext
  | 0x08 => sized 2 1 bytes .ext
  | 0x09 => sized 4 1 bytes .ext
  | 0x0a => plain 4 bytes fun data => .float (float data)
  | 0x0b => plain 8 bytes fun data => .float (float data)
  | 0x0c => plain 1 bytes fun data => .integer (BigEndian.value data)
  | 0x0d => plain 2 bytes fun data => .integer (BigEndian.value data)
  | 0x0e => plain 4 bytes fun data => .integer (BigEndian.value data)
  | 0x0f => plain 8 bytes fun data => .integer (BigEndian.value data)
  | 0x10 => plain 1 bytes fun data => .integer (signed data)
  | 0x11 => plain 2 bytes fun data => .integer (signed data)
  | 0x12 => plain 4 bytes fun data => .integer (signed data)
  | 0x13 => plain 8 bytes fun data => .integer (signed data)
  | 0x14 => plain 2 bytes .ext
  | 0x15 => plain 3 bytes .ext
  | 0x16 => plain 5 bytes .ext
  | 0x17 => plain 9 bytes .ext
  | 0x18 => plain 17 bytes .ext
  | 0x19 => sized 1 0 bytes .str
  | 0x1a => sized 2 0 bytes .str
  | 0x1b => sized 4 0 bytes .str
  | 0x1c => counted 2 bytes .array
  | 0x1d => counted 4 bytes .array
  | 0x1e => counted 2 bytes .map
  | 0x1f => counted 4 bytes .map
  | _ => none

/-- The first token, and the bytes behind it. There is none if the token is not complete, and none
that begins with `0xc1`. -/
def lex : List UInt8 → Option (Token (Leaf F) × List UInt8)
  | [] => none
  | b :: bytes =>
    if b.toNat < 0x80 then some (.leaf (.integer b.toNat), bytes)
    else if b.toNat < 0x90 then some (.map (b.toNat - 0x80), bytes)
    else if b.toNat < 0xa0 then some (.array (b.toNat - 0x90), bytes)
    else if b.toNat < 0xc0 then plain (b.toNat - 0xa0) bytes .str
    else if b.toNat < 0xe0 then lexFormat float (b.toNat - 0xc0) bytes
    else some (.leaf (.integer (b.toNat - 256)), bytes)

variable {b : UInt8} (bytes : List UInt8)

lemma lex_positive (h : b.toNat < 0x80) :
    lex float (b :: bytes) = some (.leaf (.integer b.toNat), bytes) := if_pos h

lemma lex_smallMap (hle : 0x80 ≤ b.toNat) (hlt : b.toNat < 0x90) :
    lex float (b :: bytes) = some (.map (b.toNat - 0x80), bytes) := by
  rw [lex, if_neg (by omega), if_pos hlt]

lemma lex_smallArray (hle : 0x90 ≤ b.toNat) (hlt : b.toNat < 0xa0) :
    lex float (b :: bytes) = some (.array (b.toNat - 0x90), bytes) := by
  rw [lex, if_neg (by omega), if_neg (by omega), if_pos hlt]

lemma lex_smallStr (hle : 0xa0 ≤ b.toNat) (hlt : b.toNat < 0xc0) :
    lex float (b :: bytes) = plain (b.toNat - 0xa0) bytes .str := by
  rw [lex, if_neg (by omega), if_neg (by omega), if_neg (by omega), if_pos hlt]

/-- A byte in front of a size or a scalar. -/
lemma lex_tag (format : ℕ) (htag : b.toNat = 0xc0 + format) (hlt : format < 0x20) :
    lex float (b :: bytes) = lexFormat float format bytes := by
  have hformat : b.toNat - 0xc0 = format := by omega
  rw [lex, if_neg (by omega), if_neg (by omega), if_neg (by omega), if_neg (by omega),
    if_pos (by omega), hformat]

lemma lex_negative (h : 0xe0 ≤ b.toNat) :
    lex float (b :: bytes) = some (.leaf (.integer (b.toNat - 256)), bytes) := by
  rw [lex, if_neg (by omega), if_neg (by omega), if_neg (by omega), if_neg (by omega),
    if_neg (by omega)]

end Lex

/-! ### What follows a token -/

/-- The token is read, and the bytes behind it are left. -/
def Splits (bytes : List UInt8) (read : List UInt8 → Option (Token (Leaf F) × List UInt8)) : Prop :=
  ∀ token rest, read bytes = some (token, rest) →
    rest.length ≤ bytes.length ∧ ∀ more, read (bytes ++ more) = some (token, rest ++ more)

variable {bytes rest : List UInt8} {token : Token (Leaf F)}

lemma splits_some (token : Token (Leaf F)) : Splits bytes fun bytes => some (token, bytes) := by
  rintro token rest ⟨⟩
  exact ⟨le_rfl, fun _ => rfl⟩

lemma splits_none : Splits (F := F) bytes fun _ => none := nofun

lemma splits_plain (n : ℕ) (scalar : List UInt8 → Leaf F) :
    Splits bytes fun bytes => plain n bytes scalar := by
  intro token rest h
  simp only [plain] at h ⊢
  split_ifs at h with hn
  obtain ⟨rfl, rfl⟩ := Prod.mk.inj (Option.some.inj h)
  refine ⟨by rw [List.length_drop]; exact Nat.sub_le _ _, fun more => ?_⟩
  have hmore : n ≤ (bytes ++ more).length := by
    rw [List.length_append]
    exact Nat.le_add_right_of_le hn
  rw [if_pos hmore, List.take_append_of_le_length hn, List.drop_append_of_le_length hn]

lemma splits_counted (w : ℕ) (token : ℕ → Token (Leaf F)) :
    Splits bytes fun bytes => counted w bytes token := by
  intro t rest h
  simp only [counted] at h ⊢
  split_ifs at h with hw
  obtain ⟨rfl, rfl⟩ := Prod.mk.inj (Option.some.inj h)
  refine ⟨by rw [List.length_drop]; exact Nat.sub_le _ _, fun more => ?_⟩
  have hmore : w ≤ (bytes ++ more).length := by
    rw [List.length_append]
    exact Nat.le_add_right_of_le hw
  rw [if_pos hmore, List.take_append_of_le_length hw, List.drop_append_of_le_length hw]

lemma splits_sized (w extra : ℕ) (scalar : List UInt8 → Leaf F) :
    Splits bytes fun bytes => sized w extra bytes scalar := by
  intro token rest h
  simp only [sized] at h ⊢
  split_ifs at h with hw
  obtain ⟨hle, hmore⟩ := splits_plain _ scalar token rest h
  rw [List.length_drop] at hle
  refine ⟨hle.trans (Nat.sub_le _ _), fun more => ?_⟩
  have hlength : w ≤ (bytes ++ more).length := by
    rw [List.length_append]
    exact Nat.le_add_right_of_le hw
  rw [if_pos hlength, List.take_append_of_le_length hw, List.drop_append_of_le_length hw]
  exact hmore more

variable (float : List UInt8 → F)

lemma splits_lexFormat (format : ℕ) : Splits bytes (lexFormat float format) := by
  unfold lexFormat
  split
  all_goals
    first
    | exact splits_some _
    | exact splits_plain _ _
    | exact splits_sized _ _ _
    | exact splits_counted _ _
    | exact splits_none

variable {float}

/-- A token is read in the same way whatever follows it, and it has at least one byte. -/
lemma lex_split (h : lex float bytes = some (token, rest)) :
    rest.length < bytes.length ∧ ∀ more, lex float (bytes ++ more) = some (token, rest ++ more) := by
  cases bytes with
  | nil => cases h
  | cons b bytes =>
    have hsplit : Splits bytes fun bytes => lex float (b :: bytes) := by
      simp only [lex]
      split_ifs
      · exact splits_some _
      · exact splits_some _
      · exact splits_some _
      · exact splits_plain _ _
      · exact splits_lexFormat float _
      · exact splits_some _
    obtain ⟨hle, hmore⟩ := hsplit token rest h
    exact ⟨Nat.lt_succ_of_le hle, hmore⟩

lemma lex_append (h : lex float bytes = some (token, rest)) (more : List UInt8) :
    lex float (bytes ++ more) = some (token, rest ++ more) := (lex_split h).2 more

/-! ### Values -/

variable (float)

/-- The tokens that are complete, at most `n`, and the bytes behind them. -/
def lexUpTo : ℕ → List UInt8 → List (Token (Leaf F)) × List UInt8
  | 0, bytes => ([], bytes)
  | n + 1, bytes =>
    match lex float bytes with
    | some (token, rest) => (token :: (lexUpTo n rest).1, (lexUpTo n rest).2)
    | none => ([], bytes)

/-- The tokens that are complete. -/
def tokens (bytes : List UInt8) : List (Token (Leaf F)) := (lexUpTo float bytes.length bytes).1

/-- The values that are complete. -/
def values (bytes : List UInt8) : List (Term (Leaf F)) := (feed [] (tokens float bytes)).1

/-- No token begins with the byte behind the tokens that are complete. -/
def malformed (bytes : List UInt8) : Bool :=
  (lexUpTo float bytes.length bytes).2.head? = some 0xc1

variable {float}

lemma lexUpTo_eq {n m : ℕ} (hn : bytes.length ≤ n) (hm : bytes.length ≤ m) :
    lexUpTo float n bytes = lexUpTo float m bytes := by
  induction n generalizing m bytes with
  | zero =>
    rw [List.eq_nil_of_length_eq_zero (Nat.le_zero.mp hn)]
    cases m <;> rfl
  | succ n ih =>
    cases m with
    | zero =>
      rw [List.eq_nil_of_length_eq_zero (Nat.le_zero.mp hm)]
      rfl
    | succ m =>
      rw [lexUpTo, lexUpTo]
      cases hlex : lex float bytes with
      | none => rfl
      | some r =>
        have hlt := (lex_split hlex).1
        show (r.1 :: (lexUpTo float n r.2).1, _) = _
        rw [ih (m := m) (by omega) (by omega)]

lemma lexUpTo_of_lex (h : lex float bytes = some (token, rest)) :
    lexUpTo float bytes.length bytes = (token :: tokens float rest,
      (lexUpTo float rest.length rest).2) := by
  have hlt := (lex_split h).1
  obtain ⟨n, hn⟩ : ∃ n, bytes.length = n + 1 := ⟨bytes.length - 1, by omega⟩
  have hrest : lexUpTo float n rest = lexUpTo float rest.length rest :=
    lexUpTo_eq (by omega) le_rfl
  rw [hn, lexUpTo, h, ← hrest, tokens, ← hrest]

lemma lexUpTo_of_none (h : lex float bytes = none) :
    lexUpTo float bytes.length bytes = ([], bytes) := by
  cases bytes.length with
  | zero => rfl
  | succ n => rw [lexUpTo, h]

lemma tokens_of_lex (h : lex float bytes = some (token, rest)) :
    tokens float bytes = token :: tokens float rest := by
  rw [tokens, lexUpTo_of_lex h]

lemma malformed_of_lex (h : lex float bytes = some (token, rest)) :
    malformed float bytes = malformed float rest := by
  rw [malformed, lexUpTo_of_lex h, malformed]

lemma tokens_of_none (h : lex float bytes = none) : tokens float bytes = [] := by
  rw [tokens, lexUpTo_of_none h]

lemma malformed_of_none (h : lex float bytes = none) :
    malformed float bytes = (bytes.head? = some 0xc1 : Bool) := by
  rw [malformed, lexUpTo_of_none h]

/-- These are the bytes of these tokens. -/
inductive Lexes (float : List UInt8 → F) : List (Token (Leaf F)) → List UInt8 → Prop where
  | nil : Lexes float [] []
  | cons {token : Token (Leaf F)} {ts : List (Token (Leaf F))} {data bytes : List UInt8}
      (first : lex float data = some (token, [])) (rest : Lexes float ts bytes) :
      Lexes float (token :: ts) (data ++ bytes)

lemma Lexes.append {ts ts' : List (Token (Leaf F))} {bytes' : List UInt8}
    (h : Lexes float ts bytes) (h' : Lexes float ts' bytes') :
    Lexes float (ts ++ ts') (bytes ++ bytes') := by
  induction h with
  | nil => exact h'
  | cons first _ ih =>
    rw [List.append_assoc]
    exact .cons first ih

lemma lexes_singleton (h : lex float bytes = some (token, [])) : Lexes float [token] bytes := by
  have hcons := Lexes.cons h .nil
  rwa [List.append_nil] at hcons

/-- The tokens are found again, whatever follows them. -/
lemma Lexes.tokens_append {ts : List (Token (Leaf F))} (h : Lexes float ts bytes)
    (more : List UInt8) : tokens float (bytes ++ more) = ts ++ tokens float more := by
  induction h with
  | nil => rfl
  | cons first _ ih =>
    have hlex := lex_append first
    rw [List.append_assoc, tokens_of_lex (hlex _), List.nil_append, ih, List.cons_append]

lemma Lexes.malformed_append {ts : List (Token (Leaf F))} (h : Lexes float ts bytes)
    (more : List UInt8) : malformed float (bytes ++ more) = malformed float more := by
  induction h with
  | nil => rfl
  | cons first _ ih =>
    have hlex := lex_append first
    rw [List.append_assoc, malformed_of_lex (hlex _), List.nil_append, ih]

/-- These are the bytes of these values. -/
def Encodes (float : List UInt8 → F) (vs : List (Term (Leaf F))) (bytes : List UInt8) : Prop :=
  Lexes float (tokensAll vs) bytes

/-- Values written one after the other are found again, whatever follows them. -/
theorem values_append {vs : List (Term (Leaf F))} (h : Encodes float vs bytes)
    (more : List UInt8) : values float (bytes ++ more) = vs ++ values float more := by
  rw [values, h.tokens_append, feed_tokens]
  rfl

lemma values_of_encodes {vs : List (Term (Leaf F))} (h : Encodes float vs bytes) :
    values float bytes = vs := by
  have happend := values_append h []
  rwa [List.append_nil, show values float [] = [] from rfl, List.append_nil] at happend

lemma malformed_of_encodes {vs : List (Term (Leaf F))} (h : Encodes float vs bytes) :
    malformed float bytes = false := by
  have happend := Lexes.malformed_append h []
  rw [List.append_nil] at happend
  exact happend.trans rfl

lemma Encodes.append {vs vs' : List (Term (Leaf F))} {bytes' : List UInt8}
    (h : Encodes float vs bytes) (h' : Encodes float vs' bytes') :
    Encodes float (vs ++ vs') (bytes ++ bytes') := by
  rw [Encodes, tokensAll_append]
  exact Lexes.append h h'

lemma encodes_leaf {a : Leaf F} (h : lex float bytes = some (.leaf a, [])) :
    Encodes float [.leaf a] bytes := lexes_singleton h

lemma Encodes.cons {v : Term (Leaf F)} {vs : List (Term (Leaf F))} {bytes' : List UInt8}
    (h : Encodes float [v] bytes) (hs : Encodes float vs bytes') :
    Encodes float (v :: vs) (bytes ++ bytes') := h.append hs

lemma Encodes.array {vs : List (Term (Leaf F))} {head : List UInt8}
    (hhead : lex float head = some (.array vs.length, [])) (h : Encodes float vs bytes) :
    Encodes float [.array vs] (head ++ bytes) := by
  rw [Encodes, tokensAll, tokensAll, List.append_nil, Term.tokens]
  exact .cons hhead h

lemma Encodes.map {kvs : List (Term (Leaf F) × Term (Leaf F))} {head : List UInt8}
    (hhead : lex float head = some (.map kvs.length, []))
    (h : Lexes float (tokensPairs kvs) bytes) : Encodes float [.map kvs] (head ++ bytes) := by
  rw [Encodes, tokensAll, tokensAll, List.append_nil, Term.tokens]
  exact .cons hhead h

lemma Encodes.pair {k v : Term (Leaf F)} {kvs : List (Term (Leaf F) × Term (Leaf F))}
    {key val : List UInt8} (hk : Encodes float [k] key) (hv : Encodes float [v] val)
    (h : Lexes float (tokensPairs kvs) bytes) :
    Lexes float (tokensPairs ((k, v) :: kvs)) (key ++ (val ++ bytes)) := by
  rw [Encodes, tokensAll, tokensAll, List.append_nil] at hk hv
  exact Lexes.append hk (Lexes.append hv h)

end MessagePack
