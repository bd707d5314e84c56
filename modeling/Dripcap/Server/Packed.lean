import Dripcap.Server.Unpacker
import Dripcap.Server.Writes

/-!
# The bytes of packed objects

What a packer writes for an object are the bytes of one MessagePack value, `valueOf` the object, if
the numbers in it have a representation and the sizes fit (`encodes_pack`). What is written part by
part and read back as an object has the bytes of this object (`encode_of_reads`).
-/

namespace Dripcap.Packer

open MessagePack

/-! ### Numbers -/

lemma toNat_ofInt (d : ℤ) : ((UInt8.ofInt d).toNat : ℤ) = d % 256 := by
  rw [UInt8.ofInt, UInt8.toNat_ofNat']
  omega

@[simp] lemma length_store (w : ℕ) (d : ℤ) : (store w d).length = w := by
  induction w generalizing d with
  | zero => rfl
  | succ w ih => rw [store, List.length_append, ih, List.length_singleton]

/-- The bytes of a number, as a number without a sign. -/
lemma value_store (w : ℕ) (d : ℤ) : (BigEndian.value (store w d) : ℤ) = d % 256 ^ w := by
  induction w generalizing d with
  | zero =>
    rw [pow_zero, Int.emod_one]
    rfl
  | succ w ih =>
    have happend : BigEndian.value (store w (d / 256) ++ [UInt8.ofInt d]) =
        (UInt8.ofInt d).toNat + 256 * BigEndian.value (store w (d / 256)) := by
      rw [BigEndian.value, List.reverse_append, LittleEndian.value_append]
      simp only [List.reverse_singleton, LittleEndian.value_singleton, List.length_singleton,
        pow_one]
      rfl
    rw [store, happend, Nat.cast_add, Nat.cast_mul, toNat_ofInt, ih, pow_succ,
      Int.mul_comm (256 ^ w), Nat.cast_ofNat]
    rw [Int.emod_def, Int.emod_def, Int.emod_def, Int.ediv_ediv_of_nonneg (by decide)]
    ring

lemma value_store_of_lt {w : ℕ} {d : ℤ} (hd : 0 ≤ d) (hlt : d < 256 ^ w) :
    (BigEndian.value (store w d) : ℤ) = d := by
  rw [value_store, Int.emod_eq_of_lt hd hlt]

lemma value_store_natCast {w n : ℕ} (hlt : n < 256 ^ w) : BigEndian.value (store w n) = n := by
  have hvalue := value_store_of_lt (Int.natCast_nonneg n) (by exact_mod_cast hlt : (n : ℤ) < 256 ^ w)
  exact_mod_cast hvalue

/-- The bytes of a number, as a number with a sign. -/
lemma signed_store {w : ℕ} {d : ℤ} (hle : -256 ^ w ≤ 2 * d) (hlt : 2 * d < 256 ^ w) :
    signed (store w d) = d := by
  have hcast : ((256 ^ w : ℕ) : ℤ) = 256 ^ w := by push_cast; rfl
  rw [signed, value_store, length_store, ← hcast, Int.emod_bmod]
  rw [← hcast] at hle hlt
  exact Int.bmod_eq_of_le_mul_two (by omega) (by omega)

/-! ### Tokens -/

section Lex

variable {float : List UInt8 → Double}

lemma plain_self {n : ℕ} {data : List UInt8} (hn : data.length = n) (scalar : List UInt8 → Leaf Double) :
    plain n data scalar = some (.leaf (scalar data), []) := by
  rw [plain, if_pos hn.ge, List.take_of_length_le hn.le, List.drop_of_length_le hn.le]

lemma sized_store {w extra n : ℕ} (hlt : n < 256 ^ w) {data : List UInt8}
    (hn : data.length = n + extra) (scalar : List UInt8 → Leaf Double) :
    sized w extra (store w n ++ data) scalar = some (.leaf (scalar data), []) := by
  have hle : w ≤ (store w n ++ data).length := by
    rw [List.length_append, length_store]
    exact Nat.le_add_right _ _
  rw [sized, if_pos hle, List.take_left' (length_store _ _), List.drop_left' (length_store _ _),
    value_store_natCast hlt, plain_self hn]

lemma counted_store {w n : ℕ} (hlt : n < 256 ^ w) (token : ℕ → Polish.Token (Leaf Double)) :
    counted w (store w n) token = some (token n, []) := by
  have hlength := length_store w n
  rw [counted, if_pos hlength.ge, List.take_of_length_le hlength.le,
    List.drop_of_length_le hlength.le, value_store_natCast hlt]

/-- The integers that have a representation. -/
def IsInteger (d : ℤ) : Prop := -2 ^ 63 ≤ d ∧ d < 2 ^ 64

lemma lex_packInteger {d : ℤ} (h : IsInteger d) :
    lex float (packInteger d) = some (.leaf (.integer d), []) := by
  obtain ⟨hle, hlt⟩ := h
  have hsigned (w : ℕ) (hle : -256 ^ w ≤ 2 * d) (hlt : 2 * d < 256 ^ w) :
      plain (F := Double) w (store w d) (fun data => .integer (signed data)) =
        some (.leaf (.integer d), []) := by
    rw [plain_self (length_store w d), signed_store hle hlt]
  have hunsigned (w : ℕ) (hle : 0 ≤ d) (hlt : d < 256 ^ w) :
      plain (F := Double) w (store w d) (fun data => .integer (BigEndian.value data)) =
        some (.leaf (.integer d), []) := by
    rw [plain_self (length_store w d), value_store_of_lt hle hlt]
  have hbyte := toNat_ofInt d
  rw [packInteger]
  split_ifs
  · exact (lex_tag _ _ 0x13 rfl (by decide)).trans (hsigned 8 (by omega) (by omega))
  · exact (lex_tag _ _ 0x12 rfl (by decide)).trans (hsigned 4 (by omega) (by omega))
  · exact (lex_tag _ _ 0x11 rfl (by decide)).trans (hsigned 2 (by omega) (by omega))
  · exact (lex_tag _ _ 0x10 rfl (by decide)).trans (hsigned 1 (by omega) (by omega))
  · show lex float [UInt8.ofInt d] = _
    rcases lt_or_ge d 0 with hneg | hpos
    · have hvalue : (UInt8.ofInt d).toNat = d + 256 := by omega
      rw [lex_negative _ _ (by omega), hvalue, Int.add_sub_cancel]
    · have hvalue : (UInt8.ofInt d).toNat = d := by omega
      rw [lex_positive _ _ (by omega), hvalue]
  · exact (lex_tag _ _ 0x0c rfl (by decide)).trans (hunsigned 1 (by omega) (by omega))
  · exact (lex_tag _ _ 0x0d rfl (by decide)).trans (hunsigned 2 (by omega) (by omega))
  · exact (lex_tag _ _ 0x0e rfl (by decide)).trans (hunsigned 4 (by omega) (by omega))
  · exact (lex_tag _ _ 0x0f rfl (by decide)).trans (hunsigned 8 (by omega) (by omega))

/-- A byte with a small number in it. -/
lemma toNat_small (base : ℕ) {n : ℕ} (h : base + n < 256) : (UInt8.ofInt (base + n)).toNat = base + n := by
  have hbyte := toNat_ofInt (base + n)
  omega

lemma lex_packArray {n : ℕ} (h : n < 2 ^ 32) : lex float (packArray n) = some (.array n, []) := by
  rw [packArray]
  split_ifs with hsmall
  · have hbyte : (UInt8.ofInt (0x90 + n)).toNat = 0x90 + n := toNat_small 0x90 (by omega)
    have hn : 0x90 + n - 0x90 = n := by omega
    show lex float [UInt8.ofInt (0x90 + n)] = _
    rw [lex_smallArray _ _ (by omega) (by omega), hbyte, hn]
  · exact (lex_tag _ _ 0x1c rfl (by decide)).trans (counted_store (by omega) _)
  · exact (lex_tag _ _ 0x1d rfl (by decide)).trans (counted_store (by omega) _)

lemma lex_packMap {n : ℕ} (h : n < 2 ^ 32) : lex float (packMap n) = some (.map n, []) := by
  rw [packMap]
  split_ifs with hsmall
  · have hbyte : (UInt8.ofInt (0x80 + n)).toNat = 0x80 + n := toNat_small 0x80 (by omega)
    have hn : 0x80 + n - 0x80 = n := by omega
    show lex float [UInt8.ofInt (0x80 + n)] = _
    rw [lex_smallMap _ _ (by omega) (by omega), hbyte, hn]
  · exact (lex_tag _ _ 0x1e rfl (by decide)).trans (counted_store (by omega) _)
  · exact (lex_tag _ _ 0x1f rfl (by decide)).trans (counted_store (by omega) _)

lemma lex_packStr {data : List UInt8} (h : data.length < 2 ^ 32) :
    lex float (packStr data.length ++ data) = some (.leaf (.str data), []) := by
  rw [packStr]
  split_ifs
  · have hbyte : (UInt8.ofInt (0xa0 + data.length)).toNat = 0xa0 + data.length :=
      toNat_small 0xa0 (by omega)
    have hn : 0xa0 + data.length - 0xa0 = data.length := by omega
    show lex float (UInt8.ofInt (0xa0 + data.length) :: data) = _
    rw [lex_smallStr _ _ (by omega) (by omega), hbyte, hn, plain_self rfl]
  · exact (lex_tag _ _ 0x19 rfl (by decide)).trans (sized_store (by omega) rfl _)
  · exact (lex_tag _ _ 0x1a rfl (by decide)).trans (sized_store (by omega) rfl _)
  · exact (lex_tag _ _ 0x1b rfl (by decide)).trans (sized_store (by omega) rfl _)

lemma lex_packBin {data : List UInt8} (h : data.length < 2 ^ 32) :
    lex float (packBin data.length ++ data) = some (.leaf (.bin data), []) := by
  rw [packBin]
  split_ifs
  · exact (lex_tag _ _ 0x04 rfl (by decide)).trans (sized_store (by omega) rfl _)
  · exact (lex_tag _ _ 0x05 rfl (by decide)).trans (sized_store (by omega) rfl _)
  · exact (lex_tag _ _ 0x06 rfl (by decide)).trans (sized_store (by omega) rfl _)

/-- The type of an extension is a byte in front of its bytes. -/
lemma lex_packExt {data : List UInt8} (h : data.length < 2 ^ 32) (type : ℤ) :
    lex float (packExt data.length type ++ data) =
      some (.leaf (.ext (UInt8.ofInt type :: data)), []) := by
  have hlength : (UInt8.ofInt type :: data).length = data.length + 1 := List.length_cons
  unfold packExt
  split
  · rename_i hn
    exact (lex_tag _ _ 0x14 rfl (by decide)).trans (plain_self (hlength.trans (by rw [hn])) _)
  · rename_i hn
    exact (lex_tag _ _ 0x15 rfl (by decide)).trans (plain_self (hlength.trans (by rw [hn])) _)
  · rename_i hn
    exact (lex_tag _ _ 0x16 rfl (by decide)).trans (plain_self (hlength.trans (by rw [hn])) _)
  · rename_i hn
    exact (lex_tag _ _ 0x17 rfl (by decide)).trans (plain_self (hlength.trans (by rw [hn])) _)
  · rename_i hn
    exact (lex_tag _ _ 0x18 rfl (by decide)).trans (plain_self (hlength.trans (by rw [hn])) _)
  · split_ifs
    · rw [List.cons_append, List.append_assoc]
      exact (lex_tag _ _ 0x07 rfl (by decide)).trans (sized_store (by omega) hlength _)
    · rw [List.cons_append, List.append_assoc]
      exact (lex_tag _ _ 0x08 rfl (by decide)).trans (sized_store (by omega) hlength _)
    · rw [List.cons_append, List.append_assoc]
      exact (lex_tag _ _ 0x09 rfl (by decide)).trans (sized_store (by omega) hlength _)

end Lex

/-! ### Objects -/

section Value

variable (bits : Double → UInt64)

mutual

/-- The value that an object is written as. -/
def valueOf : Object → Polish.Term (Leaf Double)
  | .nil => .leaf .nil
  | .boolean b => .leaf (.boolean b)
  | .integer d => .leaf (.integer d)
  | .float d => .leaf (.float d)
  | .str s => .leaf (.str (Unicode.utf8 s))
  | .bin data => .leaf (.bin data)
  | .array os => .array (valuesOf os)
  | .map kvs => .map (pairsOf kvs)
  | .ext type data => .leaf (.ext (UInt8.ofInt type :: data))
  | .extPacked type o => .leaf (.ext (UInt8.ofInt (number type) :: (pack bits o).flatten))

def valuesOf : List Object → List (Polish.Term (Leaf Double))
  | [] => []
  | o :: os => valueOf o :: valuesOf os

def pairsOf : List (Object × Object) → List (Polish.Term (Leaf Double) × Polish.Term (Leaf Double))
  | [] => []
  | (key, val) :: kvs => (valueOf key, valueOf val) :: pairsOf kvs

end

mutual

/-- The numbers have a representation, the sizes fit into 32 bits, and an extension whose bytes are
those of an object is known as such. -/
def Fits : Object → Prop
  | .nil => True
  | .boolean _ => True
  | .integer d => IsInteger d
  | .float d => Double.ofBits 11 52 (bits d).toNat = d
  | .str s => (Unicode.utf8 s).length < 2 ^ 32
  | .bin data => data.length < 2 ^ 32
  | .array os => os.length < 2 ^ 32 ∧ FitAll os
  | .map kvs => kvs.length < 2 ^ 32 ∧ FitPairs kvs
  | .ext type data => data.length < 2 ^ 32 ∧ (-2 ^ 7 ≤ type ∧ type < 2 ^ 7) ∧
    ∀ packed o, type = number packed → (pack bits o).flatten ≠ data
  | .extPacked _ o => (pack bits o).flatten.length < 2 ^ 32 ∧ Fits o

def FitAll : List Object → Prop
  | [] => True
  | o :: os => Fits o ∧ FitAll os

def FitPairs : List (Object × Object) → Prop
  | [] => True
  | (key, val) :: kvs => Fits key ∧ Fits val ∧ FitPairs kvs

end

lemma length_valuesOf (os : List Object) : (valuesOf bits os).length = os.length := by
  induction os with
  | nil => rfl
  | cons o os ih => rw [valuesOf, List.length_cons, List.length_cons, ih]

lemma length_pairsOf (kvs : List (Object × Object)) : (pairsOf bits kvs).length = kvs.length := by
  induction kvs with
  | nil => rfl
  | cons kv kvs ih => rw [pairsOf, List.length_cons, List.length_cons, ih]

variable {bits}

open Unpacker in
lemma lex_packFloat {d : Double} (h : Double.ofBits 11 52 (bits d).toNat = d) :
    lex loadFloat (0xcb :: store 8 (bits d).toNat) = some (.leaf (.float d), []) := by
  have hvalue : BigEndian.value (store 8 (bits d).toNat) = (bits d).toNat :=
    value_store_natCast (bits d).toNat_lt
  have hlength := length_store 8 (bits d).toNat
  have hplain : plain 8 (store 8 (bits d).toNat) (fun data => .float (loadFloat data)) =
      some (.leaf (.float d), []) := by
    rw [plain_self hlength, loadFloat, hlength, if_neg (by decide), hvalue, h]
  exact (lex_tag _ _ 0x0b rfl (by decide)).trans hplain

mutual

/-- What is written for an object are the bytes of its value. -/
lemma encodes_pack : (o : Object) → Fits bits o →
    Encodes Unpacker.loadFloat [valueOf bits o] (pack bits o).flatten
  | .nil, _ => encodes_leaf (lex_tag _ _ 0x00 rfl (by decide))
  | .boolean true, _ => encodes_leaf (lex_tag _ _ 0x03 rfl (by decide))
  | .boolean false, _ => encodes_leaf (lex_tag _ _ 0x02 rfl (by decide))
  | .integer d, h => by
    rw [pack, List.flatten_singleton, valueOf]
    exact encodes_leaf (lex_packInteger h)
  | .float d, h => by
    rw [pack, List.flatten_singleton, valueOf]
    exact encodes_leaf (lex_packFloat h)
  | .str s, h => by
    rw [pack, List.flatten_cons, List.flatten_singleton, valueOf]
    exact encodes_leaf (lex_packStr h)
  | .bin data, h => by
    rw [pack, List.flatten_cons, List.flatten_singleton, valueOf]
    exact encodes_leaf (lex_packBin h)
  | .array os, h => by
    have hhead : lex Unpacker.loadFloat (packArray os.length) =
        some (.array (valuesOf bits os).length, []) := by
      rw [length_valuesOf]
      exact lex_packArray h.1
    rw [pack, List.flatten_cons, valueOf]
    exact Encodes.array hhead (encodes_packAll os h.2)
  | .map kvs, h => by
    have hhead : lex Unpacker.loadFloat (packMap kvs.length) =
        some (.map (pairsOf bits kvs).length, []) := by
      rw [length_pairsOf]
      exact lex_packMap h.1
    rw [pack, List.flatten_cons, valueOf]
    exact Encodes.map hhead (lexes_packPairs kvs h.2)
  | .ext type data, h => by
    rw [pack, List.flatten_cons, List.flatten_singleton, valueOf]
    exact encodes_leaf (lex_packExt h.1 type)
  | .extPacked type o, h => by
    rw [pack, List.flatten_cons, List.flatten_singleton, valueOf]
    exact encodes_leaf (lex_packExt h.1 (number type))

lemma encodes_packAll : (os : List Object) → FitAll bits os →
    Encodes Unpacker.loadFloat (valuesOf bits os) (packAll bits os).flatten
  | [], _ => .nil
  | o :: os, h => by
    rw [packAll, List.flatten_append, valuesOf]
    exact Encodes.cons (encodes_pack o h.1) (encodes_packAll os h.2)

lemma lexes_packPairs : (kvs : List (Object × Object)) → FitPairs bits kvs →
    Lexes Unpacker.loadFloat (Polish.tokensPairs (pairsOf bits kvs)) (packPairs bits kvs).flatten
  | [], _ => .nil
  | (key, val) :: kvs, h => by
    rw [packPairs, List.flatten_append, List.flatten_append, List.append_assoc, pairsOf]
    exact Encodes.pair (encodes_pack key h.1) (encodes_pack val h.2.1) (lexes_packPairs kvs h.2.2)

end

end Value

/-! ### Calls of a packer -/

section Tokens

open Token

variable (bits : Double → UInt64)

/-- What is written has a representation. -/
def TokenFits : Token → Prop
  | .pack o => Fits bits o
  | .packArray size => size < 2 ^ 32
  | .packMap size => size < 2 ^ 32
  | .packExt size type => size < 2 ^ 32 ∧ (-2 ^ 7 ≤ type ∧ type < 2 ^ 7) ∧
    ∀ packed, type ≠ number packed
  | .packExtBody _ => True

variable {bits}

lemma encode_cons (t : Token) (ts : List Token) :
    encode bits (t :: ts) = (writes bits t).flatten ++ encode bits ts := by
  rw [encode, List.flatMap_cons, List.flatten_append]
  rfl

lemma encode_append (ts ts' : List Token) :
    encode bits (ts ++ ts') = encode bits ts ++ encode bits ts' := by
  rw [encode, List.flatMap_append, List.flatten_append]
  rfl

/-- The object that is read first is what the bytes begin with. -/
def Parses (bits : Double → UInt64) (parse : List Token → Option (Object × List Token)) : Prop :=
  ∀ ts o rest, (∀ t ∈ ts, TokenFits bits t) → parse ts = some (o, rest) →
    ∃ first, ts = first ++ rest ∧ encode bits first = (pack bits o).flatten ∧ Fits bits o

variable {parse : List Token → Option (Object × List Token)}

lemma parses_parseArray (hparse : Parses bits parse) {n : ℕ} {ts rest : List Token}
    {os : List Object} (hfits : ∀ t ∈ ts, TokenFits bits t)
    (h : parseArray parse n ts = some (os, rest)) :
    os.length = n ∧ ∃ first, ts = first ++ rest ∧
      encode bits first = (packAll bits os).flatten ∧ FitAll bits os := by
  induction n generalizing ts os with
  | zero =>
    obtain ⟨rfl, rfl⟩ := Prod.mk.inj (Option.some.inj h)
    exact ⟨rfl, [], rfl, rfl, trivial⟩
  | succ n ih =>
    rw [parseArray] at h
    obtain ⟨⟨o, ts'⟩, ho, h⟩ := Option.bind_eq_some_iff.mp h
    obtain ⟨⟨os', rest'⟩, hos, h⟩ := Option.bind_eq_some_iff.mp h
    obtain ⟨rfl, rfl⟩ := Prod.mk.inj (Option.some.inj h)
    obtain ⟨first, rfl, hfirst, hfit⟩ := hparse ts o ts' hfits ho
    obtain ⟨hlength, first', rfl, hfirst', hfit'⟩ :=
      ih (fun t ht => hfits t (List.mem_append_right _ ht)) hos
    refine ⟨by rw [List.length_cons, hlength], first ++ first', (List.append_assoc _ _ _).symm, ?_,
      hfit, hfit'⟩
    rw [encode_append, hfirst, hfirst', packAll, List.flatten_append]

lemma parses_parseMap (hparse : Parses bits parse) {n : ℕ} {ts rest : List Token}
    {kvs : List (Object × Object)} (hfits : ∀ t ∈ ts, TokenFits bits t)
    (h : parseMap parse n ts = some (kvs, rest)) :
    kvs.length = n ∧ ∃ first, ts = first ++ rest ∧
      encode bits first = (packPairs bits kvs).flatten ∧ FitPairs bits kvs := by
  induction n generalizing ts kvs with
  | zero =>
    obtain ⟨rfl, rfl⟩ := Prod.mk.inj (Option.some.inj h)
    exact ⟨rfl, [], rfl, rfl, trivial⟩
  | succ n ih =>
    rw [parseMap] at h
    obtain ⟨⟨k, ts'⟩, hk, h⟩ := Option.bind_eq_some_iff.mp h
    obtain ⟨⟨v, ts''⟩, hv, h⟩ := Option.bind_eq_some_iff.mp h
    obtain ⟨⟨kvs', rest'⟩, hkvs, h⟩ := Option.bind_eq_some_iff.mp h
    obtain ⟨rfl, rfl⟩ := Prod.mk.inj (Option.some.inj h)
    obtain ⟨key, rfl, hkey, hkfit⟩ := hparse ts k ts' hfits hk
    have hfits' : ∀ t ∈ ts', TokenFits bits t := fun t ht => hfits t (List.mem_append_right _ ht)
    obtain ⟨val, rfl, hval, hvfit⟩ := hparse ts' v ts'' hfits' hv
    obtain ⟨hlength, first, rfl, hfirst, hfit⟩ :=
      ih (fun t ht => hfits' t (List.mem_append_right _ ht)) hkvs
    refine ⟨by rw [List.length_cons, hlength], key ++ (val ++ first), ?_, ?_, hkfit, hvfit, hfit⟩
    · rw [List.append_assoc, List.append_assoc]
    · rw [encode_append, encode_append, hkey, hval, hfirst, packPairs, List.flatten_append,
        List.flatten_append, List.append_assoc]

/-- An object that is read from calls of the packer has the bytes of these calls. -/
lemma parses_parse (fuel : ℕ) : Parses bits (Token.parse fuel) := by
  induction fuel with
  | zero => exact fun ts o rest _ h => absurd h nofun
  | succ fuel ih =>
    intro ts o rest hfits h
    rcases ts with _ | ⟨t, ts⟩
    · cases h
    obtain ⟨hfit, hfits'⟩ := List.forall_mem_cons.mp hfits
    cases t with
    | pack o' =>
      obtain ⟨rfl, rfl⟩ := Prod.mk.inj (Option.some.inj h)
      refine ⟨[.pack o'], rfl, ?_, hfit⟩
      rw [encode_cons]
      exact List.append_nil _
    | packArray n =>
      obtain ⟨⟨os, rest'⟩, hos, heq⟩ := Option.map_eq_some_iff.mp h
      obtain ⟨rfl, rfl⟩ := Prod.mk.inj heq
      obtain ⟨rfl, first, rfl, hfirst, hall⟩ := parses_parseArray ih hfits' hos
      refine ⟨.packArray os.length :: first, rfl, ?_, hfit, hall⟩
      rw [encode_cons, hfirst, pack, List.flatten_cons, writes, List.flatten_singleton]
    | packMap n =>
      obtain ⟨⟨kvs, rest'⟩, hkvs, heq⟩ := Option.map_eq_some_iff.mp h
      obtain ⟨rfl, rfl⟩ := Prod.mk.inj heq
      obtain ⟨rfl, first, rfl, hfirst, hall⟩ := parses_parseMap ih hfits' hkvs
      refine ⟨.packMap kvs.length :: first, rfl, ?_, hfit, hall⟩
      rw [encode_cons, hfirst, pack, List.flatten_cons, writes, List.flatten_singleton]
    | packExt size type =>
      rcases ts with _ | ⟨t', ts⟩
      · cases h
      cases t' with
      | packExtBody data =>
        rw [Token.parse] at h
        split_ifs at h with hsize
        obtain ⟨rfl, rfl⟩ := Prod.mk.inj (Option.some.inj h)
        subst hsize
        obtain ⟨hlt, hrange, hpacked⟩ := hfit
        refine ⟨[.packExt data.length type, .packExtBody data], rfl, ?_, hlt, hrange,
          fun packed o heq => absurd heq (hpacked packed)⟩
        rw [encode_cons, encode_cons, pack, List.flatten_cons, List.flatten_cons, writes, writes,
          List.flatten_singleton, List.flatten_singleton]
        rfl
      | pack | packArray | packMap | packExt => cases h
    | packExtBody data => cases h

/-- What is read back as an object has the bytes of this object. -/
lemma encode_of_reads {ts : List Token} {o : Object} (hfits : ∀ t ∈ ts, TokenFits bits t)
    (h : Token.Reads ts o) : Fits bits o ∧ encode bits ts = (pack bits o).flatten := by
  have hparse := h ts.length [] le_rfl
  rw [List.append_nil] at hparse
  obtain ⟨first, hfirst, hencode, hfit⟩ := parses_parse ts.length ts o [] hfits hparse
  rw [List.append_nil] at hfirst
  exact ⟨hfit, hfirst ▸ hencode⟩

end Tokens

end Dripcap.Packer
