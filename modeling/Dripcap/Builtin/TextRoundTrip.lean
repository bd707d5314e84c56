import Dripcap.Builtin.Address

/-!
# Addresses made of their texts

A `MACAddress` is made of its text again, whatever separates the bytes. An `IPv4Address` is made of
no text: the function that should read its parts returns nothing.
-/

namespace Dripcap

/-! ### MAC addresses -/

/-- What can stand between two bytes. -/
def IsSeparator (sep : List Char) : Prop := sep = [] ∨ sep = [':'] ∨ sep = ['-']

/-- The hexadecimal text of bytes with separators between them, as far as there are some. -/
def separated : List (List Char) → List UInt8 → List Char
  | sep :: seps, a :: b :: data => (hexByte a).toList ++ sep ++ separated seps (b :: data)
  | _, data => (hex data).toList

/-- What the constructor of `MACAddress` leaves of a text. -/
def digitsOf (text : List Char) : List Char := text.filter fun c => c ≠ ':' ∧ c ≠ '-'

lemma digitsOf_append (text text' : List Char) :
    digitsOf (text ++ text') = digitsOf text ++ digitsOf text' := List.filter_append text text'

lemma digitsOf_separator {sep : List Char} (h : IsSeparator sep) : digitsOf sep = [] := by
  rcases h with rfl | rfl | rfl
  · rfl
  · rfl
  · rfl

lemma digitChar_keep : ∀ v < 16, Nat.digitChar v ≠ ':' ∧ Nat.digitChar v ≠ '-' := by decide

lemma digitsOf_hexByte (a : UInt8) : digitsOf (hexByte a).toList = (hexByte a).toList := by
  have ha := a.toNat_lt
  have hhigh := digitChar_keep (a.toNat / 16) (by omega)
  have hlow := digitChar_keep (a.toNat % 16) (by omega)
  simp [digitsOf, Hex.hexByte_toList, hhigh, hlow]

lemma hex_cons (a : UInt8) (data : List UInt8) :
    (hex (a :: data)).toList = (hexByte a).toList ++ (hex data).toList := by
  simp [hex, String.toList_join]

lemma digitsOf_hex (data : List UInt8) : digitsOf (hex data).toList = (hex data).toList := by
  induction data with
  | nil => rfl
  | cons a data ih => rw [hex_cons, digitsOf_append, digitsOf_hexByte, ih]

lemma digitsOf_separated {seps : List (List Char)} (h : ∀ sep ∈ seps, IsSeparator sep)
    (data : List UInt8) : digitsOf (separated seps data) = (hex data).toList := by
  induction seps generalizing data with
  | nil => exact digitsOf_hex data
  | cons sep seps ih =>
    obtain ⟨hsep, hseps⟩ := List.forall_mem_cons.mp h
    match data with
    | [] => rfl
    | [a] => exact digitsOf_hex [a]
    | a :: b :: data =>
      rw [separated, digitsOf_append, digitsOf_append, digitsOf_hexByte, digitsOf_separator hsep,
        ih hseps, List.append_nil, ← hex_cons]

lemma insertColons_hexByte (a b : UInt8) (data : List UInt8) :
    insertColons (hex (a :: b :: data)).toList =
      (hexByte a).toList ++ ':' :: insertColons (hex (b :: data)).toList := by
  simp only [hex_cons, Hex.hexByte_toList]
  rfl

/-- The text of a MAC address has colons between its bytes. -/
lemma insertColons_eq (data : List UInt8) :
    insertColons (hex data).toList = separated (List.replicate data.length [':']) data := by
  induction data with
  | nil => rfl
  | cons a data ih =>
    cases data with
    | nil =>
      have hempty : (hex []).toList = [] := rfl
      simp [separated, insertColons, hex_cons, Hex.hexByte_toList, hempty]
    | cons b data =>
      rw [insertColons_hexByte, ih]
      show _ = (hexByte a).toList ++ [':'] ++ separated (List.replicate (b :: data).length [':']) _
      rw [List.append_assoc]
      rfl

namespace MACAddress

variable {utf8 : List UInt16 → List UInt8}

/-- An address is made of the text of its bytes, whatever separates them. -/
lemma ofString_separated (h : Hex.Utf8 utf8) (x : MACAddress) {seps : List (List Char)}
    (hseps : ∀ sep ∈ seps, IsSeparator sep) :
    ofString utf8 (String.ofList (separated seps x.data)) = .ok x := by
  have hdigits : String.ofList ((String.ofList (separated seps x.data)).toList.filter
      fun c => c ≠ ':' ∧ c ≠ '-') = hex x.data := by
    rw [String.toList_ofList]
    have hdata := digitsOf_separated hseps x.data
    unfold digitsOf at hdata
    rw [hdata, String.ofList_toList]
  have hread := Hex.ofString_hex_bytes h x.data
  unfold hex at hdigits
  simp only [ofString, hdigits, hread, new, x.length_eq]
  rfl

lemma ofString_toString (h : Hex.Utf8 utf8) (x : MACAddress) : ofString utf8 x.toString = .ok x := by
  rw [toString, insertColons_eq]
  apply ofString_separated h x
  intro sep hsep
  exact .inr (.inl (List.eq_of_mem_replicate hsep))

end MACAddress

/-! ### IPv4 addresses -/

/-- No text makes an address. -/
lemma IPv4Address.ofString_error (text : String) :
    IPv4Address.ofString text = .error (.invalidArgument "expected Number") := by
  unfold ofString
  cases hparts : text.toList.splitOn '.' with
  | nil => exact absurd hparts (List.splitOn_ne_nil '.' text.toList)
  | cons part parts =>
    simp only [List.map_cons, fromArray, List.mapM_cons]
    rfl

/-! ### Both -/

/-- The addresses that have a constructor for strings. -/
inductive TextAddress where
  | mac (x : MACAddress)
  | ipv4 (x : IPv4Address)

/-- The text of an address makes the address again, for a MAC address with any separators. -/
def TextAddress.RoundTrips (utf8 : List UInt16 → List UInt8) : TextAddress → Prop
  | .mac x => MACAddress.ofString utf8 x.toString = .ok x ∧
      ∀ seps, (∀ sep ∈ seps, IsSeparator sep) →
        MACAddress.ofString utf8 (String.ofList (separated seps x.data)) = .ok x
  | .ipv4 x => IPv4Address.ofString x.toString = .ok x

/-- Exactly the MAC addresses are made of their texts. -/
theorem roundTrips_iff {utf8 : List UInt16 → List UInt8} (h : Hex.Utf8 utf8) (a : TextAddress) :
    a.RoundTrips utf8 ↔ ∃ x, a = .mac x := by
  cases a with
  | mac x =>
    refine iff_of_true ⟨x.ofString_toString h, fun seps hseps => ?_⟩ ⟨x, rfl⟩
    exact x.ofString_separated h hseps
  | ipv4 x =>
    refine iff_of_false (fun htrip => ?_) (by rintro ⟨y, hy⟩; cases hy)
    rw [TextAddress.RoundTrips, IPv4Address.ofString_error] at htrip
    cases htrip

/-- The address 10:20:30:40:50:60. -/
def sampleMAC : MACAddress := ⟨[0x10, 0x20, 0x30, 0x40, 0x50, 0x60], rfl⟩

theorem roundTrips_iff_mac :
    (TextAddress.mac sampleMAC).RoundTrips (fun s => s.flatMap Hex.utf8Unit) ↔
      ∃ x, TextAddress.mac sampleMAC = .mac x :=
  roundTrips_iff Hex.utf8_units (.mac sampleMAC)

/-- `new IPv4Address('10.0.0.1')` throws. -/
theorem ipv4_text_throws : ∃ x : IPv4Address, x.toString = "10.0.0.1" ∧
    IPv4Address.ofString x.toString = .error (.invalidArgument "expected Number") ∧
    ¬ (TextAddress.ipv4 x).RoundTrips fun s => s.flatMap Hex.utf8Unit := by
  have herror := IPv4Address.ofString_error
  refine ⟨⟨[10, 0, 0, 1], rfl⟩, by decide, herror _, fun htrip => ?_⟩
  rw [TextAddress.RoundTrips, herror] at htrip
  cases htrip

end Dripcap
