import Dripcap.Script.Hex

/-!
# Addresses

`MACAddress`, the addresses of IPv4 and IPv6 and the hosts of `dripcap/builtin`. The `data` of an
address is the byte sequence of its buffer. Texts are lists of characters where the scripts take
them apart.
-/

namespace Dripcap

/-- `data.toString('hex')`, which is `Buffer.toString` for a buffer of these bytes. -/
def hex (data : List UInt8) : String := String.join (data.map hexByte)

/-! ### MAC addresses -/

structure MACAddress where
  data : List UInt8
  length_eq : data.length = 6
  deriving DecidableEq

/-- `text.replace(/..(?=.)/g, '$&:')` for a text in one line. -/
def insertColons : List Char → List Char
  | a :: b :: c :: text => a :: b :: ':' :: insertColons (c :: text)
  | text => text

namespace MACAddress

/-- The constructor, given a buffer. -/
def new (data : List UInt8) : Except String MACAddress :=
  if h : data.length = 6 then .ok ⟨data, h⟩ else .error "invalid address length"

/-- The constructor, given a string; `utf8` is how the engine writes a string as bytes. -/
def ofString (utf8 : List UInt16 → List UInt8) (text : String) : Except Hex.BufferError MACAddress :=
  let digits := String.ofList (text.toList.filter fun c => c ≠ ':' ∧ c ≠ '-')
  match Hex.ofString (utf8 (Hex.utf16 digits)) "hex" with
  | .ok data => (new data).mapError .invalidArgument
  | .error e => .error e

def toString (x : MACAddress) : String := String.ofList (insertColons (hex x.data).toList)

end MACAddress

/-! ### IPv4 -/

structure IPv4Address where
  data : List UInt8
  length_eq : data.length = 4
  deriving DecidableEq

/-- `v8pp::from_v8<std::vector<unsigned char>>`: all elements have to be numbers. An element is a
number or `undefined`. -/
def fromArray (array : List (Option ℕ)) : Except Hex.BufferError (List UInt8) :=
  array.mapM fun v => match v with
    | some n => .ok (UInt8.ofNat n)
    | none => .error (.invalidArgument "expected Number")

namespace IPv4Address

/-- The constructor, given a buffer. -/
def new (data : List UInt8) : Except String IPv4Address :=
  if h : data.length = 4 then .ok ⟨data, h⟩ else .error "invalid address length"

/-- The constructor, given a string. The function that is mapped over the parts has no `return`. -/
def ofString (text : String) : Except Hex.BufferError IPv4Address :=
  match fromArray ((text.toList.splitOn '.').map fun _ => none) with
  | .ok data => (new data).mapError .invalidArgument
  | .error e => .error e

/-- `this.data[i]` -/
def byte (x : IPv4Address) (i : Fin 4) : ℕ := (x.data.get (i.cast x.length_eq.symm)).toNat

def toString (x : IPv4Address) : String :=
  ToString.toString (x.byte 0) ++ "." ++ ToString.toString (x.byte 1) ++ "." ++
    ToString.toString (x.byte 2) ++ "." ++ ToString.toString (x.byte 3)

end IPv4Address

/-! ### IPv6 -/

structure IPv6Address where
  data : List UInt8
  length_eq : data.length = 16
  deriving DecidableEq

/-- `text.replace(/0{0,3}/, '')`: the pattern matches at the beginning. -/
def dropZeros (text : List Char) : List Char :=
  text.drop (min 3 (text.takeWhile fun c => c = '0').length)

/-- The eight groups of `hex`, with colons. -/
def expanded (hex : List Char) : List Char :=
  ((List.range 8).flatMap fun i => dropZeros ((hex.drop (i * 4)).take 4) ++ [':']).dropLast

/-- How often `0:` is repeated at the beginning. -/
def zeros : List Char → ℕ
  | '0' :: ':' :: text => zeros text + 1
  | _ => 0

/-- `/:0:(?:0:)+/` at the beginning. -/
def matchZeros : List Char → Option (List Char)
  | ':' :: text =>
    if 2 ≤ zeros text then some (':' :: (List.replicate (zeros text) ['0', ':']).flatten) else none
  | _ => none

/-- `text.match(/:0:(?:0:)+/g)`, where `skip` characters still belong to the last match. -/
def matchAll (skip : ℕ) : List Char → List (List Char)
  | [] => []
  | c :: text =>
    match skip with
    | skip + 1 => matchAll skip text
    | 0 =>
      match matchZeros (c :: text) with
      | some found => found :: matchAll (found.length - 1) text
      | none => matchAll 0 text

/-- `seq.sort`: the function that compares two matches has no `return`, which counts as equal. -/
def sortMatches (seq : List (List Char)) : List (List Char) := seq.mergeSort fun _ _ => true

/-- `text.replace(found, replacement)` for a `found` that is not empty. -/
def replaceFirst (found replacement : List Char) : List Char → List Char
  | [] => []
  | c :: text =>
    if found.isPrefixOf (c :: text) then replacement ++ (c :: text).drop found.length
    else c :: replaceFirst found replacement text

/-- The first of the sorted matches is replaced by two colons. -/
def compress (text : List Char) : List Char :=
  match sortMatches (matchAll 0 text) with
  | [] => text
  | found :: _ => replaceFirst found [':', ':'] text

namespace IPv6Address

/-- The constructor. -/
def new (data : List UInt8) : Except String IPv6Address :=
  if h : data.length = 16 then .ok ⟨data, h⟩ else .error "invalid address length"

def toString (x : IPv6Address) : String :=
  String.ofList (compress (expanded (hex x.data).toList))

end IPv6Address

/-! ### Hosts -/

structure IPv4Host where
  addr : IPv4Address
  port : ℕ
  port_le : port ≤ 65535
  deriving DecidableEq

structure IPv6Host where
  addr : IPv6Address
  port : ℕ
  port_le : port ≤ 65535
  deriving DecidableEq

/-- The constructor, given an `IPv4Address` and an integer. -/
def IPv4Host.new (addr : IPv4Address) (port : ℤ) : Except String IPv4Host :=
  if h : 0 ≤ port ∧ port ≤ 65535 then .ok ⟨addr, port.toNat, Int.toNat_le.mpr h.2⟩
  else .error "invalid port"

/-- The constructor, given an `IPv6Address` and an integer. -/
def IPv6Host.new (addr : IPv6Address) (port : ℤ) : Except String IPv6Host :=
  if h : 0 ≤ port ∧ port ≤ 65535 then .ok ⟨addr, port.toNat, Int.toNat_le.mpr h.2⟩
  else .error "invalid port"

def IPv4Host.toString (x : IPv4Host) : String :=
  x.addr.toString ++ ":" ++ ToString.toString x.port

def IPv6Host.toString (x : IPv6Host) : String :=
  x.addr.toString ++ ":" ++ ToString.toString x.port

lemma IPv4Host.new_natCast (addr : IPv4Address) {port : ℕ} (h : port ≤ 65535) :
    IPv4Host.new addr port = .ok ⟨addr, port, h⟩ := by
  rw [IPv4Host.new, dif_pos ⟨Int.natCast_nonneg port, by omega⟩]
  rfl

lemma IPv6Host.new_natCast (addr : IPv6Address) {port : ℕ} (h : port ≤ 65535) :
    IPv6Host.new addr port = .ok ⟨addr, port, h⟩ := by
  rw [IPv6Host.new, dif_pos ⟨Int.natCast_nonneg port, by omega⟩]
  rfl

end Dripcap
