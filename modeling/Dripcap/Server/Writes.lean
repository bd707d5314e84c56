import Dripcap.Library.Unicode
import Dripcap.Script.Packer

/-!
# The writes of a packer

The functions of `msgpack::packer` in `v1/pack.hpp`. Each of them makes a few bytes on its stack and
gives them to the stream with one call of `write`; the body of a string, of a `bin` and of an
extension is a `write` of its own.
-/

namespace Dripcap

namespace Packer

/-- `_msgpack_store16`, `_msgpack_store32` and `_msgpack_store64`, for this number of bytes. -/
def store : ℕ → ℤ → List UInt8
  | 0, _ => []
  | w + 1, n => store w (n / 256) ++ [UInt8.ofInt n]

/-- `pack_imp_int64`. The functions for the other types make the same bytes of the numbers that
these have. -/
def packInteger (d : ℤ) : List UInt8 :=
  if d < -2 ^ 5 then
    if d < -2 ^ 15 then
      if d < -2 ^ 31 then 0xd3 :: store 8 d else 0xd2 :: store 4 d
    else if d < -2 ^ 7 then 0xd1 :: store 2 d else 0xd0 :: store 1 d
  else if d < 2 ^ 7 then store 1 d
  else if d < 2 ^ 16 then
    if d < 2 ^ 8 then 0xcc :: store 1 d else 0xcd :: store 2 d
  else if d < 2 ^ 32 then 0xce :: store 4 d else 0xcf :: store 8 d

/-- `pack_true` and `pack_false` -/
def packBool (b : Bool) : List UInt8 := if b then [0xc3] else [0xc2]

def packArray (n : ℕ) : List UInt8 :=
  if n < 16 then store 1 (0x90 + n)
  else if n < 65536 then 0xdc :: store 2 n
  else 0xdd :: store 4 n

def packMap (n : ℕ) : List UInt8 :=
  if n < 16 then store 1 (0x80 + n)
  else if n < 65536 then 0xde :: store 2 n
  else 0xdf :: store 4 n

def packStr (l : ℕ) : List UInt8 :=
  if l < 32 then store 1 (0xa0 + l)
  else if l < 256 then 0xd9 :: store 1 l
  else if l < 65536 then 0xda :: store 2 l
  else 0xdb :: store 4 l

def packBin (l : ℕ) : List UInt8 :=
  if l < 256 then 0xc4 :: store 1 l
  else if l < 65536 then 0xc5 :: store 2 l
  else 0xc6 :: store 4 l

def packExt (l : ℕ) (type : ℤ) : List UInt8 :=
  match l with
  | 1 => 0xd4 :: store 1 type
  | 2 => 0xd5 :: store 1 type
  | 4 => 0xd6 :: store 1 type
  | 8 => 0xd7 :: store 1 type
  | 16 => 0xd8 :: store 1 type
  | l =>
    if l < 256 then 0xc7 :: (store 1 l ++ store 1 type)
    else if l < 65536 then 0xc8 :: (store 2 l ++ store 1 type)
    else 0xc9 :: (store 4 l ++ store 1 type)

/-- The number of an extension type. -/
def number : PackedType → ℤ
  | .payload => 0x1f
  | .classInstance => 0x20

section Pack

variable (bits : Double → UInt64)

mutual

/-- `pack<msgpack::object>`; `bits` is the representation of a `double`. -/
def pack : Object → List (List UInt8)
  | .nil => [[0xc0]]
  | .boolean b => [packBool b]
  | .integer d => [packInteger d]
  | .float d => [0xcb :: store 8 (bits d).toNat]
  | .str s => [packStr (Unicode.utf8 s).length, Unicode.utf8 s]
  | .bin data => [packBin data.length, data]
  | .array os => packArray os.length :: packAll os
  | .map kvs => packMap kvs.length :: packPairs kvs
  | .ext type data => [packExt data.length type, data]
  | .extPacked type o => [packExt (pack o).flatten.length (number type), (pack o).flatten]

/-- The elements of an array. -/
def packAll : List Object → List (List UInt8)
  | [] => []
  | o :: os => pack o ++ packAll os

/-- The entries of a map. -/
def packPairs : List (Object × Object) → List (List UInt8)
  | [] => []
  | (key, val) :: kvs => pack key ++ pack val ++ packPairs kvs

end

/-- What one call writes. -/
def writes : Token → List (List UInt8)
  | .pack o => pack bits o
  | .packArray n => [packArray n]
  | .packMap n => [packMap n]
  | .packExt l type => [packExt l type]
  | .packExtBody data => [data]

/-- The bytes that a stream gets which takes all that is written. -/
def encode (ts : List Token) : List UInt8 := (ts.flatMap (writes bits)).flatten

end Pack

example : encode (fun _ => 0) [.packArray 2, .pack (.integer (-33)), .pack (.bin [7, 8])] =
    [0x92, 0xd0, 0xdf, 0xc4, 2, 7, 8] := by decide

end Packer

end Dripcap
