import Dripcap.Script.Layer

/-!
# What a packer writes

A `msgpack::packer` writes values that it knows whole and the headers of arrays, maps and
extensions, whose parts the caller has to write after them. `unpack` reads this back; it depends on
the sizes in the headers. The bytes of the single writes are left to msgpack-c.
-/

namespace Dripcap

/-- A call of a function of `msgpack::packer`. -/
inductive Token where
  /-- `pack` of a value that msgpack-c knows -/
  | pack (o : Object)
  | packArray (size : ℕ)
  | packMap (size : ℕ)
  | packExt (size : ℕ) (type : ℤ)
  | packExtBody (data : List UInt8)

namespace Token

/-- As many objects as the header of an array says. -/
def parseArray (parse : List Token → Option (Object × List Token)) :
    ℕ → List Token → Option (List Object × List Token)
  | 0, ts => some ([], ts)
  | n + 1, ts => do
    let r ← parse ts
    let rs ← parseArray parse n r.2
    some (r.1 :: rs.1, rs.2)

/-- As many pairs of objects as the header of a map says. -/
def parseMap (parse : List Token → Option (Object × List Token)) :
    ℕ → List Token → Option (List (Object × Object) × List Token)
  | 0, ts => some ([], ts)
  | n + 1, ts => do
    let k ← parse ts
    let v ← parse k.2
    let rs ← parseMap parse n v.2
    some ((k.1, v.1) :: rs.1, rs.2)

/-- The first object and what follows it. The fuel bounds the depth of the object. -/
def parse : ℕ → List Token → Option (Object × List Token)
  | 0, _ => none
  | _ + 1, pack o :: ts => some (o, ts)
  | fuel + 1, packArray n :: ts =>
    (parseArray (parse fuel) n ts).map fun r => (.array r.1, r.2)
  | fuel + 1, packMap n :: ts => (parseMap (parse fuel) n ts).map fun r => (.map r.1, r.2)
  | _ + 1, packExt size type :: packExtBody data :: ts =>
    if size = data.length then some (.ext type data, ts) else none
  | _ + 1, _ => none

/-- `msgpack::unpack`: the first object. -/
def unpack (ts : List Token) : Option Object := (parse ts.length ts).map Prod.fst

/-- The tokens are read as this object, whatever follows them. -/
def Reads (ts : List Token) (o : Object) : Prop :=
  ∀ fuel rest, ts.length ≤ fuel → parse fuel (ts ++ rest) = some (o, rest)

def ReadsArray (ts : List Token) (os : List Object) : Prop :=
  ∀ fuel rest, ts.length ≤ fuel → parseArray (parse fuel) os.length (ts ++ rest) = some (os, rest)

def ReadsMap (ts : List Token) (kvs : List (Object × Object)) : Prop :=
  ∀ fuel rest, ts.length ≤ fuel → parseMap (parse fuel) kvs.length (ts ++ rest) = some (kvs, rest)

variable {ts ts' : List Token} {o o' : Object} {os : List Object} {kvs kvs' : List (Object × Object)}

lemma Reads.unpack (h : Reads ts o) : unpack ts = some o := by
  have hparse := h ts.length [] le_rfl
  rw [List.append_nil] at hparse
  rw [Token.unpack, hparse, Option.map_some]

lemma reads_pack (o : Object) : Reads [.pack o] o := by
  intro fuel rest hfuel
  cases fuel with
  | zero => cases hfuel
  | succ fuel => rfl

lemma reads_packExt (type : ℤ) (data : List UInt8) :
    Reads [.packExt data.length type, .packExtBody data] (.ext type data) := by
  intro fuel rest hfuel
  cases fuel with
  | zero => cases hfuel
  | succ fuel =>
    show (if data.length = data.length then some (Object.ext type data, rest) else none) = _
    rw [if_pos rfl]

lemma readsArray_nil : ReadsArray [] [] := fun _ _ _ => rfl

lemma ReadsArray.cons (h : Reads ts o) (hs : ReadsArray ts' os) : ReadsArray (ts ++ ts') (o :: os) := by
  intro fuel rest hfuel
  rw [List.length_append] at hfuel
  have hfirst := h fuel (ts' ++ rest) (le_trans (Nat.le_add_right _ _) hfuel)
  have hnext := hs fuel rest (le_trans (Nat.le_add_left _ _) hfuel)
  rw [List.append_assoc, List.length_cons, parseArray, hfirst]
  simp only [Option.bind_eq_bind, Option.bind_some, hnext]

lemma readsMap_nil : ReadsMap [] [] := fun _ _ _ => rfl

lemma ReadsMap.cons {k v : List Token} (hk : Reads k o) (hv : Reads v o') (h : ReadsMap ts kvs) :
    ReadsMap (k ++ (v ++ ts)) ((o, o') :: kvs) := by
  intro fuel rest hfuel
  simp only [List.length_append] at hfuel
  have hkey := hk fuel (v ++ (ts ++ rest)) (le_trans (Nat.le_add_right _ _) hfuel)
  have hvalue := hv fuel (ts ++ rest)
    (le_trans (Nat.le_add_right _ _) (le_trans (Nat.le_add_left _ _) hfuel))
  have hnext := h fuel rest
    (le_trans (Nat.le_add_left _ _) (le_trans (Nat.le_add_left _ _) hfuel))
  rw [List.append_assoc, List.append_assoc, List.length_cons, parseMap, hkey]
  simp only [Option.bind_eq_bind, Option.bind_some, hvalue, hnext]

/-- One entry after the other. -/
lemma ReadsMap.append (h : ReadsMap ts kvs) (h' : ReadsMap ts' kvs') :
    ReadsMap (ts ++ ts') (kvs ++ kvs') := by
  have hsplit : ∀ (parse : List Token → Option (Object × List Token)) (n m : ℕ) (ts : List Token),
      parseMap parse (n + m) ts = (parseMap parse n ts).bind fun r =>
        (parseMap parse m r.2).map fun r' => (r.1 ++ r'.1, r'.2) := by
    intro parse n m
    induction n with
    | zero =>
      intro ts
      rw [Nat.zero_add]
      show _ = (parseMap parse m ts).map fun r' => ([] ++ r'.1, r'.2)
      simp only [List.nil_append, Option.map_id']
    | succ n ih =>
      intro ts
      rw [Nat.succ_add]
      simp only [parseMap, ih, Option.bind_eq_bind, Option.bind_assoc, Option.bind_some,
        Option.map_eq_bind, Function.comp_def, List.cons_append]
  intro fuel rest hfuel
  rw [List.length_append] at hfuel
  have hfirst := h fuel (ts' ++ rest) (le_trans (Nat.le_add_right _ _) hfuel)
  have hnext := h' fuel rest (le_trans (Nat.le_add_left _ _) hfuel)
  rw [List.append_assoc, List.length_append, hsplit, hfirst]
  simp only [Option.bind_some, hnext, Option.map_some]

lemma ReadsArray.reads (h : ReadsArray ts os) : Reads (.packArray os.length :: ts) (.array os) := by
  intro fuel rest hfuel
  cases fuel with
  | zero => cases hfuel
  | succ fuel =>
    have hread := h fuel rest (Nat.le_of_succ_le_succ hfuel)
    show (parseArray (parse fuel) os.length (ts ++ rest)).map _ = _
    rw [hread, Option.map_some]

lemma ReadsMap.reads (h : ReadsMap ts kvs) : Reads (.packMap kvs.length :: ts) (.map kvs) := by
  intro fuel rest hfuel
  cases fuel with
  | zero => cases hfuel
  | succ fuel =>
    have hread := h fuel rest (Nat.le_of_succ_le_succ hfuel)
    show (parseMap (parse fuel) kvs.length (ts ++ rest)).map _ = _
    rw [hread, Option.map_some]

end Token

end Dripcap
