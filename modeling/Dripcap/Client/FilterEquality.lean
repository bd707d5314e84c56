import Dripcap.Builtin.Instance
import Dripcap.Client.Filter

/-!
# Equality in filters

What `==` and `!=` come to for the values that filters get from packets: `==` asks the method
`equals` of an operand that has one, and `!=` is the comparison of the script engine. Everything
else about the engine is left as a parameter.
-/

namespace Dripcap

deriving instance DecidableEq for Buffer

namespace MakeFilter

open Outcome

/-! ### Values -/

/-- An object of a filter. -/
inductive Content where
  | buffer (b : Buffer)
  | instance (x : Instance)
  /-- an object without `equals`: what its `toString` returns, unless that throws, and the bytes of
  its property `data` if that is a buffer -/
  | other (text : Option String) (data : Option (List UInt8))
  deriving DecidableEq

/-- A value of a filter. An object is what it refers to with what is there; two objects are the
same only at one place. -/
inductive FilterValue where
  | undefined | null
  | boolean (b : Bool)
  | number (x : Double)
  | string (s : String)
  | object (ref : ℕ) (content : Content)
  /-- the method `equals` of a class -/
  | method
  deriving DecidableEq

namespace FilterValue

/-- `!!value` -/
def toBoolean : FilterValue → Bool
  | .undefined | .null => false
  | .boolean b => b
  | .number x => !(x = .finite 0 || x = .negZero || x = .nan)
  | .string s => s ≠ ""
  | .object _ _ | .method => true

/-- `a === b` -/
def strictEquals : FilterValue → FilterValue → Bool
  | .number x, .number y =>
    !(x = .nan) && (x = y || ((x = .finite 0 || x = .negZero) && (y = .finite 0 || y = .negZero)))
  | a, b => a = b

/-- `value != null && value.equals != null` -/
def hasEquals : FilterValue → Bool
  | .object _ (.buffer _) | .object _ (.instance _) => true
  | _ => false

end FilterValue

/-- The engine of the filters, but for equality. -/
structure Runtime (σ : Type) where
  base : Engine σ FilterValue
  /-- `String(x)` of a number -/
  numberText : Double → String
  /-- the text of the method `equals` -/
  methodText : String
  /-- the string made of bytes that are meant to be UTF-8 -/
  decode : List UInt8 → String
  /-- `new Error(message)` -/
  error : String → FilterValue

namespace Runtime

variable {σ : Type} (R : Runtime σ)

/-- `value.toString()` -/
def toText : FilterValue → Except FilterValue String
  | .undefined | .null => .error R.base.typeError
  | .boolean b => .ok (toString b)
  | .number x => .ok (R.numberText x)
  | .string s => .ok s
  | .object _ (.buffer b) => (b.toString R.decode "utf8").mapError R.error
  | .object _ (.instance x) => .ok x.toString
  | .object _ (.other (some text) _) => .ok text
  | .object _ (.other none _) => .error R.base.typeError
  | .method => .ok R.methodText

/-- The bytes of `value.data`, if that is a buffer. -/
def dataOf : FilterValue → Except FilterValue (Option (List UInt8))
  | .undefined | .null => .error R.base.typeError
  | .object _ (.instance x) => .ok x.data
  | .object _ (.other _ data) => .ok data
  | _ => .ok none

/-- `Buffer.equals`, called with what v8pp has to make a buffer of. -/
def bufferEquals (b : Buffer) : FilterValue → Except FilterValue FilterValue
  | .object _ (.buffer c) => .ok (.boolean (b.equals c))
  | .object _ _ | .method => .error (R.error "expected C++ wrapped object")
  | _ => .error (R.error "expected Object")

/-- `val.toString() === this.toString()` -/
def textEquals (text : String) (value : FilterValue) : Except FilterValue FilterValue :=
  (R.toText value).map fun t => .boolean (t = text)

/-- `this.data.equals(value.data)` -/
def dataEquals (data : List UInt8) (value : FilterValue) : Except FilterValue FilterValue :=
  (R.dataOf value).bind fun other =>
    match other with
    | some bytes => .ok (.boolean (data = bytes))
    | none => .error (R.error "expected Object")

/-- `this.equals(value)`. The methods of the hosts have no `val`. -/
def equals : FilterValue → FilterValue → Except FilterValue FilterValue
  | .object _ (.buffer b), value => R.bufferEquals b value
  | .object _ (.instance (.enum e)), value => R.textEquals e.toString value
  | .object _ (.instance (.flags f)), value => R.textEquals f.toString value
  | .object _ (.instance (.macAddress a)), value => R.dataEquals a.data value
  | .object _ (.instance (.ipv4Address a)), value => R.dataEquals a.data value
  | .object _ (.instance (.ipv6Address a)), value => R.dataEquals a.data value
  | .object _ (.instance (.ipv4Host _)), _ => .error R.base.referenceError
  | .object _ (.instance (.ipv6Host _)), _ => .error R.base.referenceError
  | _, _ => .error R.base.typeError

/-- The engine. -/
def engine : Engine σ FilterValue where
  undefined := .undefined
  null := .null
  literal value :=
    match value with
    | .null => .null
    | .boolean b => .boolean b
    | .number x => .number x
    | .string s => .string s
    | .regex pattern flags => R.base.literal (.regex pattern flags)
  number := R.base.number
  date := R.base.date
  math := R.base.math
  typeError := R.base.typeError
  referenceError := R.base.referenceError
  toBoolean := FilterValue.toBoolean
  toLowerCase := R.base.toLowerCase
  strictEquals := FilterValue.strictEquals
  get value key :=
    if key = .string "equals" then
      if value = .undefined ∨ value = .null then throw R.base.typeError
      else pure (if value.hasEquals then .method else .undefined)
    else R.base.get value key
  hasOwn := R.base.hasOwn
  call f this args :=
    if f = .method then MonadExcept.ofExcept (R.equals this (args.headD .undefined))
    else R.base.call f this args
  apply := R.base.apply
  unary operator value :=
    match operator with
    | .not => pure (.boolean (!value.toBoolean))
    | _ => R.base.unary operator value
  binary := R.base.binary
  layers := R.base.layers

/-- What `==` comes to for two values. -/
def equality (a b : FilterValue) : Except FilterValue FilterValue :=
  if a.hasEquals then R.equals a b
  else if b.hasEquals then R.equals b a
  else .ok (.boolean (a.strictEquals b))

variable {R} {a b : FilterValue} {s t u : σ}

lemma outcome_ofExcept (x : Except FilterValue FilterValue) (s : σ) :
    outcome (MonadExcept.ofExcept x : Eval σ FilterValue FilterValue) s = (x, s) := by
  cases x with
  | error e => rfl
  | ok value => rfl

/-- Every value but `undefined` and `null` can be asked for `equals`. -/
lemma returns_get_equals (hnull : ¬ (a = .undefined ∨ a = .null)) (s : σ) :
    Returns (R.engine.get a (R.engine.string "equals")) s
      (if a.hasEquals then .method else .undefined) s := by
  have hget : R.engine.get a (R.engine.string "equals") =
      pure (if a.hasEquals then .method else .undefined) := by
    simp [engine, Engine.string, hnull]
  rw [hget]
  exact returns_pure.mpr ⟨rfl, rfl⟩

lemma returns_hasEquals (a : FilterValue) (s : σ) :
    Returns (MakeFilter.hasEquals R.engine a) s a.hasEquals s := by
  unfold MakeFilter.hasEquals
  by_cases hnull : a = .undefined ∨ a = .null
  · rw [if_pos (show R.engine.isNull a = true from decide_eq_true hnull)]
    rcases hnull with rfl | rfl
    · rfl
    · rfl
  · rw [if_neg (show ¬ R.engine.isNull a = true by simpa [Engine.isNull, engine] using hnull)]
    refine returns_bind.mpr ⟨_, s, returns_get_equals hnull s, ?_⟩
    cases a.hasEquals
    · rfl
    · rfl

lemma outcome_callEquals (ha : a.hasEquals = true) (s : σ) :
    outcome (callEquals R.engine a b) s = (R.equals a b, s) := by
  have hnull : ¬ (a = .undefined ∨ a = .null) := by
    rintro (rfl | rfl)
    · cases ha
    · cases ha
  rw [callEquals, (returns_get_equals hnull s).outcome_bind, if_pos ha]
  exact outcome_ofExcept _ s

lemma outcome_equalsFilter (a b : FilterValue) (s : σ) :
    outcome (equalsFilter R.engine a b) s = (R.equality a b, s) := by
  rw [equalsFilter, (returns_hasEquals a s).outcome_bind, equality]
  split_ifs with ha hb
  · exact outcome_callEquals ha s
  · rw [(returns_hasEquals b s).outcome_bind, if_pos hb]
    exact outcome_callEquals hb s
  · rw [(returns_hasEquals b s).outcome_bind, if_neg hb]
    rfl

end Runtime

/-! ### Kinds of values -/

/-- The kinds of values that attributes and literals have. -/
inductive Kind where
  /-- `undefined` and `null` -/
  | nothing
  /-- booleans, numbers and strings -/
  | primitive
  | buffer
  /-- `Enum`, `Flags` and their subclasses -/
  | symbol
  /-- `MACAddress`, `IPv4Address` and `IPv6Address` -/
  | address
  /-- `IPv4Host` and `IPv6Host` -/
  | host
  deriving DecidableEq

def instanceKind : Instance → Kind
  | .enum _ | .flags _ => .symbol
  | .macAddress _ | .ipv4Address _ | .ipv6Address _ => .address
  | .ipv4Host _ | .ipv6Host _ => .host

namespace FilterValue

/-- The kind of the value of an attribute or a literal. -/
def kind : FilterValue → Option Kind
  | .undefined | .null => some .nothing
  | .boolean _ | .number _ | .string _ => some .primitive
  | .object _ (.buffer _) => some .buffer
  | .object _ (.instance x) => some (instanceKind x)
  | .object _ (.other _ _) | .method => none

/-- Two objects of one class with the same contents, wherever they are. -/
def SameContents : FilterValue → FilterValue → Prop
  | .object _ (.buffer b), .object _ (.buffer c) => b.bytes = c.bytes
  | .object _ (.instance x), .object _ (.instance y) => x = y
  | _, _ => False

end FilterValue

/-- Can the method `equals` of the first kind be asked about a value of the second? -/
def Kind.answers : Kind → Kind → Bool
  | .buffer, .buffer | .address, .address => true
  | .symbol, l => l ≠ .nothing
  | _, _ => false

/-- Do values of these kinds compare, in both orders? -/
def Kind.comparable : Kind → Kind → Bool
  | .nothing, .nothing | .nothing, .primitive | .primitive, .nothing | .primitive, .primitive
  | .primitive, .symbol | .symbol, .primitive | .symbol, .symbol
  | .buffer, .buffer | .address, .address => true
  | _, _ => false

/-- Has a value of this kind a method `equals`? -/
def Kind.hasEquals : Kind → Bool
  | .nothing | .primitive => false
  | _ => true

lemma FilterValue.hasEquals_kind {a : FilterValue} {k : Kind} (h : a.kind = some k) :
    a.hasEquals = k.hasEquals := by
  cases a with
  | object ref content =>
    cases content with
    | buffer b => cases h; rfl
    | «instance» x => cases h; cases x <;> rfl
    | other text data => cases h
  | method => cases h
  | _ => cases h; rfl

namespace Runtime

variable {R : Runtime σ} {a b : FilterValue} {k l : Kind} {s t u : σ}

lemma toText_ok (hl : b.kind = some l) : (∃ text, R.toText b = .ok text) ↔ l ≠ .nothing := by
  cases b with
  | object ref content =>
    cases content with
    | buffer c => cases hl; simp [toText, Buffer.toString, Except.mapError]
    | «instance» x => cases hl; cases x <;> simp [toText, instanceKind]
    | other text data => cases hl
  | method => cases hl
  | _ => cases hl; simp [toText]

lemma dataOf_ok (hl : b.kind = some l) :
    (∃ bytes, R.dataOf b = .ok (some bytes)) ↔ l = .address := by
  cases b with
  | object ref content =>
    cases content with
    | buffer c => cases hl; simp [dataOf]
    | «instance» x => cases hl; cases x <;> simp [dataOf, instanceKind, Instance.data]
    | other text data => cases hl
  | method => cases hl
  | _ => cases hl; simp [dataOf]

lemma textEquals_ok (text : String) (hl : b.kind = some l) :
    (∃ r, R.textEquals text b = .ok r) ↔ l ≠ .nothing := by
  rw [← toText_ok (R := R) hl, textEquals]
  cases R.toText b with
  | error e => simp [Except.map]
  | ok t => simp [Except.map]

lemma dataEquals_ok (data : List UInt8) (hl : b.kind = some l) :
    (∃ r, R.dataEquals data b = .ok r) ↔ l = .address := by
  rw [← dataOf_ok (R := R) hl, dataEquals]
  rcases R.dataOf b with e | other
  · simp [Except.bind]
  · cases other with
    | none => simp [Except.bind]
    | some bytes => simp [Except.bind]

lemma bufferEquals_ok (c : Buffer) (hl : b.kind = some l) :
    (∃ r, R.bufferEquals c b = .ok r) ↔ l = .buffer := by
  cases b with
  | object ref content =>
    cases content with
    | buffer c => cases hl; simp [bufferEquals]
    | «instance» x => cases hl; cases x <;> simp [bufferEquals, instanceKind]
    | other text data => cases hl
  | method => cases hl
  | _ => cases hl; simp [bufferEquals]

/-! ### What the methods compare -/

lemma exists_buffer (hk : a.kind = some .buffer) : ∃ ref c, a = .object ref (.buffer c) := by
  cases a with
  | object ref content =>
    cases content with
    | buffer c => exact ⟨ref, c, rfl⟩
    | «instance» x => cases x <;> cases hk
    | other text data => cases hk
  | _ => cases hk

lemma equals_symbol (hk : a.kind = some .symbol) :
    ∃ text, R.toText a = .ok text ∧ ∀ b, R.equals a b = R.textEquals text b := by
  cases a with
  | object ref content =>
    cases content with
    | «instance» x =>
      cases x with
      | enum e => exact ⟨e.toString, rfl, fun b => rfl⟩
      | flags f => exact ⟨f.toString, rfl, fun b => rfl⟩
      | _ => cases hk
    | _ => cases hk
  | _ => cases hk

lemma equals_address (hk : a.kind = some .address) :
    ∃ data, R.dataOf a = .ok (some data) ∧ ∀ b, R.equals a b = R.dataEquals data b := by
  cases a with
  | object ref content =>
    cases content with
    | «instance» x =>
      cases x with
      | macAddress x => exact ⟨x.data, rfl, fun b => rfl⟩
      | ipv4Address x => exact ⟨x.data, rfl, fun b => rfl⟩
      | ipv6Address x => exact ⟨x.data, rfl, fun b => rfl⟩
      | _ => cases hk
    | _ => cases hk
  | _ => cases hk

/-- The methods of the hosts throw, and other values have none. -/
lemma equals_error (hbuffer : a.kind ≠ some .buffer) (hsymbol : a.kind ≠ some .symbol)
    (haddress : a.kind ≠ some .address) : ∃ e, ∀ b, R.equals a b = .error e := by
  cases a with
  | object ref content =>
    cases content with
    | buffer c => exact absurd rfl hbuffer
    | «instance» x =>
      cases x with
      | ipv4Host h => exact ⟨R.base.referenceError, fun b => rfl⟩
      | ipv6Host h => exact ⟨R.base.referenceError, fun b => rfl⟩
      | enum e => exact absurd rfl hsymbol
      | flags f => exact absurd rfl hsymbol
      | _ => exact absurd rfl haddress
    | other text data => exact ⟨R.base.typeError, fun b => rfl⟩
  | _ => exact ⟨R.base.typeError, fun b => rfl⟩

/-- A value with an answer is a buffer, an enumeration, flags or an address. -/
lemma kind_of_equals {r : FilterValue} (hr : R.equals a b = .ok r) :
    a.kind = some .buffer ∨ a.kind = some .symbol ∨ a.kind = some .address := by
  by_contra hnone
  obtain ⟨hbuffer, hsymbol, haddress⟩ := not_or.mp hnone |>.imp_right not_or.mp
  obtain ⟨e, herror⟩ := equals_error (R := R) hbuffer hsymbol haddress
  rw [herror] at hr
  cases hr

/-- The methods answer exactly what they are meant to be asked. -/
lemma equals_ok (hk : a.kind = some k) (hl : b.kind = some l) :
    (∃ r, R.equals a b = .ok r) ↔ k.answers l = true := by
  cases k with
  | buffer =>
    obtain ⟨ref, c, rfl⟩ := exists_buffer hk
    refine (bufferEquals_ok c hl).trans ?_
    cases l <;> decide
  | symbol =>
    obtain ⟨text, -, hequals⟩ := equals_symbol (R := R) hk
    rw [hequals, textEquals_ok text hl]
    cases l <;> decide
  | address =>
    obtain ⟨data, -, hequals⟩ := equals_address (R := R) hk
    rw [hequals, dataEquals_ok data hl]
    cases l <;> decide
  | _ =>
    obtain ⟨e, herror⟩ : ∃ e, ∀ b, R.equals a b = .error e := by
      apply equals_error
      all_goals
        rw [hk]
        decide
    rw [herror]
    cases l <;> simp [Kind.answers]

/-- What an operand without `equals` is compared with decides. -/
lemma equality_ok (hk : a.kind = some k) (hl : b.kind = some l) :
    (∃ r, R.equality a b = .ok r) ↔
      (if k.hasEquals then k.answers l else if l.hasEquals then l.answers k else true) = true := by
  unfold equality
  rw [FilterValue.hasEquals_kind hk, FilterValue.hasEquals_kind hl]
  split_ifs
  · exact equals_ok hk hl
  · exact equals_ok hl hk
  · simp

lemma strictEquals_comm (a b : FilterValue) : a.strictEquals b = b.strictEquals a := by
  have hne : (∀ x y, a = .number x → b ≠ .number y) → a.strictEquals b = b.strictEquals a := by
    intro h
    have hleft : a.strictEquals b = decide (a = b) := by
      unfold FilterValue.strictEquals
      split
      · rename_i x y
        exact absurd rfl (h x y rfl)
      · rfl
    have hright : b.strictEquals a = decide (b = a) := by
      unfold FilterValue.strictEquals
      split
      · rename_i x y
        exact absurd rfl (h y x rfl)
      · rfl
    rw [hleft, hright]
    exact decide_eq_decide.mpr eq_comm
  cases a with
  | number x =>
    cases b with
    | number y =>
      by_cases hxy : x = y
      · rw [hxy]
      · have hyx : ¬ y = x := fun h => hxy h.symm
        simp only [FilterValue.strictEquals, hxy, hyx, decide_false, Bool.false_or]
        cases x <;> cases y <;> simp [Bool.and_comm]
    | _ => exact hne (by rintro x y - ⟨⟩)
  | _ => exact hne (by rintro x y ⟨⟩)

/-- Where two values compare, the order does not matter. -/
lemma equality_comm (hk : a.kind = some k) (hl : b.kind = some l) (h : k.comparable l = true) :
    R.equality a b = R.equality b a := by
  have hboth : k.hasEquals = false ∨ l.hasEquals = false ∨
      k = l ∧ (k = .buffer ∨ k = .symbol ∨ k = .address) := by
    revert h
    cases k <;> cases l <;> decide
  have ha := FilterValue.hasEquals_kind hk
  have hb := FilterValue.hasEquals_kind hl
  unfold equality
  rw [ha, hb]
  rcases hboth with hnone | hnone | ⟨rfl, rfl | rfl | rfl⟩
  · rw [hnone, strictEquals_comm]
    cases l.hasEquals
    · rfl
    · rfl
  · rw [hnone, strictEquals_comm]
    cases k.hasEquals
    · rfl
    · rfl
  · obtain ⟨i, c, rfl⟩ := exists_buffer hk
    obtain ⟨j, d, rfl⟩ := exists_buffer hl
    show Except.ok (FilterValue.boolean (c.equals d)) = .ok (.boolean (d.equals c))
    have hcd : c.equals d = d.equals c := by
      rw [Bool.eq_iff_iff, Buffer.equals_iff, Buffer.equals_iff, eq_comm]
    rw [hcd]
  · obtain ⟨text, htext, hequals⟩ := equals_symbol (R := R) hk
    obtain ⟨text', htext', hequals'⟩ := equals_symbol (R := R) hl
    show R.equals a b = R.equals b a
    rw [hequals, hequals', textEquals, textEquals, htext, htext']
    simp only [Except.map, eq_comm]
  · obtain ⟨data, hdata, hequals⟩ := equals_address (R := R) hk
    obtain ⟨data', hdata', hequals'⟩ := equals_address (R := R) hl
    show R.equals a b = R.equals b a
    rw [hequals, hequals', dataEquals, dataEquals, hdata, hdata']
    simp only [Except.bind, eq_comm]

lemma sameContents_cases (h : a.SameContents b) :
    (∃ i j c d, a = .object i (.buffer c) ∧ b = .object j (.buffer d) ∧ c.bytes = d.bytes) ∨
      ∃ i j x, a = .object i (.instance x) ∧ b = .object j (.instance x) := by
  cases a with
  | object i content =>
    cases b with
    | object j content' =>
      cases content with
      | buffer c =>
        cases content' with
        | buffer d => exact .inl ⟨i, j, c, d, rfl, rfl, h⟩
        | _ => exact h.elim
      | «instance» x =>
        cases content' with
        | «instance» y =>
          obtain rfl : x = y := h
          exact .inr ⟨i, j, x, rfl, rfl⟩
        | _ => exact h.elim
      | other text data => exact h.elim
    | _ => cases content <;> exact h.elim
  | _ => exact h.elim

/-- Two objects with the same contents are equal wherever they compare. -/
lemma equality_same (hk : a.kind = some k) (hl : b.kind = some l) (h : k.comparable l = true)
    (hsame : a.SameContents b) : R.equality a b = .ok (.boolean true) := by
  rcases sameContents_cases hsame with ⟨i, j, c, d, rfl, rfl, hbytes⟩ | ⟨i, j, x, rfl, rfl⟩
  · show Except.ok (FilterValue.boolean (c.equals d)) = _
    rw [(Buffer.equals_iff c d).mpr hbytes]
  · cases hk
    cases hl
    show R.equals _ _ = _
    have hx : instanceKind x = .symbol ∨ instanceKind x = .address := by
      revert h
      cases x <;> simp [instanceKind, Kind.comparable]
    rcases hx with hx | hx
    · obtain ⟨text, htext, hequals⟩ :=
        equals_symbol (R := R) (a := .object i (.instance x)) (congrArg some hx)
      rw [hequals, textEquals, show R.toText (.object j (.instance x)) = .ok text from htext]
      simp only [Except.map, decide_true]
    · obtain ⟨data, hdata, hequals⟩ :=
        equals_address (R := R) (a := .object i (.instance x)) (congrArg some hx)
      rw [hequals, dataEquals, show R.dataOf (.object j (.instance x)) = .ok (some data) from hdata]
      simp only [Except.bind, decide_true]

/-- The pairs of kinds where both orders answer. -/
lemma comparable_iff (hk : a.kind = some k) (hl : b.kind = some l) :
    ((∃ r, R.equality a b = .ok r) ∧ ∃ r, R.equality b a = .ok r) ↔ k.comparable l = true := by
  rw [equality_ok hk hl, equality_ok hl hk]
  cases k <;> cases l <;> decide

end Runtime

/-! ### Expressions with `==` -/

section Expressions

variable {R : Runtime σ} {left right : Node} {lf rf : Compiled σ FilterValue} {a b : FilterValue}

lemma makeFilter_binary (operator : BinaryOperator) (hleft : makeFilter R.engine left = some lf)
    (hright : makeFilter R.engine right = some rf) :
    makeFilter R.engine (.binary operator left right) = binaryFilter R.engine lf rf operator := by
  rw [makeFilter, hleft, hright]
  rfl

/-- The value of `left == right`. -/
lemma exists_equalsFilter (hleft : makeFilter R.engine left = some lf)
    (hright : makeFilter R.engine right = some rf) :
    ∃ f, makeFilter R.engine (.binary .eq left right) = some f ∧ ∀ this pkt s t u a b,
      Returns (lf R.engine.undefined pkt) s a t → Returns (rf R.engine.undefined pkt) t b u →
        outcome (f this pkt) s = (R.equality a b, u) := by
  refine ⟨_, makeFilter_binary .eq hleft hright, ?_⟩
  intro this pkt s t u a b ha hb
  rw [ha.outcome_bind, hb.outcome_bind, Runtime.outcome_equalsFilter]

/-- Both orders of `==` give one result, which is `true` for objects with the same contents. -/
def Agree (R : Runtime σ) (left right : Node) (a b this pkt : FilterValue) (s : σ) : Prop :=
  ∃ f g r t u, makeFilter R.engine (.binary .eq left right) = some f ∧
    makeFilter R.engine (.binary .eq right left) = some g ∧
    Returns (f this pkt) s r t ∧ Returns (g this pkt) s r u ∧
    (a.SameContents b → r = .boolean true)

/-- Two operands that have their values in every state agree exactly if their kinds are
comparable. -/
theorem equality_iff (hleft : makeFilter R.engine left = some lf)
    (hright : makeFilter R.engine right = some rf) {k l : Kind} (hk : a.kind = some k)
    (hl : b.kind = some l) {pkt : FilterValue}
    (ha : ∀ s, ∃ t, Returns (lf R.engine.undefined pkt) s a t)
    (hb : ∀ s, ∃ t, Returns (rf R.engine.undefined pkt) s b t) (this : FilterValue) (s : σ) :
    Agree R left right a b this pkt s ↔ k.comparable l = true := by
  obtain ⟨f, hf, hoverf⟩ := exists_equalsFilter hleft hright
  obtain ⟨g, hg, hoverg⟩ := exists_equalsFilter hright hleft
  obtain ⟨t, hat⟩ := ha s
  obtain ⟨u, hbu⟩ := hb t
  obtain ⟨t', hbt⟩ := hb s
  obtain ⟨u', hau⟩ := ha t'
  have houtf := hoverf this pkt s t u a b hat hbu
  have houtg := hoverg this pkt s t' u' b a hbt hau
  constructor
  · rintro ⟨f', g', r, v, w, hf', hg', hrf, hrg, -⟩
    obtain rfl := Option.some.inj (hf.symm.trans hf')
    obtain rfl := Option.some.inj (hg.symm.trans hg')
    exact (Runtime.comparable_iff hk hl).mp
      ⟨⟨r, (Prod.mk.inj (houtf.symm.trans hrf)).1⟩, r, (Prod.mk.inj (houtg.symm.trans hrg)).1⟩
  · intro h
    obtain ⟨⟨r, hr⟩, -⟩ := (Runtime.comparable_iff (R := R) hk hl).mpr h
    refine ⟨f, g, r, u, u', hf, hg, ?_, ?_, ?_⟩
    · rw [Returns, houtf, hr]
    · rw [Returns, houtg, ← Runtime.equality_comm hk hl h, hr]
    · intro hsame
      exact Except.ok.inj (hr.symm.trans (Runtime.equality_same hk hl h hsame))

end Expressions

/-- An engine with one packet, which has the properties `a` and `b`. -/
def twoAttrs (a b : FilterValue) : Runtime Unit where
  base := {
    undefined := .undefined
    null := .null
    literal := fun _ => .undefined
    number := .undefined
    date := .undefined
    math := .undefined
    typeError := .object 0 (.other (some "TypeError") none)
    referenceError := .object 1 (.other (some "ReferenceError") none)
    toBoolean := FilterValue.toBoolean
    toLowerCase := id
    strictEquals := FilterValue.strictEquals
    get := fun _ key => pure <|
      if key = .string "a" then a else if key = .string "b" then b else .undefined
    hasOwn := fun _ _ => pure false
    call := fun _ _ _ => pure .undefined
    apply := fun _ _ _ => pure .undefined
    unary := fun _ _ => pure .undefined
    binary := fun _ _ _ => pure .undefined
    layers := fun _ => pure [] }
  numberText := fun _ => "0"
  methodText := "function equals"
  decode := Buffer.asciiText
  error := fun message => .object 2 (.other (some message) none)

/-- An object that is 10.0.0.1:80. -/
def sampleHost (ref : ℕ) : FilterValue :=
  .object ref (.instance (.ipv4Host ⟨⟨[10, 0, 0, 1], rfl⟩, 80, by decide⟩))

/-- An object that is 02:00:00:00:00:01. -/
def sampleAddress (ref : ℕ) : FilterValue :=
  .object ref (.instance (.macAddress ⟨[2, 0, 0, 0, 0, 1], rfl⟩))

theorem equality_iff_addresses :
    Agree (twoAttrs (sampleAddress 3) (sampleAddress 4)) (.identifier "a") (.identifier "b")
      (sampleAddress 3) (sampleAddress 4) .undefined .undefined () ↔
      Kind.address.comparable .address = true := by
  refine equality_iff rfl rfl rfl rfl ?_ ?_ .undefined ()
  · exact fun s => ⟨(), rfl⟩
  · exact fun s => ⟨(), rfl⟩

/-- `a == b` -/
def sampleEq : Node := .binary .eq (.identifier "a") (.identifier "b")

/-- `a != b` -/
def sampleNe : Node := .binary .ne (.identifier "a") (.identifier "b")

/-- `a == b` throws for two hosts with the same address and port. -/
theorem hosts_throw : (sampleHost 3).SameContents (sampleHost 4) ∧
    (∃ f, makeFilter (twoAttrs (sampleHost 3) (sampleHost 4)).engine sampleEq = some f ∧
      outcome (f .undefined .undefined) () =
        (.error (.object 1 (.other (some "ReferenceError") none)), ())) ∧
    ¬ Agree (twoAttrs (sampleHost 3) (sampleHost 4)) (.identifier "a") (.identifier "b")
      (sampleHost 3) (sampleHost 4) .undefined .undefined () := by
  refine ⟨rfl, ⟨_, rfl, rfl⟩, ?_⟩
  rintro ⟨f, g, r, t, u, hf, -, hr, -⟩
  cases hf
  cases hr

/-! ### Inequality -/

namespace Runtime

variable (R : Runtime σ)

/-- Is `b` what the method `equals` of `a` takes for the same? Enumerations and flags ask for the
text, and addresses for the bytes of `data`. -/
def Alike (a b : FilterValue) : Prop :=
  match a.kind with
  | some .buffer => ∃ i j c d, a = .object i (.buffer c) ∧ b = .object j (.buffer d) ∧ c.bytes = d.bytes
  | some .symbol => ∃ text, R.toText a = .ok text ∧ R.toText b = .ok text
  | some .address => ∃ data, R.dataOf a = .ok (some data) ∧ R.dataOf b = .ok (some data)
  | _ => False

/-- Two different values, one of which has a method `equals` that takes the other for the same. -/
def Twins (a b : FilterValue) : Prop := a ≠ b ∧ (R.Alike a b ∨ a.hasEquals = false ∧ R.Alike b a)

variable {R} {a b r : FilterValue}

lemma Alike.hasEquals (h : R.Alike a b) : a.hasEquals = true := by
  unfold Alike at h
  split at h
  all_goals
    first
    | exact h.elim
    | exact FilterValue.hasEquals_kind ‹_›

/-- What a method `equals` returns says whether the values are alike. -/
lemma equals_alike (hr : R.equals a b = .ok r) : ∃ v, r = .boolean v ∧ (v = true ↔ R.Alike a b) := by
  unfold Alike
  rcases kind_of_equals hr with hk | hk | hk
  · obtain ⟨i, c, rfl⟩ := exists_buffer hk
    cases b with
    | object j content =>
      cases content with
      | buffer d =>
        obtain rfl := Except.ok.inj hr
        refine ⟨_, rfl, (Buffer.equals_iff c d).trans ?_⟩
        constructor
        · intro h
          exact ⟨i, j, c, d, rfl, rfl, h⟩
        · rintro ⟨_, _, _, _, ⟨⟩, ⟨⟩, h⟩
          exact h
      | _ => cases hr
    | _ => cases hr
  · obtain ⟨text, htext, hequals⟩ := equals_symbol (R := R) hk
    rw [hequals, textEquals] at hr
    cases hother : R.toText b with
    | error e => rw [hother] at hr; cases hr
    | ok t =>
      rw [hother] at hr
      obtain rfl := Except.ok.inj hr
      refine ⟨_, rfl, ?_⟩
      simp [hk, htext, eq_comm]
  · obtain ⟨data, hdata, hequals⟩ := equals_address (R := R) hk
    rw [hequals, dataEquals] at hr
    rcases hother : R.dataOf b with e | _ | bytes
    · rw [hother] at hr; cases hr
    · rw [hother] at hr; cases hr
    · rw [hother] at hr
      obtain rfl := Except.ok.inj hr
      refine ⟨_, rfl, ?_⟩
      simp [hk, hdata, eq_comm]

/-- What can be asked is alike to itself. -/
lemma alike_self (hr : R.equals a b = .ok r) : R.Alike a a := by
  unfold Alike
  rcases kind_of_equals hr with hk | hk | hk
  · obtain ⟨i, c, rfl⟩ := exists_buffer hk
    exact ⟨i, i, c, c, rfl, rfl, rfl⟩
  · obtain ⟨text, htext, -⟩ := equals_symbol (R := R) hk
    rw [hk]
    exact ⟨text, htext, htext⟩
  · obtain ⟨data, hdata, -⟩ := equals_address (R := R) hk
    rw [hk]
    exact ⟨data, hdata, hdata⟩

lemma strictEquals_of_hasEquals (h : a.hasEquals = true) : a.strictEquals b = decide (a = b) := by
  cases a with
  | object i content => rfl
  | _ => cases h

/-- The result of `==` is the strict comparison, unless the operands are twins. -/
lemma equality_strict (hr : R.equality a b = .ok r) :
    ∃ v, r = .boolean v ∧ (v = a.strictEquals b ↔ ¬ R.Twins a b) := by
  unfold equality at hr
  split_ifs at hr with ha hb
  · obtain ⟨v, rfl, hv⟩ := equals_alike hr
    refine ⟨v, rfl, ?_⟩
    rw [strictEquals_of_hasEquals ha]
    have htwins : R.Twins a b ↔ a ≠ b ∧ v = true := by simp [Twins, ha, hv]
    rw [htwins]
    by_cases hab : a = b
    · have htrue : v = true := by
        rw [hv, ← hab]
        exact alike_self hr
      simp [hab, htrue]
    · simp [hab]
  · obtain ⟨v, rfl, hv⟩ := equals_alike hr
    refine ⟨v, rfl, ?_⟩
    have hab : a ≠ b := by
      rintro rfl
      exact ha hb
    have hnot : ¬ R.Alike a b := fun h => ha h.hasEquals
    have htwins : R.Twins a b ↔ v = true := by simp [Twins, hab, hnot, hv, ha]
    have hstrict : a.strictEquals b = false := by
      rw [strictEquals_comm, strictEquals_of_hasEquals hb]
      exact decide_eq_false hab.symm
    rw [htwins, hstrict, Bool.not_eq_true]
  · obtain rfl := Except.ok.inj hr
    refine ⟨_, rfl, iff_of_true rfl ?_⟩
    rintro ⟨-, h | ⟨-, h⟩⟩
    · exact ha h.hasEquals
    · exact hb h.hasEquals

end Runtime

section Expressions

variable {R : Runtime σ} {left right : Node} {lf rf f g h : Compiled σ FilterValue}
  {a b r this pkt : FilterValue} {s t u : σ}

/-- Where `left == right` has the value `r`, `left != right` has the opposite value, and it selects
the same packets as `!(left == right)`, exactly if the operands are no twins. -/
theorem ne_iff (hleft : makeFilter R.engine left = some lf)
    (hright : makeFilter R.engine right = some rf)
    (hf : makeFilter R.engine (.binary .eq left right) = some f)
    (hg : makeFilter R.engine (.binary .ne left right) = some g)
    (hh : makeFilter R.engine (.unary .not (.binary .eq left right)) = some h)
    (ha : Returns (lf R.engine.undefined pkt) s a t)
    (hb : Returns (rf R.engine.undefined pkt) t b u) (hr : Returns (f this pkt) s r u) :
    (Returns (g this pkt) s (.boolean !r.toBoolean) u ∧
      accepts R.engine g this pkt s = accepts R.engine h this pkt s) ↔ ¬ R.Twins a b := by
  obtain ⟨f', hf', hover⟩ := exists_equalsFilter hleft hright
  obtain rfl := Option.some.inj (hf.symm.trans hf')
  have hequality : R.equality a b = .ok r :=
    (Prod.mk.inj ((hover this pkt s t u a b ha hb).symm.trans hr)).1
  obtain ⟨v, rfl, hstrict⟩ := Runtime.equality_strict hequality
  have houtg : outcome (g this pkt) s = (.ok (.boolean !a.strictEquals b), u) := by
    rw [makeFilter_binary .ne hleft hright] at hg
    obtain rfl := Option.some.inj hg
    rw [ha.outcome_bind, hb.outcome_bind]
    rfl
  have houth : outcome (h this pkt) s = (.ok (.boolean !v), u) := by
    rw [makeFilter, hf] at hh
    obtain rfl := Option.some.inj hh
    have hvalue : Returns (f R.engine.undefined pkt) s (.boolean v) u := by
      rw [Returns, hover R.engine.undefined pkt s t u a b ha hb, hequality]
    rw [hvalue.outcome_bind]
    rfl
  have hg' : accepts R.engine g this pkt s = !a.strictEquals b := by
    rw [accepts, houtg]
    rfl
  have hh' : accepts R.engine h this pkt s = !v := by
    rw [accepts, houth]
    rfl
  rw [Returns, houtg, hg', hh', ← hstrict]
  cases v <;> cases a.strictEquals b <;> simp [FilterValue.toBoolean]

end Expressions

theorem ne_iff_same : ∃ f g h : Compiled Unit FilterValue,
    makeFilter (twoAttrs (sampleAddress 3) (sampleAddress 3)).engine sampleEq = some f ∧
    makeFilter (twoAttrs (sampleAddress 3) (sampleAddress 3)).engine sampleNe = some g ∧
    makeFilter (twoAttrs (sampleAddress 3) (sampleAddress 3)).engine (.unary .not sampleEq) = some h ∧
    ((Returns (g .undefined .undefined) () (.boolean !(FilterValue.boolean true).toBoolean) () ∧
      accepts (twoAttrs (sampleAddress 3) (sampleAddress 3)).engine g .undefined .undefined () =
        accepts (twoAttrs (sampleAddress 3) (sampleAddress 3)).engine h .undefined .undefined ()) ↔
      ¬ (twoAttrs (sampleAddress 3) (sampleAddress 3)).Twins (sampleAddress 3) (sampleAddress 3)) := by
  refine ⟨_, _, _, rfl, rfl, rfl, ?_⟩
  exact @ne_iff Unit (twoAttrs (sampleAddress 3) (sampleAddress 3)) (.identifier "a")
    (.identifier "b") _ _ _ _ _ (sampleAddress 3) (sampleAddress 3) _ _ _ _ () _ rfl rfl rfl rfl rfl
    rfl rfl rfl

/-- Two objects of one address are equal and not equal at once. -/
theorem addresses_differ : ∃ f g h : Compiled Unit FilterValue,
    makeFilter (twoAttrs (sampleAddress 3) (sampleAddress 4)).engine sampleEq = some f ∧
    makeFilter (twoAttrs (sampleAddress 3) (sampleAddress 4)).engine sampleNe = some g ∧
    makeFilter (twoAttrs (sampleAddress 3) (sampleAddress 4)).engine (.unary .not sampleEq) = some h ∧
    Returns (f .undefined .undefined) () (.boolean true) () ∧
    Returns (g .undefined .undefined) () (.boolean true) () ∧
    accepts (twoAttrs (sampleAddress 3) (sampleAddress 4)).engine g .undefined .undefined () = true ∧
    accepts (twoAttrs (sampleAddress 3) (sampleAddress 4)).engine h .undefined .undefined () = false :=
  ⟨_, _, _, rfl, rfl, rfl, rfl, rfl, rfl, rfl⟩

end MakeFilter

end Dripcap
