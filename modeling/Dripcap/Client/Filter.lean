import Dripcap.Library.Outcome
import Dripcap.Script.Layer

/-!
# Filters

A filter is an expression that `esprima` has parsed and `makeFilter` of `filter.es` compiles to a
function of the packets. The engine that runs it is a parameter: its values, its state, and what
its operations do.
-/

namespace Dripcap

namespace MakeFilter

open Outcome

/-! ### Expressions -/

inductive Literal where
  | null : Literal
  | boolean : Bool → Literal
  | number : Double → Literal
  | string : String → Literal
  | regex (pattern flags : String) : Literal
  deriving DecidableEq

inductive UnaryOperator where
  | plus | minus | not | bitNot
  /-- any operator that filters do not support -/
  | other

inductive BinaryOperator where
  | gt | lt | le | ge | eq | ne | add | sub | mul | div | rem | and | or | xor | shr | shl
  | other

inductive LogicalOperator where
  | or | and | other

/-- The nodes of an expression. -/
inductive Node where
  | identifier (name : String) : Node
  | member (object property : Node) (computed : Bool) : Node
  | literal (value : Literal) : Node
  | unary (operator : UnaryOperator) (argument : Node) : Node
  | call (callee : Node) (arguments : List Node) : Node
  | sequence (expressions : List Node) : Node
  | binary (operator : BinaryOperator) (left right : Node) : Node
  | conditional (test consequent alternate : Node) : Node
  | logical (operator : LogicalOperator) (left right : Node) : Node
  /-- any node of another type -/
  | other : Node

/-! ### The engine -/

/-- What a filter does: it changes the state of the engine, and it returns a value or throws one. -/
abbrev Eval (σ V α : Type) : Type := ExceptT V (StateM σ) α

/-- What `find` reads of a layer, which is the object `self`. An alias that is not a string is
`none`. There may be no aliases or no layers. -/
inductive Layer (V : Type) where
  | mk (self : V) (name : String) (aliases : List (Option String)) (layers : List (Layer V)) : Layer V

/-- The engine that runs the filters. -/
structure Engine (σ V : Type) where
  undefined : V
  null : V
  /-- a regular expression is the object that has been created for the literal -/
  literal : Literal → V
  /-- `Number`, `Date` and `Math` -/
  number : V
  date : V
  math : V
  typeError : V
  referenceError : V
  toBoolean : V → Bool
  toLowerCase : String → String
  strictEquals : V → V → Bool
  /-- `obj[prop]` -/
  get : V → V → Eval σ V V
  /-- does the object have an own property? -/
  hasOwn : V → V → Eval σ V Bool
  /-- call a function with a receiver -/
  call : V → V → List V → Eval σ V V
  /-- `f.apply(receiver, args)` -/
  apply : V → V → List V → Eval σ V V
  unary : UnaryOperator → V → Eval σ V V
  binary : BinaryOperator → V → V → Eval σ V V
  /-- the layers of a packet -/
  layers : V → Eval σ V (List (Layer V))

variable {σ V : Type} [DecidableEq V] (E : Engine σ V)

def Engine.string (s : String) : V := E.literal (.string s)

/-- `value == null` -/
def Engine.isNull (v : V) : Bool := v = E.undefined ∨ v = E.null

/-! ### The compiler -/

/-- A compiled expression is called with a receiver (`this`) and a packet. -/
abbrev Compiled (σ V : Type) : Type := V → V → Eval σ V V

/-- Is one of the aliases `name`? -/
def findAlias (name : String) : List (Option String) → Except V Bool
  | [] => .ok false
  | none :: _ => .error E.typeError
  | some aliasName :: aliases =>
    if E.toLowerCase aliasName = name then .ok true else findAlias name aliases

mutual

/-- The search in one layer. -/
def findIn (name : String) : Layer V → Except V (Option V)
  | .mk self layerName aliases layers =>
    if E.toLowerCase layerName = name then .ok (some self)
    else do
      if ← findAlias E name aliases then .ok (some self) else find name layers

/-- The search for a layer. -/
def find (name : String) : List (Layer V) → Except V (Option V)
  | [] => .ok none
  | layer :: layers => do
    match ← findIn name layer with
    | some found => .ok (some found)
    | none => find name layers

end

def global (pkt : V) (name : String) : V :=
  if name = "Number" then E.number
  else if name = "Date" then E.date
  else if name = "Math" then E.math
  else if name = "$" then pkt
  else E.undefined

def identifierFilter (name : String) : Compiled σ V := fun _ pkt => do
  let layers ← E.layers pkt
  match ← MonadExcept.ofExcept (find E (E.toLowerCase name) layers) with
  | some layer => pure layer
  | none => do
    let value ← E.get pkt (E.string name)
    if E.isNull value then pure (global E pkt name) else E.get pkt (E.string name)

/-- `obj.attrs.hasOwnProperty(prop)` -/
def hasAttr (obj prop : V) : Eval σ V Bool := do
  let attrs ← E.get obj (E.string "attrs")
  let hasOwnProperty ← E.get attrs (E.string "hasOwnProperty")
  let res ← E.call hasOwnProperty attrs [prop]
  pure (E.toBoolean res)

def readProperty (obj prop : V) : Eval σ V V := do
  let value ← E.get obj prop
  if E.isNull value then pure E.undefined else E.get obj prop

def readMember (obj prop : V) : Eval σ V V := do
  let attrs ← E.get obj (E.string "attrs")
  if E.isNull attrs then readProperty E obj prop
  else do
    if ← hasAttr E obj prop then do
      let attrs ← E.get obj (E.string "attrs")
      E.get attrs prop
    else readProperty E obj prop

def memberFilter (fo fp : Compiled σ V) : Compiled σ V := fun _ pkt =>
  tryCatch
    (do
      let obj ← fo E.undefined pkt
      let prop ← fp E.undefined pkt
      readMember E obj prop)
    fun _ => pure E.undefined

/-- `() => node.property.name` -/
def nameFilter (name : String) : Compiled σ V := fun _ _ => pure (E.string name)

def unaryFilter (f : Compiled σ V) : UnaryOperator → Option (Compiled σ V)
  | .other => none
  | operator => some fun _ pkt => do
    let value ← f E.undefined pkt
    E.unary operator value

/-- The receiver is the one of the call of the filter. -/
def callFilter (cf : Compiled σ V) (af : List (Compiled σ V)) : Compiled σ V := fun this pkt => do
  let args ← af.mapM fun f => f E.undefined pkt
  let obj ← cf E.undefined pkt
  if E.isNull obj then pure E.undefined else E.apply obj this args

/-- The code is strict and `f` is not declared, so its assignment fails. -/
def sequenceFilter (ef : List (Compiled σ V)) : Compiled σ V := fun _ _ =>
  match ef with
  | [] => pure E.undefined
  | _ :: _ => throw E.referenceError

/-- `value.equals(other)` -/
def callEquals (value other : V) : Eval σ V V := do
  let equals ← E.get value (E.string "equals")
  E.call equals value [other]

/-- Does the value have a property `equals`? -/
def hasEquals (value : V) : Eval σ V Bool :=
  if E.isNull value then pure false
  else do
    let equals ← E.get value (E.string "equals")
    pure (!E.isNull equals)

def equalsFilter (lhs rhs : V) : Eval σ V V := do
  if ← hasEquals E lhs then callEquals E lhs rhs
  else do
    if ← hasEquals E rhs then callEquals E rhs lhs
    else pure (E.literal (.boolean (E.strictEquals lhs rhs)))

def binaryFilter (lf rf : Compiled σ V) : BinaryOperator → Option (Compiled σ V)
  | .other => none
  | .eq => some fun _ pkt => do
    let lhs ← lf E.undefined pkt
    let rhs ← rf E.undefined pkt
    equalsFilter E lhs rhs
  | .ne => some fun _ pkt => do
    let lhs ← lf E.undefined pkt
    let rhs ← rf E.undefined pkt
    pure (E.literal (.boolean !E.strictEquals lhs rhs))
  | operator => some fun _ pkt => do
    let lhs ← lf E.undefined pkt
    let rhs ← rf E.undefined pkt
    E.binary operator lhs rhs

def conditionalFilter (tf cf af : Compiled σ V) : Compiled σ V := fun _ pkt => do
  let test ← tf E.undefined pkt
  if E.toBoolean test then cf E.undefined pkt else af E.undefined pkt

def logicalFilter (lf rf : Compiled σ V) : LogicalOperator → Option (Compiled σ V)
  | .other => none
  | .or => some fun _ pkt => do
    let value ← lf E.undefined pkt
    if E.toBoolean value then pure value else rf E.undefined pkt
  | .and => some fun _ pkt => do
    let value ← lf E.undefined pkt
    if E.toBoolean value then rf E.undefined pkt else pure value

mutual

/-- `none` is a `SyntaxError`. -/
def makeFilter : Node → Option (Compiled σ V)
  | .identifier name => some (identifierFilter E name)
  | .member object property _ => do
    let fo ← makeFilter object
    let fp ← match property with
      | .identifier name => some (nameFilter E name)
      | _ => makeFilter property
    some (memberFilter E fo fp)
  | .literal value => some fun _ _ => pure (E.literal value)
  | .unary operator argument => do
    let f ← makeFilter argument
    unaryFilter E f operator
  | .call callee arguments => do
    let cf ← makeFilter callee
    let af ← makeFilters arguments
    some (callFilter E cf af)
  | .sequence expressions => do
    let ef ← makeFilters expressions
    some (sequenceFilter E ef)
  | .binary operator left right => do
    let lf ← makeFilter left
    let rf ← makeFilter right
    binaryFilter E lf rf operator
  | .conditional test consequent alternate => do
    let tf ← makeFilter test
    let cf ← makeFilter consequent
    let af ← makeFilter alternate
    some (conditionalFilter E tf cf af)
  | .logical operator left right => do
    let lf ← makeFilter left
    let rf ← makeFilter right
    logicalFilter E lf rf operator
  | .other => none

def makeFilters : List Node → Option (List (Compiled σ V))
  | [] => some []
  | node :: nodes => do
    let f ← makeFilter node
    let fs ← makeFilters nodes
    some (f :: fs)

end

/-- `ScriptClass::filter` -/
def accepts (f : Compiled σ V) (global pkt : V) (s : σ) : Bool :=
  match (outcome (f global pkt) s).1 with
  | .ok value => E.toBoolean value
  | .error _ => false

end MakeFilter

end Dripcap
