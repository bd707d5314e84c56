import Dripcap.Client.Filter

/-!
# What filters mean

`evaluate` is the evaluation of an expression as JavaScript defines it, where identifiers and
members are looked up in a packet. A compiled expression returns the value of this evaluation
unless the evaluation comes to one of the places where `makeFilter` does something else.
-/

namespace Dripcap

namespace MakeFilter

open Outcome

variable {σ V : Type} [DecidableEq V] (E : Engine σ V)

/-! ### Layers -/

mutual

/-- A layer and the layers in it, in depth-first order. -/
def Layer.preorder : Layer V → List (Layer V)
  | .mk self name aliases layers => .mk self name aliases layers :: preorder layers

def preorder : List (Layer V) → List (Layer V)
  | [] => []
  | layer :: layers => layer.preorder ++ preorder layers

end

def Layer.self : Layer V → V
  | .mk self _ _ _ => self

/-- The name and the aliases. -/
def Layer.labels : Layer V → List (Option String)
  | .mk _ name aliases _ => some name :: aliases

/-- A label is `name` but for upper and lower case. -/
def same (name : String) (label : Option String) : Bool := label.map E.toLowerCase = some name

/-- The first layer whose name or alias is `name`. -/
def firstLayer (name : String) (layers : List (Layer V)) : Option V :=
  ((preorder layers).find? fun layer => layer.labels.any (same E name)).map Layer.self

/-- The labels before the first that is `name` are strings. -/
def Labelled (name : String) (layers : List (Layer V)) : Prop :=
  none ∉ ((preorder layers).flatMap Layer.labels).takeWhile fun label => !same E name label

/-! ### Evaluation -/

/-- A value with the receiver that a call of it has. -/
structure Reference (V : Type) where
  value : V
  receiver : V

/-- What an identifier denotes. -/
def resolve (pkt : V) (name : String) : Eval σ V V := do
  let layers ← E.layers pkt
  match firstLayer E (E.toLowerCase name) layers with
  | some layer => pure layer
  | none => do
    let value ← E.get pkt (E.string name)
    pure (if value = E.undefined then global E pkt name else value)

/-- A property of `attrs`, or else of the object. -/
def attrsFirst (obj key : V) : Eval σ V V := do
  let attrs ← E.get obj (E.string "attrs")
  if E.isNull attrs then E.get obj key
  else do
    if ← E.hasOwn attrs key then E.get attrs key else E.get obj key

/-- A failing lookup is `undefined`. -/
def lookup (obj key : V) : Eval σ V V := tryCatch (attrsFirst E obj key) fun _ => pure E.undefined

/-- Is the value of the left operand the value of the expression? -/
def LogicalOperator.leftDecides : LogicalOperator → Bool → Bool
  | .or, left => left
  | .and, left => !left
  | .other, _ => false

mutual

def evaluate (pkt : V) : Node → Eval σ V (Reference V)
  | .identifier name => do
    let value ← resolve E pkt name
    pure ⟨value, E.undefined⟩
  | .member object property computed => do
    let obj ← evaluate pkt object
    let key ← (match property, computed with
      | .identifier name, false => pure ⟨E.string name, E.undefined⟩
      | _, _ => evaluate pkt property : Eval σ V (Reference V))
    let value ← lookup E obj.value key.value
    pure ⟨value, obj.value⟩
  | .literal value => pure ⟨E.literal value, E.undefined⟩
  | .unary operator argument => do
    let arg ← evaluate pkt argument
    let value ← E.unary operator arg.value
    pure ⟨value, E.undefined⟩
  | .call callee arguments => do
    let f ← evaluate pkt callee
    let args ← evaluateList pkt arguments
    let value ← E.call f.value f.receiver args
    pure ⟨value, E.undefined⟩
  | .sequence expressions => do
    let values ← evaluateList pkt expressions
    pure ⟨values.getLast?.getD E.undefined, E.undefined⟩
  | .binary operator left right => do
    let lhs ← evaluate pkt left
    let rhs ← evaluate pkt right
    let value ← E.binary operator lhs.value rhs.value
    pure ⟨value, E.undefined⟩
  | .conditional test consequent alternate => do
    let t ← evaluate pkt test
    if E.toBoolean t.value then do
      let res ← evaluate pkt consequent
      pure ⟨res.value, E.undefined⟩
    else do
      let res ← evaluate pkt alternate
      pure ⟨res.value, E.undefined⟩
  | .logical operator left right => do
    let lhs ← evaluate pkt left
    if operator.leftDecides (E.toBoolean lhs.value) then pure ⟨lhs.value, E.undefined⟩
    else do
      let rhs ← evaluate pkt right
      pure ⟨rhs.value, E.undefined⟩
  -- there is no other node in a filter
  | .other => throw E.undefined

def evaluateList (pkt : V) : List Node → Eval σ V (List V)
  | [] => pure []
  | node :: nodes => do
    let res ← evaluate pkt node
    let values ← evaluateList pkt nodes
    pure (res.value :: values)

end

/-- An identifier comes to what it is resolved to. -/
lemma returns_evaluate_identifier {pkt : V} {name : String} {res : Reference V} {s t : σ} :
    Returns (evaluate E pkt (.identifier name)) s res t ↔
      ∃ value, Returns (resolve E pkt name) s value t ∧ ⟨value, E.undefined⟩ = res := by
  rw [evaluate, returns_bind]
  constructor
  · rintro ⟨value, u, hvalue, hres⟩
    obtain ⟨rfl, rfl⟩ := returns_pure.mp hres
    exact ⟨value, hvalue, rfl⟩
  · rintro ⟨value, hvalue, rfl⟩
    exact ⟨value, t, hvalue, rfl⟩

/-- The expressions that filters support, but for `==` and `!=`. -/
inductive Covered : Node → Prop
  | identifier (name : String) : Covered (.identifier name)
  | member {object property : Node} (computed : Bool) (left : Covered object)
      (right : Covered property) : Covered (.member object property computed)
  | literal (value : Literal) : Covered (.literal value)
  | unary {operator : UnaryOperator} {argument : Node} (supported : operator ≠ .other)
      (arg : Covered argument) : Covered (.unary operator argument)
  | call {callee : Node} {arguments : List Node} (f : Covered callee)
      (args : ∀ node ∈ arguments, Covered node) : Covered (.call callee arguments)
  | sequence {expressions : List Node} (nodes : ∀ node ∈ expressions, Covered node) :
      Covered (.sequence expressions)
  | binary {operator : BinaryOperator} {left right : Node}
      (supported : operator ≠ .other ∧ operator ≠ .eq ∧ operator ≠ .ne) (lhs : Covered left)
      (rhs : Covered right) : Covered (.binary operator left right)
  | conditional {test consequent alternate : Node} (t : Covered test) (c : Covered consequent)
      (a : Covered alternate) : Covered (.conditional test consequent alternate)
  | logical {operator : LogicalOperator} {left right : Node} (supported : operator ≠ .other)
      (lhs : Covered left) (rhs : Covered right) : Covered (.logical operator left right)

/-! ### Where the compiler does the same -/

/-- A property is read without side effects, and it is not `null`. -/
structure PlainProperty (obj key : V) (s : σ) : Prop where
  quiet : Quiet (E.get obj key) s
  notNull : ¬ Returns (E.get obj key) s E.null s

/-- A member is read without side effects, `attrs` answers what its own properties are, and a
property of the object is not `null`. -/
structure PlainMember (obj key : V) (s : σ) : Prop where
  attrs : Quiet (E.get obj (E.string "attrs")) s
  own : ∀ attrs, Returns (E.get obj (E.string "attrs")) s attrs s → E.isNull attrs = false →
    Quiet (E.hasOwn attrs key) s ∧ outcome (hasAttr E obj key) s = outcome (E.hasOwn attrs key) s
  property : ∀ attrs, Returns (E.get obj (E.string "attrs")) s attrs s →
    (E.isNull attrs = false → Returns (E.hasOwn attrs key) s false s) → PlainProperty E obj key s

mutual

/-- The evaluation comes to nothing that `makeFilter` does in another way. `this` is the receiver of
the call of the filter. -/
def Regular (pkt this : V) : Node → σ → Prop
  | .identifier name, s => ∀ layers t, Returns (E.layers pkt) s layers t →
      Labelled E (E.toLowerCase name) layers ∧
      (firstLayer E (E.toLowerCase name) layers = none → PlainProperty E pkt (E.string name) t)
  | .member object property computed, s => Regular pkt E.undefined object s ∧
      ∀ obj t, Returns (evaluate E pkt object) s obj t → match property, computed with
        | .identifier name, false => PlainMember E obj.value (E.string name) t
        -- the key is the name of the identifier
        | .identifier name, true => ∀ key u, Returns (evaluate E pkt (.identifier name)) t key u →
            key.value = E.string name ∧ u = t ∧ PlainMember E obj.value key.value u
        | _, _ => Regular pkt E.undefined property t ∧
            ∀ key u, Returns (evaluate E pkt property) t key u →
              PlainMember E obj.value key.value u
  | .literal _, _ => True
  | .unary _ argument, s => Regular pkt E.undefined argument s
  -- the arguments come before the callee, and the receiver is another
  | .call callee arguments, s => ∀ f t args u value s', Returns (evaluate E pkt callee) s f t →
      Returns (evaluateList E pkt arguments) t args u →
      Returns (E.call f.value f.receiver args) u value s' →
      RegularList pkt arguments s ∧ ∃ f' t', Returns (evaluateList E pkt arguments) s args t' ∧
        Regular pkt E.undefined callee t' ∧ Returns (evaluate E pkt callee) t' f' u ∧
        f'.value = f.value ∧ E.isNull f.value = false ∧ Returns (E.apply f.value this args) u value s'
  | .sequence expressions, s => expressions ≠ [] →
      ¬ ∃ res t, Returns (evaluate E pkt (.sequence expressions)) s res t
  | .binary _ left right, s => Regular pkt E.undefined left s ∧
      ∀ lhs t, Returns (evaluate E pkt left) s lhs t → Regular pkt E.undefined right t
  | .conditional test consequent alternate, s => Regular pkt E.undefined test s ∧
      ∀ res t, Returns (evaluate E pkt test) s res t →
        (E.toBoolean res.value = true → Regular pkt E.undefined consequent t) ∧
        (E.toBoolean res.value = false → Regular pkt E.undefined alternate t)
  | .logical operator left right, s => Regular pkt E.undefined left s ∧
      ∀ lhs t, Returns (evaluate E pkt left) s lhs t →
        operator.leftDecides (E.toBoolean lhs.value) = false → Regular pkt E.undefined right t
  | .other, _ => True

def RegularList (pkt : V) : List Node → σ → Prop
  | [], _ => True
  | node :: nodes, s => Regular pkt E.undefined node s ∧
      ∀ res t, Returns (evaluate E pkt node) s res t → RegularList pkt nodes t

end

/-! ### The search for a layer -/

/-- The labels of layers, each with its layer. -/
def entries (layers : List (Layer V)) : List (Option String × V) :=
  layers.flatMap fun layer => layer.labels.map fun label => (label, layer.self)

/-- The search in a list of labels. -/
def findEntry (name : String) : List (Option String × V) → Except V (Option V)
  | [] => .ok none
  | (none, _) :: _ => .error E.typeError
  | (some label, self) :: rest =>
    if E.toLowerCase label = name then .ok (some self) else findEntry name rest

section

omit [DecidableEq V]

lemma findEntry_append (name : String) (l l' : List (Option String × V)) :
    findEntry E name (l ++ l') = (findEntry E name l).bind fun found =>
      match found with
      | some self => .ok (some self)
      | none => findEntry E name l' := by
  induction l with
  | nil => rfl
  | cons entry l ih =>
    obtain ⟨_ | label, self⟩ := entry
    · rfl
    · rw [List.cons_append, findEntry, findEntry]
      split_ifs
      · rfl
      · exact ih

lemma findEntry_aliases (name : String) (self : V) (aliases : List (Option String)) :
    findEntry E name (aliases.map fun label => (label, self)) =
      (findAlias E name aliases).map fun found => if found then some self else none := by
  induction aliases with
  | nil => rfl
  | cons label aliases ih =>
    cases label with
    | none => rfl
    | some label =>
      rw [List.map_cons, findEntry, findAlias]
      split_ifs
      · rfl
      · exact ih

mutual

lemma findIn_eq_findEntry (name : String) : ∀ layer : Layer V,
    findIn E name layer = findEntry E name (entries layer.preorder)
  | .mk self layerName aliases layers => by
    have hlayers := find_eq_findEntry name layers
    have hentries : entries (Layer.mk self layerName aliases layers).preorder =
        (some layerName, self) :: (aliases.map (fun label => (label, self)) ++
          entries (preorder layers)) := by
      rw [Layer.preorder, entries, List.flatMap_cons]
      rfl
    rw [findIn, hentries, findEntry, findEntry_append, findEntry_aliases, ← hlayers]
    split_ifs
    · rfl
    · cases findAlias E name aliases with
      | error e => rfl
      | ok found => cases found <;> rfl

/-- The search goes through the layers in depth-first order. -/
lemma find_eq_findEntry (name : String) : ∀ layers : List (Layer V),
    find E name layers = findEntry E name (entries (preorder layers))
  | [] => rfl
  | layer :: layers => by
    rw [find, preorder, entries, List.flatMap_append, findEntry_append]
    show (findIn E name layer >>= _) = _
    rw [findIn_eq_findEntry name layer, find_eq_findEntry name layers]
    rfl

end

lemma findEntry_eq {name : String} {l : List (Option String × V)}
    (h : none ∉ (l.map Prod.fst).takeWhile fun label => !same E name label) :
    findEntry E name l = .ok ((l.find? fun entry => same E name entry.1).map Prod.snd) := by
  induction l with
  | nil => rfl
  | cons entry l ih =>
    obtain ⟨_ | label, self⟩ := entry
    · exact absurd List.mem_cons_self h
    · by_cases hname : E.toLowerCase label = name
      · have hsame : same E name (some label) = true := by simp [same, hname]
        rw [findEntry, if_pos hname, List.find?_cons, hsame]
        rfl
      · have hsame : same E name (some label) = false := by simp [same, hname]
        rw [List.map_cons, List.takeWhile_cons_of_pos (by simp [hsame])] at h
        rw [findEntry, if_neg hname, List.find?_cons, hsame]
        exact ih fun hmem => h (List.mem_cons_of_mem _ hmem)

lemma map_fst_entries (layers : List (Layer V)) :
    (entries layers).map Prod.fst = layers.flatMap Layer.labels := by
  rw [entries, List.map_flatMap]
  congr 1
  funext layer
  rw [List.map_map]
  exact List.map_id _

lemma find?_entries (name : String) (layers : List (Layer V)) :
    ((entries layers).find? fun entry => same E name entry.1).map Prod.snd =
      (layers.find? fun layer => layer.labels.any (same E name)).map Layer.self := by
  induction layers with
  | nil => rfl
  | cons layer rest ih =>
    rw [entries, List.flatMap_cons, List.find?_append, List.find?_map, List.find?_cons]
    cases hany : layer.labels.any (same E name) with
    | true =>
      obtain ⟨label, hlabel⟩ := Option.isSome_iff_exists.mp
        (List.find?_isSome.mpr (List.any_eq_true.mp hany))
      show ((Option.map _ (layer.labels.find? (same E name))).or _).map _ = _
      rw [hlabel]
      rfl
    | false =>
      have hnone : layer.labels.find? (same E name) = none := by
        rw [List.find?_eq_none]
        exact List.any_eq_false.mp hany
      show ((Option.map _ (layer.labels.find? (same E name))).or _).map _ = _
      rw [hnone, ← ih]
      rfl

/-- The search finds the first layer of this name. -/
theorem find_eq {name : String} {layers : List (Layer V)} (h : Labelled E name layers) :
    find E name layers = .ok (firstLayer E name layers) := by
  rw [find_eq_findEntry, findEntry_eq, find?_entries]
  · rfl
  · rw [map_fst_entries]
    exact h

end

end MakeFilter

end Dripcap
