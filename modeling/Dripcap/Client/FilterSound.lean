import Dripcap.Client.FilterMeaning

/-!
# Compiled filters

A compiled expression returns the value of the evaluation wherever that is regular: one lemma for
every kind of node, and an induction over the expression. A sequence, a method that needs its
receiver and a computed key that is an identifier are not compiled to what they mean.
-/

namespace Dripcap

namespace MakeFilter

open Outcome

/-! ### Members -/

variable {σ V : Type} [DecidableEq V] {E : Engine σ V} {obj key : V} {s : σ}

lemma outcome_readProperty (h : PlainProperty E obj key s) :
    outcome (readProperty E obj key) s = outcome (E.get obj key) s := by
  rcases h.quiet.cases with ⟨value, hvalue⟩ | ⟨e, he⟩
  · rw [readProperty, hvalue.outcome_bind]
    by_cases hnull : E.isNull value = true
    · have hundefined : value = E.undefined := by
        rcases of_decide_eq_true hnull with hundefined | rfl
        · exact hundefined
        · exact absurd hvalue h.notNull
      rw [if_pos hnull, outcome_pure, ← hundefined]
      exact hvalue.symm
    · rw [if_neg hnull]
  · rw [readProperty, outcome_bind_error he, he]

/-- A plain member is read as the lookup does. -/
lemma outcome_readMember (h : PlainMember E obj key s) :
    outcome (readMember E obj key) s = outcome (attrsFirst E obj key) s := by
  rcases h.attrs.cases with ⟨attrs, hattrs⟩ | ⟨e, he⟩
  · rw [readMember, attrsFirst, hattrs.outcome_bind, hattrs.outcome_bind]
    by_cases hnull : E.isNull attrs = true
    · rw [if_pos hnull, if_pos hnull]
      exact outcome_readProperty (h.property attrs hattrs fun hno => absurd hnull (by simp [hno]))
    · obtain ⟨hquiet, hown⟩ := h.own attrs hattrs (by simpa using hnull)
      rw [if_neg hnull, if_neg hnull, outcome_bind_congr hown]
      rcases hquiet.cases with ⟨own, howns⟩ | ⟨e, he⟩
      · rw [howns.outcome_bind, howns.outcome_bind]
        cases own with
        | true =>
          show outcome (E.get obj (E.string "attrs") >>= fun attrs => E.get attrs key) s = _
          rw [hattrs.outcome_bind]
          rfl
        | false => exact outcome_readProperty (h.property attrs hattrs fun _ => howns)
      · rw [outcome_bind_error he, outcome_bind_error he]
  · rw [readMember, attrsFirst, outcome_bind_error he, outcome_bind_error he]

/-! ### Compiled expressions -/

variable (E)

/-- Where the evaluation is regular, the compiled expression returns what the evaluation returns. -/
def Sound (node : Node) (f : Compiled σ V) : Prop :=
  ∀ pkt this s res t, Regular E pkt this node s → Returns (evaluate E pkt node) s res t →
    Returns (f this pkt) s res.value t

def SoundList (nodes : List Node) (fs : List (Compiled σ V)) : Prop :=
  ∀ pkt s values t, RegularList E pkt nodes s → Returns (evaluateList E pkt nodes) s values t →
    Returns (fs.mapM fun f => f E.undefined pkt) s values t

variable {E}

lemma sound_identifier (name : String) : Sound E (.identifier name) (identifierFilter E name) := by
  intro pkt this s res t hregular hres
  obtain ⟨value, hvalue, rfl⟩ := (returns_evaluate_identifier E).mp hres
  obtain ⟨layers, u, hlayers, hvalue⟩ := returns_bind.mp hvalue
  obtain ⟨hlabelled, hplain⟩ := hregular layers u hlayers
  refine returns_bind.mpr ⟨layers, u, hlayers, ?_⟩
  rw [find_eq E hlabelled]
  cases hfirst : firstLayer E (E.toLowerCase name) layers with
  | some layer =>
    rw [hfirst] at hvalue
    exact hvalue
  | none =>
    rw [hfirst] at hvalue
    obtain ⟨property, u', hproperty, hvalue⟩ := returns_bind.mp hvalue
    obtain ⟨rfl, rfl⟩ := returns_pure.mp hvalue
    obtain rfl := hproperty.quiet (hplain hfirst).quiet
    refine returns_bind.mpr ⟨none, _, rfl, returns_bind.mpr ⟨property, _, hproperty, ?_⟩⟩
    by_cases hundefined : property = E.undefined
    · have hnull : E.isNull property = true := decide_eq_true (.inl hundefined)
      rw [if_pos hnull, if_pos hundefined]
      rfl
    · have hnull : ¬ E.isNull property = true := by
        intro hnull
        rcases of_decide_eq_true hnull with hundefined' | rfl
        · exact hundefined hundefined'
        · exact (hplain hfirst).notNull hproperty
      rw [if_neg hnull, if_neg hundefined]
      exact hproperty

/-- The object and the key are evaluated, and then the member is read. -/
lemma returns_memberFilter {fo fp : Compiled σ V} {pkt this value : V} {s t u w : σ}
    (ho : Returns (fo E.undefined pkt) s obj t) (hp : Returns (fp E.undefined pkt) t key u)
    (hplain : PlainMember E obj key u) (hvalue : Returns (lookup E obj key) u value w) :
    Returns (memberFilter E fo fp this pkt) s value w := by
  refine Eq.trans ?_ hvalue
  apply outcome_tryCatch_congr
  rw [ho.outcome_bind, hp.outcome_bind]
  exact outcome_readMember hplain

lemma sound_member_name {object : Node} {fo : Compiled σ V} (hfo : Sound E object fo) (name : String)
    (computed : Bool) :
    Sound E (.member object (.identifier name) computed)
      (memberFilter E fo (nameFilter E name)) := by
  intro pkt this s res w hregular hres
  obtain ⟨obj, t, hobj, hres⟩ := returns_bind.mp hres
  obtain ⟨key, u, hkey, hres⟩ := returns_bind.mp hres
  obtain ⟨value, w', hvalue, hres⟩ := returns_bind.mp hres
  obtain ⟨rfl, rfl⟩ := returns_pure.mp hres
  have ho := hfo _ _ _ _ _ hregular.1 hobj
  have hname : Returns (nameFilter E name E.undefined pkt) t (E.string name) t := rfl
  cases computed with
  | false =>
    obtain ⟨rfl, rfl⟩ := returns_pure.mp hkey
    exact returns_memberFilter ho hname (hregular.2 obj t hobj) hvalue
  | true =>
    obtain ⟨hvalue', rfl, hplain⟩ := hregular.2 obj t hobj key u hkey
    rw [hvalue'] at hplain hvalue
    exact returns_memberFilter ho hname hplain hvalue

lemma sound_member {object property : Node} {fo fp : Compiled σ V} (hfo : Sound E object fo)
    (hfp : Sound E property fp) (hproperty : ∀ name, property ≠ .identifier name) (computed : Bool) :
    Sound E (.member object property computed) (memberFilter E fo fp) := by
  intro pkt this s res w hregular hres
  have hevaluate : evaluate E pkt (.member object property computed) = (do
      let obj ← evaluate E pkt object
      let key ← evaluate E pkt property
      let value ← lookup E obj.value key.value
      pure ⟨value, obj.value⟩) := by
    cases property with
    | identifier name => exact absurd rfl (hproperty name)
    | _ => rfl
  have hplain : ∀ obj t, Returns (evaluate E pkt object) s obj t →
      Regular E pkt E.undefined property t ∧ ∀ key u, Returns (evaluate E pkt property) t key u →
        PlainMember E obj.value key.value u := by
    cases property with
    | identifier name => exact absurd rfl (hproperty name)
    | _ => exact hregular.2
  rw [hevaluate] at hres
  obtain ⟨obj, t, hobj, hres⟩ := returns_bind.mp hres
  obtain ⟨key, u, hkey, hres⟩ := returns_bind.mp hres
  obtain ⟨value, w', hvalue, hres⟩ := returns_bind.mp hres
  obtain ⟨rfl, rfl⟩ := returns_pure.mp hres
  obtain ⟨hregular', hplain⟩ := hplain obj t hobj
  exact returns_memberFilter (hfo _ _ _ _ _ hregular.1 hobj) (hfp _ _ _ _ _ hregular' hkey)
    (hplain key u hkey) hvalue

lemma sound_unary {operator : UnaryOperator} {argument : Node} {f g : Compiled σ V}
    (hf : Sound E argument f) (hg : unaryFilter E f operator = some g) :
    Sound E (.unary operator argument) g := by
  intro pkt this s res t hregular hres
  rw [evaluate] at hres
  obtain ⟨arg, u, harg, hres⟩ := returns_bind.mp hres
  obtain ⟨value, u', hvalue, hres⟩ := returns_bind.mp hres
  obtain ⟨rfl, rfl⟩ := returns_pure.mp hres
  have hreturns : Returns (f E.undefined pkt >>= E.unary operator) s value u' :=
    returns_bind.mpr ⟨arg.value, u, hf _ _ _ _ _ hregular harg, hvalue⟩
  cases operator with
  | other => cases hg
  | _ =>
    obtain rfl := Option.some.inj hg
    exact hreturns

/-- The arguments are evaluated before the callee, and the receiver is the one of the filter. -/
lemma returns_callFilter {cf : Compiled σ V} {af : List (Compiled σ V)} {pkt this f value : V}
    {args : List V} {s t u w : σ} (hargs : Returns (af.mapM fun f => f E.undefined pkt) s args t)
    (hf : Returns (cf E.undefined pkt) t f u) (hnull : E.isNull f = false) :
    Returns (callFilter E cf af this pkt) s value w ↔ Returns (E.apply f this args) u value w := by
  have houtcome : outcome (callFilter E cf af this pkt) s = outcome (E.apply f this args) u := by
    rw [callFilter, hargs.outcome_bind, hf.outcome_bind, if_neg (by simp [hnull])]
  unfold Returns
  rw [houtcome]

lemma sound_call {callee : Node} {arguments : List Node} {cf : Compiled σ V}
    {af : List (Compiled σ V)} (hcf : Sound E callee cf) (haf : SoundList E arguments af) :
    Sound E (.call callee arguments) (callFilter E cf af) := by
  intro pkt this s res w hregular hres
  rw [evaluate] at hres
  obtain ⟨f, t, hf, hres⟩ := returns_bind.mp hres
  obtain ⟨args, u, hargs, hres⟩ := returns_bind.mp hres
  obtain ⟨value, w', hvalue, hres⟩ := returns_bind.mp hres
  obtain ⟨rfl, rfl⟩ := returns_pure.mp hres
  obtain ⟨hregulars, f', t', hargs', hregular', hf', heq, hnull, happly⟩ :=
    hregular f t args u value w' hf hargs hvalue
  rw [← heq] at hnull happly
  apply (returns_callFilter (haf _ _ _ _ hregulars hargs') (hcf _ _ _ _ _ hregular' hf') hnull).mpr
  exact happly

lemma sound_sequence {expressions : List Node} {ef : List (Compiled σ V)}
    (hlength : ef.length = expressions.length) :
    Sound E (.sequence expressions) (sequenceFilter E ef) := by
  intro pkt this s res t hregular hres
  cases expressions with
  | nil =>
    obtain rfl := List.length_eq_zero_iff.mp hlength
    obtain ⟨rfl, rfl⟩ := returns_pure.mp hres
    rfl
  | cons node nodes => exact absurd ⟨res, t, hres⟩ (hregular (List.cons_ne_nil node nodes))

lemma sound_binary {operator : BinaryOperator} {left right : Node} {lf rf g : Compiled σ V}
    (hsupported : operator ≠ .other ∧ operator ≠ .eq ∧ operator ≠ .ne) (hlf : Sound E left lf)
    (hrf : Sound E right rf) (hg : binaryFilter E lf rf operator = some g) :
    Sound E (.binary operator left right) g := by
  intro pkt this s res w hregular hres
  rw [evaluate] at hres
  obtain ⟨lhs, t, hlhs, hres⟩ := returns_bind.mp hres
  obtain ⟨rhs, u, hrhs, hres⟩ := returns_bind.mp hres
  obtain ⟨value, w', hvalue, hres⟩ := returns_bind.mp hres
  obtain ⟨rfl, rfl⟩ := returns_pure.mp hres
  have hreturns : Returns (lf E.undefined pkt >>= fun lhs =>
      rf E.undefined pkt >>= fun rhs => E.binary operator lhs rhs) s value w' := by
    refine returns_bind.mpr ⟨lhs.value, t, hlf _ _ _ _ _ hregular.1 hlhs, ?_⟩
    exact returns_bind.mpr
      ⟨rhs.value, u, hrf _ _ _ _ _ (hregular.2 lhs t hlhs) hrhs, hvalue⟩
  cases operator with
  | other => exact absurd rfl hsupported.1
  | eq => exact absurd rfl hsupported.2.1
  | ne => exact absurd rfl hsupported.2.2
  | _ =>
    obtain rfl := Option.some.inj hg
    exact hreturns

lemma sound_conditional {test consequent alternate : Node} {tf cf af : Compiled σ V}
    (htf : Sound E test tf) (hcf : Sound E consequent cf) (haf : Sound E alternate af) :
    Sound E (.conditional test consequent alternate) (conditionalFilter E tf cf af) := by
  intro pkt this s res w hregular hres
  rw [evaluate] at hres
  obtain ⟨value, t, hvalue, hres⟩ := returns_bind.mp hres
  obtain ⟨hconsequent, halternate⟩ := hregular.2 value t hvalue
  refine returns_bind.mpr ⟨value.value, t, htf _ _ _ _ _ hregular.1 hvalue, ?_⟩
  cases hb : E.toBoolean value.value with
  | true =>
    rw [hb, if_pos rfl] at hres
    obtain ⟨branch, u, hbranch, hres⟩ := returns_bind.mp hres
    obtain ⟨rfl, rfl⟩ := returns_pure.mp hres
    exact hcf pkt _ t branch u (hconsequent hb) hbranch
  | false =>
    rw [hb, if_neg Bool.false_ne_true] at hres
    obtain ⟨branch, u, hbranch, hres⟩ := returns_bind.mp hres
    obtain ⟨rfl, rfl⟩ := returns_pure.mp hres
    exact haf pkt _ t branch u (halternate hb) hbranch

lemma sound_logical {operator : LogicalOperator} {left right : Node} {lf rf g : Compiled σ V}
    (hlf : Sound E left lf) (hrf : Sound E right rf)
    (hg : logicalFilter E lf rf operator = some g) : Sound E (.logical operator left right) g := by
  intro pkt this s res w hregular hres
  rw [evaluate] at hres
  obtain ⟨lhs, t, hlhs, hres⟩ := returns_bind.mp hres
  have hreturns : Returns (lf E.undefined pkt >>= fun value =>
      if operator.leftDecides (E.toBoolean value) then pure value else rf E.undefined pkt)
      s res.value w := by
    refine returns_bind.mpr ⟨lhs.value, t, hlf _ _ _ _ _ hregular.1 hlhs, ?_⟩
    cases hb : operator.leftDecides (E.toBoolean lhs.value) with
    | true =>
      rw [hb, if_pos rfl] at hres
      obtain ⟨rfl, rfl⟩ := returns_pure.mp hres
      rfl
    | false =>
      rw [hb, if_neg Bool.false_ne_true] at hres
      obtain ⟨rhs, u, hrhs, hres⟩ := returns_bind.mp hres
      obtain ⟨rfl, rfl⟩ := returns_pure.mp hres
      exact hrf pkt _ t rhs u (hregular.2 lhs t hlhs hb) hrhs
  cases operator with
  | other => cases hg
  | or =>
    obtain rfl := Option.some.inj hg
    exact hreturns
  | and =>
    obtain rfl := Option.some.inj hg
    have hbranches : (fun value : V => if LogicalOperator.and.leftDecides (E.toBoolean value)
        then pure value else rf E.undefined pkt) =
        fun value => if E.toBoolean value then rf E.undefined pkt else pure value := by
      funext value
      show (if (!E.toBoolean value) = true then _ else _) = _
      cases E.toBoolean value <;> rfl
    rw [hbranches] at hreturns
    exact hreturns

lemma exists_soundList {nodes : List Node}
    (h : ∀ node ∈ nodes, ∃ f, makeFilter E node = some f ∧ Sound E node f) :
    ∃ fs, makeFilters E nodes = some fs ∧ fs.length = nodes.length ∧ SoundList E nodes fs := by
  induction nodes with
  | nil =>
    refine ⟨[], rfl, rfl, ?_⟩
    intro pkt s values t _ hvalues
    exact hvalues
  | cons node nodes ih =>
    obtain ⟨f, hf, hsound⟩ := h node List.mem_cons_self
    obtain ⟨fs, hfs, hlength, hsounds⟩ := ih fun node' hmem => h node' (List.mem_cons_of_mem _ hmem)
    refine ⟨f :: fs, ?_, congrArg Nat.succ hlength, ?_⟩
    · rw [makeFilters, hf, hfs]
      rfl
    · intro pkt s values u hregular hvalues
      rw [evaluateList] at hvalues
      obtain ⟨res, t, hres, hvalues⟩ := returns_bind.mp hvalues
      obtain ⟨values', u', hvalues', hvalues⟩ := returns_bind.mp hvalues
      obtain ⟨rfl, rfl⟩ := returns_pure.mp hvalues
      rw [List.mapM_cons]
      refine returns_bind.mpr ⟨res.value, t, hsound _ _ _ _ _ hregular.1 hres, ?_⟩
      exact returns_bind.mpr ⟨values', u', hsounds _ _ _ _ (hregular.2 res t hres) hvalues', rfl⟩

lemma exists_sound {node : Node} (h : Covered node) :
    ∃ f, makeFilter E node = some f ∧ Sound E node f := by
  induction h with
  | identifier name => exact ⟨_, rfl, sound_identifier name⟩
  | @member object property computed _ _ iho ihp =>
    obtain ⟨fo, hfo, hobject⟩ := iho
    obtain ⟨fp, hfp, hproperty⟩ := ihp
    by_cases hname : ∃ name, property = .identifier name
    · obtain ⟨name, rfl⟩ := hname
      refine ⟨_, ?_, sound_member_name hobject name computed⟩
      rw [makeFilter, hfo]
      rfl
    · have hnot : ∀ name, property ≠ .identifier name := fun name heq => hname ⟨name, heq⟩
      refine ⟨_, ?_, sound_member hobject hproperty hnot computed⟩
      cases property with
      | identifier name => exact absurd rfl (hnot name)
      | _ =>
        rw [makeFilter, hfo, Option.bind_eq_bind, Option.bind_some, hfp]
        rfl
  | literal value =>
    refine ⟨_, rfl, ?_⟩
    intro pkt this s res t _ hres
    obtain ⟨rfl, rfl⟩ := returns_pure.mp hres
    rfl
  | @unary operator argument supported _ ih =>
    obtain ⟨f, hf, hsound⟩ := ih
    obtain ⟨g, hg⟩ : ∃ g, unaryFilter E f operator = some g := by
      cases operator with
      | other => exact absurd rfl supported
      | _ => exact ⟨_, rfl⟩
    refine ⟨g, ?_, sound_unary hsound hg⟩
    rw [makeFilter, hf]
    exact hg
  | call _ _ ihf ihargs =>
    obtain ⟨cf, hcf, hcallee⟩ := ihf
    obtain ⟨af, haf, -, harguments⟩ := exists_soundList ihargs
    refine ⟨_, ?_, sound_call hcallee harguments⟩
    rw [makeFilter, hcf, haf]
    rfl
  | sequence _ ih =>
    obtain ⟨ef, hef, hlength, -⟩ := exists_soundList ih
    refine ⟨_, ?_, sound_sequence hlength⟩
    rw [makeFilter, hef]
    rfl
  | @binary operator left right supported _ _ ihl ihr =>
    obtain ⟨lf, hlf, hleft⟩ := ihl
    obtain ⟨rf, hrf, hright⟩ := ihr
    obtain ⟨g, hg⟩ : ∃ g, binaryFilter E lf rf operator = some g := by
      cases operator with
      | other => exact absurd rfl supported.1
      | _ => exact ⟨_, rfl⟩
    refine ⟨g, ?_, sound_binary supported hleft hright hg⟩
    rw [makeFilter, hlf, hrf]
    exact hg
  | conditional _ _ _ iht ihc iha =>
    obtain ⟨tf, htf, htest⟩ := iht
    obtain ⟨cf, hcf, hconsequent⟩ := ihc
    obtain ⟨af, haf, halternate⟩ := iha
    refine ⟨_, ?_, sound_conditional htest hconsequent halternate⟩
    rw [makeFilter, htf, hcf, haf]
    rfl
  | @logical operator left right supported _ _ ihl ihr =>
    obtain ⟨lf, hlf, hleft⟩ := ihl
    obtain ⟨rf, hrf, hright⟩ := ihr
    obtain ⟨g, hg⟩ : ∃ g, logicalFilter E lf rf operator = some g := by
      cases operator with
      | other => exact absurd rfl supported
      | _ => exact ⟨_, rfl⟩
    refine ⟨g, ?_, sound_logical hleft hright hg⟩
    rw [makeFilter, hlf, hrf]
    exact hg

/-- A filter returns the value of the evaluation wherever that is regular. -/
theorem makeFilter_returns {node : Node} (hcovered : Covered node) :
    ∃ f, makeFilter E node = some f ∧ ∀ pkt this s, Regular E pkt this node s →
      ∀ res t, Returns (evaluate E pkt node) s res t → Returns (f this pkt) s res.value t := by
  obtain ⟨f, hf, hsound⟩ := exists_sound (E := E) hcovered
  refine ⟨f, hf, ?_⟩
  intro pkt this s hregular res t hres
  exact hsound pkt this s res t hregular hres

/-- A packet passes a filter if the value of the evaluation is true. -/
theorem accepts_eq {node : Node} (hcovered : Covered node) :
    ∃ f, makeFilter E node = some f ∧ ∀ pkt this s, Regular E pkt this node s →
      ∀ res t, Returns (evaluate E pkt node) s res t →
        accepts E f this pkt s = E.toBoolean res.value := by
  obtain ⟨f, hf, hsound⟩ := exists_sound (E := E) hcovered
  refine ⟨f, hf, ?_⟩
  intro pkt this s hregular res t hres
  unfold accepts
  rw [hsound pkt this s res t hregular hres]

/-- A sequence never returns. -/
theorem sequence_throws {node : Node} {nodes : List Node} {f : Compiled σ V}
    (hf : makeFilter E (.sequence (node :: nodes)) = some f) (this pkt : V) (s : σ) :
    outcome (f this pkt) s = (.error E.referenceError, s) := by
  obtain ⟨ef, hef, hf⟩ := Option.bind_eq_some_iff.mp hf
  obtain ⟨g, -, hef⟩ := Option.bind_eq_some_iff.mp hef
  obtain ⟨gs, -, hef⟩ := Option.bind_eq_some_iff.mp hef
  obtain rfl := Option.some.inj hef
  obtain rfl := Option.some.inj hf
  rfl

/-- A call returns what the function returns for the receiver of the filter. -/
theorem call_returns_iff {callee : Node} {arguments : List Node} {g : Compiled σ V}
    (hcovered : Covered (.call callee arguments))
    (hg : makeFilter E (.call callee arguments) = some g) {pkt this value : V} {f : Reference V}
    {args : List V} {s t u w : σ} (hregulars : RegularList E pkt arguments s)
    (hargs : Returns (evaluateList E pkt arguments) s args t)
    (hregular : Regular E pkt E.undefined callee t) (hf : Returns (evaluate E pkt callee) t f u)
    (hnull : E.isNull f.value = false) :
    Returns (g this pkt) s value w ↔ Returns (E.apply f.value this args) u value w := by
  obtain ⟨hcallee, harguments⟩ : Covered callee ∧ ∀ node ∈ arguments, Covered node := by
    cases hcovered with
    | call f args => exact ⟨f, args⟩
  obtain ⟨cf, hcf, hsound⟩ := exists_sound (E := E) hcallee
  obtain ⟨af, haf, -, hsounds⟩ := exists_soundList (E := E) fun node hmem =>
    exists_sound (harguments node hmem)
  have hcompiled : makeFilter E (.call callee arguments) = some (callFilter E cf af) := by
    rw [makeFilter, hcf, haf]
    rfl
  obtain rfl := Option.some.inj (hg.symm.trans hcompiled)
  exact returns_callFilter (hsounds _ _ _ _ hregulars hargs) (hsound _ _ _ _ _ hregular hf) hnull

/-- The identifier of a computed key is never evaluated. -/
theorem makeFilter_computed (object : Node) (name : String) :
    makeFilter E (.member object (.identifier name) true) =
      makeFilter E (.member object (.identifier name) false) := rfl

/-! ### Three filters -/

/-- The values of a small engine. -/
inductive Sample where
  | undefined
  | null
  | literal (value : Literal)
  /-- `Number` -/
  | number
  | packet
  | payload
  /-- a method of the payload, which fails for any other receiver -/
  | toString
  deriving DecidableEq

def Sample.len : Sample := .literal (.number (.finite 60))

def Sample.get (obj prop : Sample) : Option Sample :=
  match obj with
  | .undefined | .null => none
  | .packet =>
    if prop = .literal (.string "len") then some .len
    else if prop = .literal (.string "payload") then some .payload
    else some .undefined
  | .payload => if prop = .literal (.string "toString") then some .toString else some .undefined
  | _ => some .undefined

def Sample.call (f receiver : Sample) (args : List Sample) : Option Sample :=
  match f with
  | .number => args.head?
  | .toString => if receiver = .payload then some (.literal (.string "00")) else none
  | _ => none

def orThrow : Option Sample → Eval Unit Sample Sample
  | some value => pure value
  | none => throw .undefined

/-- There is one packet, without layers. -/
def sample : Engine Unit Sample where
  undefined := .undefined
  null := .null
  literal := fun value => if value = .null then .null else .literal value
  number := .number
  date := .undefined
  math := .undefined
  typeError := .undefined
  referenceError := .undefined
  toBoolean := fun value => value ≠ .undefined ∧ value ≠ .null
  toLowerCase := String.toLower
  strictEquals := fun value other => value = other
  get := fun obj prop => orThrow (Sample.get obj prop)
  hasOwn := fun _ _ => pure false
  call := fun f receiver args => orThrow (Sample.call f receiver args)
  apply := fun f receiver args => orThrow (Sample.call f receiver args)
  unary := fun _ value => pure value
  binary := fun _ _ _ => throw .undefined
  layers := fun _ => pure []

/-- `Number($.len)` -/
def numberOfLen : Node :=
  .call (.identifier "Number") [.member (.identifier "$") (.identifier "len") false]

/-- `1, 2` -/
def oneTwo : Node :=
  .sequence [.literal (.number (.finite 1)), .literal (.number (.finite 2))]

/-- `$.payload.toString()` -/
def payloadToString : Node :=
  .call (.member (.member (.identifier "$") (.identifier "payload") false)
    (.identifier "toString") false) []

/-- `$[len]` -/
def lenOfLen : Node := .member (.identifier "$") (.identifier "len") true

/-- The outcome of a filter for the packet. -/
def filtered (node : Node) : Option (Except Sample Sample × Unit) :=
  (makeFilter sample node).map fun f => outcome (f .undefined .packet) ()

lemma plainProperty_sample {obj key : Sample} (h : Sample.get obj key ≠ some .null) :
    PlainProperty sample obj key () := by
  refine ⟨rfl, ?_⟩
  intro hnull
  cases hget : Sample.get obj key with
  | none =>
    have hthrow : outcome (sample.get obj key) () = (.error .undefined, ()) := by
      show outcome (orThrow (Sample.get obj key)) () = _
      rw [hget]
      rfl
    exact absurd (hthrow.symm.trans hnull) (by simp)
  | some value =>
    have hvalue : Returns (sample.get obj key) () value () := by
      show Returns (orThrow (Sample.get obj key)) () value ()
      rw [hget]
      rfl
    obtain ⟨rfl, -⟩ := hvalue.unique hnull
    exact h hget

lemma regular_sample_identifier {name : String} (this : Sample)
    (h : Sample.get .packet (.literal (.string name)) ≠ some .null) :
    Regular sample .packet this (.identifier name) () := by
  intro layers t hlayers
  obtain ⟨rfl, -⟩ := returns_pure.mp hlayers
  exact ⟨List.not_mem_nil, fun _ => plainProperty_sample h⟩

/-- The length of the packet is a number already. -/
theorem makeFilter_returns_numberOfLen :
    ∃ f, makeFilter sample numberOfLen = some f ∧
      Returns (f .undefined .packet) () Sample.len () := by
  have hcovered : Covered numberOfLen := by
    refine .call (.identifier _) ?_
    intro node hnode
    obtain rfl := List.mem_singleton.mp hnode
    exact .member _ (.identifier _) (.identifier _)
  have hnumber : Returns (evaluate sample .packet (.identifier "Number")) ()
      ⟨.number, .undefined⟩ () := rfl
  have hargs : Returns (evaluateList sample .packet
      [.member (.identifier "$") (.identifier "len") false]) () [.len] () := rfl
  have hregular : Regular sample .packet .undefined numberOfLen () := by
    intro f t args u value s' hf hargs' hvalue
    obtain ⟨rfl, -⟩ := hnumber.unique hf
    obtain ⟨rfl, -⟩ := hargs.unique hargs'
    refine ⟨⟨⟨regular_sample_identifier _ (by decide), ?_⟩, fun _ _ _ => trivial⟩, _, (), hargs,
      regular_sample_identifier _ (by decide), hnumber, rfl, rfl, hvalue⟩
    intro obj t' hobj
    obtain ⟨rfl, -⟩ := Returns.unique (show Returns (evaluate sample .packet (.identifier "$")) ()
      ⟨.packet, .undefined⟩ () from rfl) hobj
    refine ⟨rfl, ?_, fun _ _ _ => plainProperty_sample (by decide)⟩
    -- the packet has no attributes
    intro attrs hattrs hnull
    obtain ⟨rfl, -⟩ := Returns.unique (show Returns (sample.get .packet (sample.string "attrs")) ()
      .undefined () from rfl) hattrs
    cases hnull
  obtain ⟨f, hf, hreturns⟩ := makeFilter_returns (E := sample) hcovered
  exact ⟨f, hf, hreturns .packet .undefined () hregular ⟨.len, .undefined⟩ () rfl⟩

/-- A sequence, a method of a value and a computed key that is an identifier. -/
theorem makeFilter_differs :
    (Covered oneTwo ∧
      outcome (evaluate sample .packet oneTwo) () =
        (.ok ⟨.literal (.number (.finite 2)), .undefined⟩, ()) ∧
      filtered oneTwo = some (.error .undefined, ())) ∧
    (Covered payloadToString ∧
      outcome (evaluate sample .packet payloadToString) () =
        (.ok ⟨.literal (.string "00"), .undefined⟩, ()) ∧
      filtered payloadToString = some (.error .undefined, ())) ∧
    (Covered lenOfLen ∧
      outcome (evaluate sample .packet lenOfLen) () = (.ok ⟨.undefined, .packet⟩, ()) ∧
      filtered lenOfLen = some (.ok .len, ())) := by
  refine ⟨⟨.sequence ?_, rfl, rfl⟩, ⟨.call ?_ ?_, rfl, rfl⟩, ⟨?_, rfl, rfl⟩⟩
  · intro node hnode
    rcases List.mem_cons.mp hnode with rfl | hnode
    · exact .literal _
    · obtain rfl := List.mem_singleton.mp hnode
      exact .literal _
  · exact .member _ (.member _ (.identifier _) (.identifier _)) (.identifier _)
  · intro node hnode
    cases hnode
  · exact .member _ (.identifier _) (.identifier _)

end MakeFilter

end Dripcap
