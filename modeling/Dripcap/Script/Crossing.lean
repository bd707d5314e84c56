import Dripcap.Library.Keyed
import Dripcap.Script.Value

/-!
# Values that cross the script boundary and come back

Which msgpack values are the same after `MsgpackToV8` and `v8ToMsgpack`, for all the values that the
two functions are meant for.
-/

namespace Dripcap

/-- The values that the two functions are meant for: any keys in maps, any numbers of extensions
but `0x1b`. A class instance rebuilds itself from the list of its `toMsgpack`, or its class is not
loaded; ranges of a payload need a packet. -/
inductive Transferable (cx : Context) (pkt : Bool) : Object → Prop
  | nil : Transferable cx pkt .nil
  | boolean (b : Bool) : Transferable cx pkt (.boolean b)
  | integer {n : ℤ} (small : n.natAbs ≤ 2 ^ 53) : Transferable cx pkt (.integer n)
  | float (x : Double) : Transferable cx pkt (.float x)
  | str (s : String) : Transferable cx pkt (.str s)
  | bin (data : List UInt8) : Transferable cx pkt (.bin data)
  | array {os : List Object} (elements : ∀ o ∈ os, Transferable cx pkt o) :
      Transferable cx pkt (.array os)
  | map {entries : List (String × Object)} (values : ∀ p ∈ entries, Transferable cx pkt p.2)
      (nodup : (entries.map Prod.fst).Nodup) :
      Transferable cx pkt (.map (entries.map fun p => (.str p.1, p.2)))
  | payload {start fin : ℕ} (packet : pkt = true) (hstart : start < 2 ^ 64) (hfin : fin < 2 ^ 64) :
      Transferable cx pkt (.extPacked .payload (.array [.integer start, .integer fin]))
  | stream (data : List UInt8) : Transferable cx pkt (.ext 0x1e data)
  | classInstance {cls : String} {args : List Object} (elements : ∀ o ∈ args, Transferable cx pkt o)
      (rebuilds : ∀ ctor vs, cx.modules cls = some ctor → MsgpackToV8List cx pkt args = some vs →
        ctor vs = some (.instance cls vs)) :
      Transferable cx pkt (.extPacked .classInstance (.array (.str cls :: args)))
  | other {type : ℤ} (data : List UInt8) (h : type ∉ ([0x1b, 0x1e, 0x1f, 0x20] : List ℤ)) :
      Transferable cx pkt (.ext type data)

/-- The object becomes `null`. -/
def Object.isNil : Object → Bool
  | .nil => true
  | _ => false

/-- `v8ToMsgpack(MsgpackToV8(o, pkt))` is defined and stands for the same value. -/
def Object.ComesBack (cx : Context) (pkt : Bool) (o : Object) : Prop :=
  ∃ v o', MsgpackToV8 cx pkt o = some v ∧ v8ToMsgpack v = some o' ∧ o'.norm = o.norm

/-- A script object can have this as an own property that does no harm. -/
def Object.HarmlessEntry : Object → Object → Prop
  | .str name, o =>
    "__proto__" ≠ name ∧ isIndex name = false ∧ ("constructor" = name → o.isNil = false)
  | _, _ => True

/-- The list of a class instance names a class that is not loaded. -/
def Object.notLoaded (cx : Context) : Object → Bool
  | .array (.str cls :: _) => (cx.modules cls).isNone
  | _ => true

mutual

/-- There is no extension with a number of its own and no stream without an id, no entry of a map
is `__proto__`, an array index or a `constructor` that is nil. An instance of a class that is not
loaded may be anything. -/
def Object.Survives (cx : Context) : Object → Prop
  | .array os => Object.SurvivesList cx os
  | .map kvs => Object.SurvivesMap cx kvs
  | .ext type data => type = 0x1e ∧ data ≠ []
  | .extPacked .classInstance o => o.notLoaded cx = true ∨ o.Survives cx
  | _ => True

def Object.SurvivesList (cx : Context) : List Object → Prop
  | [] => True
  | o :: os => o.Survives cx ∧ Object.SurvivesList cx os

def Object.SurvivesMap (cx : Context) : List (Object × Object) → Prop
  | [] => True
  | (k, o) :: kvs =>
    (Object.HarmlessEntry k o ∧ o.Survives cx) ∧ Object.SurvivesMap cx kvs

end

variable {cx : Context} {pkt : Bool}

lemma survivesMap_iff (entries : List (String × Object)) :
    Object.SurvivesMap cx (entries.map fun p => (.str p.1, p.2)) ↔
      "__proto__" ∉ entries.map Prod.fst ∧ (∀ p ∈ entries, isIndex p.1 = false) ∧
        (∀ o, ("constructor", o) ∈ entries → o.isNil = false) ∧
          ∀ p ∈ entries, p.2.Survives cx := by
  induction entries with
  | nil => simp [Object.SurvivesMap]
  | cons p entries ih =>
    obtain ⟨name, o⟩ := p
    simp only [List.map_cons, Object.SurvivesMap, Object.HarmlessEntry, ih, List.mem_cons, not_or,
      Prod.mk.injEq, forall_eq_or_imp]
    constructor
    · rintro ⟨⟨⟨hproto, hindex, hctor⟩, ho⟩, hproto', hindex', hctor', hvalues⟩
      refine ⟨⟨hproto, hproto'⟩, ⟨hindex, hindex'⟩, ?_, ho, hvalues⟩
      rintro o' (⟨hname, rfl⟩ | hmem)
      · exact hctor hname
      · exact hctor' o' hmem
    · rintro ⟨⟨hproto, hproto'⟩, ⟨hindex, hindex'⟩, hctor, ho, hvalues⟩
      exact ⟨⟨⟨hproto, hindex, fun hname => hctor o (.inl ⟨hname, rfl⟩)⟩, ho⟩, hproto', hindex',
        fun o' hmem => hctor o' (.inr hmem), hvalues⟩

/-- An object with its value in a script, which becomes the same object exactly if it survives. -/
structure Crosses (cx : Context) (pkt : Bool) (o : Object) (v : Value) : Prop where
  toV8 : MsgpackToV8 cx pkt o = some v
  isNull : v.isNull = o.isNil
  back : (∃ o', v8ToMsgpack v = some o' ∧ o'.norm = o.norm) ↔ o.Survives cx

/-! ### Lists -/

lemma crosses_list {os : List Object} (h : ∀ o ∈ os, ∃ v, Crosses cx pkt o v) :
    ∃ vs, MsgpackToV8List cx pkt os = some vs ∧
      ((∃ os', v8ToMsgpackList vs = some os' ∧ Object.normList os' = Object.normList os) ↔
        Object.SurvivesList cx os) := by
  induction os with
  | nil => exact ⟨[], rfl, fun _ => trivial, fun _ => ⟨[], rfl, rfl⟩⟩
  | cons o os ih =>
    obtain ⟨v, ho⟩ := h o List.mem_cons_self
    obtain ⟨vs, hvs, hback⟩ := ih fun o' ho' => h o' (List.mem_cons_of_mem o ho')
    refine ⟨v :: vs, ?_, ?_⟩
    · simp only [MsgpackToV8List, ho.toV8, hvs, Option.bind_eq_bind, Option.bind_some]
    · rw [Object.SurvivesList, ← ho.back, ← hback]
      constructor
      · rintro ⟨os'', heq, hnorm⟩
        obtain ⟨o', ho', heq⟩ := Option.bind_eq_some_iff.mp heq
        obtain ⟨os', hos', heq⟩ := Option.bind_eq_some_iff.mp heq
        obtain rfl := Option.some.inj heq
        obtain ⟨hnorm₁, hnorm₂⟩ := List.cons.inj hnorm
        exact ⟨⟨o', ho', hnorm₁⟩, os', hos', hnorm₂⟩
      · rintro ⟨⟨o', ho', hnorm⟩, os', hos', hnorms⟩
        refine ⟨o' :: os', ?_, ?_⟩
        · simp only [v8ToMsgpackList, ho', hos', Option.bind_eq_bind, Option.bind_some]
        · simp only [Object.normList, hnorm, hnorms]

/-! ### Maps -/

lemma proto_setProperty {obj : Option Value × List (String × Value)}
    (h : "__proto__" ∉ obj.2.map Prod.fst) (name : String) (v : Value) :
    "__proto__" ∉ (setProperty obj name v).2.map Prod.fst := by
  unfold setProperty
  split_ifs with hproto hv hmem
  · exact h
  · exact h
  · rw [keys_replace]
    exact h
  · rw [List.map_append, List.mem_append, not_or]
    refine ⟨h, ?_⟩
    intro hname
    exact hproto (List.mem_singleton.mp hname).symm

/-- A map always becomes an object, none of whose own properties is `__proto__`. -/
lemma exists_map {entries : List (String × Object)} (h : ∀ p ∈ entries, ∃ v, Crosses cx pkt p.2 v)
    (obj : Option Value × List (String × Value)) (hproto : "__proto__" ∉ obj.2.map Prod.fst) :
    ∃ obj', MsgpackToV8Map cx pkt obj (entries.map fun p => (.str p.1, p.2)) = some obj' ∧
      "__proto__" ∉ obj'.2.map Prod.fst := by
  induction entries generalizing obj with
  | nil => exact ⟨obj, rfl, hproto⟩
  | cons p entries ih =>
    obtain ⟨v, hv⟩ := h p List.mem_cons_self
    obtain ⟨obj', hobj', hproto'⟩ := ih (fun q hq => h q (List.mem_cons_of_mem p hq))
      (setProperty obj p.1 v) (proto_setProperty hproto p.1 v)
    refine ⟨obj', ?_, hproto'⟩
    simp only [List.map_cons, MsgpackToV8Map, Object.asKey, hv.toV8, hobj', Option.bind_eq_bind,
      Option.bind_some]

/-- The entries of a map become properties in the same order. -/
lemma crosses_map {entries : List (String × Object)}
    (h : ∀ p ∈ entries, ∃ v, Crosses cx pkt p.2 v) (hproto : "__proto__" ∉ entries.map Prod.fst)
    (props : List (String × Value)) (hnodup : (props.map Prod.fst ++ entries.map Prod.fst).Nodup) :
    ∃ vs, MsgpackToV8Map cx pkt (none, props) (entries.map fun p => (.str p.1, p.2)) =
        some (none, props ++ vs) ∧
      List.Forall₂ (fun p q => q.1 = p.1 ∧ q.2.isNull = p.2.isNil) entries vs ∧
      ((∃ os, v8ToMsgpackProps vs = some os ∧
          os.map (fun p => (p.1, p.2.norm)) = entries.map fun p => (p.1, p.2.norm)) ↔
        ∀ p ∈ entries, p.2.Survives cx) := by
  induction entries generalizing props with
  | nil => exact ⟨[], by simp [MsgpackToV8Map], .nil, by simp, fun _ => ⟨[], rfl, rfl⟩⟩
  | cons p entries ih =>
    obtain ⟨name, o⟩ := p
    obtain ⟨v, ho⟩ := h (name, o) List.mem_cons_self
    have hname : name ≠ "__proto__" := fun hn => hproto (by simp [hn])
    have hnew : name ∉ props.map Prod.fst := by
      intro hmem
      exact (List.nodup_append.mp hnodup).2.2 name hmem name (by simp) rfl
    obtain ⟨vs, hvs, hsame, hback⟩ := ih (fun q hq => h q (List.mem_cons_of_mem _ hq))
      (fun hmem => hproto (List.mem_cons_of_mem _ hmem)) (props ++ [(name, v)])
      (by simpa using hnodup)
    refine ⟨(name, v) :: vs, ?_, .cons ⟨rfl, ho.isNull⟩ hsame, ?_⟩
    · simp only [List.map_cons, MsgpackToV8Map, Object.asKey, ho.toV8, setProperty_new hname hnew, hvs,
        Option.bind_eq_bind, Option.bind_some, List.append_assoc, List.singleton_append]
    · rw [List.forall_mem_cons, ← ho.back, ← hback]
      constructor
      · rintro ⟨os', heq, hnorm⟩
        obtain ⟨o', ho', heq⟩ := Option.bind_eq_some_iff.mp heq
        obtain ⟨os, hos, heq⟩ := Option.bind_eq_some_iff.mp heq
        obtain rfl := Option.some.inj heq
        obtain ⟨hnorm₁, hnorm₂⟩ := List.cons.inj hnorm
        exact ⟨⟨o', ho', (Prod.mk.inj hnorm₁).2⟩, os, hos, hnorm₂⟩
      · rintro ⟨⟨o', ho', hnorm⟩, os, hos, hnorms⟩
        refine ⟨(name, o') :: os, ?_, ?_⟩
        · simp only [v8ToMsgpackProps, ho', hos, Option.bind_eq_bind, Option.bind_some]
        · rw [List.map_cons, List.map_cons, hnorms, hnorm]

lemma unwrap_not_map {v : Value} {o : Object} (h : v.unwrap = some o) :
    ∀ kvs, o.norm ≠ .map kvs := by
  induction v using Value.unwrap.induct with
  | case6 proto props ih => exact ih h
  | case7 v => simp [Value.unwrap] at h
  | _ =>
    obtain rfl := Option.some.inj h
    intro kvs hmap
    cases hmap

/-- What comes back for an object with such properties is the map of its own properties, or it is
no map. -/
lemma ofProperties_back {obj : Option Value × List (String × Value)} {o' : Object}
    (h : v8ToMsgpack (ofProperties obj) = some o') :
    (∃ os, o' = stringMap os ∧ v8ToMsgpackProps obj.2 = some os) ∨ ∀ kvs, o'.norm ≠ .map kvs := by
  obtain ⟨proto, props⟩ := obj
  have hmap : (v8ToMsgpackProps props).map stringMap = some o' →
      ∃ os, o' = stringMap os ∧ v8ToMsgpackProps props = some os := by
    intro heq
    obtain ⟨os, hos, rfl⟩ := Option.map_eq_some_iff.mp heq
    exact ⟨os, rfl, hos⟩
  cases proto with
  | none =>
    left
    simp only [ofProperties, v8ToMsgpack] at h
    split_ifs at h
    exact hmap h
  | some proto =>
    simp only [ofProperties, v8ToMsgpack] at h
    split at h
    · rename_i o hunwrap
      obtain rfl := Option.some.inj h
      right
      exact unwrap_not_map hunwrap
    · split_ifs at h
      exact .inl (hmap h)

lemma keys_of_same {entries : List (String × Object)} {vs : List (String × Value)}
    (h : List.Forall₂ (fun p q => q.1 = p.1 ∧ q.2.isNull = p.2.isNil) entries vs) :
    vs.map Prod.fst = entries.map Prod.fst := by
  induction h with
  | nil => rfl
  | cons hpq _ ih => rw [List.map_cons, List.map_cons, hpq.1, ih]

lemma hasConstructor_iff {entries : List (String × Object)} {vs : List (String × Value)}
    (h : List.Forall₂ (fun p q => q.1 = p.1 ∧ q.2.isNull = p.2.isNil) entries vs)
    (hnodup : (entries.map Prod.fst).Nodup) :
    (Value.object vs).hasConstructor = true ↔
      ∀ o, ("constructor", o) ∈ entries → o.isNil = false := by
  have hctor := Keyed.lookup_forall₂ (R := fun (o : Object) (v : Value) => v.isNull = o.isNil) h
    "constructor"
  simp only [Value.hasConstructor, ← Keyed.lookup_iff_mem hnodup]
  generalize vs.lookup "constructor" = found, entries.lookup "constructor" = entry at hctor
  cases hctor with
  | none => simp
  | some hnull => simp [hnull]

/-! ### All values -/

lemma crosses_classInstance {cls : String} {args : List Object}
    (h : ∀ o ∈ args, ∃ v, Crosses cx pkt o v)
    (rebuilds : ∀ ctor vs, cx.modules cls = some ctor → MsgpackToV8List cx pkt args = some vs →
      ctor vs = some (.instance cls vs)) :
    ∃ v, Crosses cx pkt (.extPacked .classInstance (.array (.str cls :: args))) v := by
  obtain ⟨vs, hvs, hback⟩ := crosses_list h
  have hv : MsgpackToV8 cx pkt (.extPacked .classInstance (.array (.str cls :: args))) =
      some (instantiate cx (.array (.str cls :: args)) (.array (.string cls :: vs))) := by
    simp only [MsgpackToV8, MsgpackToV8List, hvs, Option.bind_eq_bind, Option.bind_some, Option.map_some]
  refine ⟨_, hv, ?_, ?_⟩
  · cases hcls : cx.modules cls with
    | none => simp only [instantiate, hcls]; rfl
    | some ctor => simp only [instantiate, hcls, rebuilds ctor vs hcls hvs]; rfl
  · simp only [Object.Survives, Object.notLoaded, Object.SurvivesList, true_and, ← hback]
    cases hcls : cx.modules cls with
    | none =>
      simp only [instantiate, hcls, Option.isNone_none, true_or, iff_true]
      exact ⟨_, rfl, rfl⟩
    | some ctor =>
      simp only [instantiate, hcls, rebuilds ctor vs hcls hvs, Option.isNone_some,
        Bool.false_eq_true, false_or, Option.getD_some, v8ToMsgpack]
      constructor
      · rintro ⟨o', heq, hnorm⟩
        obtain ⟨os', hos', rfl⟩ := Option.map_eq_some_iff.mp heq
        simp only [Object.norm, Object.normList, Object.extPacked.injEq, Object.array.injEq,
          List.cons.injEq, true_and] at hnorm
        exact ⟨os', hos', hnorm⟩
      · rintro ⟨os', hos', hnorm⟩
        refine ⟨_, Option.map_eq_some_iff.mpr ⟨os', hos', rfl⟩, ?_⟩
        simp only [Object.norm, Object.normList, hnorm]

lemma crosses_object {entries : List (String × Object)}
    (h : ∀ p ∈ entries, ∃ v, Crosses cx pkt p.2 v) (hnodup : (entries.map Prod.fst).Nodup) :
    ∃ v, Crosses cx pkt (.map (entries.map fun p => (.str p.1, p.2))) v := by
  by_cases hproto : "__proto__" ∈ entries.map Prod.fst
  · obtain ⟨obj, hobj, hkeys⟩ := exists_map h (none, []) List.not_mem_nil
    refine ⟨ofProperties obj, ?_, ?_, ?_⟩
    · simp only [MsgpackToV8, hobj, Option.map_some]
    · obtain ⟨proto, props⟩ := obj
      cases proto <;> rfl
    · rw [Object.Survives, survivesMap_iff]
      simp only [hproto, not_true_eq_false, false_and, iff_false]
      rintro ⟨o', ho', hnorm⟩
      rcases ofProperties_back ho' with ⟨os, rfl, hos⟩ | hno
      · -- the key is not among those that come back
        rw [stringMap, Object.norm, Object.norm, normMap_str, normMap_str] at hnorm
        have heq := congrArg (List.map Prod.fst) (Object.map.inj hnorm)
        rw [List.map_map, List.map_map] at heq
        obtain ⟨p, hp, hname⟩ := List.mem_map.mp hproto
        have hmem : Object.str "__proto__" ∈ (byText os).map fun p => Object.str p.1 := by
          rw [← hname]
          exact heq ▸ List.mem_map_of_mem hp
        obtain ⟨q, hq, hstr⟩ := List.mem_map.mp hmem
        obtain ⟨q', hq', rfl⟩ := exists_of_mem_byText hq
        have hname' : q'.1 = "__proto__" := eq_of_keyText (Object.str.inj hstr) (by decide)
        rw [← keys_v8ToMsgpackProps hos] at hkeys
        exact hkeys (hname' ▸ List.mem_map_of_mem hq')
      · exact hno _ hnorm
  · obtain ⟨vs, hvs, hsame, hback⟩ := crosses_map h hproto [] (by simpa using hnodup)
    have hkeys := keys_of_same hsame
    have hctor := hasConstructor_iff hsame hnodup
    refine ⟨.object vs, ?_, rfl, ?_⟩
    · simp only [MsgpackToV8, hvs, List.nil_append, Option.map_some, ofProperties]
    · rw [Object.Survives, survivesMap_iff, ← hback]
      simp only [v8ToMsgpack, ← hctor, hproto, not_false_eq_true, true_and]
      constructor
      · rintro ⟨o', heq, hnorm⟩
        obtain ⟨hfound, hmap⟩ := Option.ite_none_right_eq_some.mp heq
        obtain ⟨os, hos, rfl⟩ := Option.map_eq_some_iff.mp hmap
        have hsame := (norm_stringMap_eq_iff ((keys_v8ToMsgpackProps hos).trans hkeys) hnodup).mp hnorm
        exact ⟨hsame.1, hfound, os, hos, hsame.2⟩
      · rintro ⟨hindex, hfound, os, hos, hnorm⟩
        refine ⟨stringMap os, ?_, ?_⟩
        · rw [if_pos hfound, hos, Option.map_some]
        · exact (norm_stringMap_eq_iff ((keys_v8ToMsgpackProps hos).trans hkeys) hnodup).mpr
            ⟨hindex, hnorm⟩

/-- Every one of the values becomes a value of the script engine. -/
lemma Transferable.crosses (hfresh : cx.freshID ≠ []) {o : Object} (h : Transferable cx pkt o) :
    ∃ v, Crosses cx pkt o v := by
  have hsame : ∀ {o : Object} {v : Value} {o' : Object}, MsgpackToV8 cx pkt o = some v →
      v.isNull = o.isNil → v8ToMsgpack v = some o' → o'.norm = o.norm → o.Survives cx →
      ∃ v, Crosses cx pkt o v := by
    intro o v o' htoV8 hobj hback hnorm hsurvives
    exact ⟨v, htoV8, hobj, fun _ => hsurvives, fun _ => ⟨o', hback, hnorm⟩⟩
  induction h with
  | nil => exact hsame rfl rfl rfl rfl trivial
  | boolean b => exact hsame rfl rfl rfl rfl trivial
  | integer small =>
    refine hsame rfl rfl rfl ?_ trivial
    simp only [Object.norm, Double.ofInt, if_pos small]
  | float x => exact hsame rfl rfl rfl rfl trivial
  | str s => exact hsame rfl rfl rfl rfl trivial
  | bin data => exact hsame rfl rfl rfl rfl trivial
  | array _ ih =>
    obtain ⟨vs, hvs, hback⟩ := crosses_list ih
    refine ⟨.array vs, ?_, rfl, ?_⟩
    · simp only [MsgpackToV8, hvs, Option.map_some]
    · rw [Object.Survives, ← hback]
      constructor
      · rintro ⟨o', heq, hnorm⟩
        obtain ⟨os', hos', rfl⟩ := Option.map_eq_some_iff.mp heq
        exact ⟨os', hos', Object.array.inj hnorm⟩
      · rintro ⟨os', hos', hnorm⟩
        refine ⟨.array os', ?_, ?_⟩
        · simp only [v8ToMsgpack, hos', Option.map_some]
        · simp only [Object.norm, hnorm]
  | map _ nodup ih => exact crosses_object ih nodup
  | @payload start fin packet hstart hfin =>
    refine hsame (v := .payload start fin) ?_ rfl rfl rfl trivial
    simp [MsgpackToV8, packet, Object.asRange_natCast hstart hfin]
  | stream data =>
    refine ⟨_, rfl, rfl, ?_⟩
    cases data with
    | nil =>
      constructor
      · rintro ⟨o', heq, hnorm⟩
        obtain rfl := Option.some.inj heq
        exact absurd (Object.ext.inj hnorm).2 hfresh
      · rintro ⟨-, hempty⟩
        exact absurd rfl hempty
    | cons x data => exact ⟨fun _ => ⟨rfl, List.cons_ne_nil _ _⟩, fun _ => ⟨_, rfl, rfl⟩⟩
  | classInstance _ rebuilds ih => exact crosses_classInstance ih rebuilds
  | @other type data h =>
    simp only [List.mem_cons, List.not_mem_nil, or_false, not_or] at h
    obtain ⟨hbuffer, hstream, hpayload, hclass⟩ := h
    refine ⟨.custom (.raw data), ?_, rfl, ?_⟩
    · simp only [MsgpackToV8, hbuffer, hstream, hpayload, hclass, if_false, false_and]
    · constructor
      · rintro ⟨o', heq, hnorm⟩
        obtain rfl := Option.some.inj heq
        simp only [Object.norm, if_neg hbuffer] at hnorm
        exact absurd (Object.ext.inj hnorm).1.symm hclass
      · rintro ⟨htype, -⟩
        exact absurd htype hstream

/-- No class is loaded. -/
def noModules : Context := ⟨fun _ => none, [0x30], fun _ => ""⟩

end Dripcap
