import Dripcap.Script.Crossing
import Dripcap.Script.Wrapper

/-!
# A dissector that changes nothing

What is left of the layer tree of a packet when it is copied to the script objects and back, with
nothing done in between.
-/

namespace Dripcap

/-! ### Trees that stand for the same -/

/-- The entries with their objects in normal form. -/
def ExtMap.norm (ext : ExtMap) : ExtMap where
  entries := ext.entries.map fun p => (p.1, p.2.norm)
  nodup := by simpa [Function.comp_def] using ext.nodup
  unreserved := by simpa [Function.comp_def] using ext.unreserved

def PacketStream.norm (st : PacketStream) : PacketStream := { st with data := st.data.norm }

mutual

/-- The tree with all its objects in normal form. -/
def Layer.norm : Layer → Layer
  | .mk ns name payload ext layers streams =>
    .mk ns name payload.norm ext.norm (Layer.normLayers layers) (streams.map PacketStream.norm)

def Layer.normLayers : LayerList → LayerList
  | [] => []
  | (key, layer) :: layers => (key, layer.norm) :: Layer.normLayers layers

end

/-- A value that `v8ToMsgpack` makes a value of again, the same or another one. -/
structure Encodable (cx : Context) (o : Object) : Prop where
  transferable : Transferable cx true o
  encodes : ((MsgpackToV8 cx true o).bind v8ToMsgpack).isSome = true

/-- A layer tree of such values. -/
inductive EncodableLayer (cx : Context) : Layer → Prop
  | mk {ns name : String} {payload : Object} {ext : ExtMap} {layers : LayerList}
      {streams : List PacketStream} (hpayload : Encodable cx payload)
      (hext : ∀ p ∈ ext.entries, Encodable cx p.2) (hstreams : ∀ st ∈ streams, Encodable cx st.data)
      (hnodup : (layers.map Prod.fst).Nodup) (hlayers : ∀ p ∈ layers, EncodableLayer cx p.2) :
      EncodableLayer cx (.mk ns name payload ext layers streams)

/-- The entries of `ext` are written back as they are. No property is made of `__proto__`, and array
indices are written under the empty key, before the property of this name. -/
def ExtMap.Kept (cx : Context) (ext : ExtMap) : Prop :=
  ∀ p ∈ ext.entries, p.1 ≠ "__proto__" →
    if isIndex p.1 then "" ∈ ext.entries.map Prod.fst else p.2.Survives cx

/-- The keys of a list of layers are written back as they are. -/
def KeptKeys (layers : LayerList) : Prop :=
  ∀ key ∈ layers.map Prod.fst, key ≠ "__proto__" ∧ isIndex key = false

/-- No layer of the tree has a stream, and its values and keys are written back as they are. -/
inductive Kept (cx : Context) : Layer → Prop
  | mk {ns name : String} {payload : Object} {ext : ExtMap} {layers : LayerList}
      (hpayload : payload.Survives cx) (hext : ext.Kept cx) (hkeys : KeptKeys layers)
      (hlayers : ∀ p ∈ layers, Kept cx p.2) : Kept cx (.mk ns name payload ext layers [])

variable {cx : Context}

lemma Encodable.echo (hfresh : cx.freshID ≠ []) {o : Object} (h : Encodable cx o) :
    ∃ v o', MsgpackToV8 cx true o = some v ∧ v8ToMsgpack v = some o' ∧
      (o'.norm = o.norm ↔ o.Survives cx) := by
  obtain ⟨v, hv⟩ := h.transferable.crosses hfresh
  have hencodes := h.encodes
  rw [hv.toV8, Option.bind_some] at hencodes
  obtain ⟨o', ho'⟩ := Option.isSome_iff_exists.mp hencodes
  refine ⟨v, o', hv.toV8, ho', ?_⟩
  rw [← hv.back]
  constructor
  · intro hnorm
    exact ⟨o', ho', hnorm⟩
  · rintro ⟨o'', ho'', hnorm⟩
    rw [ho'] at ho''
    rwa [Option.some.inj ho'']

lemma normLayers_eq_map (layers : LayerList) :
    Layer.normLayers layers = layers.map fun p => (p.1, p.2.norm) := by
  induction layers with
  | nil => rfl
  | cons p layers ih => rw [Layer.normLayers, ih, List.map_cons]

lemma norm_eq_empty {o : Object} (h : o.norm = .array []) : o = .array [] := by
  cases o with
  | array os =>
    cases os with
    | nil => rfl
    | cons o os => simp [Object.norm, Object.normList] at h
  | ext type data =>
    simp only [Object.norm] at h
    split_ifs at h
  | _ => simp [Object.norm] at h

/-! ### The `ext` of a layer -/

namespace ExtMap

variable {ext ext' : ExtMap} {name : String} {o : Object}

lemma entries_inj (h : ext.entries = ext'.entries) : ext = ext' := by
  cases ext
  cases ext'
  simpa using h

@[simp] lemma norm_entries : ext.norm.entries = ext.entries.map fun p => (p.1, p.2.norm) := rfl

lemma find_iff_mem : ext.find name = some o ↔ (name, o) ∈ ext.entries :=
  Keyed.lookup_iff_mem ext.nodup

lemma find_norm : ext.norm.find name = (ext.find name).map Object.norm :=
  Keyed.lookup_map (fun _ (o : Object) => o.norm) ext.entries name

end ExtMap

/-! ### Properties -/

namespace LayerWrapper

variable {props props' : List (String × Property)} {ext ext' : ExtMap}

lemma lookup_setOwn (props : List (String × Property)) (name : String) (v : Value) (k : String) :
    (setOwn props name v).lookup k =
      if k = name ∧ name ≠ "__proto__" ∧ ∀ p ∈ props.lookup name, p.readOnly = false then
        some ⟨v, false⟩
      else props.lookup k := by
  unfold setOwn
  by_cases hproto : name = "__proto__"
  · simp [hproto]
  rw [if_neg hproto]
  by_cases hmem : name ∈ props.map Prod.fst
  · have hmap : (props.map fun p => if p.1 = name ∧ p.2.readOnly = false then (name, ⟨v, false⟩) else p) =
        props.map fun p => (p.1, if p.1 = name ∧ p.2.readOnly = false then ⟨v, false⟩ else p.2) := by
      apply List.map_congr_left
      intro p _
      split_ifs with hp
      · rw [hp.1]
      · rfl
    rw [if_pos hmem, hmap,
      Keyed.lookup_map fun a (p : Property) => if a = name ∧ p.readOnly = false then ⟨v, false⟩ else p]
    by_cases hk : k = name
    · subst hk
      obtain ⟨p, hp⟩ := Option.isSome_iff_exists.mp (Keyed.isSome_lookup.mpr hmem)
      by_cases hro : p.readOnly = false <;> simp [hp, hproto, hro]
    · rw [if_neg fun h => hk h.1]
      simp [hk]
  · rw [if_neg hmem, ← Keyed.set_new hmem, Keyed.lookup_set, Keyed.lookup_eq_none_of_notMem hmem]
    simp [hproto]

lemma distinct_setOwn (h : Keyed.Distinct props) (name : String) (v : Value) :
    Keyed.Distinct (setOwn props name v) := by
  unfold setOwn
  split_ifs with hproto hmem
  · exact h
  · have hkeys : (props.map fun p => if p.1 = name ∧ p.2.readOnly = false then (name, ⟨v, false⟩) else p).map
        Prod.fst = props.map Prod.fst := by
      rw [List.map_map]
      apply List.map_congr_left
      intro p _
      show (if p.1 = name ∧ p.2.readOnly = false then (name, (⟨v, false⟩ : Property)) else p).1 = p.1
      split_ifs with hp
      · exact hp.1.symm
      · rfl
    rwa [Keyed.Distinct, hkeys]
  · rw [← Keyed.set_new hmem]
    exact Keyed.distinct_set h _ _

/-- The object of a layer after the entries have been assigned: those of its properties that are
read-only have stayed. -/
structure Filled (cx : Context) (start : List (String × Property)) (entries : List (String × Object))
    (props : List (String × Property)) : Prop where
  distinct : Keyed.Distinct props
  kept : ∀ k p, start.lookup k = some p → p.readOnly = true → props.lookup k = some p
  set : ∀ k o, (k, o) ∈ entries → k ≠ "__proto__" → start.lookup k = none →
    ∃ v, MsgpackToV8 cx true o = some v ∧ props.lookup k = some ⟨v, false⟩
  only : ∀ k p, props.lookup k = some p → start.lookup k = some p ∨
    k ≠ "__proto__" ∧ ∃ o, (k, o) ∈ entries ∧ MsgpackToV8 cx true o = some p.value

variable {start : List (String × Property)} {entries : List (String × Object)}

lemma Filled.notMem (h : Filled cx start entries props) {k : String} (hstart : start.lookup k = none)
    (hnew : k ∉ entries.map Prod.fst) : props.lookup k = none := by
  rw [Option.eq_none_iff_forall_ne_some]
  intro p hp
  rcases h.only k p hp with hk | ⟨-, o, ho, -⟩
  · rw [hstart] at hk
    cases hk
  · exact hnew (List.mem_map_of_mem ho)

/-- One entry more. -/
lemma Filled.setOwn (h : Filled cx start entries props) {k : String} {o : Object} {v : Value}
    (hnew : k ∉ entries.map Prod.fst) (hv : MsgpackToV8 cx true o = some v) :
    Filled cx start (entries ++ [(k, o)]) (setOwn props k v) := by
  have hwrite : ∀ a, a ≠ k → (Dripcap.setOwn props k v).lookup a = props.lookup a := by
    intro a ha
    rw [lookup_setOwn, if_neg fun hk => ha hk.1]
  refine ⟨distinct_setOwn h.distinct k v, ?_, ?_, ?_⟩
  · intro a p hp hread
    have hold := h.kept a p hp hread
    rw [lookup_setOwn, if_neg, hold]
    rintro ⟨rfl, -, hwritable⟩
    rw [hwritable p hold] at hread
    cases hread
  · intro a o' hmem hproto hstart
    rcases List.mem_append.mp hmem with hmem | hmem
    · rw [hwrite a fun ha => hnew (ha ▸ List.mem_map_of_mem hmem)]
      exact h.set a o' hmem hproto hstart
    · obtain ⟨rfl, rfl⟩ := Prod.mk.inj (List.mem_singleton.mp hmem)
      refine ⟨v, hv, ?_⟩
      rw [lookup_setOwn, h.notMem hstart hnew, if_pos ⟨rfl, hproto, by simp⟩]
  · intro a p hp
    rw [lookup_setOwn] at hp
    split_ifs at hp with hk
    · obtain ⟨rfl, hproto, -⟩ := hk
      obtain rfl := Option.some.inj hp
      exact .inr ⟨hproto, o, by simp, hv⟩
    · refine (h.only a p hp).imp_right ?_
      rintro ⟨hproto, o', ho', hv'⟩
      exact ⟨hproto, o', List.mem_append_left _ ho', hv'⟩

/-- The loop over `ext`. -/
lemma Filled.setExt (h : Filled cx start entries props) {more : List (String × Object)}
    (hnodup : ((entries ++ more).map Prod.fst).Nodup)
    (hs : setExt cx props more = some props') : Filled cx start (entries ++ more) props' := by
  induction more generalizing entries props with
  | nil =>
    obtain rfl := Option.some.inj hs
    rwa [List.append_nil]
  | cons p more ih =>
    obtain ⟨v, hv, hs⟩ := Option.bind_eq_some_iff.mp hs
    have hnew : p.1 ∉ entries.map Prod.fst := by
      rw [List.map_append] at hnodup
      intro hmem
      exact (List.nodup_append.mp hnodup).2.2 p.1 hmem p.1 (by simp) rfl
    have hrest := ih (h.setOwn hnew hv) (by simpa using hnodup) hs
    rwa [List.append_assoc, List.singleton_append] at hrest

lemma exists_setExt (h : ∀ p ∈ entries, ∃ v, MsgpackToV8 cx true p.2 = some v)
    (props : List (String × Property)) : ∃ props', setExt cx props entries = some props' := by
  induction entries generalizing props with
  | nil => exact ⟨props, rfl⟩
  | cons p entries ih =>
    obtain ⟨v, hv⟩ := h p List.mem_cons_self
    obtain ⟨props', hprops'⟩ := ih (fun q hq => h q (List.mem_cons_of_mem p hq))
      (Dripcap.setOwn props p.1 v)
    refine ⟨props', ?_⟩
    simp only [LayerWrapper.setExt, hv, hprops', Option.bind_eq_bind, Option.bind_some]

/-! ### What is written back to `ext` -/

/-- The loop over the own properties assigns what they are encoded as. -/
lemma readExt_eq {list : List (String × Property)} (hread : readExt ext list = some ext') :
    ∃ os, List.Forall₂ (fun p q => q.1 = p.1 ∧ v8ToMsgpack p.2.value = some q.2)
        (list.filter fun p => p.1 ∉ reserved) os ∧
      ext'.entries = Keyed.assign ext.entries os := by
  induction list generalizing ext with
  | nil =>
    obtain rfl := Option.some.inj hread
    exact ⟨[], .nil, rfl⟩
  | cons p list ih =>
    rw [readExt] at hread
    split_ifs at hread with hres
    · obtain ⟨os, hos, heq⟩ := ih hread
      refine ⟨os, ?_, heq⟩
      rwa [List.filter_cons_of_neg (by simpa using hres)]
    · obtain ⟨o, ho, hread⟩ := Option.bind_eq_some_iff.mp hread
      obtain ⟨os, hos, heq⟩ := ih hread
      refine ⟨(p.1, o) :: os, ?_, ?_⟩
      · rw [List.filter_cons_of_pos (by simpa using hres)]
        exact .cons ⟨rfl, ho⟩ hos
      · rw [heq, ExtMap.set_entries, Keyed.assign_cons]

lemma exists_readExt {list : List (String × Property)}
    (h : ∀ p ∈ list, p.1 ∉ reserved → ∃ o, v8ToMsgpack p.2.value = some o) (ext : ExtMap) :
    ∃ ext', readExt ext list = some ext' := by
  induction list generalizing ext with
  | nil => exact ⟨ext, rfl⟩
  | cons p list ih =>
    have htail := ih fun q hq => h q (List.mem_cons_of_mem p hq)
    rw [readExt]
    split_ifs with hres
    · exact htail ext
    · obtain ⟨o, ho⟩ := h p List.mem_cons_self hres
      obtain ⟨ext', hext'⟩ := htail (ext.set p.1 o hres)
      exact ⟨ext', Option.bind_eq_some_iff.mpr ⟨o, ho, hext'⟩⟩

/-- Nothing changes exactly if what is written last under each name is there already. -/
lemma readExt_same_iff {list : List (String × Property)} (hread : readExt ext list = some ext') :
    ext'.norm = ext.norm ↔ ∀ k ∉ reserved, ∀ p, list.reverse.lookup k = some p →
      ∃ o, v8ToMsgpack p.value = some o ∧ (ext.find k).map Object.norm = some o.norm := by
  obtain ⟨os, hos, heq⟩ := readExt_eq hread
  have hassign : ext'.norm.entries =
      Keyed.assign ext.norm.entries (os.map fun p => (p.1, p.2.norm)) := by
    rw [ExtMap.norm_entries, heq]
    exact Keyed.map_assign Object.norm ext.entries os
  have hlast : ∀ k, Option.Rel (fun (p : Property) o => v8ToMsgpack p.value = some o)
      (if k ∉ reserved then list.reverse.lookup k else none) (os.reverse.lookup k) := by
    intro k
    have hrel := Keyed.lookup_forall₂
      (R := fun (p : Property) (o : Object) => v8ToMsgpack p.value = some o) (List.rel_reverse hos) k
    rw [← List.filter_reverse] at hrel
    have hfilter := Keyed.lookup_filter (fun name => decide (name ∉ reserved)) list.reverse k
    rw [hfilter] at hrel
    simpa using hrel
  have hiff : ext'.norm = ext.norm ↔ ext'.norm.entries = ext.norm.entries :=
    ⟨congrArg ExtMap.entries, ExtMap.entries_inj⟩
  have hnorm : ∀ k, (os.map fun p => (p.1, p.2.norm)).reverse.lookup k =
      (os.reverse.lookup k).map Object.norm := by
    intro k
    rw [← List.map_reverse]
    exact Keyed.lookup_map (fun _ (o : Object) => o.norm) os.reverse k
  rw [hiff, hassign, Keyed.assign_eq_self_iff ext.norm.nodup]
  constructor
  · intro h k hk p hp
    have hrel := hlast k
    rw [if_pos hk, hp] at hrel
    generalize hwritten : os.reverse.lookup k = written at hrel
    cases hrel with
    | @some _ o ho =>
      refine ⟨o, ho, ?_⟩
      rw [← ExtMap.find_norm]
      exact h k o.norm (by rw [hnorm, hwritten, Option.map_some])
  · intro h k w hw
    rw [hnorm] at hw
    obtain ⟨o, ho, rfl⟩ := Option.map_eq_some_iff.mp hw
    have hrel := hlast k
    rw [ho] at hrel
    generalize hfound : (if k ∉ reserved then list.reverse.lookup k else none) = found at hrel
    cases hrel with
    | @some p _ hp =>
      obtain ⟨hk, hfound⟩ := Option.ite_none_right_eq_some.mp hfound
      obtain ⟨o', ho', hsame⟩ := h k hk p hfound
      rw [hp] at ho'
      obtain rfl := Option.some.inj ho'
      rw [← hsame, ← ExtMap.find_norm]
      rfl

lemma notMem_reserved {name : String} (h : isIndex name = true) : name ∉ reserved := by
  have hall : ∀ k ∈ reserved, isIndex k = false := by decide
  intro hmem
  rw [hall name hmem] at h
  cases h

/-- The properties that the object of a root layer has from the beginning: read-only empty arrays. -/
structure EmptyArrays (start : List (String × Property)) : Prop where
  distinct : Keyed.Distinct start
  value : ∀ k p, start.lookup k = some p → p = ⟨.array [], true⟩
  plain : ∀ k ∈ start.map Prod.fst, isIndex k = false ∧ k ∉ "" :: "__proto__" :: reserved

lemma EmptyArrays.lookup_eq_none (h : EmptyArrays start) {k : String}
    (hk : isIndex k = true ∨ k ∈ "" :: "__proto__" :: reserved) : start.lookup k = none := by
  apply Keyed.lookup_eq_none_of_notMem
  intro hmem
  obtain ⟨hindex, hplain⟩ := h.plain k hmem
  rcases hk with hk | hk
  · rw [hindex] at hk
    cases hk
  · exact hplain hk

variable {payload : Object}

/-- The payload has a reserved name. -/
lemma mem_entries {k : String} {o : Object} (hmem : (k, o) ∈ ext.entries ++ [("payload", payload)])
    (hk : k ∉ reserved) : (k, o) ∈ ext.entries := by
  refine (List.mem_append.mp hmem).resolve_right fun hlast => hk ?_
  rw [(Prod.mk.inj (List.mem_singleton.mp hlast)).1]
  decide

/-- A property that is no array index is written back under its name. -/
lemma Filled.written (h : Filled cx start entries props) (hread : readExt ext (texts props) = some ext')
    (hsame : ext'.norm = ext.norm) {k : String} {p : Property} (hindex : isIndex k = false)
    (hk : k ∉ reserved) (hp : props.lookup k = some p) :
    ∃ o, v8ToMsgpack p.value = some o ∧ (ext.find k).map Object.norm = some o.norm := by
  obtain ⟨o, hlast, -⟩ := lookup_texts h.distinct k
  refine (readExt_same_iff hread).mp hsame k hk p ?_
  rw [hlast, hindex, hp]
  rfl

/-- The arrays that have been there from the beginning are written to `ext`. -/
lemma Filled.find_of_same (hstart : EmptyArrays start) (h : Filled cx start entries props)
    (hread : readExt ext (texts props) = some ext') (hsame : ext'.norm = ext.norm) {k : String}
    (hk : k ∈ start.map Prod.fst) : ext.find k = some (.array []) := by
  obtain ⟨p, hp⟩ := Option.isSome_iff_exists.mp (Keyed.isSome_lookup.mpr hk)
  obtain rfl := hstart.value k p hp
  obtain ⟨hindex, hplain⟩ := hstart.plain k hk
  have hres : k ∉ reserved := fun hres =>
    hplain (List.mem_cons_of_mem _ (List.mem_cons_of_mem _ hres))
  obtain ⟨o, ho, hfind⟩ := h.written hread hsame hindex hres (h.kept k _ hp rfl)
  obtain rfl := Option.some.inj ho
  obtain ⟨o', ho', hnorm⟩ := Option.map_eq_some_iff.mp hfind
  rw [ho', norm_eq_empty hnorm]

/-- The empty key is written if there is an array index among the properties. -/
lemma Filled.empty_of_index (h : Filled cx start entries props)
    (hread : readExt ext (texts props) = some ext') (hsame : ext'.norm = ext.norm) {k : String}
    {q : Property} (hindex : isIndex k = true) (hq : props.lookup k = some q) :
    "" ∈ ext.entries.map Prod.fst := by
  have htext : "" ∈ (texts props).map Prod.fst :=
    mem_keys_texts.mpr ⟨_, (Keyed.lookup_iff_mem h.distinct).mp hq, keyText_of_isIndex hindex⟩
  rw [← List.mem_reverse, ← List.map_reverse, ← Keyed.isSome_lookup] at htext
  obtain ⟨p, hp⟩ := Option.isSome_iff_exists.mp htext
  obtain ⟨o, -, hfind⟩ := (readExt_same_iff hread).mp hsame "" (by decide) p hp
  obtain ⟨o', ho', -⟩ := Option.map_eq_some_iff.mp hfind
  exact List.mem_map_of_mem (ExtMap.find_iff_mem.mp ho')

lemma Filled.kept_of_same (hfresh : cx.freshID ≠ []) (hstart : EmptyArrays start)
    (h : Filled cx start (ext.entries ++ [("payload", payload)]) props)
    (henc : ∀ p ∈ ext.entries, Encodable cx p.2) (hread : readExt ext (texts props) = some ext')
    (hsame : ext'.norm = ext.norm) : ext.Kept cx := by
  rintro ⟨k, o⟩ hmem hproto
  have hset := h.set k o (List.mem_append_left _ hmem) hproto
  split_ifs with hindex
  · obtain ⟨v, -, hv⟩ := hset (hstart.lookup_eq_none (.inl hindex))
    exact h.empty_of_index hread hsame hindex hv
  · cases hk : start.lookup k with
    | some p =>
      -- an empty array that has been there before
      have hfind := h.find_of_same hstart hread hsame
        (Keyed.isSome_lookup.mp (Option.isSome_of_eq_some hk))
      rw [ExtMap.find_iff_mem.mpr hmem] at hfind
      rw [Option.some.inj hfind]
      trivial
    | none =>
      obtain ⟨v, hv, hlookup⟩ := hset hk
      obtain ⟨o', ho', hfind⟩ := h.written hread hsame (Bool.eq_false_iff.mpr hindex)
        (ext.unreserved k (List.mem_map_of_mem hmem)) hlookup
      obtain ⟨v', o'', hv', ho'', hiff⟩ := (henc _ hmem).echo hfresh
      obtain rfl := Option.some.inj (hv.symm.trans hv')
      obtain rfl := Option.some.inj (ho'.symm.trans ho'')
      rw [ExtMap.find_iff_mem.mpr hmem] at hfind
      exact hiff.mp (Option.some.inj hfind).symm

/-- Where an array index is a property, the empty name is one too. -/
lemma Filled.isSome_empty (hstart : EmptyArrays start)
    (h : Filled cx start (ext.entries ++ [("payload", payload)]) props) (hkept : ext.Kept cx)
    {name : String} {q : Property} (hindex : isIndex name = true) (hq : props.lookup name = some q) :
    (props.lookup "").isSome = true := by
  rcases h.only name q hq with hstart' | ⟨hproto, o, ho, -⟩
  · rw [hstart.lookup_eq_none (.inl hindex)] at hstart'
    cases hstart'
  · have hkey := hkept (name, o) (mem_entries ho (notMem_reserved hindex)) hproto
    rw [if_pos hindex] at hkey
    obtain ⟨p, hp, hkey⟩ := List.mem_map.mp hkey
    obtain ⟨v, -, hv⟩ := h.set "" p.2 (List.mem_append_left _ (hkey ▸ hp)) (by decide)
      (hstart.lookup_eq_none (.inr List.mem_cons_self))
    exact Option.isSome_of_eq_some hv

lemma Filled.same_of_kept (hfresh : cx.freshID ≠ []) (hstart : EmptyArrays start)
    (h : Filled cx start (ext.entries ++ [("payload", payload)]) props)
    (henc : ∀ p ∈ ext.entries, Encodable cx p.2) (hread : readExt ext (texts props) = some ext')
    (hkept : ext.Kept cx) (hempty : ∀ k ∈ start.map Prod.fst, ext.find k = some (.array [])) :
    ext'.norm = ext.norm := by
  refine (readExt_same_iff hread).mpr fun k hk p hp => ?_
  obtain ⟨other, hlast, hother⟩ := lookup_texts h.distinct k
  rw [hp] at hlast
  cases hown : if isIndex k then none else props.lookup k with
  | some q =>
    rw [hown] at hlast
    obtain rfl : p = q := Option.some.inj hlast
    obtain ⟨hindex, hlookup⟩ := Option.ite_none_left_eq_some.mp hown
    rcases h.only k p hlookup with hk' | ⟨hproto, o, ho, hv⟩
    · rw [hstart.value k p hk', hempty k (Keyed.isSome_lookup.mp (Option.isSome_of_eq_some hk'))]
      exact ⟨.array [], rfl, rfl⟩
    · have hmem := mem_entries ho hk
      have hsurvives := hkept (k, o) hmem hproto
      rw [if_neg hindex] at hsurvives
      obtain ⟨v', o', hv', ho', hiff⟩ := (henc _ hmem).echo hfresh
      obtain rfl := Option.some.inj (hv.symm.trans hv')
      refine ⟨o', ho', ?_⟩
      rw [ExtMap.find_iff_mem.mpr hmem, hiff.mpr hsurvives]
      rfl
  | none =>
    -- an array index would have been read as the empty text, but then there is the empty name
    rw [hown, Option.none_or] at hlast
    obtain rfl : k = "" := by
      by_contra hne
      rw [hother hne] at hlast
      cases hlast
    have hnone : props.lookup "" = none := hown
    have htext := Keyed.isSome_lookup.mp (Option.isSome_of_eq_some hp)
    rw [List.map_reverse, List.mem_reverse] at htext
    obtain ⟨⟨name, q⟩, hq, hname⟩ := mem_keys_texts.mp htext
    have hlookup := (Keyed.lookup_iff_mem h.distinct).mpr hq
    cases hindex : isIndex name with
    | true =>
      have hsome := h.isSome_empty hstart hkept hindex hlookup
      rw [hnone] at hsome
      cases hsome
    | false =>
      rw [keyText_of_not hindex] at hname
      rw [hname, hnone] at hlookup
      cases hlookup

/-- What has been filled with the entries of `ext` and the payload leaves `ext` as it is. -/
lemma Filled.same_iff (hfresh : cx.freshID ≠ []) (hstart : EmptyArrays start)
    (h : Filled cx start (ext.entries ++ [("payload", payload)]) props)
    (henc : ∀ p ∈ ext.entries, Encodable cx p.2) (hread : readExt ext (texts props) = some ext') :
    ext'.norm = ext.norm ↔
      ext.Kept cx ∧ ∀ k ∈ start.map Prod.fst, ext.find k = some (.array []) := by
  constructor
  · intro hsame
    exact ⟨h.kept_of_same hfresh hstart henc hread hsame,
      fun k hk => h.find_of_same hstart hread hsame hk⟩
  · rintro ⟨hkept, hempty⟩
    exact h.same_of_kept hfresh hstart henc hread hkept hempty

/-! ### Trees -/

/-- A layer comes back as the same. -/
def Returns (toScript : Layer → Option LayerObject) (l : Layer) : Prop :=
  ∃ obj l', toScript l = some obj ∧ syncFromScript obj = some l' ∧ l'.norm = l.norm

/-- The objects of a list of layers. -/
def toObjects (toScript : Layer → Option LayerObject) (layers : LayerList) :
    Option (List (String × LayerObject)) :=
  layers.mapM fun p => (toScript p.2).map fun obj => (p.1, obj)

lemma syncLayersToScript_eq (layers : LayerList) : syncLayersToScript cx layers =
    toObjects (syncToScript cx []) layers := by
  induction layers with
  | nil => rfl
  | cons p layers ih =>
    obtain ⟨key, layer⟩ := p
    rw [syncLayersToScript, ih, toObjects, toObjects, List.mapM_cons]
    cases syncToScript cx [] layer <;> rfl

lemma toProperties_eq {α : Type} {entries : List (String × α)}
    (h : "__proto__" ∉ entries.map Prod.fst) : toProperties entries = entries := by
  refine List.filter_eq_self.mpr fun p hp => ?_
  have hne : p.1 ≠ "__proto__" := by
    intro heq
    exact h (heq ▸ List.mem_map_of_mem hp)
  simpa using hne

variable {toScript : Layer → Option LayerObject} {layers : LayerList}

lemma keys_toObjects {list : List (String × LayerObject)} (h : toObjects toScript layers = some list) :
    list.map Prod.fst = layers.map Prod.fst := by
  induction layers generalizing list with
  | nil =>
    obtain rfl := Option.some.inj h
    rfl
  | cons p layers ih =>
    rw [toObjects, List.mapM_cons] at h
    obtain ⟨r, hr, h⟩ := Option.bind_eq_some_iff.mp h
    obtain ⟨list', hlist', h⟩ := Option.bind_eq_some_iff.mp h
    obtain rfl := Option.some.inj h
    obtain ⟨obj, -, rfl⟩ := Option.map_eq_some_iff.mp hr
    rw [List.map_cons, List.map_cons, ih hlist']

lemma keys_syncChildrenFromScript {list : List (String × LayerObject)}
    (h : syncChildrenFromScript list = some layers) : layers.map Prod.fst = list.map Prod.fst := by
  induction list generalizing layers with
  | nil =>
    obtain rfl := Option.some.inj h
    rfl
  | cons p list ih =>
    obtain ⟨l, -, h⟩ := Option.bind_eq_some_iff.mp h
    obtain ⟨layers', hlayers', h⟩ := Option.bind_eq_some_iff.mp h
    obtain rfl := Option.some.inj h
    rw [List.map_cons, List.map_cons, ih hlayers']

/-- A list without strange keys comes back if and only if its layers do. -/
lemma children_return_iff : (∀ p ∈ layers, Returns toScript p.2) ↔
    ∃ list layers', toObjects toScript layers = some list ∧
      syncChildrenFromScript list = some layers' ∧
      Layer.normLayers layers' = Layer.normLayers layers := by
  induction layers with
  | nil => exact ⟨fun _ => ⟨[], [], rfl, rfl, rfl⟩, fun _ p hp => by cases hp⟩
  | cons p layers ih =>
    rw [List.forall_mem_cons, ih]
    constructor
    · rintro ⟨⟨obj, l', hobj, hl', hnorm⟩, list, layers', hlist, hback, hsame⟩
      refine ⟨(p.1, obj) :: list, (p.1, l') :: layers', ?_, ?_, ?_⟩
      · rw [toObjects] at hlist ⊢
        rw [List.mapM_cons, hlist, hobj]
        rfl
      · simp only [syncChildrenFromScript, hl', hback, Option.bind_eq_bind, Option.bind_some]
      · rw [Layer.normLayers, hsame, hnorm, Layer.normLayers]
    · rintro ⟨list, layers', hlist, hback, hsame⟩
      rw [toObjects, List.mapM_cons] at hlist
      obtain ⟨r, hr, hlist⟩ := Option.bind_eq_some_iff.mp hlist
      obtain ⟨list', hlist', hlist⟩ := Option.bind_eq_some_iff.mp hlist
      obtain rfl := Option.some.inj hlist
      obtain ⟨obj, hobj, rfl⟩ := Option.map_eq_some_iff.mp hr
      obtain ⟨l', hl', hback⟩ := Option.bind_eq_some_iff.mp hback
      obtain ⟨layers'', hlayers'', hback⟩ := Option.bind_eq_some_iff.mp hback
      obtain rfl := Option.some.inj hback
      obtain ⟨hhead, htail⟩ := List.cons.inj hsame
      exact ⟨⟨obj, l', hobj, hl', (Prod.mk.inj hhead).2⟩, list', layers'', hlist', hlayers'', htail⟩

/-- A list of layers comes back as the same. -/
def ListReturns (toScript : Layer → Option LayerObject) (layers : LayerList) : Prop :=
  ∃ list layers', toObjects toScript layers = some list ∧
    syncLayersFromScript (toProperties list) = some layers' ∧
    Layer.normLayers layers' = Layer.normLayers layers

lemma keys_normLayers (layers : LayerList) :
    (Layer.normLayers layers).map Prod.fst = layers.map Prod.fst := by
  rw [normLayers_eq_map, List.map_map]
  rfl

/-- With such keys the list that comes back is the one of the layers. -/
lemma sync_of_kept (hkept : KeptKeys layers) (hd : Keyed.Distinct layers)
    {list : List (String × LayerObject)} (hkeys : list.map Prod.fst = layers.map Prod.fst) :
    syncLayersFromScript (toProperties list) = syncChildrenFromScript list := by
  have hproto : "__proto__" ∉ list.map Prod.fst := by
    rw [hkeys]
    intro hmem
    exact (hkept _ hmem).1 rfl
  rw [toProperties_eq hproto, syncLayersFromScript]
  cases hback : syncChildrenFromScript list with
  | none => rfl
  | some back =>
    have hkeys' : back.map Prod.fst = layers.map Prod.fst :=
      (keys_syncChildrenFromScript hback).trans hkeys
    have hdistinct : Keyed.Distinct back := by rwa [Keyed.Distinct, hkeys']
    rw [Option.map_some, byText_plain hdistinct]
    intro p hp
    refine (hkept p.1 ?_).2
    rw [← hkeys']
    exact List.mem_map_of_mem hp

lemma listReturns_iff (hd : Keyed.Distinct layers) :
    ListReturns toScript layers ↔ KeptKeys layers ∧ ∀ p ∈ layers, Returns toScript p.2 := by
  rw [children_return_iff]
  constructor
  · rintro ⟨list, layers', hlist, hback, hsame⟩
    have hkeys := keys_toObjects hlist
    -- every key has come back, so it is the text of a property
    have hkept : KeptKeys layers := by
      obtain ⟨back, hchildren, rfl⟩ := Option.map_eq_some_iff.mp hback
      intro key hkey
      rw [← keys_normLayers, ← hsame, keys_normLayers, mem_keys_byText] at hkey
      obtain ⟨p, hp, rfl⟩ := hkey
      refine ⟨?_, isIndex_keyText p.1⟩
      intro hproto
      have hmem := List.mem_map_of_mem (f := Prod.fst) hp
      rw [keys_syncChildrenFromScript hchildren, eq_of_keyText hproto (by decide)] at hmem
      obtain ⟨q, hq, hq'⟩ := List.mem_map.mp hmem
      exact absurd hq' (by simpa using (List.mem_filter.mp hq).2)
    rw [sync_of_kept hkept hd hkeys] at hback
    exact ⟨hkept, list, layers', hlist, hback, hsame⟩
  · rintro ⟨hkept, list, layers', hlist, hback, hsame⟩
    refine ⟨list, layers', hlist, ?_, hsame⟩
    rw [sync_of_kept hkept hd (keys_toObjects hlist), hback]

lemma readStreams_eq {props : List (String × Property)} {streams : List PacketStream}
    {r : List (String × Property) × List StreamElement} (hs : setStreams cx props streams = some r) :
    readStreams r.2 = some [] := by
  induction streams generalizing props r with
  | nil =>
    obtain rfl := Option.some.inj hs
    rfl
  | cons st streams ih =>
    obtain ⟨v, -, hs⟩ := Option.bind_eq_some_iff.mp hs
    obtain ⟨r', hr', hs⟩ := Option.bind_eq_some_iff.mp hs
    obtain rfl := Option.some.inj hs
    have hrest := ih hr'
    exact hrest

lemma emptyArrays_nil : EmptyArrays [] :=
  ⟨List.nodup_nil, fun k p hp => (by cases hp), fun k hk => (by cases hk)⟩

/-- The object of a layer without streams. -/
lemma filled_of_setExt (hstart : EmptyArrays start) (hs : setExt cx start ext.entries = some props)
    {v : Value} (hv : MsgpackToV8 cx true payload = some v) :
    Filled cx start (ext.entries ++ [("payload", payload)]) (setOwn props "payload" v) := by
  have hnil : Filled cx start [] start :=
    ⟨hstart.distinct, fun k p hp _ => hp, fun k o ho => (by cases ho), fun k p hp => .inl hp⟩
  have hentries : Filled cx start ext.entries props := hnil.setExt ext.nodup hs
  refine hentries.setOwn ?_ hv
  intro hmem
  exact ext.unreserved "payload" hmem (by decide)

lemma readPayload_eq (hstart : EmptyArrays start)
    (h : Filled cx start (ext.entries ++ [("payload", payload)]) props) :
    readPayload props = (MsgpackToV8 cx true payload).bind v8ToMsgpack := by
  obtain ⟨v, hv, hlookup⟩ := h.set "payload" payload (by simp) (by decide)
    (hstart.lookup_eq_none (.inr (by decide)))
  rw [readPayload, hlookup, hv, Option.bind_some]

lemma exists_readExt_filled (hfresh : cx.freshID ≠ []) (hstart : EmptyArrays start)
    (h : Filled cx start (ext.entries ++ [("payload", payload)]) props)
    (henc : ∀ p ∈ ext.entries, Encodable cx p.2) (hpayload : Encodable cx payload) :
    ∃ ext', readExt ext (texts props) = some ext' := by
  refine exists_readExt ?_ ext
  rintro p hp -
  obtain ⟨⟨k, q⟩, hq, rfl⟩ := mem_texts.mp hp
  rcases h.only k q ((Keyed.lookup_iff_mem h.distinct).mpr hq) with hk | ⟨-, o, ho, hv⟩
  · rw [hstart.value k q hk]
    exact ⟨.array [], rfl⟩
  · have hencodable : Encodable cx o := by
      rcases List.mem_append.mp ho with ho | ho
      · exact henc _ ho
      · rwa [(Prod.mk.inj (List.mem_singleton.mp ho)).2]
    obtain ⟨v', o', hv', ho', -⟩ := hencodable.echo hfresh
    obtain rfl := Option.some.inj (hv.symm.trans hv')
    exact ⟨o', ho'⟩

/-- A layer comes back as the same exactly if it has no streams and each of its members does. -/
lemma returns_mk_iff (hfresh : cx.freshID ≠ []) (hstart : EmptyArrays start) {ns name : String}
    {streams : List PacketStream} (hpayload : Encodable cx payload)
    (hext : ∀ p ∈ ext.entries, Encodable cx p.2) :
    Returns (syncToScript cx start) (.mk ns name payload ext layers streams) ↔
      streams = [] ∧ payload.Survives cx ∧
        (ext.Kept cx ∧ ∀ k ∈ start.map Prod.fst, ext.find k = some (.array [])) ∧
          ListReturns (syncToScript cx []) layers := by
  obtain ⟨v, payload', hv, hpayload', hsurvives⟩ := hpayload.echo hfresh
  constructor
  · rintro ⟨obj, l', hobj, hl', hnorm⟩
    rw [syncToScript] at hobj
    obtain ⟨props, hprops, hobj⟩ := Option.bind_eq_some_iff.mp hobj
    obtain ⟨list, hlist, hobj⟩ := Option.bind_eq_some_iff.mp hobj
    obtain ⟨v', hv', hobj⟩ := Option.bind_eq_some_iff.mp hobj
    obtain rfl := Option.some.inj (hv.symm.trans hv')
    obtain ⟨r, hr, hobj⟩ := Option.bind_eq_some_iff.mp hobj
    obtain rfl := Option.some.inj hobj
    rw [syncFromScript] at hl'
    obtain ⟨back, hback, hl'⟩ := Option.bind_eq_some_iff.mp hl'
    obtain ⟨payload'', hread, hl'⟩ := Option.bind_eq_some_iff.mp hl'
    obtain ⟨ext', hext', hl'⟩ := Option.bind_eq_some_iff.mp hl'
    obtain ⟨streams', hstreams', hl'⟩ := Option.bind_eq_some_iff.mp hl'
    obtain rfl := Option.some.inj hl'
    simp only [Layer.norm, Layer.ns, Layer.name, Layer.mk.injEq, true_and] at hnorm
    obtain ⟨hpay, hextnorm, hlayers, hstreams⟩ := hnorm
    -- no stream comes back, so there has been none
    rw [readStreams_eq hr] at hstreams'
    obtain rfl := Option.some.inj hstreams'
    obtain rfl : streams = [] := List.map_eq_nil_iff.mp hstreams.symm
    obtain rfl := Option.some.inj hr
    have hfilled := filled_of_setExt hstart hprops hv
    rw [readPayload_eq hstart hfilled, hv, Option.bind_some, hpayload'] at hread
    obtain rfl := Option.some.inj hread
    rw [syncLayersToScript_eq] at hlist
    refine ⟨rfl, hsurvives.mp hpay, (hfilled.same_iff hfresh hstart hext hext').mp hextnorm, list,
      byText back, hlist, ?_, hlayers⟩
    rw [syncLayersFromScript, hback, Option.map_some]
  · rintro ⟨rfl, hpay, hkept, list, layers', hlist, hback, hlayers⟩
    obtain ⟨back, hobjects, rfl⟩ := Option.map_eq_some_iff.mp hback
    have hvalues : ∀ p ∈ ext.entries, ∃ v, MsgpackToV8 cx true p.2 = some v := by
      intro p hp
      obtain ⟨v, -, hv, -⟩ := (hext p hp).echo hfresh
      exact ⟨v, hv⟩
    obtain ⟨props, hprops⟩ := exists_setExt hvalues start
    have hfilled := filled_of_setExt hstart hprops hv
    obtain ⟨ext', hext'⟩ := exists_readExt_filled hfresh hstart hfilled hext hpayload
    refine ⟨.mk (.mk ns name payload ext layers []) (setOwn props "payload" v) (toProperties list) [],
      .mk ns name payload' ext' (byText back) [], ?_, ?_, ?_⟩
    · simp only [syncToScript, hprops, syncLayersToScript_eq, hlist, hv, setStreams,
        Option.bind_eq_bind, Option.bind_some]
    · simp only [syncFromScript, hobjects, readPayload_eq hstart hfilled, hv, hpayload', Layer.ext,
        Layer.ns, Layer.name, hext', readStreams, Option.bind_eq_bind, Option.bind_some]
    · have hextnorm := (hfilled.same_iff hfresh hstart hext hext').mpr hkept
      simp only [Layer.norm, hsurvives.mpr hpay, hextnorm, hlayers]

/-- A tree comes back as the same exactly if it is kept and the arrays that the object has from the
beginning are there. -/
theorem returns_iff (hfresh : cx.freshID ≠ []) {l : Layer} (h : EncodableLayer cx l)
    (hstart : EmptyArrays start) : Returns (syncToScript cx start) l ↔
      Kept cx l ∧ ∀ k ∈ start.map Prod.fst, l.ext.find k = some (.array []) := by
  induction h generalizing start with
  | @mk ns name payload ext layers streams hpayload hext _ hnodup _ ih =>
    have hchildren : ListReturns (syncToScript cx []) layers ↔
        KeptKeys layers ∧ ∀ p ∈ layers, Kept cx p.2 := by
      rw [listReturns_iff hnodup]
      refine and_congr_right fun _ => forall₂_congr fun p hp => ?_
      rw [ih p hp emptyArrays_nil]
      exact and_iff_left fun k hk => by cases hk
    rw [returns_mk_iff hfresh hstart hpayload hext, hchildren]
    constructor
    · rintro ⟨rfl, hpay, ⟨hkept, hempty⟩, hkeys, hkids⟩
      exact ⟨.mk hpay hkept hkeys hkids, hempty⟩
    · rintro ⟨hkept, hempty⟩
      cases hkept with
      | mk hpay hkept hkeys hkids => exact ⟨rfl, hpay, ⟨hkept, hempty⟩, hkeys, hkids⟩

end LayerWrapper

/-! ### Packets -/

namespace PacketWrapper

variable {pkt : Packet}

/-- The packet with the objects of its layers in normal form. -/
def norm (pkt : Packet) : Packet := { pkt with layers := Layer.normLayers pkt.layers }

/-- A packet whose layer tree is encodable. -/
structure EncodablePacket (cx : Context) (pkt : Packet) : Prop where
  nodup : (pkt.layers.map Prod.fst).Nodup
  layers : ∀ p ∈ pkt.layers, EncodableLayer cx p.2

lemma emptyArrays_rootProperties : LayerWrapper.EmptyArrays rootProperties := by
  refine ⟨List.nodup_singleton _, ?_, by decide⟩
  intro k p hp
  rw [rootProperties, List.lookup_cons] at hp
  split at hp
  · exact (Option.some.inj hp).symm
  · cases hp

/-- A script engine without modules. -/
def bareContext : Context where
  modules := fun _ => none
  freshID := [0x30]
  decode := fun _ => ""

/-- A root layer that has been dissected before, with a layer below it. -/
def dissectedPacket : Packet where
  payload := [1, 2, 3]
  layers := [("::Ethernet", .mk "::Ethernet" "Ethernet"
    (.extPacked .payload (.array [.integer 0, .integer 3]))
    ⟨[("fields", .array []), ("7", .integer 2048), ("", .str "a")], by decide, by decide⟩
    [("::IPv4", .mk "::Ethernet::IPv4" "IPv4" .nil
      ⟨[("type", .map [(.str "constructor", .integer 1)])], by decide, by decide⟩ [] [])] [])]

/-- A root layer with one stream. -/
def streamingPacket : Packet where
  payload := [1, 2, 3]
  layers := [("::TCP", .mk "::TCP" "TCP" .nil .empty []
    [⟨"TCP Stream", "::TCP", "a/b", .bin [7], .noop⟩])]

/-- A root layer without streams. -/
def indexedPacket : Packet where
  payload := [1, 2, 3]
  layers := [("::TCP", .mk "::TCP" "TCP" .nil
    ⟨[("fields", .array []), ("0", .str "a")], by decide, by decide⟩ [] [])]

end PacketWrapper

end Dripcap
