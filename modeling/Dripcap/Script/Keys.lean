import Dripcap.Library.Keyed
import Mathlib.Algebra.Group.Nat.Defs
import Mathlib.Data.List.Sort

/-!
# Names of properties

`GetOwnPropertyNames` hands out an array index as a number and every other name as a string, and
`v8pp::from_v8<std::string>` with the default `""` makes a text of strings only. So the loops over
the own properties of an object in `script_class.cpp` take every array index for the empty text.
-/

namespace Dripcap

/-- The number that decimal digits stand for. -/
def decimal (cs : List Char) : Option ℕ :=
  cs.foldlM (fun n c => if '0' ≤ c ∧ c ≤ '9' then some (10 * n + (c.toNat - '0'.toNat)) else none) 0

/-- The array index that a name stands for: a number below `2 ^ 32 - 1` without leading zeros. -/
def arrayIndex (name : String) : Option ℕ :=
  match name.toList with
  | [] => none
  | ['0'] => some 0
  | '0' :: _ => none
  | cs => (decimal cs).filter (· < 2 ^ 32 - 1)

/-- The name is an array index. -/
def isIndex (name : String) : Bool := (arrayIndex name).isSome

/-- `v8pp::from_v8<std::string>(isolate, key, "")` -/
def keyText (name : String) : String := if isIndex name then "" else name

section Properties

variable {α : Type} {props : List (String × α)}

/-- `GetOwnPropertyNames` with the values: first the array indices in ascending order, then the
other names in the order in which they have been set. -/
def ownProperties (props : List (String × α)) : List (String × α) :=
  (props.filter fun p => isIndex p.1).insertionSort
      (fun p q => (arrayIndex p.1).getD 0 ≤ (arrayIndex q.1).getD 0) ++
    props.filter fun p => ¬ isIndex p.1

/-- What a loop over `GetOwnPropertyNames` reads: the text of every name, and the value. -/
def texts (props : List (String × α)) : List (String × α) :=
  (ownProperties props).map fun p => (keyText p.1, p.2)

/-- The loop that fills an empty map: `map[name] = value`. -/
def byText (props : List (String × α)) : List (String × α) := Keyed.assign [] (texts props)

lemma keyText_of_not {name : String} (h : isIndex name = false) : keyText name = name := by
  rw [keyText, h]
  rfl

lemma keyText_of_isIndex {name : String} (h : isIndex name = true) : keyText name = "" := by
  rw [keyText, if_pos h]

/-- No text is an array index. -/
lemma isIndex_keyText (name : String) : isIndex (keyText name) = false := by
  cases h : isIndex name with
  | true => rw [keyText_of_isIndex h]; rfl
  | false => rwa [keyText_of_not h]

lemma eq_of_keyText {name text : String} (h : keyText name = text) (htext : text ≠ "") :
    name = text := by
  cases hname : isIndex name with
  | true => exact absurd ((keyText_of_isIndex hname).symm.trans h).symm htext
  | false => rwa [keyText_of_not hname] at h

lemma mem_ownProperties {p : String × α} : p ∈ ownProperties props ↔ p ∈ props := by
  rw [ownProperties, List.mem_append, (List.perm_insertionSort _ _).mem_iff, List.mem_filter,
    List.mem_filter]
  cases isIndex p.1 <;> simp

lemma mem_texts {p : String × α} :
    p ∈ texts props ↔ ∃ q ∈ props, (keyText q.1, q.2) = p := by
  simp only [texts, List.mem_map, mem_ownProperties]

/-- Without array indices the order is that of the object. -/
lemma ownProperties_plain (h : ∀ p ∈ props, isIndex p.1 = false) : ownProperties props = props := by
  have hindex : (props.filter fun p => isIndex p.1) = [] := by
    rw [List.filter_eq_nil_iff]
    intro p hp
    rw [h p hp]
    exact Bool.false_ne_true
  have hother : (props.filter fun p => ¬ isIndex p.1) = props := by
    rw [List.filter_eq_self]
    intro p hp
    simp [h p hp]
  rw [ownProperties, hindex, hother, List.insertionSort_nil, List.nil_append]

lemma texts_plain (h : ∀ p ∈ props, isIndex p.1 = false) : texts props = props := by
  rw [texts, ownProperties_plain h]
  refine (List.map_congr_left fun p hp => ?_).trans (List.map_id _)
  rw [keyText_of_not (h p hp)]
  rfl

lemma mem_keys_texts {k : String} : k ∈ (texts props).map Prod.fst ↔ ∃ p ∈ props, keyText p.1 = k := by
  simp only [List.mem_map, mem_texts]
  constructor
  · rintro ⟨_, ⟨p, hp, rfl⟩, rfl⟩
    exact ⟨p, hp, rfl⟩
  · rintro ⟨p, hp, rfl⟩
    exact ⟨_, ⟨p, hp, rfl⟩, rfl⟩

/-- What is read last under a text is the property of this name, if there is one. Under the empty
text it can be an array index otherwise. -/
lemma lookup_texts (hd : Keyed.Distinct props) (k : String) : ∃ o : Option α,
    (texts props).reverse.lookup k = (if isIndex k then none else props.lookup k).or o ∧
      (k ≠ "" → o = none) := by
  have hother : ((props.filter fun p => ¬ isIndex p.1).map fun p => (keyText p.1, p.2)) =
      props.filter fun p => ! isIndex p.1 := by
    have hnot : (props.filter fun p => ¬ isIndex p.1) = props.filter fun p => ! isIndex p.1 := by
      simp
    rw [hnot]
    refine (List.map_congr_left fun p hp => ?_).trans (List.map_id _)
    rw [keyText_of_not (by simpa using (List.mem_filter.mp hp).2)]
    rfl
  rw [texts, ownProperties, List.map_append, hother, List.reverse_append, List.lookup_append,
    Keyed.lookup_reverse (List.Nodup.sublist (List.filter_sublist.map Prod.fst) hd),
    Keyed.lookup_filter fun name => ! isIndex name]
  refine ⟨_, congrArg₂ Option.or ?_ rfl, fun hk => Keyed.lookup_eq_none_of_notMem ?_⟩
  · cases isIndex k <;> rfl
  · rw [List.map_reverse, List.mem_reverse, List.map_map]
    intro hmem
    obtain ⟨p, hp, htext⟩ := List.mem_map.mp hmem
    have hindex := (List.mem_filter.mp ((List.perm_insertionSort _ _).mem_iff.mp hp)).2
    exact hk (htext.symm.trans (keyText_of_isIndex hindex))

lemma mem_keys_byText {k : String} :
    k ∈ (byText props).map Prod.fst ↔ ∃ p ∈ props, keyText p.1 = k := by
  rw [byText, Keyed.mem_keys_assign, List.map_nil, or_iff_right List.not_mem_nil, mem_keys_texts]

lemma distinct_byText (props : List (String × α)) : Keyed.Distinct (byText props) :=
  Keyed.distinct_assign (l := []) List.nodup_nil _

lemma exists_of_mem_byText {p : String × α} (h : p ∈ byText props) :
    ∃ q ∈ props, (keyText q.1, q.2) = p :=
  mem_texts.mp ((Keyed.mem_assign h).resolve_left List.not_mem_nil)

lemma byText_plain (hd : Keyed.Distinct props) (h : ∀ p ∈ props, isIndex p.1 = false) :
    byText props = props := by
  rw [byText, texts_plain h, Keyed.assign_new (by simpa using hd), List.nil_append]

/-- The keys stay the same only if there are no array indices. -/
lemma plain_of_keys (h : (byText props).map Prod.fst = props.map Prod.fst) :
    ∀ p ∈ props, isIndex p.1 = false := by
  intro p hp
  have hmem : p.1 ∈ (byText props).map Prod.fst := by
    rw [h]
    exact List.mem_map_of_mem hp
  obtain ⟨q, -, hq⟩ := mem_keys_byText.mp hmem
  rw [← hq]
  exact isIndex_keyText q.1

example : byText [("10", 'a'), ("b", 'b'), ("9", 'c'), ("4294967295", 'd')] =
    [("", 'a'), ("b", 'b'), ("4294967295", 'd')] := by decide

end Properties

end Dripcap
