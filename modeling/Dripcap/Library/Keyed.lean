import Mathlib.Data.List.Nodup
import Mathlib.Data.List.Perm.Subperm

/-!
# Lists of keys and values

A map in some order of iteration is a list of pairs with distinct keys, and `List.lookup` is the
map. Lists for the same map differ in their order only.
-/

namespace Keyed

variable {κ α : Type*} [DecidableEq κ] {l l' : List (κ × α)}

/-- The keys are distinct. -/
def Distinct (l : List (κ × α)) : Prop := (l.map Prod.fst).Nodup

lemma lookup_iff_mem (h : Distinct l) {k : κ} {v : α} : l.lookup k = some v ↔ (k, v) ∈ l := by
  constructor
  · intro hlookup
    obtain ⟨l₁, l₂, rfl, -⟩ := List.lookup_eq_some_iff.mp hlookup
    exact List.mem_append_right l₁ List.mem_cons_self
  · intro hmem
    obtain ⟨l₁, l₂, rfl⟩ := List.append_of_mem hmem
    refine List.lookup_eq_some_iff.mpr ⟨l₁, l₂, rfl, fun p hp => ?_⟩
    rw [Distinct, List.map_append, List.map_cons] at h
    have hnot := (List.nodup_append.mp h).2.2 p.1 (List.mem_map_of_mem hp) k List.mem_cons_self
    simpa using Ne.symm hnot

/-- Different lists for the same map. -/
lemma perm_of_lookup (h : Distinct l) (h' : Distinct l') (heq : ∀ k, l.lookup k = l'.lookup k) :
    l.Perm l' := by
  rw [List.perm_ext_iff_of_nodup (List.Nodup.of_map _ h) (List.Nodup.of_map _ h')]
  rintro ⟨k, v⟩
  rw [← lookup_iff_mem h, heq, lookup_iff_mem h']

lemma lookup_of_perm (h : Distinct l) (hperm : l.Perm l') (k : κ) : l.lookup k = l'.lookup k := by
  have h' : Distinct l' := (hperm.map Prod.fst).nodup_iff.mp h
  apply Option.ext
  intro v
  rw [lookup_iff_mem h, lookup_iff_mem h', hperm.mem_iff]

/-- Maps of the same size are equal as soon as one has the entries of the other. -/
lemma lookup_of_subset (h : Distinct l) (h' : Distinct l') (hlen : l'.length ≤ l.length)
    (hsub : ∀ p ∈ l, l'.lookup p.1 = some p.2) (k : κ) : l.lookup k = l'.lookup k := by
  have hsubset : l ⊆ l' := fun p hp => (lookup_iff_mem h').mp (hsub p hp)
  have hsubperm := List.Nodup.subperm (List.Nodup.of_map _ h) hsubset
  exact lookup_of_perm h (hsubperm.perm_of_length_le hlen) k

lemma lookup_eq_none_of_notMem {k : κ} (h : k ∉ l.map Prod.fst) : l.lookup k = none := by
  rw [List.lookup_eq_none_iff]
  intro p hp
  have hne : k ≠ p.1 := fun heq => h (heq ▸ List.mem_map_of_mem hp)
  simpa using hne

lemma lookup_reverse (h : Distinct l) (k : κ) : l.reverse.lookup k = l.lookup k :=
  (lookup_of_perm h (List.reverse_perm l).symm k).symm

lemma lookup_filter (keep : κ → Bool) (l : List (κ × α)) (k : κ) :
    (l.filter fun p => keep p.1).lookup k = if keep k then l.lookup k else none := by
  induction l with
  | nil => simp
  | cons p l ih =>
    rw [List.filter_cons, List.lookup_cons]
    by_cases hk : k = p.1
    · subst hk
      cases hkeep : keep p.1 with
      | true => rw [if_pos rfl, List.lookup_cons, beq_self_eq_true, if_pos rfl]
      | false => rw [if_neg Bool.false_ne_true, ih, hkeep, if_neg Bool.false_ne_true]; rfl
    · rw [beq_eq_false_iff_ne.mpr hk, ← ih]
      split_ifs
      · rw [List.lookup_cons, beq_eq_false_iff_ne.mpr hk]
      · rfl

/-- Related values under the same keys. -/
lemma lookup_forall₂ {β : Type*} {R : α → β → Prop} {m : List (κ × β)}
    (h : List.Forall₂ (fun p q => q.1 = p.1 ∧ R p.2 q.2) l m) (k : κ) :
    Option.Rel R (l.lookup k) (m.lookup k) := by
  induction h with
  | nil => exact .none
  | @cons p q l m hpq _ ih =>
    rw [List.lookup_cons, List.lookup_cons, hpq.1]
    cases k == p.1 with
    | true => exact .some hpq.2
    | false => exact ih

/-- A loop over the pairs of a map changes what is read at the key of each of them. -/
lemma read_foldl {σ β : Type*} {f : σ → κ × α → σ} {r : σ → κ → β} {g : κ → α → β → β}
    {I : σ → Prop} (h : Distinct l) (hI : ∀ s, ∀ p ∈ l, I s → I (f s p))
    (hf : ∀ s, ∀ p ∈ l, I s →
      ∀ k, r (f s p) k = if k = p.1 then g k p.2 (r s k) else r s k)
    {s : σ} (hs : I s) (k : κ) :
    I (l.foldl f s) ∧
      r (l.foldl f s) k = (l.lookup k).elim (r s k) fun v => g k v (r s k) := by
  induction l generalizing s with
  | nil => exact ⟨hs, rfl⟩
  | cons p l ih =>
    obtain ⟨hnot, hrest⟩ := List.nodup_cons.mp h
    have hmem : ∀ q ∈ l, q ∈ p :: l := fun q => List.mem_cons_of_mem p
    have hstep := hf s p List.mem_cons_self hs k
    obtain ⟨hI', hread⟩ := ih hrest (fun s q hq => hI s q (hmem q hq))
      (fun s q hq => hf s q (hmem q hq)) (hI s p List.mem_cons_self hs)
    rw [List.foldl_cons]
    refine ⟨hI', hread.trans ?_⟩
    rw [hstep, List.lookup_cons]
    by_cases hk : k = p.1
    · subst hk
      rw [if_pos rfl, lookup_eq_none_of_notMem hnot, beq_self_eq_true]
      rfl
    · rw [if_neg hk, beq_eq_false_iff_ne.mpr hk]

/-! ### Assignments -/

/-- `m[k] = v` -/
def set (l : List (κ × α)) (k : κ) (v : α) : List (κ × α) :=
  if k ∈ l.map Prod.fst then l.map fun p => (p.1, if p.1 = k then v else p.2)
  else l ++ [(k, v)]

/-- The pairs are assigned one after the other. -/
def assign (l ps : List (κ × α)) : List (κ × α) := ps.foldl (fun l p => set l p.1 p.2) l

@[simp] lemma assign_nil (l : List (κ × α)) : assign l [] = l := rfl

@[simp] lemma assign_cons (l ps : List (κ × α)) (p : κ × α) :
    assign l (p :: ps) = assign (set l p.1 p.2) ps := rfl

lemma set_new {k : κ} (h : k ∉ l.map Prod.fst) (v : α) : set l k v = l ++ [(k, v)] := by
  rw [set, if_neg h]

lemma keys_set (l : List (κ × α)) (k : κ) (v : α) : (set l k v).map Prod.fst =
    if k ∈ l.map Prod.fst then l.map Prod.fst else l.map Prod.fst ++ [k] := by
  unfold set
  split_ifs
  · rw [List.map_map]
    rfl
  · rw [List.map_append]
    rfl

lemma distinct_set (h : Distinct l) (k : κ) (v : α) : Distinct (set l k v) := by
  rw [Distinct, keys_set]
  split_ifs with hmem
  · exact h
  · refine List.nodup_append.mpr ⟨h, List.nodup_singleton k, ?_⟩
    rintro a ha b hb rfl
    rw [List.mem_singleton.mp hb] at ha
    exact hmem ha

lemma mem_keys_set (l : List (κ × α)) (k : κ) (v : α) (a : κ) :
    a ∈ (set l k v).map Prod.fst ↔ a ∈ l.map Prod.fst ∨ a = k := by
  rw [keys_set]
  split_ifs with hmem
  · constructor
    · exact Or.inl
    · rintro (ha | rfl)
      · exact ha
      · exact hmem
  · rw [List.mem_append, List.mem_singleton]

/-- A pair of the new map is an old one, or the one that has been assigned. -/
lemma mem_set {k : κ} {v : α} {p : κ × α} (h : p ∈ set l k v) : p ∈ l ∨ p = (k, v) := by
  unfold set at h
  split_ifs at h
  · obtain ⟨q, hq, rfl⟩ := List.mem_map.mp h
    by_cases hkey : q.1 = k
    · rw [if_pos hkey, hkey]
      exact .inr rfl
    · rw [if_neg hkey]
      exact .inl hq
  · rcases List.mem_append.mp h with h | h
    · exact .inl h
    · exact .inr (List.mem_singleton.mp h)

/-- Values that are changed key by key. -/
lemma lookup_map {β : Type*} (f : κ → α → β) (l : List (κ × α)) (k : κ) :
    (l.map fun p => (p.1, f p.1 p.2)).lookup k = (l.lookup k).map (f k) := by
  induction l with
  | nil => rfl
  | cons p l ih =>
    rw [List.map_cons, List.lookup_cons, List.lookup_cons, ih]
    by_cases hk : k = p.1
    · rw [hk, beq_self_eq_true, Option.map_some]
    · rw [beq_eq_false_iff_ne.mpr hk]

lemma isSome_lookup {k : κ} : (l.lookup k).isSome = true ↔ k ∈ l.map Prod.fst := by
  constructor
  · intro hk
    obtain ⟨v, hv⟩ := Option.isSome_iff_exists.mp hk
    obtain ⟨l₁, l₂, rfl, -⟩ := List.lookup_eq_some_iff.mp hv
    simp
  · intro hk
    obtain ⟨p, hp, rfl⟩ := List.mem_map.mp hk
    rw [Option.isSome_iff_ne_none]
    intro hnone
    have hne := List.lookup_eq_none_iff.mp hnone p hp
    simp at hne

lemma lookup_set (l : List (κ × α)) (k : κ) (v : α) (a : κ) :
    (set l k v).lookup a = if a = k then some v else l.lookup a := by
  unfold set
  split_ifs with hmem ha ha
  · obtain ⟨w, hw⟩ := Option.isSome_iff_exists.mp (isSome_lookup.mpr hmem)
    rw [lookup_map fun b w => if b = k then v else w, ha, hw, Option.map_some, if_pos rfl]
  · rw [lookup_map fun b w => if b = k then v else w]
    cases l.lookup a with
    | none => rfl
    | some w => rw [Option.map_some, if_neg ha]
  · rw [List.lookup_append, ha, lookup_eq_none_of_notMem hmem, Option.none_or, List.lookup_cons,
      beq_self_eq_true]
  · rw [List.lookup_append, List.lookup_cons, beq_eq_false_iff_ne.mpr ha]
    exact Option.or_none

/-- Values may be changed before the assignment. -/
lemma map_set {β : Type*} (f : α → β) (l : List (κ × α)) (k : κ) (v : α) :
    (set l k v).map (fun p => (p.1, f p.2)) = set (l.map fun p => (p.1, f p.2)) k (f v) := by
  have hkeys : (l.map fun p => (p.1, f p.2)).map Prod.fst = l.map Prod.fst := List.map_map
  unfold set
  rw [hkeys]
  split_ifs
  · rw [List.map_map, List.map_map]
    apply List.map_congr_left
    intro p _
    exact congrArg (p.1, ·) (apply_ite f _ _ _)
  · rw [List.map_append]
    rfl

lemma map_assign {β : Type*} (f : α → β) (l ps : List (κ × α)) :
    (assign l ps).map (fun p => (p.1, f p.2)) =
      assign (l.map fun p => (p.1, f p.2)) (ps.map fun p => (p.1, f p.2)) := by
  induction ps generalizing l with
  | nil => rfl
  | cons p ps ih => rw [assign_cons, ih, map_set, List.map_cons, assign_cons]

lemma distinct_assign (h : Distinct l) (ps : List (κ × α)) : Distinct (assign l ps) := by
  induction ps generalizing l with
  | nil => exact h
  | cons p ps ih => exact ih (distinct_set h p.1 p.2)

lemma mem_keys_assign (l ps : List (κ × α)) (k : κ) :
    k ∈ (assign l ps).map Prod.fst ↔ k ∈ l.map Prod.fst ∨ k ∈ ps.map Prod.fst := by
  induction ps generalizing l with
  | nil => simp
  | cons p ps ih => rw [assign_cons, ih, mem_keys_set, List.map_cons, List.mem_cons, or_assoc]

lemma keys_assign {l ps : List (κ × α)} (h : ∀ k ∈ ps.map Prod.fst, k ∈ l.map Prod.fst) :
    (assign l ps).map Prod.fst = l.map Prod.fst := by
  induction ps generalizing l with
  | nil => rfl
  | cons p ps ih =>
    have hkeys : (set l p.1 p.2).map Prod.fst = l.map Prod.fst := by
      rw [keys_set, if_pos (h p.1 List.mem_cons_self)]
    rw [assign_cons, ih, hkeys]
    intro k hk
    rw [hkeys]
    exact h k (List.mem_cons_of_mem p.1 hk)

lemma mem_assign {ps : List (κ × α)} {p : κ × α} (h : p ∈ assign l ps) : p ∈ l ∨ p ∈ ps := by
  induction ps generalizing l with
  | nil => exact .inl h
  | cons q ps ih =>
    rcases ih h with h | h
    · rcases mem_set h with h | rfl
      · exact .inl h
      · exact .inr List.mem_cons_self
    · exact .inr (List.mem_cons_of_mem q h)

/-- What is assigned last stays. -/
lemma lookup_assign (l ps : List (κ × α)) (k : κ) :
    (assign l ps).lookup k = (ps.reverse.lookup k).or (l.lookup k) := by
  induction ps generalizing l with
  | nil => rfl
  | cons p ps ih =>
    rw [assign_cons, ih, lookup_set, List.reverse_cons, List.lookup_append, Option.or_assoc]
    congr 1
    rw [List.lookup_cons]
    by_cases hk : k = p.1
    · rw [if_pos hk, hk, beq_self_eq_true]
      rfl
    · rw [if_neg hk, beq_eq_false_iff_ne.mpr hk]
      rfl

/-- Different new keys are added in their order. -/
lemma assign_new {ps : List (κ × α)} (h : Distinct (l ++ ps)) : assign l ps = l ++ ps := by
  induction ps generalizing l with
  | nil => rw [List.append_nil, assign_nil]
  | cons p ps ih =>
    have hnew : p.1 ∉ l.map Prod.fst := by
      rw [Distinct, List.map_append] at h
      intro hmem
      exact (List.nodup_append.mp h).2.2 p.1 hmem p.1 (by simp) rfl
    rw [assign_cons, set_new hnew, ih (by simpa using h), List.append_assoc, List.singleton_append]

/-- Maps with the same keys in the same order are equal if they have the same values. -/
lemma eq_of_lookup (h : Distinct l) (hkeys : l'.map Prod.fst = l.map Prod.fst)
    (hlookup : ∀ k ∈ l.map Prod.fst, l'.lookup k = l.lookup k) : l' = l := by
  induction l generalizing l' with
  | nil => exact List.map_eq_nil_iff.mp hkeys
  | cons p l ih =>
    obtain ⟨q, m, rfl, hq, hm⟩ := List.map_eq_cons_iff.mp hkeys
    obtain ⟨hnot, hrest⟩ := List.nodup_cons.mp h
    have hvalue := hlookup p.1 List.mem_cons_self
    rw [List.lookup_cons, List.lookup_cons, hq, beq_self_eq_true] at hvalue
    refine congrArg₂ List.cons (Prod.ext hq (Option.some.inj hvalue)) (ih hrest hm fun k hk => ?_)
    have hne : k ≠ p.1 := fun heq => hnot (heq ▸ hk)
    have htail := hlookup k (List.mem_cons_of_mem _ hk)
    rwa [List.lookup_cons, List.lookup_cons, hq, beq_eq_false_iff_ne.mpr hne] at htail

/-- Assignments change nothing exactly if the last value that each key gets is there already. -/
lemma assign_eq_self_iff (h : Distinct l) (ps : List (κ × α)) :
    assign l ps = l ↔ ∀ k v, ps.reverse.lookup k = some v → l.lookup k = some v := by
  constructor
  · intro heq k v hv
    rw [← heq, lookup_assign, hv, Option.some_or]
  · intro hlast
    refine eq_of_lookup h (keys_assign fun k hk => ?_) fun k _ => ?_
    · have hsome : (ps.reverse.lookup k).isSome = true := by
        rw [isSome_lookup, List.map_reverse, List.mem_reverse]
        exact hk
      obtain ⟨v, hv⟩ := Option.isSome_iff_exists.mp hsome
      rw [← isSome_lookup, hlast k v hv, Option.isSome_some]
    · rw [lookup_assign]
      cases hk : ps.reverse.lookup k with
      | none => exact Option.none_or
      | some v => rw [Option.some_or, hlast k v hk]

end Keyed
