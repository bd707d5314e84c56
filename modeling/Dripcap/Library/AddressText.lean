import Mathlib.Data.List.DropRight
import Mathlib.Data.Nat.Notation
import Mathlib.Tactic.Cases

/-!
# Texts of groups of digits

The text of an address of `n` groups has the groups in hexadecimal with a colon between two of
them. In place of some groups that are zero it can have two colons, once.
-/

namespace AddressText

/-! ### Reading -/

/-- The value of a hexadecimal digit. -/
def digit (c : Char) : Option ℕ :=
  if '0' ≤ c ∧ c ≤ '9' then some (c.toNat - 48)
  else if 'a' ≤ c ∧ c ≤ 'f' then some (c.toNat - 87)
  else if 'A' ≤ c ∧ c ≤ 'F' then some (c.toNat - 55)
  else none

/-- The number of some digits behind the digits of `n`. -/
def digits (n : ℕ) : List Char → Option ℕ
  | [] => some n
  | c :: cs => (digit c).bind fun v => digits (16 * n + v) cs

/-- A group has one to four digits. -/
def group (piece : List Char) : Option ℕ :=
  if piece = [] ∨ 4 < piece.length then none else digits 0 piece

/-- Pieces with colons between them. -/
def joined (pieces : List (List Char)) : List Char := [':'].intercalate pieces

/-- The pieces in front of the first empty one. -/
def left (text : List Char) : List (List Char) := (text.splitOn ':').takeWhile fun p => p ≠ []

/-- The pieces behind the last empty one. -/
def right (text : List Char) : List (List Char) := (text.splitOn ':').rtakeWhile fun p => p ≠ []

/-- The groups that a text of `n` groups denotes. -/
def read (n : ℕ) (text : List Char) : Option (List ℕ) :=
  if [] ∈ text.splitOn ':' then
    if text = joined (left text) ++ ':' :: ':' :: joined (right text) ∧
        (left text).length + (right text).length < n then
      ((left text).mapM group).bind fun l => ((right text).mapM group).map fun r =>
        l ++ List.replicate (n - ((left text).length + (right text).length)) 0 ++ r
    else none
  else if (text.splitOn ':').length = n then (text.splitOn ':').mapM group
  else none

/-- The place and the number of the groups that the two colons stand for. -/
def gap (n : ℕ) (text : List Char) : Option (ℕ × ℕ) :=
  if [] ∈ text.splitOn ':' then
    some ((left text).length, n - ((left text).length + (right text).length))
  else none

/-! ### Texts with and without two colons -/

/-- The pieces of a text: they are not empty, and no colon is in them. -/
def Pieces (ps : List (List Char)) : Prop := ∀ p ∈ ps, p ≠ [] ∧ ':' ∉ p

variable {n : ℕ} {ps l r : List (List Char)}

lemma Pieces.nil_notMem (h : Pieces ps) : [] ∉ ps := fun hmem => (h [] hmem).1 rfl

lemma splitOn_joined (h : Pieces ps) (hne : ps ≠ []) : (joined ps).splitOn ':' = ps :=
  List.splitOn_intercalate ':' (fun p hp => (h p hp).2) hne

lemma joined_cons {p : List Char} (hne : ps ≠ []) : joined (p :: ps) = p ++ ':' :: joined ps := by
  cases ps with
  | nil => exact absurd rfl hne
  | cons q ps => simp [joined]

lemma read_joined (h : Pieces ps) (hne : ps ≠ []) (hlen : ps.length = n) :
    read n (joined ps) = ps.mapM group := by
  unfold read
  rw [splitOn_joined h hne, if_neg h.nil_notMem, if_pos hlen]

lemma gap_joined (h : Pieces ps) (hne : ps ≠ []) : gap n (joined ps) = none := by
  unfold gap
  rw [splitOn_joined h hne, if_neg h.nil_notMem]

lemma splitOn_short (hl : Pieces l) (hr : Pieces r) (hl' : l ≠ []) (hr' : r ≠ []) :
    (joined l ++ ':' :: ':' :: joined r).splitOn ':' = l ++ [] :: r := by
  have htail : (':' :: joined r).splitOn ':' = [] :: (joined r).splitOn ':' :=
    List.splitOn_append_cons_self [] (joined r)
  rw [List.splitOn_append_cons_self, htail, splitOn_joined hl hl', splitOn_joined hr hr']

lemma left_short (hl : Pieces l) (hr : Pieces r) (hl' : l ≠ []) (hr' : r ≠ []) :
    left (joined l ++ ':' :: ':' :: joined r) = l := by
  unfold left
  rw [splitOn_short hl hr hl' hr', List.takeWhile_append_of_pos]
  · simp
  · intro p hp
    simpa using (hl p hp).1

lemma right_short (hl : Pieces l) (hr : Pieces r) (hl' : l ≠ []) (hr' : r ≠ []) :
    right (joined l ++ ':' :: ':' :: joined r) = r := by
  unfold right List.rtakeWhile
  rw [splitOn_short hl hr hl' hr', List.reverse_append, List.reverse_cons, List.append_assoc,
    List.takeWhile_append_of_pos]
  · simp
  · intro p hp
    simpa using (hr p (List.mem_reverse.mp hp)).1

/-- Two colons stand for the groups that are missing. -/
lemma read_short (hl : Pieces l) (hr : Pieces r) (hl' : l ≠ []) (hr' : r ≠ [])
    (hlen : l.length + r.length < n) :
    read n (joined l ++ ':' :: ':' :: joined r) = (l.mapM group).bind fun gl =>
      (r.mapM group).map fun gr => gl ++ List.replicate (n - (l.length + r.length)) 0 ++ gr := by
  unfold read
  rw [left_short hl hr hl' hr', right_short hl hr hl' hr', splitOn_short hl hr hl' hr',
    if_pos (by simp), if_pos ⟨rfl, hlen⟩]

lemma gap_short (hl : Pieces l) (hr : Pieces r) (hl' : l ≠ []) (hr' : r ≠ []) :
    gap n (joined l ++ ':' :: ':' :: joined r) =
      some (l.length, n - (l.length + r.length)) := by
  unfold gap
  rw [left_short hl hr hl' hr', right_short hl hr hl' hr', splitOn_short hl hr hl' hr',
    if_pos (by simp)]

/-! ### The digits of a number -/

lemma digit_digitChar : ∀ v < 16, digit (Nat.digitChar v) = some v := by decide

lemma digitChar_ne : ∀ v < 16, Nat.digitChar v ≠ ':' ∧ Nat.digitChar v ≠ '.' ∧
    Nat.digitChar v ≠ '/' := by
  decide

lemma digitChar_eq_zero : ∀ v < 16, Nat.digitChar v = '0' → v = 0 := by decide

lemma digits_append (m : ℕ) (cs ds : List Char) :
    digits m (cs ++ ds) = (digits m cs).bind fun k => digits k ds := by
  induction cs generalizing m with
  | nil => rfl
  | cons c cs ih =>
    cases h : digit c with
    | none => simp [digits, h]
    | some v => simp [digits, h, ih]

lemma digits_toDigits (g : ℕ) : digits 0 (Nat.toDigits 16 g) = some g := by
  induction g using Nat.strongRecOn with
  | ind g ih =>
    rcases Nat.lt_or_ge g 16 with hlt | hge
    · simp [Nat.toDigits_of_lt_base hlt, digits, digit_digitChar g hlt]
    · have hlast := digit_digitChar (g % 16) (Nat.mod_lt g (by decide))
      rw [Nat.toDigits_of_base_le (by decide) hge, digits_append, ih (g / 16) (by omega)]
      simp [digits, hlast, Nat.div_add_mod]

/-- A number below `16 ^ 4` is read from its digits. -/
lemma group_toDigits {g : ℕ} (h : g < 65536) : group (Nat.toDigits 16 g) = some g := by
  have hlen : (Nat.toDigits 16 g).length ≤ 4 :=
    (Nat.length_toDigits_le_iff (by decide) (by decide)).mpr h
  unfold group
  rw [if_neg, digits_toDigits]
  rintro (hnil | hlong)
  · exact Nat.toDigits_ne_nil hnil
  · exact absurd hlen (Nat.not_le_of_lt hlong)

lemma mapM_group {gs : List ℕ} (h : ∀ g ∈ gs, g < 65536) :
    (gs.map (Nat.toDigits 16)).mapM group = some gs := by
  induction gs with
  | nil => rfl
  | cons g gs ih =>
    obtain ⟨hg, hgs⟩ := List.forall_mem_cons.mp h
    simp [List.mapM_cons, group_toDigits hg, ih hgs]

/-- What a character of the digits of a number is. -/
lemma exists_of_mem_toDigits {c : Char} {g : ℕ} (h : c ∈ Nat.toDigits 16 g) :
    ∃ v < 16, c = Nat.digitChar v := by
  induction g using Nat.strongRecOn with
  | ind g ih =>
    rcases Nat.lt_or_ge g 16 with hlt | hge
    · rw [Nat.toDigits_of_lt_base hlt] at h
      exact ⟨g, hlt, List.mem_singleton.mp h⟩
    · rw [Nat.toDigits_of_base_le (by decide) hge, List.mem_append, List.mem_singleton] at h
      rcases h with h | h
      · exact ih (g / 16) (by omega) h
      · exact ⟨g % 16, Nat.mod_lt g (by decide), h⟩

lemma pieces_toDigits (gs : List ℕ) : Pieces (gs.map (Nat.toDigits 16)) := by
  intro p hp
  obtain ⟨g, -, rfl⟩ := List.mem_map.mp hp
  refine ⟨Nat.toDigits_ne_nil, fun hmem => ?_⟩
  obtain ⟨v, hv, hc⟩ := exists_of_mem_toDigits hmem
  exact (digitChar_ne v hv).1 hc.symm

/-- Only the digits of zero begin with a zero. -/
lemma toDigits_zero_cons {g : ℕ} {cs : List Char} (h : Nat.toDigits 16 g = '0' :: cs) : g = 0 := by
  induction g using Nat.strongRecOn generalizing cs with
  | ind g ih =>
    rcases Nat.lt_or_ge g 16 with hlt | hge
    · rw [Nat.toDigits_of_lt_base hlt] at h
      exact digitChar_eq_zero g hlt (List.cons.inj h).1
    · rw [Nat.toDigits_of_base_le (by decide) hge] at h
      cases hq : Nat.toDigits 16 (g / 16) with
      | nil => exact absurd hq Nat.toDigits_ne_nil
      | cons c ds =>
        rw [hq, List.cons_append] at h
        obtain rfl := (List.cons.inj h).1
        have hzero := ih (g / 16) (by omega) hq
        omega

/-! ### Runs of zeros -/

/-- The `n` groups from `i` on are zero. -/
def IsRun (gs : List ℕ) (i n : ℕ) : Prop := ∀ t < n, gs[i + t]? = some 0

instance (gs : List ℕ) (i n : ℕ) : Decidable (IsRun gs i n) :=
  inferInstanceAs (Decidable (∀ t < n, gs[i + t]? = some 0))

/-- A run that leaves out the first and the last group. -/
def IsInnerRun (gs : List ℕ) (i n : ℕ) : Prop := 1 ≤ i ∧ i + n < gs.length ∧ IsRun gs i n

variable {gs : List ℕ} {g i m : ℕ}

lemma IsRun.mono (h : IsRun gs i n) (hm : m ≤ n) : IsRun gs i m :=
  fun t ht => h t (Nat.lt_of_lt_of_le ht hm)

@[simp] lemma isRun_cons : IsRun (g :: gs) (i + 1) n ↔ IsRun gs i n := by
  simp [IsRun, Nat.add_right_comm i 1]

lemma isRun_zero_cons : IsRun (g :: gs) 0 (n + 1) ↔ g = 0 ∧ IsRun gs 0 n := by
  constructor
  · intro h
    refine ⟨by simpa using h 0 (Nat.succ_pos n), fun t ht => ?_⟩
    simpa using h (t + 1) (Nat.succ_lt_succ ht)
  · rintro ⟨rfl, h⟩ t ht
    cases t with
    | zero => simp
    | succ t => simpa using h t (Nat.lt_of_succ_lt_succ ht)

/-- What a run covers. -/
lemma IsRun.eq_replicate (h : IsRun gs i n) :
    gs = gs.take i ++ List.replicate n 0 ++ gs.drop (i + n) := by
  have hmid : (gs.drop i).take n = List.replicate n 0 := by
    apply List.ext_getElem?
    intro t
    rcases Nat.lt_or_ge t n with hlt | hge
    · rw [List.getElem?_take_of_lt hlt, List.getElem?_drop, h t hlt]
      simp [hlt]
    · have hlen : ((gs.drop i).take n).length ≤ t := (List.length_take_le n _).trans hge
      rw [List.getElem?_eq_none hlen, List.getElem?_eq_none (by simpa using hge)]
  rw [← hmid, List.append_assoc, ← List.drop_drop, List.take_append_drop, List.take_append_drop]

end AddressText
