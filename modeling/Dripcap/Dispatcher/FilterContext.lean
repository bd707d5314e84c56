import Dripcap.Library.Prefix
import Mathlib.Data.List.TakeWhile

/-!
# The context shared by the workers of a filter

`Dispatcher::FilterContext` and the two locked sections of `FilterWorker`: fetching the next id
and completing an id. The sections are pure functions here; who calls them in which order is
left to `Dripcap.Dispatcher.FilterWorker` and `Dripcap.Dispatcher.Step`.
-/

namespace Dripcap

/-- `std::set<uint64_t>`: its elements in increasing order. -/
structure IdSet where
  elems : List ℕ
  sorted : elems.Pairwise (· < ·)

namespace IdSet

instance : Membership ℕ IdSet := ⟨fun s a => a ∈ s.elems⟩

lemma mem_def {a : ℕ} {s : IdSet} : a ∈ s ↔ a ∈ s.elems := Iff.rfl

def empty : IdSet := ⟨[], .nil⟩

/-- Insertion into an increasing list. -/
def insertList (a : ℕ) : List ℕ → List ℕ
  | [] => [a]
  | b :: l => if a < b then a :: b :: l else if a = b then b :: l else b :: insertList a l

lemma mem_insertList {a b : ℕ} {l : List ℕ} : b ∈ insertList a l ↔ b = a ∨ b ∈ l := by
  induction l with
  | nil => simp [insertList]
  | cons c l ih =>
    rw [insertList]
    split_ifs with h h'
    · simp
    · subst h'
      simp
    · simp only [List.mem_cons, ih]
      tauto

lemma sorted_insertList {a : ℕ} {l : List ℕ} (h : l.Pairwise (· < ·)) :
    (insertList a l).Pairwise (· < ·) := by
  induction l with
  | nil => simp [insertList]
  | cons c l ih =>
    obtain ⟨hc, hl⟩ := List.pairwise_cons.mp h
    rw [insertList]
    split_ifs with hac hac'
    · refine List.pairwise_cons.mpr ⟨fun b hb => ?_, h⟩
      rcases List.mem_cons.mp hb with rfl | hb
      · exact hac
      · exact hac.trans (hc b hb)
    · exact h
    · refine List.pairwise_cons.mpr ⟨fun b hb => ?_, ih hl⟩
      rcases mem_insertList.mp hb with rfl | hb
      · omega
      · exact hc b hb

/-- `std::set::insert` -/
def insert (s : IdSet) (a : ℕ) : IdSet := ⟨insertList a s.elems, sorted_insertList s.sorted⟩

/-- `std::set::erase` of a key -/
def erase (s : IdSet) (a : ℕ) : IdSet :=
  ⟨s.elems.filter (· ≠ a), s.sorted.filter _⟩

/-- The elements the loop `for (; it != end && *it <= m; ++it)` visits. -/
def upTo (s : IdSet) (m : ℕ) : List ℕ := s.elems.takeWhile (· ≤ m)

/-- `set.erase(set.begin(), it)` for the `it` that loop ends with. -/
def dropUpTo (s : IdSet) (m : ℕ) : IdSet :=
  ⟨s.elems.dropWhile (· ≤ m), s.sorted.sublist (List.dropWhile_sublist _)⟩

@[simp] lemma not_mem_empty (a : ℕ) : a ∉ empty := by simp [mem_def, empty]

@[simp] lemma mem_insert {s : IdSet} {a b : ℕ} : b ∈ s.insert a ↔ b = a ∨ b ∈ s :=
  mem_insertList

@[simp] lemma mem_erase {s : IdSet} {a b : ℕ} : b ∈ s.erase a ↔ b ∈ s ∧ b ≠ a := by
  simp [mem_def, erase]

lemma upTo_append (s : IdSet) (m : ℕ) : s.upTo m ++ (s.dropUpTo m).elems = s.elems :=
  List.takeWhile_append_dropWhile

lemma sorted_upTo (s : IdSet) (m : ℕ) : (s.upTo m).Pairwise (· < ·) :=
  s.sorted.sublist (List.takeWhile_sublist _)

/-- What the loop leaves lies above the bound: it stopped at the first such element. -/
lemma lt_of_mem_dropUpTo {s : IdSet} {m a : ℕ} (h : a ∈ s.dropUpTo m) : m < a := by
  obtain ⟨l, hl⟩ := s
  simp only [mem_def, dropUpTo] at h
  induction l with
  | nil => simp at h
  | cons c l ih =>
    obtain ⟨hc, hl'⟩ := List.pairwise_cons.mp hl
    rw [List.dropWhile_cons] at h
    split_ifs at h with hcm
    · exact ih hl' h
    · rcases List.mem_cons.mp h with rfl | h
      · simpa using hcm
      · have := hc a h
        simp only [decide_eq_true_eq] at hcm
        omega

lemma le_of_mem_upTo {s : IdSet} {m a : ℕ} (h : a ∈ s.upTo m) : a ≤ m := by
  simpa using List.mem_takeWhile_imp h

@[simp] lemma mem_upTo {s : IdSet} {m a : ℕ} : a ∈ s.upTo m ↔ a ∈ s ∧ a ≤ m := by
  rw [mem_def, ← s.upTo_append m, List.mem_append]
  refine ⟨fun h => ⟨Or.inl h, le_of_mem_upTo h⟩, fun ⟨h, hle⟩ => h.resolve_right fun hd => ?_⟩
  have := lt_of_mem_dropUpTo hd
  omega

@[simp] lemma mem_dropUpTo {s : IdSet} {m a : ℕ} : a ∈ s.dropUpTo m ↔ a ∈ s ∧ m < a := by
  rw [mem_def (s := s), ← s.upTo_append m, List.mem_append]
  refine ⟨fun h => ⟨Or.inr h, lt_of_mem_dropUpTo h⟩, fun ⟨h, hlt⟩ => h.resolve_left fun hu => ?_⟩
  have := le_of_mem_upTo hu
  omega

end IdSet

/-- `Dispatcher::FilterContext` -/
structure FilterContext where
  fetchedMaxID : ℕ := 0
  maxID : ℕ := 0
  set : IdSet := .empty
  filtering : IdSet := .empty
  filtered : List ℕ := []

namespace FilterContext

/-- The first locked section: the next id is handed to the calling worker. -/
def fetch (ctx : FilterContext) : FilterContext :=
  { ctx with
    fetchedMaxID := ctx.fetchedMaxID + 1
    filtering := ctx.filtering.insert (ctx.fetchedMaxID + 1) }

/-- The value `ctx->maxID` gets once a worker is done: everything below the smallest id still
being matched. -/
def watermark (ctx : FilterContext) : ℕ :=
  match ctx.filtering.elems with
  | [] => ctx.fetchedMaxID
  | a :: _ => a - 1

/-- The part of the second locked section that takes note of the result. -/
def record (ctx : FilterContext) (id : ℕ) (isMatch : Bool) : FilterContext :=
  { ctx with
    set := if isMatch then ctx.set.insert id else ctx.set
    filtering := ctx.filtering.erase id }

/-- The part of the second locked section that publishes what has become contiguous. -/
def publish (ctx : FilterContext) : FilterContext :=
  { ctx with
    maxID := ctx.watermark
    filtered := ctx.filtered ++ ctx.set.upTo ctx.watermark
    set := ctx.set.dropUpTo ctx.watermark }

/-- The second locked section: `id` is the id of the packet matched. -/
def complete (ctx : FilterContext) (id : ℕ) (isMatch : Bool) : FilterContext :=
  (ctx.record id isMatch).publish

end FilterContext

/-- `Dispatcher::getFiltered` on the list published for the filter; `packets` is empty if there
is no filter of that name. The loop runs over the positions `start - 1 .. end - 1`. For
`start = 0` the first of them wraps to `UINT64_MAX`, which is not below `end`. -/
def getFiltered (packets : Option (List ℕ)) (start fin : ℕ) : List ℕ :=
  if start > fin then []
  else match packets with
    | none => []
    | some filtered =>
      if start = 0 then [] else loop filtered (start - 1) (fin + 1 - start)
where
  loop (filtered : List ℕ) (i : ℕ) : ℕ → List ℕ
    | 0 => []
    | n + 1 => match filtered[i]? with
      | none => []
      | some a => a :: loop filtered (i + 1) n

end Dripcap
