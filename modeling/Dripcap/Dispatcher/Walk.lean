import Dripcap.Library.Exploration
import Dripcap.Script.Layer

/-!
# The walk over the layers of a packet

A worker calls `firstLayer` again and again, with one history, and runs the dissectors of the layer
that it gets. They can add layers anywhere in the tree, so that every call begins at the root again.
-/

namespace Dripcap

open Exploration

/-! ### The search -/

mutual

/-- `find(pair.second->layers)` -/
def Layer.find (history : Finset String) : Layer → Option (String × Layer)
  | .mk _ _ _ _ layers _ => LayerList.find history layers

/-- `find` of `firstLayer`: the pair at which it stops. -/
def LayerList.find (history : Finset String) : LayerList → Option (String × Layer)
  | [] => none
  | (ns, layer) :: layers =>
    if ns ∉ history then some (ns, layer)
    else (layer.find history).or (LayerList.find history layers)

end

/-- `firstLayer`, with the history after it. -/
def firstLayer (layers : LayerList) (history : Finset String) : Option Layer × Finset String :=
  match LayerList.find history layers with
  | some (ns, layer) => (some layer, insert ns history)
  | none => (none, history)

/-- A path of keys leads from layers to the layers of one of them. -/
def LayerList.Leads : LayerList → List String → LayerList → Prop
  | layers, [], inner => layers = inner
  | layers, ns :: path, inner => ∃ layer, (ns, layer) ∈ layers ∧ Leads layer.layers path inner

/-- The paths in a tree. -/
def LayerList.paths (layers : LayerList) : Set (List String) :=
  {path | ∃ inner, layers.Leads path inner}

lemma LayerList.find_layers {history : Finset String} (layer : Layer) :
    layer.find history = find history layer.layers := by
  cases layer
  rw [Layer.find]
  rfl

mutual

/-- The search stops at a new key behind old ones. -/
lemma Layer.find_some {history : Finset String} {ns : String} {found : Layer} :
    (layer : Layer) → layer.find history = some (ns, found) →
      ∃ path inner, layer.layers.Leads path inner ∧ (ns, found) ∈ inner ∧
        (∀ a ∈ path, a ∈ history) ∧ ns ∉ history
  | .mk _ _ _ _ layers _, h => LayerList.find_some layers h

lemma LayerList.find_some {history : Finset String} {ns : String} {found : Layer} :
    (layers : LayerList) → LayerList.find history layers = some (ns, found) →
      ∃ path inner, layers.Leads path inner ∧ (ns, found) ∈ inner ∧
        (∀ a ∈ path, a ∈ history) ∧ ns ∉ history
  | [], h => nomatch h
  | (key, layer) :: layers, h => by
    rw [LayerList.find] at h
    split_ifs at h with hold
    · rcases Option.or_eq_some_iff.mp h with hchild | ⟨-, hrest⟩
      · obtain ⟨path, inner, hleads, hmem, hpath, hns⟩ := Layer.find_some layer hchild
        refine ⟨key :: path, inner, ⟨layer, List.mem_cons_self, hleads⟩, hmem, ?_, hns⟩
        exact List.forall_mem_cons.mpr ⟨hold, hpath⟩
      · obtain ⟨path, inner, hleads, hmem, hpath, hns⟩ := LayerList.find_some layers hrest
        cases path with
        | nil =>
          obtain rfl : layers = inner := hleads
          exact ⟨[], _, rfl, List.mem_cons_of_mem _ hmem, nofun, hns⟩
        | cons a path =>
          obtain ⟨parent, hparent, hleads⟩ := hleads
          exact ⟨a :: path, inner, ⟨parent, List.mem_cons_of_mem _ hparent, hleads⟩, hmem, hpath,
            hns⟩
    · obtain ⟨rfl, rfl⟩ := Prod.mk.inj (Option.some.inj h)
      exact ⟨[], _, rfl, List.mem_cons_self, nofun, hold⟩

end

namespace LayerList

variable {history : Finset String} {layers inner : LayerList} {path : List String} {ns : String}
  {layer : Layer}

lemma leads_append {rest : List String} : layers.Leads (path ++ rest) inner ↔
    ∃ between, layers.Leads path between ∧ between.Leads rest inner := by
  induction path generalizing layers with
  | nil => simp [Leads]
  | cons ns path ih =>
    simp only [List.cons_append, Leads, ih]
    constructor
    · rintro ⟨layer, hmem, between, hpath, hrest⟩
      exact ⟨between, ⟨layer, hmem, hpath⟩, hrest⟩
    · rintro ⟨between, ⟨layer, hmem, hpath⟩, hrest⟩
      exact ⟨layer, hmem, between, hpath, hrest⟩

lemma find_none (h : find history layers = none) (hmem : (ns, layer) ∈ layers) :
    ns ∈ history ∧ find history layer.layers = none := by
  induction layers with
  | nil => cases hmem
  | cons pair layers ih =>
    obtain ⟨key, first⟩ := pair
    rw [find] at h
    split_ifs at h with hold
    obtain ⟨hchild, hrest⟩ := Option.or_eq_none_iff.mp h
    rcases List.mem_cons.mp hmem with heq | hmem
    · obtain ⟨rfl, rfl⟩ := Prod.mk.inj heq
      exact ⟨hold, (find_layers layer).symm.trans hchild⟩
    · exact ih hrest hmem

/-- The search returns nothing when all keys are old. -/
lemma mem_of_find_none (h : find history layers = none) (hleads : layers.Leads path inner) :
    ∀ a ∈ path, a ∈ history := by
  induction path generalizing layers with
  | nil => nofun
  | cons ns path ih =>
    obtain ⟨layer, hmem, hleads⟩ := hleads
    obtain ⟨hns, hchild⟩ := find_none h hmem
    exact List.forall_mem_cons.mpr ⟨hns, ih hchild hleads⟩

end LayerList

/-! ### The loop -/

section Loop

-- `trees n` is the tree at the call `n`, in the order of that call
variable (trees : ℕ → LayerList)

/-- The history before a call. -/
def history : ℕ → Finset String
  | 0 => ∅
  | n + 1 => (firstLayer (trees n) (history n)).2

/-- What a call returns. -/
def call (n : ℕ) : Option Layer := (firstLayer (trees n) (history trees n)).1

/-- The key of the layer that a call returns. -/
def callKey (n : ℕ) : Option String := (LayerList.find (history trees n) (trees n)).map Prod.fst

variable {trees} {n : ℕ} {k : String}

lemma call_eq_none_iff : call trees n = none ↔ callKey trees n = none := by
  unfold call callKey firstLayer
  cases LayerList.find (history trees n) (trees n) with
  | none => exact iff_of_true rfl rfl
  | some pair => exact iff_of_false nofun nofun

lemma mem_history_succ :
    k ∈ history trees (n + 1) ↔ k ∈ history trees n ∨ callKey trees n = some k := by
  rw [history, callKey, firstLayer]
  cases LayerList.find (history trees n) (trees n) with
  | none => exact (or_iff_left nofun).symm
  | some pair =>
    rw [Option.map_some, Option.some.injEq, eq_comm (a := pair.1), or_comm]
    exact Finset.mem_insert

/-- The history has the keys of the layers that have been returned. -/
lemma mem_history_iff : k ∈ history trees n ↔ k ∈ known (callKey trees) n := by
  induction n with
  | zero => exact iff_of_false (Finset.notMem_empty k) fun ⟨m, hm, _⟩ => Nat.not_lt_zero m hm
  | succ n ih =>
    rw [mem_history_succ, ih]
    constructor
    · rintro (⟨m, hm, hkey⟩ | hkey)
      · exact ⟨m, Nat.lt_succ_of_lt hm, hkey⟩
      · exact ⟨n, Nat.lt_succ_self n, hkey⟩
    · rintro ⟨m, hm, hkey⟩
      rcases Nat.lt_succ_iff_lt_or_eq.mp hm with hlt | rfl
      · exact .inl ⟨m, hlt, hkey⟩
      · exact .inr hkey

/-- Where a call stops. -/
lemma leads_of_callKey (h : callKey trees n = some k) :
    ∃ path inner layer, (trees n).Leads path inner ∧ (k, layer) ∈ inner ∧
      call trees n = some layer ∧ (∀ a ∈ path, a ∈ history trees n) ∧ k ∉ history trees n := by
  obtain ⟨⟨ns, layer⟩, hfind, rfl⟩ := Option.map_eq_some_iff.mp h
  obtain ⟨path, inner, hleads, hmem, hpath, hns⟩ := LayerList.find_some _ hfind
  have hcall : call trees n = some layer := by rw [call, firstLayer, hfind]
  exact ⟨path, inner, layer, hleads, hmem, hcall, hpath, hns⟩

/-- The calls explore the paths of the tree. -/
lemma explores (hgrows : ∀ n, (trees n).paths ⊆ (trees (n + 1)).paths) :
    Explores (fun n => (trees n).paths) (callKey trees) where
  closed n path rest h := by
    obtain ⟨inner, hleads⟩ := h
    obtain ⟨between, hleads, -⟩ := LayerList.leads_append.mp hleads
    exact ⟨between, hleads⟩
  grows := hgrows
  opens n k h := by
    obtain ⟨path, inner, layer, hleads, hmem, -, hpath, hnew⟩ := leads_of_callKey h
    have hchild : (trees n).Leads (path ++ [k]) layer.layers :=
      LayerList.leads_append.mpr ⟨inner, hleads, layer, hmem, rfl⟩
    refine ⟨path, ⟨layer.layers, hchild⟩, ?_, ?_⟩
    · exact fun a ha => mem_history_iff.mp (hpath a ha)
    · exact fun hknown => hnew (mem_history_iff.mpr hknown)
  exhausted n h k := by
    rintro ⟨path, ⟨inner, hleads⟩, -, hnew⟩
    have hold := LayerList.mem_of_find_none (Option.map_eq_none_iff.mp h) hleads k
    exact hnew (mem_history_iff.mp (hold (List.mem_append_right _ List.mem_cons_self)))

end Loop

/-- The loop ends with its call `n`, and what it has returned by then. -/
structure Walked (trees : ℕ → LayerList) (n : ℕ) : Prop where
  ends : call trees n = none ∧ ∀ m < n, call trees m ≠ none
  once : ∀ k ∈ keys (trees n).paths, ∃! m, m < n ∧ callKey trees m = some k
  only : ∀ m < n, ∃ k ∈ keys (trees n).paths, callKey trees m = some k
  distinct : ∀ m m' k, callKey trees m = some k → callKey trees m' = some k → m = m'
  below : ∀ m k, callKey trees m = some k → ∃ path inner layer, (trees m).Leads path inner ∧
    (k, layer) ∈ inner ∧ call trees m = some layer ∧ (∀ a ∈ path, a ∈ history trees m) ∧
    k ∉ history trees m

/-- However the tree grows between the calls, the loop ends after at most as many layers as there
are keys; it returns one layer for each key of the tree at its end, and a layer only after the keys
above it. -/
theorem walked {trees : ℕ → LayerList} (hgrows : ∀ n, (trees n).paths ⊆ (trees (n + 1)).paths)
    {all : Finset String} (hall : ∀ n, keys (trees n).paths ⊆ all) :
    ∃ n ≤ all.card, Walked trees n := by
  have hexplores := explores hgrows
  obtain ⟨n, hle, hnone, hsome⟩ := hexplores.ends hall
  refine ⟨n, hle, ?_⟩
  exact {
    ends := ⟨call_eq_none_iff.mpr hnone, fun m hm => fun h => hsome m hm (call_eq_none_iff.mp h)⟩
    once := fun k hk => by
      obtain ⟨m, hm, hkey⟩ := hexplores.complete hnone hk
      exact ⟨m, ⟨hm, hkey⟩, fun m' h => hexplores.eq_of_found h.2 hkey⟩
    only := fun m hm => by
      obtain ⟨k, hk⟩ := Option.ne_none_iff_exists'.mp (hsome m hm)
      exact ⟨k, hexplores.sound hm.le hk, hk⟩
    distinct := fun m m' k => hexplores.eq_of_found
    below := fun m k => leads_of_callKey }

/-- The tree before and after the first dissector. -/
def sampleTrees : ℕ → LayerList
  | 0 => [("::<Ethernet>", .mk "::<Ethernet>" "Raw" .nil .empty [] [])]
  | _ + 1 => [("::<Ethernet>", .mk "::<Ethernet>" "Raw" .nil .empty
      [("::Ethernet", .mk "::Ethernet" "Ethernet" .nil .empty [] [])] [])]

lemma paths_sampleTrees (n : ℕ) : (sampleTrees n).paths =
    {path | path <+: ["::<Ethernet>", "::Ethernet"] ∧ path.length ≤ n + 1} := by
  ext path
  rcases path with _ | ⟨a, _ | ⟨b, _ | ⟨c, path⟩⟩⟩ <;> cases n <;>
    simp [LayerList.paths, LayerList.Leads, sampleTrees, Layer.layers]

theorem walked_sample : ∃ n ≤ ({"::<Ethernet>", "::Ethernet"} : Finset String).card,
    Walked sampleTrees n := by
  refine walked (fun n => ?_) (fun n => ?_)
  · rw [paths_sampleTrees, paths_sampleTrees]
    exact fun path h => ⟨h.1, Nat.le_succ_of_le h.2⟩
  · rw [paths_sampleTrees]
    rintro k ⟨path, ⟨hbegins, -⟩, hk⟩
    simpa using hbegins.subset hk

end Dripcap
