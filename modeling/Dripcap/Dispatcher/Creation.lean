import Dripcap.Library.Keyed
import Dripcap.Script.Require
import Mathlib.Data.List.Induction

/-!
# Where scripts are created

The dissector workers, the filter workers and the stream thread each construct a script, load the
modules into it and run its source. The stream thread runs the source first.
-/

namespace Dripcap

/-- The modules that have been loaded: a list in every worker, and a map for all others. -/
structure LoadedModules where
  worker : List (String × String) := []
  modules : String → Option String := fun _ => none

namespace LoadedModules

/-- `Dispatcher::loadModule` -/
def loadModule (m : LoadedModules) (name source : String) : LoadedModules where
  worker := m.worker ++ [(name, source)]
  modules := Function.update m.modules name (some source)

/-- The modules after a list of commands. -/
def loaded (loads : List (String × String)) : LoadedModules :=
  loads.foldl (fun m pair => m.loadModule pair.1 pair.2) {}

/-- An order in which the map is gone over. -/
structure IsOrder (m : LoadedModules) (order : List (String × String)) : Prop where
  distinct : Keyed.Distinct order
  lookup_eq : ∀ name, order.lookup name = m.modules name

end LoadedModules

/-- What comes of the creation: the script if its source is loaded, and the answers that its
top-level code gets. -/
structure Creation where
  script : Option ScriptClassPrivate
  answers : List (String × Bool)

namespace Creation

variable (compile : Compiler) (depth : ℕ)

/-- The loop of `DissectorWorker` over its sources, for one of them. -/
def dissectorWorker (modules : List (String × String)) (source : String) : Creation :=
  let script := ({} : ScriptClassPrivate).loadModules compile modules
  let loaded := script.loadSource compile depth source
  ⟨if loaded.2.1 then some loaded.1 else none, loaded.2.2⟩

/-- The beginning of the thread of a `FilterWorker`. -/
def filterWorker (modules : List (String × String)) (source : String) : Creation :=
  let script := ({} : ScriptClassPrivate).loadModules compile modules
  let loaded := script.loadSource compile depth source
  ⟨if loaded.2.1 then some loaded.1 else none, loaded.2.2⟩

/-- The loop of the stream thread over stream dissectors, for one of them. -/
def streamThread (modules : List (String × String)) (source : String) : Creation :=
  let loaded := ({} : ScriptClassPrivate).loadSource compile depth source
  ⟨if loaded.2.1 then some (loaded.1.loadModules compile modules) else none, loaded.2.2⟩

/-- Both succeed or both fail, and the same modules are there for the top-level code. -/
def Agrees (x y : Creation) : Prop := x.script.isSome = y.script.isSome ∧ x.answers = y.answers

/-- All three ways come to the same. -/
def SameEverywhere (loads order : List (String × String)) (source : String) : Prop :=
  (dissectorWorker compile depth (LoadedModules.loaded loads).worker source).Agrees
      (filterWorker compile depth order source) ∧
    (filterWorker compile depth order source).Agrees (streamThread compile depth order source)

/-- The modules of a script that has loaded these. -/
def compiled (modules : List (String × String)) : ModuleTable :=
  (({} : ScriptClassPrivate).loadModules compile modules).modules

/-- The modules of the map. -/
def mapped (loads : List (String × String)) : ModuleTable :=
  fun name => ((LoadedModules.loaded loads).modules name).bind compile

/-- The names that the top-level code of a source asks for where there are no modules. -/
def askedAlone (source : String) : List String :=
  ((compile source).map (Code.asked fun name => decide (name = "dripcap"))).getD []

end Creation

namespace ScriptClassPrivate

variable {compile : Compiler}

/-- `loadModule` sets one entry, if there is code for it. -/
lemma loadModule_eq (script : ScriptClassPrivate) (name source : String) :
    (script.loadModule compile name source).1 = { script with
      modules := Function.update script.modules name
        ((compile source).or (script.modules name)) } := by
  unfold loadModule
  cases compile source with
  | none => rw [Option.none_or, Function.update_eq_self]
  | some code => rfl

lemma modules_loadModule (script : ScriptClassPrivate) (name source k : String) :
    (script.loadModule compile name source).1.modules k =
      if k = name then (compile source).or (script.modules name) else script.modules k := by
  rw [loadModule_eq]
  exact Function.update_apply ..

lemma loadModules_cons (script : ScriptClassPrivate) (pair : String × String)
    (modules : List (String × String)) : script.loadModules compile (pair :: modules) =
      (script.loadModule compile pair.1 pair.2).1.loadModules compile modules := rfl

lemma moduleChache_loadModules (script : ScriptClassPrivate) (modules : List (String × String)) :
    (script.loadModules compile modules).moduleChache = script.moduleChache := by
  induction modules generalizing script with
  | nil => rfl
  | cons pair modules ih => rw [loadModules_cons, ih, loadModule_eq]

/-- The modules of a map, in any order. -/
lemma modules_loadModules (script : ScriptClassPrivate) {order : List (String × String)}
    (h : Keyed.Distinct order) (name : String) : (script.loadModules compile order).modules name =
      ((order.lookup name).bind compile).or (script.modules name) := by
  induction order generalizing script with
  | nil => rfl
  | cons pair order ih =>
    obtain ⟨key, source⟩ := pair
    rw [Keyed.Distinct, List.map_cons, List.nodup_cons] at h
    rw [loadModules_cons, ih _ h.2, modules_loadModule, List.lookup_cons]
    by_cases hname : name = key
    · subst hname
      have hnone : order.lookup name = none := by
        rw [List.lookup_eq_none_iff]
        intro p hp
        exact bne_iff_ne.mpr fun heq => h.1 (List.mem_map.mpr ⟨p, hp, heq.symm⟩)
      rw [hnone, if_pos rfl, beq_self_eq_true]
      rfl
    · rw [if_neg hname, beq_eq_false_iff_ne.mpr hname]

end ScriptClassPrivate

namespace Creation

variable {compile : Compiler} {depth : ℕ} {modules : List (String × String)} {source : String}

lemma new_loadModules (modules : List (String × String)) :
    ({} : ScriptClassPrivate).loadModules compile modules = ⟨compiled compile modules, []⟩ :=
  congrArg (ScriptClassPrivate.mk (compiled compile modules))
    (ScriptClassPrivate.moduleChache_loadModules {} modules)

/-- How a source ends in a script with modules, and what it gets. -/
lemma loadSource_compiled {code : Code} (hcode : compile source = some code)
    (hacyclic : Acyclic (compiled compile modules) depth) :
    ((({} : ScriptClassPrivate).loadModules compile modules).loadSource compile depth source).2 =
      ((code.eval (provides (compiled compile modules) depth)).isSome,
        (code.asked (provides (compiled compile modules) depth)).map
          fun name => (name, provides (compiled compile modules) depth name)) := by
  rw [new_loadModules]
  exact ScriptClassPrivate.loadSource_eq hcode hacyclic rfl

lemma isSome_ite {α : Type} (b : Bool) (x : α) : (if b then some x else none).isSome = b := by
  cases b <;> rfl

lemma isSome_filterWorker : (filterWorker compile depth modules source).script.isSome =
    ((({} : ScriptClassPrivate).loadModules compile modules).loadSource compile depth source).2.1 :=
  isSome_ite _ _

/-- The stream thread creates a script as if there were no modules. -/
lemma agrees_streamThread (order : List (String × String)) :
    (filterWorker compile depth [] source).Agrees (streamThread compile depth order source) :=
  ⟨(isSome_ite _ _).trans (isSome_ite _ _).symm, rfl⟩

lemma Agrees.trans {x y z : Creation} (h : x.Agrees y) (h' : y.Agrees z) : x.Agrees z :=
  ⟨h.1.trans h'.1, h.2.trans h'.2⟩

lemma Agrees.symm {x y : Creation} (h : x.Agrees y) : y.Agrees x := ⟨h.1.symm, h.2.symm⟩

/-- With modules a creation comes to the same as without exactly if none of the modules that the
code asks for without any can be provided. -/
lemma agrees_nil_iff (hacyclic : Acyclic (compiled compile modules) depth) :
    (filterWorker compile depth modules source).Agrees (filterWorker compile depth [] source) ↔
      ∀ name ∈ askedAlone compile source, name ≠ "dripcap" →
        provides (compiled compile modules) depth name = false := by
  cases hcode : compile source with
  | none =>
    have hnone : ∀ modules, filterWorker compile depth modules source = ⟨none, []⟩ := by
      intro modules
      rw [filterWorker, ScriptClassPrivate.loadSource, hcode]
      rfl
    rw [hnone, hnone, askedAlone, hcode]
    exact iff_of_true ⟨rfl, rfl⟩ fun name hmem => by cases hmem
  | some code =>
    have halone : provides (compiled compile []) depth = fun name => decide (name = "dripcap") :=
      funext fun name => provides_of_none rfl depth
    have hwith := loadSource_compiled hcode hacyclic
    have hwithout := @loadSource_compiled compile depth [] source code hcode
      ⟨fun _ => 0, fun name code h => by cases h⟩
    rw [halone] at hwithout
    rw [Agrees, isSome_filterWorker, isSome_filterWorker]
    simp only [filterWorker, hwith, hwithout, askedAlone, hcode, Option.map_some, Option.getD_some]
    rw [Code.asked_eq_iff]
    constructor
    · rintro ⟨-, h⟩ name hmem hname
      rw [h name hmem, decide_eq_false hname]
    · intro h
      have hanswers : ∀ name ∈ code.asked (fun name => decide (name = "dripcap")),
          provides (compiled compile modules) depth name = decide (name = "dripcap") := by
        intro name hmem
        by_cases hname : name = "dripcap"
        · rw [hname, provides_dripcap]
          rfl
        · rw [h name hmem hname, decide_eq_false hname]
      exact ⟨by rw [Code.eval_of_asked hanswers], hanswers⟩

lemma compiled_of_isOrder {loads order : List (String × String)}
    (h : (LoadedModules.loaded loads).IsOrder order) :
    compiled compile order = mapped compile loads := by
  funext name
  rw [compiled, ScriptClassPrivate.modules_loadModules _ h.distinct, h.lookup_eq, Option.or_none]
  rfl

/-- As long as every source can be compiled, a worker has the modules of the map. -/
lemma compiled_worker {loads : List (String × String)}
    (h : ∀ pair ∈ loads, (compile pair.2).isSome) :
    compiled compile (LoadedModules.loaded loads).worker = mapped compile loads := by
  induction loads using List.reverseRecOn with
  | nil => rfl
  | append_singleton loads pair ih =>
    obtain ⟨hloads, hpair⟩ := List.forall_mem_append.mp h
    obtain ⟨code, hcode⟩ := Option.isSome_iff_exists.mp (hpair pair List.mem_cons_self)
    have hloaded : LoadedModules.loaded (loads ++ [pair]) =
        (LoadedModules.loaded loads).loadModule pair.1 pair.2 := List.foldl_concat ..
    have hworker : compiled compile ((LoadedModules.loaded loads).worker ++ [pair]) =
        Function.update (compiled compile (LoadedModules.loaded loads).worker) pair.1
          (some code) := by
      rw [compiled, ScriptClassPrivate.loadModules, List.foldl_concat,
        ScriptClassPrivate.loadModule_eq, hcode]
      rfl
    funext name
    have hmodules : ((LoadedModules.loaded loads).loadModule pair.1 pair.2).modules name =
        if name = pair.1 then some pair.2 else (LoadedModules.loaded loads).modules name :=
      Function.update_apply ..
    rw [mapped, hloaded, hmodules]
    refine (congrFun hworker name).trans ?_
    rw [ih hloads, Function.update_apply]
    split_ifs
    · exact hcode.symm
    · rfl

/-- The two kinds of workers create scripts alike as long as every source can be compiled. -/
theorem dissectorWorker_agrees {loads order : List (String × String)}
    (horder : (LoadedModules.loaded loads).IsOrder order)
    (h : ∀ pair ∈ loads, (compile pair.2).isSome) :
    (dissectorWorker compile depth (LoadedModules.loaded loads).worker source).Agrees
      (filterWorker compile depth order source) := by
  have htable := (compiled_worker h).trans (compiled_of_isOrder horder).symm
  rw [Agrees, dissectorWorker, filterWorker, new_loadModules, new_loadModules, htable]
  exact ⟨rfl, rfl⟩

/-- All three ways come to the same exactly if none of the modules that the top-level code asks for
without any can be provided, neither by those of the workers nor by those of the map. -/
theorem sameEverywhere_iff {loads order : List (String × String)}
    (horder : (LoadedModules.loaded loads).IsOrder order)
    (hworker : Acyclic (compiled compile (LoadedModules.loaded loads).worker) depth)
    (hmap : Acyclic (mapped compile loads) depth) :
    SameEverywhere compile depth loads order source ↔
      ∀ name ∈ askedAlone compile source, name ≠ "dripcap" →
        provides (compiled compile (LoadedModules.loaded loads).worker) depth name = false ∧
          provides (mapped compile loads) depth name = false := by
  have hcompiled := @compiled_of_isOrder compile loads order horder
  have hstream := @agrees_streamThread compile depth source order
  have hiff : SameEverywhere compile depth loads order source ↔
      (dissectorWorker compile depth (LoadedModules.loaded loads).worker source).Agrees
          (filterWorker compile depth [] source) ∧
        (filterWorker compile depth order source).Agrees (filterWorker compile depth [] source) := by
    constructor
    · rintro ⟨hsame, hfilter⟩
      have hnil := hfilter.trans hstream.symm
      exact ⟨hsame.trans hnil, hnil⟩
    · rintro ⟨hnil, hnil'⟩
      exact ⟨hnil.trans hnil'.symm, hnil'.trans hstream⟩
  rw [hiff, show dissectorWorker = filterWorker from rfl, agrees_nil_iff hworker,
    agrees_nil_iff (hcompiled ▸ hmap), hcompiled]
  constructor
  · rintro ⟨h, h'⟩ name hmem hname
    exact ⟨h name hmem hname, h' name hmem hname⟩
  · intro h
    exact ⟨fun name hmem hname => (h name hmem hname).1,
      fun name hmem hname => (h name hmem hname).2⟩

/-- A module that exports a class, and a dissector that needs it. -/
def sampleCompiler : Compiler := fun source =>
  if source = "class MACAddress" then some (.exports true)
  else if source = "import MACAddress" then
    some (.require "dripcap/mac" fun answer => if answer then .exports true else .throws)
  else none

/-- The class is loaded. -/
def sampleLoads : List (String × String) := [("dripcap/mac", "class MACAddress")]

lemma modules_sampleLoads (name : String) : (LoadedModules.loaded sampleLoads).modules name =
    if name = "dripcap/mac" then some "class MACAddress" else none := Function.update_apply ..

lemma isOrder_sampleLoads : (LoadedModules.loaded sampleLoads).IsOrder sampleLoads where
  distinct := List.nodup_singleton _
  lookup_eq name := by
    rw [modules_sampleLoads, sampleLoads, List.lookup_cons, List.lookup_nil]
    split_ifs with h
    · rw [h, beq_self_eq_true]
    · rw [beq_eq_false_iff_ne.mpr h]

lemma acyclic_sampleLoads : Acyclic (mapped sampleCompiler sampleLoads) 1 := by
  refine ⟨fun _ => 0, fun name code hcode => ⟨Nat.one_pos, fun asked hasks => ?_⟩⟩
  rw [mapped, modules_sampleLoads] at hcode
  split_ifs at hcode
  · obtain rfl : Code.exports true = code := Option.some.inj hcode
    cases hasks
  · cases hcode

lemma compiled_sampleLoads :
    compiled sampleCompiler (LoadedModules.loaded sampleLoads).worker =
      mapped sampleCompiler sampleLoads := compiled_worker (by decide)

theorem sameEverywhere_iff_sample :
    SameEverywhere sampleCompiler 1 sampleLoads sampleLoads "import MACAddress" ↔
      ∀ name ∈ askedAlone sampleCompiler "import MACAddress", name ≠ "dripcap" →
        provides (compiled sampleCompiler (LoadedModules.loaded sampleLoads).worker) 1 name = false ∧
          provides (mapped sampleCompiler sampleLoads) 1 name = false :=
  sameEverywhere_iff isOrder_sampleLoads (compiled_sampleLoads ▸ acyclic_sampleLoads)
    acyclic_sampleLoads

/-- The stream thread does not create a script that imports a class; the workers do. -/
theorem import_fails_in_stream : (LoadedModules.loaded sampleLoads).IsOrder sampleLoads ∧
    (dissectorWorker sampleCompiler 1 (LoadedModules.loaded sampleLoads).worker
      "import MACAddress").script.isSome = true ∧
    (filterWorker sampleCompiler 1 sampleLoads "import MACAddress").script.isSome = true ∧
    (streamThread sampleCompiler 1 sampleLoads "import MACAddress").script.isSome = false ∧
    ¬ SameEverywhere sampleCompiler 1 sampleLoads sampleLoads "import MACAddress" := by
  refine ⟨isOrder_sampleLoads, rfl, rfl, rfl, fun h => ?_⟩
  exact absurd h.2.1 (by decide)

end Creation

end Dripcap
