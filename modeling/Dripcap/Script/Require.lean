import Mathlib.Data.List.Basic
import Mathlib.Logic.Function.Basic

/-!
# Modules of scripts

`require`, `loadModule` and `loadSource` of `script_class.cpp`. The top-level code of a script asks
for modules by their names. A module is run when it is asked for, in a context of its own; if what
it exports is a function then the function is kept and returned, else `require` throws.

The text of a source is known by what its top-level code does: which modules it asks for, what it
goes on with when it gets one and when `require` throws, and how it ends.
-/

namespace Dripcap

/-- What top-level code does. -/
inductive Code where
  /-- An exception ends it. -/
  | throws
  /-- It ends with `module.exports`, which can be a function. -/
  | exports (isFunction : Bool)
  | require (name : String) (next : Bool → Code)

/-- How top-level code ends: what it exports if it does not throw, which answers `require` gave to
it, and the cache then. -/
structure Evaluation where
  exports : Option Bool
  answers : List (String × Bool)
  moduleChache : List String

/-- A source text, if it can be compiled. -/
abbrev Compiler := String → Option Code

/-- The modules of a script. -/
abbrev ModuleTable := String → Option Code

namespace Code

/-- `script->Run(context)`, with a `require` that changes the cache. -/
def run (require : String → List String → Bool × List String) : Code → List String → Evaluation
  | .throws, cache => ⟨none, [], cache⟩
  | .exports isFunction, cache => ⟨some isFunction, [], cache⟩
  | .require name next, cache =>
    let answer := require name cache
    let rest := run require (next answer.1) answer.2
    { rest with answers := (name, answer.1) :: rest.answers }

end Code

/-- `require`. Modules can require each other up to the depth for which there is a stack, and deeper
down it throws. -/
def require (modules : ModuleTable) : ℕ → String → List String → Bool × List String
  | 0, name, cache => (decide (name = "dripcap" ∨ name ∈ cache), cache)
  | depth + 1, name, cache =>
    if name = "dripcap" then (true, cache)
    else if name ∈ cache then (true, cache)
    else match modules name with
      | none => (false, cache)
      | some code =>
        let module := code.run (require modules depth) cache
        if module.exports = some true then (true, name :: module.moduleChache)
        else (false, module.moduleChache)

/-- `ScriptClass::Private`, after its constructor. -/
structure ScriptClassPrivate where
  modules : ModuleTable := fun _ => none
  moduleChache : List String := []

namespace ScriptClassPrivate

/-- `loadModule`: a source that cannot be compiled changes nothing. -/
def loadModule (compile : Compiler) (script : ScriptClassPrivate) (name source : String) :
    ScriptClassPrivate × Bool :=
  match compile source with
  | none => (script, false)
  | some code => ({ script with modules := Function.update script.modules name (some code) }, true)

/-- The loop over modules: an error is logged. -/
def loadModules (compile : Compiler) (script : ScriptClassPrivate)
    (modules : List (String × String)) : ScriptClassPrivate :=
  modules.foldl (fun script pair => (script.loadModule compile pair.1 pair.2).1) script

/-- `loadSource`, with the answers that the top-level code gets. -/
def loadSource (compile : Compiler) (depth : ℕ) (script : ScriptClassPrivate) (src : String) :
    ScriptClassPrivate × Bool × List (String × Bool) :=
  match compile src with
  | none => (script, false, [])
  | some code =>
    let result := code.run (require script.modules depth) script.moduleChache
    ({ script with moduleChache := result.moduleChache }, result.exports.isSome, result.answers)

end ScriptClassPrivate

/-! ### What modules provide -/

namespace Code

/-- The code asks for a name, on one of its ways. -/
inductive Asks : Code → String → Prop where
  | here {name : String} {next : Bool → Code} : Asks (.require name next) name
  | next {name asked : String} {next : Bool → Code} (answer : Bool)
      (rest : Asks (next answer) asked) : Asks (.require name next) asked

/-- What code exports when it gets these answers. -/
def eval (answer : String → Bool) : Code → Option Bool
  | .throws => none
  | .exports isFunction => some isFunction
  | .require name next => eval answer (next (answer name))

/-- The names that code asks for when it gets these answers. -/
def asked (answer : String → Bool) : Code → List String
  | .throws => []
  | .exports _ => []
  | .require name next => name :: asked answer (next (answer name))

variable {answer answer' : String → Bool} {code : Code}

lemma asks_of_mem_asked {name : String} (h : name ∈ code.asked answer) : code.Asks name := by
  induction code with
  | throws => cases h
  | exports isFunction => cases h
  | require name' next ih =>
    rcases List.mem_cons.mp h with rfl | h
    · exact .here
    · exact .next _ (ih _ h)

/-- Code gets the same answers if they are the same for all that it asks for on its way. -/
lemma asked_eq_iff : (code.asked answer).map (fun name => (name, answer name)) =
      (code.asked answer').map (fun name => (name, answer' name)) ↔
    ∀ name ∈ code.asked answer', answer name = answer' name := by
  induction code with
  | throws => exact iff_of_true rfl nofun
  | exports isFunction => exact iff_of_true rfl nofun
  | require name next ih =>
    rw [asked, asked, List.map_cons, List.map_cons, List.cons.injEq, List.forall_mem_cons,
      Prod.mk.injEq]
    constructor
    · rintro ⟨⟨-, hname⟩, hrest⟩
      rw [hname] at hrest
      exact ⟨hname, (ih _).mp hrest⟩
    · rintro ⟨hname, hrest⟩
      refine ⟨⟨rfl, hname⟩, ?_⟩
      rw [hname]
      exact (ih _).mpr hrest

/-- On the same way it ends alike. -/
lemma eval_of_asked (h : ∀ name ∈ code.asked answer', answer name = answer' name) :
    code.eval answer = code.eval answer' := by
  induction code with
  | throws => rfl
  | exports isFunction => rfl
  | require name next ih =>
    obtain ⟨hname, hrest⟩ := List.forall_mem_cons.mp h
    rw [eval, eval, hname]
    exact ih _ hrest

lemma eval_congr (h : ∀ name, code.Asks name → answer name = answer' name) :
    code.eval answer = code.eval answer' :=
  eval_of_asked fun name hmem => h name (asks_of_mem_asked hmem)

end Code

/-- Does `require` answer a name with a function? A module can be provided whose top-level code,
with the modules that can be provided to it, exports a function. -/
def provides (modules : ModuleTable) : ℕ → String → Bool
  | 0, name => decide (name = "dripcap")
  | depth + 1, name => decide (name = "dripcap") ||
    (modules name).any fun code => code.eval (provides modules depth) == some true

/-- The modules do not require each other in cycles, and there is a stack for the chains of them. -/
def Acyclic (modules : ModuleTable) (depth : ℕ) : Prop :=
  ∃ rank : String → ℕ, ∀ name code, modules name = some code → rank name < depth ∧
    ∀ asked, code.Asks asked → (modules asked).isSome → rank asked < rank name

/-! ### What `require` answers -/

namespace Code

variable {require : String → List String → Bool × List String} {answer : String → Bool}
  {I : List String → Prop} {code : Code} {cache : List String}

/-- Code whose questions have these answers, whatever has been asked for before. -/
lemma run_eq (h : ∀ name, code.Asks name → ∀ cache, I cache →
      (require name cache).1 = answer name ∧ I (require name cache).2) (hcache : I cache) :
    (code.run require cache).exports = code.eval answer ∧
      (code.run require cache).answers =
        (code.asked answer).map (fun name => (name, answer name)) ∧
      I (code.run require cache).moduleChache := by
  induction code generalizing cache with
  | throws => exact ⟨rfl, rfl, hcache⟩
  | exports isFunction => exact ⟨rfl, rfl, hcache⟩
  | require name next ih =>
    obtain ⟨hname, hnext⟩ := h name .here cache hcache
    obtain ⟨hexports, hanswers, hrest⟩ :=
      ih (require name cache).1 (fun name' hasks => h name' (.next _ hasks)) hnext
    refine ⟨?_, ?_, hrest⟩
    · rw [eval, ← hname]
      exact hexports
    · rw [asked, List.map_cons, ← hname]
      exact congrArg (List.cons _) hanswers

end Code

section Require

variable {modules : ModuleTable} {name : String}

lemma provides_of_none (h : modules name = none) (depth : ℕ) :
    provides modules depth name = decide (name = "dripcap") := by
  cases depth with
  | zero => rfl
  | succ depth => rw [provides, h, Option.any_none, Bool.or_false]

lemma provides_dripcap (depth : ℕ) : provides modules depth "dripcap" = true := by
  cases depth with
  | zero => rfl
  | succ depth => rfl

/-- A module with code provides what the code exports. -/
lemma provides_of_some {code : Code} (hname : name ≠ "dripcap") (h : modules name = some code)
    (depth : ℕ) :
    provides modules (depth + 1) name = (code.eval (provides modules depth) == some true) := by
  rw [provides, h, decide_eq_false hname, Bool.false_or, Option.any_some]

/-- The modules that a module asks for are below it. -/
def Below (modules : ModuleTable) (rank : String → ℕ) : Prop :=
  ∀ name code, modules name = some code → ∀ asked, code.Asks asked → (modules asked).isSome →
    rank asked < rank name

variable {rank : String → ℕ}

/-- What a module provides does not depend on the depth if it is deep enough. -/
lemma provides_congr (hbelow : Below modules rank) {d d' : ℕ}
    (h : (modules name).isSome → rank name < d ∧ rank name < d') :
    provides modules d name = provides modules d' name := by
  induction d generalizing d' name with
  | zero =>
    cases hcode : modules name with
    | none => rw [provides_of_none hcode, provides_of_none hcode]
    | some code => exact absurd (h (by rw [hcode]; rfl)).1 (Nat.not_lt_zero _)
  | succ d ih =>
    cases hcode : modules name with
    | none => rw [provides_of_none hcode, provides_of_none hcode]
    | some code =>
      obtain ⟨hd, hd'⟩ := h (by rw [hcode]; rfl)
      cases d' with
      | zero => exact absurd hd' (Nat.not_lt_zero _)
      | succ d' =>
        have heval : code.eval (provides modules d) = code.eval (provides modules d') := by
          refine Code.eval_congr fun asked hasks => ih fun hsome => ?_
          have hlt := hbelow name code hcode asked hasks hsome
          omega
        rw [provides, provides, hcode, Option.any_some, Option.any_some, heval]

/-- With a deep stack a module finds all that it asks for. -/
lemma provides_eq_eval (hbelow : Below modules rank) {code : Code} (hname : name ≠ "dripcap")
    (h : modules name = some code) {depth : ℕ} (hdepth : rank name < depth) :
    provides modules depth name = (code.eval (provides modules depth) == some true) := by
  obtain ⟨d, rfl⟩ := Nat.exists_eq_succ_of_ne_zero (Nat.ne_zero_of_lt hdepth)
  have heval : code.eval (provides modules d) = code.eval (provides modules (d + 1)) := by
    refine Code.eval_congr fun asked hasks => provides_congr hbelow fun hsome => ?_
    have hrank := hbelow name code h asked hasks hsome
    omega
  rw [provides_of_some hname h, heval]

/-- The modules in a cache can be provided. -/
def Provided (modules : ModuleTable) (depth : ℕ) (cache : List String) : Prop :=
  ∀ name ∈ cache, provides modules depth name = true

/-- An answer of `require`, with the cache then, is what can be provided. -/
structure Answered (modules : ModuleTable) (depth : ℕ) (name : String)
    (r : Bool × List String) : Prop where
  answer : r.1 = provides modules depth name
  cache : Provided modules depth r.2

/-- A module is run and kept if it exports a function. -/
lemma answered_run (hbelow : Below modules rank) {code : Code} (hname : name ≠ "dripcap")
    (hcode : modules name = some code) {depth d : ℕ} {cache : List String}
    (hdepth : rank name < depth) (hcache : Provided modules depth cache)
    (hanswers : ∀ asked, code.Asks asked → ∀ cache, Provided modules depth cache →
      Answered modules depth asked (require modules d asked cache)) :
    Answered modules depth name (let module := code.run (require modules d) cache
      if module.exports = some true then (true, name :: module.moduleChache)
      else (false, module.moduleChache)) := by
  obtain ⟨hexports, -, hcache'⟩ := Code.run_eq (I := Provided modules depth)
    (fun asked hasks cache hcache =>
      have h := hanswers asked hasks cache hcache
      ⟨h.answer, h.cache⟩) hcache
  have hprovides := provides_eq_eval hbelow hname hcode hdepth
  simp only [hexports]
  split_ifs with htrue
  · rw [htrue] at hprovides
    exact ⟨hprovides.symm, List.forall_mem_cons.mpr ⟨hprovides, hcache'⟩⟩
  · exact ⟨(hprovides.trans (beq_eq_false_iff_ne.mpr htrue)).symm, hcache'⟩

/-- `require` answers with a function exactly if the module can be provided, however it fills the
cache. -/
lemma answered_require (hbelow : Below modules rank) {depth d : ℕ} {cache : List String}
    (hdepth : (modules name).isSome → rank name < d) (hle : d ≤ depth)
    (hcache : Provided modules depth cache) :
    Answered modules depth name (require modules d name cache) := by
  induction d generalizing name cache with
  | zero =>
    cases hcode : modules name with
    | some code => exact absurd (hdepth (by rw [hcode]; rfl)) (Nat.not_lt_zero _)
    | none =>
      refine ⟨?_, hcache⟩
      have hold : name ∈ cache → name = "dripcap" := by
        intro hmem
        have hprovides := hcache name hmem
        rwa [provides_of_none hcode, decide_eq_true_eq] at hprovides
      rw [provides_of_none hcode, require, decide_eq_decide]
      exact or_iff_left_of_imp hold
  | succ d ih =>
    rw [require]
    split_ifs with hname hmem
    · subst hname
      exact ⟨(provides_dripcap depth).symm, hcache⟩
    · exact ⟨(hcache name hmem).symm, hcache⟩
    · cases hcode : modules name with
      | none => exact ⟨by rw [provides_of_none hcode, decide_eq_false hname], hcache⟩
      | some code =>
        have hrank := hdepth (by rw [hcode]; rfl)
        refine answered_run hbelow hname hcode (Nat.lt_of_lt_of_le hrank hle) hcache ?_
        intro asked hasks cache hcache
        refine ih (fun hsome => ?_) (Nat.le_of_succ_le hle) hcache
        have hasked := hbelow name code hcode asked hasks hsome
        omega

end Require

namespace ScriptClassPrivate

variable {compile : Compiler} {depth : ℕ} {script : ScriptClassPrivate} {src : String}

/-- A source that can be compiled, with modules that do not require each other in cycles. -/
lemma loadSource_eq {code : Code} (hcode : compile src = some code)
    (hacyclic : Acyclic script.modules depth) (hcache : script.moduleChache = []) :
    (script.loadSource compile depth src).2 =
      ((code.eval (provides script.modules depth)).isSome,
        (code.asked (provides script.modules depth)).map
          fun name => (name, provides script.modules depth name)) := by
  obtain ⟨rank, hrank⟩ := hacyclic
  have hbelow : Below script.modules rank := fun name code h => (hrank name code h).2
  have hanswers : ∀ name, code.Asks name → ∀ cache, Provided script.modules depth cache →
      Answered script.modules depth name (require script.modules depth name cache) := by
    intro name _ cache hcache
    refine answered_require hbelow (fun hsome => ?_) (Nat.le_refl depth) hcache
    obtain ⟨code', hcode'⟩ := Option.isSome_iff_exists.mp hsome
    exact (hrank name code' hcode').1
  have hnil : Provided script.modules depth script.moduleChache := by
    rw [hcache]
    intro k hk
    cases hk
  obtain ⟨hexports, hlist, -⟩ := Code.run_eq (fun name hasks cache hcache =>
    have h := hanswers name hasks cache hcache
    ⟨h.answer, h.cache⟩) hnil
  rw [loadSource, hcode]
  exact Prod.ext (congrArg Option.isSome hexports) hlist

end ScriptClassPrivate

end Dripcap
