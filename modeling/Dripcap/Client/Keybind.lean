import Dripcap.Library.Keyed
import Dripcap.Library.Rows
import Mathlib.Data.List.Induction

/-!
# Key bindings

`KeybindInterface` keeps the bindings of packages in `_builtinCommands`. After every call `_update`
makes `_commands` from a shallow copy of it and the key map of the user. The acts `α` are strings
and functions.
-/

namespace Dripcap.Keybind

open Rows

variable {α : Type}

/-- What `profile.getKeymap()` returns: the commands with their acts for each selector, in the order
of iteration. -/
structure Keymap (α : Type) where
  map : List (String × List (String × α))
  selectors : Keyed.Distinct map
  commands : ∀ entry ∈ map, Keyed.Distinct entry.2

/-- The act of the user for a command and a selector. -/
def Keymap.get (keymap : Keymap α) (command selector : String) : Option α :=
  (keymap.map.lookup selector).bind fun commands => commands.lookup command

/-- The objects from selectors to acts are rows, and the tables of commands refer to them. -/
structure KeybindInterface (α : Type) where
  objects : Heap String α := ⟨fun _ _ => none, 0⟩
  builtinCommands : Table String := fun _ => none
  commands : Table String := fun _ => none

/-- A call of a package. `unbind` may be called without an act. -/
inductive Call (α : Type) where
  | bind (command selector : String) (act : α)
  | unbind (command selector : String) (act : Option α)

namespace KeybindInterface

/-- The body of the loops of `_update`. -/
def override (s : KeybindInterface α) (selector command : String) (act : α) : KeybindInterface α :=
  let r := s.objects.put s.commands command selector act
  { s with objects := r.1, commands := r.2 }

/-- `_update` -/
def update (keymap : Keymap α) (s : KeybindInterface α) : KeybindInterface α :=
  keymap.map.foldl (fun s entry =>
      entry.2.foldl (fun s command => s.override entry.1 command.1 command.2) s)
    { s with commands := s.builtinCommands }

/-- `bind` up to the call of `_update` -/
def bindBuiltin (s : KeybindInterface α) (command selector : String) (act : α) :
    KeybindInterface α :=
  let r := s.objects.put s.builtinCommands command selector act
  { s with objects := r.1, builtinCommands := r.2 }

section Unbind

variable [DecidableEq α]

/-- `unbind` up to the call of `_update`. The keys of an object are an array, which is never
`=== 0`, so an empty object stays. -/
def unbindBuiltin (s : KeybindInterface α) (command selector : String) (act : Option α) :
    KeybindInterface α :=
  match s.builtinCommands command with
  | some r =>
    if s.objects.row r selector = act then { s with objects := s.objects.set r selector none }
    else s
  | none => s

/-- A call. -/
def step (keymap : Keymap α) (s : KeybindInterface α) : Call α → KeybindInterface α
  | .bind command selector act => (s.bindBuiltin command selector act).update keymap
  | .unbind command selector act => (s.unbindBuiltin command selector act).update keymap

end Unbind

/-- `_builtinCommands[command][selector]` -/
def builtin (s : KeybindInterface α) (command selector : String) : Option α :=
  s.objects.read s.builtinCommands command selector

/-- `_commands[command][selector]` -/
def effective (s : KeybindInterface α) (command selector : String) : Option α :=
  s.objects.read s.commands command selector

end KeybindInterface

section Bound

variable [DecidableEq α]

/-- What a call does to the bindings of packages: the last call for a pair counts, except that an
`unbind` with another act than the bound one does nothing. -/
def Call.effect (bound : String → String → Option α) : Call α → String → String → Option α
  | .bind c sel act, command, selector =>
    if command = c ∧ selector = sel then some act else bound command selector
  | .unbind c sel act, command, selector =>
    if (command = c ∧ selector = sel) ∧ bound c sel = act then none else bound command selector

/-- The bindings of packages. -/
def bound (calls : List (Call α)) : String → String → Option α :=
  calls.foldl Call.effect fun _ _ => none

/-- The tables after calls of packages. -/
def after (keymap : Keymap α) (calls : List (Call α)) : KeybindInterface α :=
  calls.foldl (KeybindInterface.step keymap) {}

/-- The command has been bound, with whatever selector. -/
def EverBound (calls : List (Call α)) (command : String) : Prop :=
  ∃ selector act, Call.bind command selector act ∈ calls

/-- The built-in table has the bindings of packages, and the effective one is that of the user over
them. -/
structure Right (keymap : Keymap α) (calls : List (Call α)) (s : KeybindInterface α) : Prop where
  builtin : ∀ command selector, s.builtin command selector = bound calls command selector
  effective : ∀ command selector, s.effective command selector =
    (keymap.get command selector).or (bound calls command selector)

end Bound

/-! ### The loops of `_update` -/

/-- The effective table has the rows of the built-in one, which is `b` all the time. -/
structure Shares (b : Table String) (s : KeybindInterface α) : Prop where
  separate : Separate s.objects s.commands
  extends_builtin : Extends s.commands s.builtinCommands
  builtinCommands : s.builtinCommands = b

namespace KeybindInterface

variable {s : KeybindInterface α} {b : Table String}

lemma shares_override (h : Shares b s) (selector command : String) (act : α) :
    Shares b (s.override selector command act) where
  separate := h.separate.put command selector act
  extends_builtin := Extends.trans (put_extends s.objects s.commands command selector act)
    h.extends_builtin
  builtinCommands := h.builtinCommands

/-- What both tables have for a pair. -/
def views (s : KeybindInterface α) (c sel : String) : Option α × Option α :=
  (s.effective c sel, s.builtin c sel)

/-- An act of the user for a command goes into the effective table, and into the built-in one if
this has the command. -/
def overlay (b : Table String) (c : String) (act : Option α) (old : Option α × Option α) :
    Option α × Option α :=
  (act.or old.1, if (b c).isSome then act.or old.2 else old.2)

lemma overlay_none (b : Table String) (c : String) (old : Option α × Option α) :
    overlay b c none old = old := by
  simp [overlay]

lemma views_override (h : Shares b s) (selector command : String) (act : α) (c sel : String) :
    (s.override selector command act).views c sel =
      if c = command then if sel = selector then overlay b c (some act) (s.views c sel)
        else s.views c sel
      else s.views c sel := by
  have heffective : (s.override selector command act).effective c sel =
      if c = command ∧ sel = selector then some act else s.effective c sel :=
    read_put h.separate command selector act c sel
  have hbuiltin : (s.override selector command act).builtin c sel =
      if c = command ∧ sel = selector ∧ (b command).isSome then some act else s.builtin c sel := by
    rw [← h.builtinCommands]
    exact read_put_part h.separate h.extends_builtin command selector act c sel
  rw [views, heffective, hbuiltin]
  by_cases hc : c = command
  · subst hc
    by_cases hsel : sel = selector
    · simp only [hsel, true_and, if_true, overlay, Option.some_or, views]
    · simp only [hsel, false_and, and_false, if_false, if_true, views]
  · simp only [hc, false_and, if_false, views]

/-- The inner loop. -/
lemma views_commands (h : Shares b s) (selector : String) {commands : List (String × α)}
    (hcommands : Keyed.Distinct commands) (c sel : String) :
    Shares b (commands.foldl (fun s command => s.override selector command.1 command.2) s) ∧
      (commands.foldl (fun s command => s.override selector command.1 command.2) s).views c sel =
        if sel = selector then overlay b c (commands.lookup c) (s.views c sel)
        else s.views c sel := by
  obtain ⟨hshares, hread⟩ := Keyed.read_foldl (r := fun s c => s.views c sel)
    (g := fun c act old => if sel = selector then overlay b c (some act) old else old)
    (I := Shares b) hcommands
    (fun s command _ hs => shares_override hs selector command.1 command.2)
    (fun s command _ hs c => views_override hs selector command.1 command.2 c sel) h c
  refine ⟨hshares, hread.trans ?_⟩
  cases commands.lookup c with
  | none =>
    rw [overlay_none, ite_self]
    rfl
  | some act => rfl

/-- Both loops. -/
lemma views_update (keymap : Keymap α) (h : Separate s.objects s.builtinCommands) (c sel : String) :
    Shares s.builtinCommands (s.update keymap) ∧ (s.update keymap).views c sel =
      overlay s.builtinCommands c (keymap.get c sel) (s.builtin c sel, s.builtin c sel) := by
  have hshares : Shares s.builtinCommands { s with commands := s.builtinCommands } :=
    ⟨h, .refl _, rfl⟩
  obtain ⟨hshares', hread⟩ := Keyed.read_foldl (r := fun s sel c => s.views c sel)
    (f := fun s (entry : String × List (String × α)) =>
      entry.2.foldl (fun s command => s.override entry.1 command.1 command.2) s)
    (g := fun _ commands old c => overlay s.builtinCommands c (commands.lookup c) (old c))
    (I := Shares s.builtinCommands) keymap.selectors
    (fun s entry hentry hs => (views_commands hs entry.1 (keymap.commands entry hentry) c sel).1)
    (by
      intro s entry hentry hs sel
      funext c
      rw [(views_commands hs entry.1 (keymap.commands entry hentry) c sel).2]
      split_ifs <;> rfl) hshares sel
  refine ⟨hshares', (congrFun hread c).trans ?_⟩
  rw [Keymap.get]
  cases keymap.map.lookup sel with
  | none =>
    rw [Option.bind_none, overlay_none]
    rfl
  | some commands => rfl

end KeybindInterface

/-! ### Calls -/

section Calls

variable [DecidableEq α] {keymap : Keymap α} {calls : List (Call α)} {s : KeybindInterface α}

/-- Outside the user's key map the built-in table has the bindings of packages. -/
structure Agrees (keymap : Keymap α) (calls : List (Call α)) (s : KeybindInterface α) : Prop where
  separate : Separate s.objects s.builtinCommands
  ever : ∀ c, (s.builtinCommands c).isSome ↔ EverBound calls c
  unbound : ∀ c, s.builtinCommands c = none → ∀ sel, bound calls c sel = none
  builtin : ∀ c sel, keymap.get c sel = none → s.builtin c sel = bound calls c sel

lemma bound_concat (calls : List (Call α)) (call : Call α) :
    bound (calls ++ [call]) = call.effect (bound calls) := by
  rw [bound, List.foldl_append]
  rfl

lemma after_concat (keymap : Keymap α) (calls : List (Call α)) (call : Call α) :
    after keymap (calls ++ [call]) = (after keymap calls).step keymap call := by
  rw [after, List.foldl_append]
  rfl

lemma agrees_new (keymap : Keymap α) : Agrees keymap [] ({} : KeybindInterface α) where
  separate := ⟨nofun, nofun⟩
  ever _ := iff_of_false nofun fun ⟨_, _, hmem⟩ => nomatch hmem
  unbound _ _ _ := rfl
  builtin _ _ _ := rfl

omit [DecidableEq α] in
lemma everBound_bind (calls : List (Call α)) (command selector : String) (act : α) (c : String) :
    EverBound (calls ++ [.bind command selector act]) c ↔ EverBound calls c ∨ c = command := by
  constructor
  · rintro ⟨sel, a, hmem⟩
    rcases List.mem_append.mp hmem with hmem | hmem
    · exact .inl ⟨sel, a, hmem⟩
    · exact .inr (Call.bind.inj (List.mem_singleton.mp hmem)).1
  · rintro (⟨sel, a, hmem⟩ | rfl)
    · exact ⟨sel, a, List.mem_append_left _ hmem⟩
    · exact ⟨selector, act, List.mem_append_right _ (List.mem_singleton_self _)⟩

omit [DecidableEq α] in
lemma everBound_unbind (calls : List (Call α)) (command selector : String) (act : Option α)
    (c : String) : EverBound (calls ++ [.unbind command selector act]) c ↔ EverBound calls c := by
  refine exists_congr fun sel => exists_congr fun a => ?_
  rw [List.mem_append, List.mem_singleton]
  exact or_iff_left nofun

lemma Agrees.bind (h : Agrees keymap calls s) (command selector : String) (act : α) :
    Agrees keymap (calls ++ [.bind command selector act]) (s.bindBuiltin command selector act) := by
  have hmade := put_isSome s.objects s.builtinCommands command selector act
  refine ⟨h.separate.put command selector act, fun c => ?_, fun c hc sel => ?_,
    fun c sel hget => ?_⟩
  · rw [everBound_bind, ← h.ever]
    exact hmade c
  · have hnone : ¬ ((s.builtinCommands c).isSome ∨ c = command) := by
      rw [← hmade, Option.not_isSome_iff_eq_none]
      exact hc
    rw [not_or] at hnone
    rw [bound_concat, Call.effect, if_neg (fun hand => hnone.2 hand.1)]
    exact h.unbound c (Option.not_isSome_iff_eq_none.mp hnone.1) sel
  · have hread : (s.bindBuiltin command selector act).builtin c sel =
        if c = command ∧ sel = selector then some act else s.builtin c sel :=
      read_put h.separate command selector act c sel
    rw [hread, bound_concat, Call.effect, h.builtin c sel hget]

omit [DecidableEq α] in
lemma builtin_of_none {c : String} (hc : s.builtinCommands c = none) (sel : String) :
    s.builtin c sel = none := read_of_none hc sel

lemma unbindBuiltin_builtinCommands (s : KeybindInterface α) (command selector : String)
    (act : Option α) :
    (s.unbindBuiltin command selector act).builtinCommands = s.builtinCommands := by
  rw [KeybindInterface.unbindBuiltin]
  cases s.builtinCommands command with
  | none => rfl
  | some r =>
    simp only
    split_ifs <;> rfl

lemma builtin_unbindBuiltin (h : Separate s.objects s.builtinCommands) (command selector : String)
    (act : Option α) (c sel : String) : (s.unbindBuiltin command selector act).builtin c sel =
      if (c = command ∧ sel = selector) ∧ s.builtin command selector = act then none
      else s.builtin c sel := by
  rw [KeybindInterface.unbindBuiltin]
  cases hcommand : s.builtinCommands command with
  | none =>
    simp only
    split_ifs with hand
    · rw [hand.1.1]
      exact builtin_of_none hcommand sel
    · rfl
  | some r =>
    have hrow : s.builtin command selector = s.objects.row r selector :=
      read_of_some hcommand selector
    have hset : ∀ c sel, (s.objects.set r selector none).read s.builtinCommands c sel =
        if c = command ∧ sel = selector ∧ s.builtinCommands command = some r then none
        else s.objects.read s.builtinCommands c sel :=
      fun c sel => read_set (fun j hj => h.once j command r hj hcommand) selector none c sel
    simp only [hrow]
    by_cases hact : s.objects.row r selector = act
    · rw [if_pos hact, KeybindInterface.builtin, hset]
      refine if_congr ?_ rfl rfl
      simp only [hcommand, hact, and_true]
    · rw [if_neg hact, if_neg (fun hand => hact hand.2)]

lemma Agrees.unbind (h : Agrees keymap calls s) (command selector : String) (act : Option α) :
    Agrees keymap (calls ++ [.unbind command selector act])
      (s.unbindBuiltin command selector act) := by
  have htable := unbindBuiltin_builtinCommands s command selector act
  have hbound : ∀ c sel, bound calls c sel = none →
      bound (calls ++ [.unbind command selector act]) c sel = none := by
    intro c sel hnone
    rw [bound_concat, Call.effect, hnone, ite_self]
  refine ⟨?_, fun c => ?_, fun c hc sel => ?_, fun c sel hget => ?_⟩
  · rw [htable]
    refine ⟨fun c r hc => ?_, h.separate.once⟩
    have hfresh : (s.unbindBuiltin command selector act).objects.fresh = s.objects.fresh := by
      rw [KeybindInterface.unbindBuiltin]
      cases s.builtinCommands command with
      | none => rfl
      | some r =>
        simp only
        split_ifs <;> rfl
    rw [hfresh]
    exact h.separate.made c r hc
  · rw [htable, everBound_unbind]
    exact h.ever c
  · rw [htable] at hc
    exact hbound c sel (h.unbound c hc sel)
  · rw [builtin_unbindBuiltin h.separate, bound_concat, Call.effect, h.builtin c sel hget]
    by_cases hpair : c = command ∧ sel = selector
    · obtain ⟨rfl, rfl⟩ := hpair
      rw [h.builtin c sel hget]
    · rw [if_neg (fun hand => hpair hand.1), if_neg (fun hand => hpair hand.1)]

/-- What `_update` makes of the tables. -/
lemma Agrees.views_update (h : Agrees keymap calls s) (c sel : String) :
    (s.update keymap).effective c sel = (keymap.get c sel).or (bound calls c sel) ∧
      (s.update keymap).builtin c sel =
        if (s.builtinCommands c).isSome then (keymap.get c sel).or (bound calls c sel)
        else none := by
  have hviews := (KeybindInterface.views_update keymap h.separate c sel).2
  have hold : (keymap.get c sel).or (s.builtin c sel) =
      (keymap.get c sel).or (bound calls c sel) := by
    cases hget : keymap.get c sel with
    | none => rw [h.builtin c sel hget]
    | some act => rfl
  obtain ⟨heffective, hbuiltin⟩ := Prod.mk.inj hviews
  refine ⟨heffective.trans hold, hbuiltin.trans ?_⟩
  split_ifs with hsome
  · exact hold
  · exact builtin_of_none (Option.not_isSome_iff_eq_none.mp hsome) sel

lemma Agrees.update (h : Agrees keymap calls s) : Agrees keymap calls (s.update keymap) := by
  have hshares := (KeybindInterface.views_update keymap h.separate "" "").1
  refine ⟨hshares.separate.part hshares.extends_builtin, fun c => ?_, fun c hc => ?_,
    fun c sel hget => ?_⟩
  · rw [hshares.builtinCommands]
    exact h.ever c
  · rw [hshares.builtinCommands] at hc
    exact h.unbound c hc
  · rw [(h.views_update c sel).2, hget]
    split_ifs with hsome
    · rfl
    · exact (h.unbound c (Option.not_isSome_iff_eq_none.mp hsome) sel).symm

lemma agrees_after (keymap : Keymap α) (calls : List (Call α)) :
    Agrees keymap calls (after keymap calls) := by
  induction calls using List.reverseRecOn with
  | nil => exact agrees_new keymap
  | append_singleton calls call ih =>
    rw [after_concat]
    cases call with
    | bind command selector act => exact (ih.bind command selector act).update
    | unbind command selector act => exact (ih.unbind command selector act).update

/-- After an update both tables are right exactly if the user binds no pair of a command that has
ever been bound to another act than packages do. -/
lemma Agrees.right_update_iff (h : Agrees keymap calls s) : Right keymap calls (s.update keymap) ↔
    ∀ c sel act, keymap.get c sel = some act → EverBound calls c →
      bound calls c sel = some act := by
  constructor
  · intro hright c sel act hget hever
    have hbuiltin := (h.views_update c sel).2
    rw [if_pos ((h.ever c).mpr hever), hright.builtin, hget] at hbuiltin
    exact hbuiltin
  · intro hall
    refine ⟨fun c sel => ?_, fun c sel => (h.views_update c sel).1⟩
    rw [(h.views_update c sel).2]
    split_ifs with hsome
    · cases hget : keymap.get c sel with
      | none => rfl
      | some act => exact (hall c sel act hget ((h.ever c).mp hsome)).symm
    · exact (h.unbound c (Option.not_isSome_iff_eq_none.mp hsome) sel).symm

/-- After a call the tables are right exactly if, whatever the user binds for a command that has
been bound, packages have bound to the same act. -/
theorem right_iff (keymap : Keymap α) (calls : List (Call α)) (call : Call α) :
    Right keymap (calls ++ [call]) (after keymap (calls ++ [call])) ↔
      ∀ command selector act, keymap.get command selector = some act →
        EverBound (calls ++ [call]) command →
        bound (calls ++ [call]) command selector = some act := by
  have h := agrees_after keymap calls
  rw [after_concat]
  cases call with
  | bind command selector act => exact (h.bind command selector act).right_update_iff
  | unbind command selector act => exact (h.unbind command selector act).right_update_iff

end Calls

/-- The user opens files in another way. -/
def sampleKeymap : Keymap String where
  map := [("!menu", [("command+o", "my-package:open")])]
  selectors := List.nodup_singleton _
  commands := by
    rintro _ hentry
    rw [List.mem_singleton.mp hentry]
    exact List.nodup_singleton _

/-- A package binds a command and unbinds it again. -/
def sampleCalls : List (Call String) :=
  [.bind "command+o" "!menu" "pcap-file:open", .unbind "command+o" "!menu" (some "pcap-file:open")]

/-- The act of the user is in the built-in table, where no package has bound one. -/
theorem override_leaks :
    (after sampleKeymap sampleCalls).builtin "command+o" "!menu" = some "my-package:open" ∧
      bound sampleCalls "command+o" "!menu" = none ∧
      ¬ Right sampleKeymap sampleCalls (after sampleKeymap sampleCalls) := by
  have hleak : (after sampleKeymap sampleCalls).builtin "command+o" "!menu" =
      some "my-package:open" := by decide
  have hbound : bound sampleCalls "command+o" "!menu" = none := by decide
  refine ⟨hleak, hbound, fun h => ?_⟩
  have hbuiltin := h.builtin "command+o" "!menu"
  rw [hleak, hbound] at hbuiltin
  cases hbuiltin

end Dripcap.Keybind
