import Dripcap.Builtin.Address
import Dripcap.Builtin.Enum
import Dripcap.Library.Keyed

/-!
# Instances that rebuild themselves

An instance of a class goes to another isolate as the list that its `toMsgpack` returns, and there
it is made by the constructor from this list. All classes but `Flags` itself write what their
constructor needs: `toMsgpack` of `Flags` asks for the property `known`, which only `Enum` has.
-/

namespace Dripcap

/-- The instances of the classes of `dripcap/builtin` and of the dissectors. -/
inductive Instance where
  | enum (e : Enum)
  | flags (f : Flags)
  | macAddress (a : MACAddress)
  | ipv4Address (a : IPv4Address)
  | ipv6Address (a : IPv6Address)
  | ipv4Host (h : IPv4Host)
  | ipv6Host (h : IPv6Host)
  deriving DecidableEq

/-- Their classes. -/
inductive InstanceClass where
  | enum (c : Option EnumClass)
  | flags (c : Option FlagsClass)
  | macAddress | ipv4Address | ipv6Address | ipv4Host | ipv6Host
  deriving DecidableEq

/-- An argument of a constructor. -/
inductive Argument where
  | number (n : ℤ)
  | buffer (data : List UInt8)
  /-- an object whose values are strings -/
  | names (table : List (ℤ × String))
  /-- an object whose values are numbers -/
  | masks (table : List (String × ℤ)) (nodup : (table.map Prod.fst).Nodup)
  | instance (x : Instance)

namespace Instance

/-- `constructor` -/
def cls : Instance → InstanceClass
  | .enum e => .enum e.cls
  | .flags f => .flags f.cls
  | .macAddress _ => .macAddress
  | .ipv4Address _ => .ipv4Address
  | .ipv6Address _ => .ipv6Address
  | .ipv4Host _ => .ipv4Host
  | .ipv6Host _ => .ipv6Host

def toString : Instance → String
  | .enum e => e.toString
  | .flags f => f.toString
  | .macAddress a => a.toString
  | .ipv4Address a => a.toString
  | .ipv6Address a => a.toString
  | .ipv4Host h => h.toString
  | .ipv6Host h => h.toString

/-- Only enumerations have a `name`. -/
def name : Instance → Option String
  | .enum e => some e.name
  | _ => none

def known : Instance → Option Bool
  | .enum e => some e.known
  | _ => none

/-- Only flags have a `get`. -/
def get (key : String) : Instance → Option Bool
  | .flags f => some (f.get key)
  | _ => none

def addr : Instance → Option Instance
  | .ipv4Host h => some (.ipv4Address h.addr)
  | .ipv6Host h => some (.ipv6Address h.addr)
  | _ => none

def port : Instance → Option ℕ
  | .ipv4Host h => some h.port
  | .ipv6Host h => some h.port
  | _ => none

def data : Instance → Option (List UInt8)
  | .macAddress a => some a.data
  | .ipv4Address a => some a.data
  | .ipv6Address a => some a.data
  | _ => none

def toMsgpack : Instance → List Argument
  | .enum e =>
    match e.cls with
    | none => [.names e.ownEntry, .number e.value]
    | some _ => [.number e.value]
  | .flags f =>
    match f.cls with
    -- there is no `this.known`, and the table stays empty
    | none => [.masks [] List.nodup_nil, .number f.value]
    | some _ => [.number f.value]
  | .macAddress a => [.buffer a.data]
  | .ipv4Address a => [.buffer a.data]
  | .ipv6Address a => [.buffer a.data]
  | .ipv4Host h => [.instance (.ipv4Address h.addr), .number h.port]
  | .ipv6Host h => [.instance (.ipv6Address h.addr), .number h.port]

/-- `new C(...args)`. There is none where the constructor throws, and for a list of arguments of
other kinds than `toMsgpack` returns. -/
def construct : InstanceClass → List Argument → Option Instance
  | .enum none, [.names table, .number value] => some (.enum (.new table value))
  | .enum (some c), [.number value] => some (.enum (.ofClass c value))
  | .flags none, [.masks table nodup, .number value] => some (.flags (.new table nodup value))
  | .flags (some c), [.number value] => some (.flags (.ofClass c value))
  | .macAddress, [.buffer data] => ((MACAddress.new data).toOption).map .macAddress
  | .ipv4Address, [.buffer data] => ((IPv4Address.new data).toOption).map .ipv4Address
  | .ipv6Address, [.buffer data] => ((IPv6Address.new data).toOption).map .ipv6Address
  | .ipv4Host, [.instance (.ipv4Address addr), .number port] =>
    ((IPv4Host.new addr port).toOption).map .ipv4Host
  | .ipv6Host, [.instance (.ipv6Address addr), .number port] =>
    ((IPv6Host.new addr port).toOption).map .ipv6Host
  | _, _ => none

/-- An instance that has no instances in its list, made again. -/
def rebuildFlat (x : Instance) : Option Instance := construct x.cls x.toMsgpack

/-- An argument on the other side. -/
def rebuildArgument : Argument → Option Argument
  | .instance x => x.rebuildFlat.map .instance
  | arg => some arg

/-- `new C(...x.toMsgpack())`, with the instances in the list made in the same way. -/
def rebuild (x : Instance) : Option Instance :=
  (x.toMsgpack.mapM rebuildArgument).bind (construct x.cls)

/-- Two instances of one class that cannot be told apart. -/
structure Same (x y : Instance) : Prop where
  cls : x.cls = y.cls
  toString : x.toString = y.toString
  name : x.name = y.name
  known : x.known = y.known
  get : ∀ key, x.get key = y.get key
  addr : x.addr = y.addr
  port : x.port = y.port
  data : x.data = y.data

lemma Same.refl (x : Instance) : Same x x := ⟨rfl, rfl, rfl, rfl, fun _ => rfl, rfl, rfl, rfl⟩

/-! ### Enumerations -/

/-- The entry that `toMsgpack` of `Enum` writes is the one that its constructor needs. -/
lemma entry_ownEntry (e : Enum) : entry e.ownEntry e.value = entry e.table e.value := by
  unfold Enum.ownEntry
  cases hentry : entry e.table e.value with
  | none => rfl
  | some name => simp [entry]

lemma same_enum (e : Enum) (hcls : e.cls = none) :
    Same (.enum (.new e.ownEntry e.value)) (.enum e) := by
  have hname : (Enum.new e.ownEntry e.value).name = e.name := by
    simp [Enum.name, Enum.new, entry_ownEntry]
  exact {
    cls := congrArg InstanceClass.enum hcls.symm
    toString := by
      show (Enum.new e.ownEntry e.value).toString = e.toString
      unfold Enum.toString
      rw [hname]
      rfl
    name := congrArg some hname
    known := congrArg some (congrArg Option.isSome (entry_ownEntry e))
    get := fun _ => rfl
    addr := rfl
    port := rfl
    data := rfl }

/-! ### Flags -/

lemma get_eq_false (f : Flags) (h : ∀ key mask, (key, mask) ∈ f.table → bitAnd f.value mask = 0)
    (key : String) : f.get key = false := by
  unfold Flags.get
  cases hmask : f.table.lookup key with
  | none => rfl
  | some mask =>
    obtain ⟨l, r, hl, -⟩ := List.lookup_eq_some_iff.mp hmask
    have hzero := h key mask (hl ▸ List.mem_append_right l List.mem_cons_self)
    simp [hzero]

/-- The flag of an entry is what its mask says. -/
lemma get_of_mem (f : Flags) {key : String} {mask : ℤ} (h : (key, mask) ∈ f.table) :
    f.get key = decide (bitAnd f.value mask ≠ 0) := by
  have hlookup := (Keyed.lookup_iff_mem f.nodup).mpr h
  simp [Flags.get, hlookup]

/-- Without a table no flag is left. -/
lemma same_flags (f : Flags) (hcls : f.cls = none) :
    Same (.flags (.new [] List.nodup_nil f.value)) (.flags f) ↔
      ∀ key mask, (key, mask) ∈ f.table → bitAnd f.value mask = 0 := by
  constructor
  · intro h key mask hmem
    have hget := Option.some.inj (h.get key)
    rw [get_of_mem f hmem] at hget
    simpa [Flags.get, Flags.new] using hget
  · intro h
    have hget := get_eq_false f h
    have hnames : f.names = [] := by simp [Flags.names, hget]
    exact {
      cls := congrArg InstanceClass.flags hcls.symm
      toString := by
        show (Flags.new [] List.nodup_nil f.value).toString = f.toString
        unfold Flags.toString
        rw [hnames]
        rfl
      name := rfl
      known := rfl
      get := fun key => congrArg some (hget key).symm
      addr := rfl
      port := rfl
      data := rfl }

/-! ### What is made of an instance -/

lemma rebuild_enum (e : Enum) : rebuild (.enum e) =
    some (.enum (if e.cls = none then .new e.ownEntry e.value else e)) := by
  obtain ⟨c, table, value, htable⟩ := e
  cases c with
  | none => rfl
  | some c =>
    obtain rfl := htable c rfl
    rfl

lemma rebuild_flags (f : Flags) : rebuild (.flags f) =
    some (.flags (if f.cls = none then .new [] List.nodup_nil f.value else f)) := by
  obtain ⟨c, table, value, hnodup, htable⟩ := f
  cases c with
  | none => rfl
  | some c =>
    obtain rfl := htable c rfl
    rfl

lemma rebuildFlat_ipv4Address (a : IPv4Address) :
    rebuildFlat (.ipv4Address a) = some (.ipv4Address a) := by
  simp [rebuildFlat, construct, toMsgpack, cls, IPv4Address.new, a.length_eq, Except.toOption]

lemma rebuildFlat_ipv6Address (a : IPv6Address) :
    rebuildFlat (.ipv6Address a) = some (.ipv6Address a) := by
  simp [rebuildFlat, construct, toMsgpack, cls, IPv6Address.new, a.length_eq, Except.toOption]

/-- Addresses and hosts are made again as they are. -/
lemma rebuild_self (x : Instance) (henum : ∀ e, x ≠ .enum e) (hflags : ∀ f, x ≠ .flags f) :
    x.rebuild = some x := by
  cases x with
  | enum e => exact absurd rfl (henum e)
  | flags f => exact absurd rfl (hflags f)
  | macAddress a =>
    simp [rebuild, rebuildArgument, construct, toMsgpack, cls, MACAddress.new, a.length_eq,
      Except.toOption]
  | ipv4Address a =>
    simp [rebuild, rebuildArgument, construct, toMsgpack, cls, IPv4Address.new, a.length_eq,
      Except.toOption]
  | ipv6Address a =>
    simp [rebuild, rebuildArgument, construct, toMsgpack, cls, IPv6Address.new, a.length_eq,
      Except.toOption]
  | ipv4Host h =>
    simp [rebuild, rebuildArgument, construct, toMsgpack, cls, rebuildFlat_ipv4Address,
      IPv4Host.new_natCast _ h.port_le, Except.toOption]
  | ipv6Host h =>
    simp [rebuild, rebuildArgument, construct, toMsgpack, cls, rebuildFlat_ipv6Address,
      IPv6Host.new_natCast _ h.port_le, Except.toOption]

lemma exists_same_iff {x y : Instance} (h : x.rebuild = some y) :
    (∃ y, x.rebuild = some y ∧ Same y x) ↔ Same y x := by
  rw [h]
  simp

/-- Exactly the instances rebuild themselves that are no `Flags` of the base class with a flag that
is set. -/
theorem rebuild_iff (x : Instance) : (∃ y, x.rebuild = some y ∧ Same y x) ↔
    ∀ f, x = .flags f → f.cls = none → ∀ key mask, (key, mask) ∈ f.table →
      bitAnd f.value mask = 0 := by
  cases x with
  | enum e =>
    refine iff_of_true ?_ (by rintro f ⟨⟩)
    rw [exists_same_iff (rebuild_enum e)]
    split_ifs with hcls
    · exact same_enum e hcls
    · exact .refl _
  | flags f =>
    rw [exists_same_iff (rebuild_flags f)]
    split_ifs with hcls
    · rw [same_flags f hcls]
      simp [hcls]
    · refine iff_of_true (.refl _) ?_
      rintro g ⟨⟩ hnone
      exact absurd hnone hcls
  | _ =>
    refine iff_of_true ⟨_, rebuild_self _ ?_ ?_, .refl _⟩ (by rintro f ⟨⟩)
    · rintro e ⟨⟩
    · rintro f ⟨⟩

/-- The flags `{A: 1}` with the value 1 come back without their table. -/
theorem flags_lost : ∃ x y : Instance, x.rebuild = some y ∧ x.toString = "A (1)" ∧
    y.toString = "none (1)" ∧ x.get "A" = some true ∧ y.get "A" = some false ∧
    ¬ ∃ y, x.rebuild = some y ∧ Same y x := by
  refine ⟨.flags (.new [("A", 1)] (List.nodup_singleton _) 1), .flags (.new [] List.nodup_nil 1), rfl,
    by decide, by decide, by decide, by decide, ?_⟩
  rintro ⟨y, hy, hsame⟩
  obtain rfl := Option.some.inj hy
  exact absurd (hsame.get "A") (by decide)

end Instance

end Dripcap
