import Dripcap.Library.Run
import Dripcap.Script.Echo

/-!
# A call of a packet dissector

`ScriptClass::analyze`. The layers of a packet are shared: a wrapper object has a pointer to its
layer, and the accessors `namespace` and `name` write there at once. Whatever else a script does to
the objects it is given stays in these objects until `PacketWrapper::syncFromScript` copies them
back.

The layers are the cells of a heap, a script object of a layer is the position at which it stands
in the list of all of them. The script is known by what it does in a call. Objects of former calls
are there as well, since a script can have kept them.
-/

namespace Dripcap

namespace Analyze

abbrev LayerPtr := ℕ

abbrev ObjectPtr := ℕ

/-- A `Layer` in memory. -/
structure Cell where
  ns : String := ""
  name : String := ""
  payload : Object := .nil
  ext : ExtMap := .empty
  layers : List (String × LayerPtr) := []
  streams : List PacketStream := []

/-- A script object with a `LayerWrapper`: its own properties and the contents of the two that
cannot be replaced. Elements of `layers` that are no such object are left out, they are skipped
everywhere. -/
structure Wrapper where
  layer : LayerPtr
  props : List (String × Property) := []
  layers : List (String × ObjectPtr) := []
  streams : List StreamElement := []

/-- The layers and the script objects, `packet->layers`, and what stands in the property `layers`
of the packet's object. -/
structure State where
  cells : List Cell := []
  objects : List Wrapper := []
  roots : List (String × LayerPtr) := []
  list : List (String × ObjectPtr) := []

/-- The properties of a layer's object that write to the layer. -/
inductive Accessor where
  | ns
  | name
  deriving DecidableEq

/-- What a script does to the objects of a packet. Reading changes nothing. -/
inductive Action where
  /-- assign `namespace` or `name` -/
  | assign (obj : ObjectPtr) (acc : Accessor) (value : String)
  /-- assign another property -/
  | set (obj : ObjectPtr) (name : String) (value : Value)
  /-- change the object `layers` -/
  | setLayers (obj : ObjectPtr) (layers : List (String × ObjectPtr))
  /-- change the array `streams` -/
  | setStreams (obj : ObjectPtr) (streams : List StreamElement)
  /-- change the object `layers` of the packet -/
  | setRoots (list : List (String × ObjectPtr))
  /-- `new Layer()` -/
  | newLayer

namespace Cell

/-- `LayerWrapper::ns` and `LayerWrapper::name` -/
def get (c : Cell) : Accessor → String
  | .ns => c.ns
  | .name => c.name

/-- `LayerWrapper::setNs` and `LayerWrapper::setName` -/
def set (c : Cell) (value : String) : Accessor → Cell
  | .ns => { c with ns := value }
  | .name => { c with name := value }

end Cell

namespace State

def modifyCell (s : State) (p : LayerPtr) (f : Cell → Cell) : State :=
  { s with cells := s.cells.modify p f }

def modifyObject (s : State) (obj : ObjectPtr) (f : Wrapper → Wrapper) : State :=
  { s with objects := s.objects.modify obj f }

/-- The properties of a new `Layer` object. -/
def newProperties : List (String × Property) :=
  [("fields", ⟨.array [], true⟩), ("attrs", ⟨.object [], true⟩)]

/-- One action of a script; there is no action on an object that does not exist. -/
def step (s : State) : Action → Option State
  | .assign obj acc value =>
    s.objects[obj]?.map fun w => s.modifyCell w.layer fun c => c.set value acc
  | .set obj name value =>
    s.objects[obj]?.map fun _ =>
      s.modifyObject obj fun w => { w with props := setOwn w.props name value }
  | .setLayers obj layers =>
    s.objects[obj]?.map fun _ => s.modifyObject obj fun w => { w with layers }
  | .setStreams obj streams =>
    s.objects[obj]?.map fun _ => s.modifyObject obj fun w => { w with streams }
  | .setRoots list => some { s with list }
  | .newLayer => some { s with
      cells := s.cells ++ [{}]
      objects := s.objects ++ [{ layer := s.cells.length, props := newProperties }] }

/-! ### Copying the layers to the script and back -/

/-- The children of a layer, one after the other. -/
def syncChildren (sync : State → LayerPtr → Option (State × ObjectPtr)) (s : State) :
    List (String × LayerPtr) → Option (State × List (String × ObjectPtr))
  | [] => some (s, [])
  | (key, p) :: layers => do
    let r ← sync s p
    let rs ← syncChildren sync r.1 layers
    some (rs.1, (key, r.2) :: rs.2)

/-- `LayerWrapper::syncToScript` for a new object with the properties `props`. The fuel bounds the
depth of the tree. -/
def syncToScript (cx : Context) (props : List (String × Property)) :
    ℕ → State → LayerPtr → Option (State × ObjectPtr)
  | 0, _, _ => none
  | fuel + 1, s, p => do
    let c ← s.cells[p]?
    let obj := s.objects.length
    let props₁ ← LayerWrapper.setExt cx props c.ext.entries
    let r ← syncChildren (syncToScript cx [] fuel)
      { s with objects := s.objects ++ [{ layer := p }] } c.layers
    let payload ← MsgpackToV8 cx true c.payload
    let streams ← LayerWrapper.setStreams cx (setOwn props₁ "payload" payload) c.streams
    some (r.1.modifyObject obj fun _ => ⟨p, streams.1, toProperties r.2, streams.2⟩, obj)

/-- `PacketWrapper::syncToScript` -/
def syncPacketToScript (cx : Context) (fuel : ℕ) (s : State) : Option State :=
  (syncChildren (syncToScript cx PacketWrapper.rootProperties fuel) s s.roots).map fun r =>
    { r.1 with list := toProperties r.2 }

/-- The first object of a list for which `find` finds one. -/
def findFirst (find : ObjectPtr → Option (Option ObjectPtr)) :
    List (String × ObjectPtr) → Option (Option ObjectPtr)
  | [] => some none
  | (_, obj) :: objs => do
    match ← find obj with
    | some found => some (some found)
    | none => findFirst find objs

/-- `LayerWrapper::findLayer` -/
def findLayer (s : State) (finding : LayerPtr) : ℕ → ObjectPtr → Option (Option ObjectPtr)
  | 0, _ => none
  | fuel + 1, obj => do
    let w ← s.objects[obj]?
    if w.layer = finding then some (some obj)
    else findFirst (findLayer s finding fuel) (ownProperties w.layers)

/-- `layers[name] = layer` -/
def setKey (layers : List (String × LayerPtr)) (name : String) (p : LayerPtr) :
    List (String × LayerPtr) :=
  layers.filter (·.1 ≠ name) ++ [(name, p)]

/-- The objects under the keys of `layers` are copied back, and their layers are put under the texts
of these keys with `put`. -/
def readChildren (sync : State → ObjectPtr → Option State) (put : State → String → LayerPtr → State)
    (s : State) : List (String × ObjectPtr) → Option State
  | [] => some s
  | (key, obj) :: objs => do
    let s' ← sync s obj
    let w ← s'.objects[obj]?
    readChildren sync put (put s' key w.layer) objs

/-- `LayerWrapper::syncFromScript` -/
def syncFromScript : ℕ → State → ObjectPtr → Option State
  | 0, _, _ => none
  | fuel + 1, s, obj => do
    let w ← s.objects[obj]?
    let s₁ := s.modifyCell w.layer fun c => { c with layers := [] }
    let s₂ ← readChildren (syncFromScript fuel)
      (fun s key p => s.modifyCell w.layer fun c => { c with layers := setKey c.layers key p })
      s₁ (texts w.layers)
    let payload ← LayerWrapper.readPayload w.props
    let c ← s₂.cells[w.layer]?
    let ext ← LayerWrapper.readExt c.ext (texts w.props)
    let streams ← LayerWrapper.readStreams w.streams
    some (s₂.modifyCell w.layer fun c => { c with payload, ext, streams })

/-- `PacketWrapper::syncFromScript` -/
def syncPacketFromScript (fuel : ℕ) (s : State) : Option State :=
  readChildren (syncFromScript fuel) (fun s key p => { s with roots := setKey s.roots key p })
    { s with roots := [] } (texts s.list)

end State

/-! ### The call -/

/-- What a script does in a call of `analyze`: in its constructor and in its function `analyze`. -/
inductive Script where
  | failingConstructor (ctor : List Action)
  /-- there is no function `analyze` -/
  | noFunction (ctor : List Action)
  | function (ctor body : List Action) (throws : Bool)

namespace Script

def ctor : Script → List Action
  | failingConstructor ctor | noFunction ctor | function ctor _ _ => ctor

end Script

namespace State

/-- The state in which the function `analyze` is called; there is none if the packet does not have
the parent layer. -/
def enter (cx : Context) (fuel : ℕ) (s : State) (parentLayer : LayerPtr) :
    Option (State × Option ObjectPtr) := do
  let s' ← syncPacketToScript cx fuel s
  let layer ← findFirst (findLayer s' parentLayer fuel) (ownProperties s'.list)
  some (s', layer)

/-- `ScriptClass::analyze` -/
def analyze (cx : Context) (fuel : ℕ) (s : State) (parentLayer : LayerPtr) (script : Script) :
    Option (Bool × State) := do
  let s₁ ← Run.run step s script.ctor
  match script with
  | .failingConstructor _ => some (false, s₁)
  | .noFunction _ => some (false, s₁)
  | .function _ body throws =>
    let r ← enter cx fuel s₁ parentLayer
    if r.2.isNone then some (false, r.1)
    else
      let s₂ ← Run.run step r.1 body
      if throws then some (false, s₂)
      else (syncPacketFromScript fuel s₂).map fun s₃ => (true, s₃)

end State

/-! ### What a call can write -/

/-- The layer with the last ones of the values assigned to its two accessors. -/
def Cell.overwrite (c : Cell) (values : Accessor → List String) : Cell :=
  { c with
    ns := (values .ns).getLast?.getD c.ns
    name := (values .name).getLast?.getD c.name }

lemma Cell.overwrite_append (c : Cell) (values values' : Accessor → List String) :
    (c.overwrite values).overwrite values' = c.overwrite fun acc => values acc ++ values' acc := by
  have hlast : ∀ (l l' : List String) (x : String),
      l'.getLast?.getD (l.getLast?.getD x) = (l ++ l').getLast?.getD x := by
    intro l l' x
    rw [List.getLast?_append]
    cases l'.getLast? with
    | none => rfl
    | some y => rfl
  simp only [Cell.overwrite, hlast]

lemma Cell.overwrite_eq_iff (c : Cell) (values : Accessor → List String) :
    c.overwrite values = c ↔ ∀ acc, ∀ value ∈ (values acc).getLast?, value = c.get acc := by
  have hlast : ∀ (o : Option String) (x : String), o.getD x = x ↔ ∀ y ∈ o, y = x := by
    intro o x
    cases o with
    | none => simp
    | some y => simp
  constructor
  · intro h acc
    cases acc with
    | ns => exact (hlast _ _).mp (congrArg Cell.ns h)
    | name => exact (hlast _ _).mp (congrArg Cell.name h)
  · intro h
    have hns := (hlast _ _).mpr (h .ns)
    have hname := (hlast _ _).mpr (h .name)
    simp only [Cell.overwrite, Cell.get] at hns hname ⊢
    rw [hns, hname]

namespace State

/-- The value that an action assigns to an accessor of a layer. -/
def assigned (p : LayerPtr) (acc : Accessor) (s : State) (a : Action) (_ : State) : List String :=
  match a with
  | .assign obj acc' value =>
    if acc' = acc ∧ s.objects[obj]?.map Wrapper.layer = some p then [value] else []
  | _ => []

/-- The values that a call assigns to an accessor of a layer, one after the other. -/
def assignments (cx : Context) (fuel : ℕ) (s : State) (parentLayer : LayerPtr) (script : Script)
    (p : LayerPtr) (acc : Accessor) : List String :=
  Run.observe step (assigned p acc) s script.ctor ++
    match script, (Run.run step s script.ctor).bind fun s₁ => enter cx fuel s₁ parentLayer with
    | .function _ body _, some (s', some _) => Run.observe step (assigned p acc) s' body
    | _, _ => []

/-- From `s` to `s'` the layers have been written through their accessors only, with these
values. -/
def Overwrites (s s' : State) (values : LayerPtr → Accessor → List String) : Prop :=
  s'.roots = s.roots ∧ ∀ (p : LayerPtr) (c : Cell), s.cells[p]? = some c →
    s'.cells[p]? = some (c.overwrite (values p))

variable {cx : Context} {fuel : ℕ} {s s' : State} {parentLayer : LayerPtr} {script : Script}

lemma overwrites_of_eq (hcells : s'.cells = s.cells) (hroots : s'.roots = s.roots) :
    Overwrites s s' fun _ _ => [] := by
  refine ⟨hroots, ?_⟩
  intro p c hc
  rw [hcells]
  exact hc

lemma Overwrites.append {s'' : State} {values values' : LayerPtr → Accessor → List String}
    (h : Overwrites s s' values) (h' : Overwrites s' s'' values') :
    Overwrites s s'' fun p acc => values p acc ++ values' p acc := by
  refine ⟨h'.1.trans h.1, ?_⟩
  intro p c hc
  rw [h'.2 p _ (h.2 p c hc), Cell.overwrite_append]

lemma Overwrites.congr {values values' : LayerPtr → Accessor → List String}
    (h : Overwrites s s' values) (heq : ∀ p acc, values' p acc = values p acc) :
    Overwrites s s' values' := by
  obtain rfl : values' = values := funext fun p => funext (heq p)
  exact h

/-- A step writes to a layer through its accessors only. -/
lemma step_cells {a : Action} (hs : step s a = some s') :
    Overwrites s s' fun p acc => assigned p acc s a s' := by
  have hkeep : ∀ c : Cell, c.overwrite (fun _ => []) = c := fun _ => rfl
  cases a with
  | assign obj acc value =>
    obtain ⟨w, hw, rfl⟩ := Option.map_eq_some_iff.mp hs
    refine ⟨rfl, ?_⟩
    intro p c hc
    have hlayer : s.objects[obj]?.map Wrapper.layer = some w.layer := by rw [hw]; rfl
    simp only [assigned, hlayer, modifyCell, List.getElem?_modify, hc, Option.some.injEq]
    by_cases hp : w.layer = p
    · cases acc <;> simp [hp, Cell.set, Cell.overwrite]
    · simp [hp, hkeep]
  | set obj name value =>
    obtain ⟨w, -, rfl⟩ := Option.map_eq_some_iff.mp hs
    exact ⟨rfl, fun p c hc => hc⟩
  | setLayers obj layers =>
    obtain ⟨w, -, rfl⟩ := Option.map_eq_some_iff.mp hs
    exact ⟨rfl, fun p c hc => hc⟩
  | setStreams obj streams =>
    obtain ⟨w, -, rfl⟩ := Option.map_eq_some_iff.mp hs
    exact ⟨rfl, fun p c hc => hc⟩
  | setRoots list =>
    obtain rfl := Option.some.inj hs
    exact ⟨rfl, fun p c hc => hc⟩
  | newLayer =>
    obtain rfl := Option.some.inj hs
    refine ⟨rfl, ?_⟩
    intro p c hc
    have hlt : p < s.cells.length := (List.getElem?_eq_some_iff.mp hc).1
    show (s.cells ++ [({} : Cell)])[p]? = some c
    rw [List.getElem?_append_left hlt, hc]

lemma run_cells {as : List Action} (h : Run.run step s as = some s') :
    Overwrites s s' fun p acc => Run.observe step (assigned p acc) s as := by
  refine Run.run_induction (motive := fun as s' =>
    Overwrites s s' fun p acc => Run.observe step (assigned p acc) s as)
    (overwrites_of_eq rfl rfl) ?_ h
  intro as s₁ a s₂ has ih hs
  have hnext := ih.append (step_cells hs)
  simp only [← Run.observe_concat _ has hs] at hnext
  exact hnext

/-! ### Copying to the script leaves the layers alone -/

lemma syncChildren_cells {sync : State → LayerPtr → Option (State × ObjectPtr)}
    (h : ∀ s p r, sync s p = some r → r.1.cells = s.cells ∧ r.1.roots = s.roots)
    {layers : List (String × LayerPtr)} {r : State × List (String × ObjectPtr)}
    (hr : syncChildren sync s layers = some r) : r.1.cells = s.cells ∧ r.1.roots = s.roots := by
  induction layers generalizing s r with
  | nil =>
    obtain rfl := Option.some.inj hr
    exact ⟨rfl, rfl⟩
  | cons head layers ih =>
    obtain ⟨r₁, h₁, hr⟩ := Option.bind_eq_some_iff.mp hr
    obtain ⟨r₂, h₂, hr⟩ := Option.bind_eq_some_iff.mp hr
    obtain rfl := Option.some.inj hr
    obtain ⟨hcells, hroots⟩ := h _ _ _ h₁
    obtain ⟨hcells', hroots'⟩ := ih h₂
    exact ⟨hcells'.trans hcells, hroots'.trans hroots⟩

lemma syncToScript_cells {props : List (String × Property)} {p : LayerPtr} {r : State × ObjectPtr}
    (hr : syncToScript cx props fuel s p = some r) :
    r.1.cells = s.cells ∧ r.1.roots = s.roots := by
  induction fuel generalizing s p r props with
  | zero => cases hr
  | succ fuel ih =>
    obtain ⟨c, -, hr⟩ := Option.bind_eq_some_iff.mp hr
    obtain ⟨props₁, -, hr⟩ := Option.bind_eq_some_iff.mp hr
    obtain ⟨r₁, hchildren, hr⟩ := Option.bind_eq_some_iff.mp hr
    obtain ⟨payload, -, hr⟩ := Option.bind_eq_some_iff.mp hr
    obtain ⟨streams, -, hr⟩ := Option.bind_eq_some_iff.mp hr
    obtain rfl := Option.some.inj hr
    have hsync : ∀ s p r, syncToScript cx [] fuel s p = some r →
        r.1.cells = s.cells ∧ r.1.roots = s.roots := fun _ _ _ h => ih h
    have hsame := syncChildren_cells hsync hchildren
    exact hsame

lemma enter_cells {r : State × Option ObjectPtr} (hr : enter cx fuel s parentLayer = some r) :
    r.1.cells = s.cells ∧ r.1.roots = s.roots := by
  obtain ⟨s₁, hs₁, hr⟩ := Option.bind_eq_some_iff.mp hr
  obtain ⟨found, -, hr⟩ := Option.bind_eq_some_iff.mp hr
  obtain rfl := Option.some.inj hr
  obtain ⟨r₁, hr₁, rfl⟩ := Option.map_eq_some_iff.mp hs₁
  exact syncChildren_cells (fun s p r h => syncToScript_cells h) hr₁

/-- A call that fails has written the assigned values and nothing else. -/
lemma analyze_false (h : analyze cx fuel s parentLayer script = some (false, s')) :
    Overwrites s s' (assignments cx fuel s parentLayer script) := by
  obtain ⟨s₁, hctor, h⟩ := Option.bind_eq_some_iff.mp h
  have hfirst := run_cells hctor
  cases script with
  | failingConstructor ctor =>
    obtain rfl := (Prod.mk.inj (Option.some.inj h)).2
    exact hfirst.congr fun p acc => List.append_nil _
  | noFunction ctor =>
    obtain rfl := (Prod.mk.inj (Option.some.inj h)).2
    exact hfirst.congr fun p acc => List.append_nil _
  | function ctor body throws =>
    obtain ⟨⟨s₂, found⟩, henter, h⟩ := Option.bind_eq_some_iff.mp h
    obtain ⟨hcells, hroots⟩ := enter_cells henter
    have hbefore := hfirst.append (overwrites_of_eq hcells hroots)
    simp only [List.append_nil] at hbefore
    cases found with
    | none =>
      obtain rfl := (Prod.mk.inj (Option.some.inj h)).2
      refine hbefore.congr ?_
      intro p acc
      simp only [assignments, hctor, Option.bind_some, henter, List.append_nil]
    | some obj =>
      obtain ⟨s₃, hbody, h⟩ := Option.bind_eq_some_iff.mp h
      have hafter := hbefore.append (run_cells hbody)
      cases throws with
      | true =>
        obtain rfl := (Prod.mk.inj (Option.some.inj h)).2
        refine hafter.congr ?_
        intro p acc
        simp only [assignments, hctor, Option.bind_some, henter]
      | false =>
        obtain ⟨s₄, -, heq⟩ := Option.map_eq_some_iff.mp h
        cases (Prod.mk.inj heq).1

/-! ### The layer tree of the packet -/

/-- The layers of the packet. -/
inductive InTree (s : State) : LayerPtr → Prop
  | root {key : String} {p : LayerPtr} (h : (key, p) ∈ s.roots) : InTree s p
  | child {key : String} {p q : LayerPtr} {c : Cell} (hp : InTree s p) (hc : s.cells[p]? = some c)
      (h : (key, q) ∈ c.layers) : InTree s q

/-- The packet has the layers it had, and each of them is what it was. -/
structure SameTree (s s' : State) : Prop where
  roots : s'.roots = s.roots
  cells : ∀ p c, InTree s p → s.cells[p]? = some c → s'.cells[p]? = some c

mutual

/-- The layer in memory stands for this layer. -/
inductive Represents (cells : List Cell) : LayerPtr → Layer → Prop
  | mk {p : LayerPtr} {c : Cell} {layers : LayerList} (hc : cells[p]? = some c)
      (hlayers : RepresentsList cells c.layers layers) :
      Represents cells p (.mk c.ns c.name c.payload c.ext layers c.streams)

inductive RepresentsList (cells : List Cell) : List (String × LayerPtr) → LayerList → Prop
  | nil : RepresentsList cells [] []
  | cons {key : String} {p : LayerPtr} {layer : Layer} {ps : List (String × LayerPtr)}
      {layers : LayerList} (h : Represents cells p layer) (hs : RepresentsList cells ps layers) :
      RepresentsList cells ((key, p) :: ps) ((key, layer) :: layers)

end

mutual

lemma SameTree.represents (h : SameTree s s') {p : LayerPtr} {layer : Layer} (hp : InTree s p) :
    Represents s.cells p layer → Represents s'.cells p layer
  | .mk hc hlayers =>
    .mk (h.cells p _ hp hc) (h.representsList (fun _ hq => hp.child hc hq) hlayers)

lemma SameTree.representsList (h : SameTree s s') {ps : List (String × LayerPtr)}
    {layers : LayerList} (hps : ∀ q ∈ ps, InTree s q.2) :
    RepresentsList s.cells ps layers → RepresentsList s'.cells ps layers
  | .nil => .nil
  | .cons hp hs =>
    .cons (h.represents (hps _ List.mem_cons_self) hp)
      (h.representsList (fun q hq => hps q (List.mem_cons_of_mem _ hq)) hs)

end

/-- The packet stands for the layers that it stood for. -/
lemma SameTree.roots_represent (h : SameTree s s') {layers : LayerList}
    (hlayers : RepresentsList s.cells s.roots layers) : RepresentsList s'.cells s'.roots layers := by
  rw [h.roots]
  exact h.representsList (fun _ hq => .root hq) hlayers

/-- A call that fails leaves the layer tree of the packet as it was exactly when for every layer of
it and each accessor the last value assigned, if there is one, is the one that the layer had. -/
theorem sameTree_iff (h : analyze cx fuel s parentLayer script = some (false, s')) :
    SameTree s s' ↔ ∀ p c, InTree s p → s.cells[p]? = some c → ∀ acc,
      ∀ value ∈ (assignments cx fuel s parentLayer script p acc).getLast?, value = c.get acc := by
  obtain ⟨hroots, hcells⟩ := analyze_false h
  constructor
  · intro hsame p c hp hc
    have heq : some (c.overwrite (assignments cx fuel s parentLayer script p)) = some c := by
      rw [← hcells p c hc]
      exact hsame.cells p c hp hc
    exact (c.overwrite_eq_iff _).mp (Option.some.inj heq)
  · intro hlast
    refine ⟨hroots, ?_⟩
    intro p c hp hc
    rw [hcells p c hc, (c.overwrite_eq_iff _).mpr (hlast p c hp hc)]

/-- A packet with a root layer, in which there is another one. -/
def packetState : State where
  cells := [{ ns := "::<Ethernet>", name := "Raw Layer", layers := [("::<IPv4>", 1)] },
    { ns := "::<IPv4>", name := "IPv4" }]
  roots := [("::<Ethernet>", 0)]

/-- The names of both layers are changed and that of the inner one is changed back; then the script
throws an exception. -/
def renamingScript : Script :=
  .function [] [.assign 0 .name "Ethernet", .assign 1 .name "IP", .assign 1 .name "IPv4",
    .set 0 "etherType" (.string "IPv4"), .newLayer] true

theorem sameTree_iff_renaming :
    ∃ s', analyze PacketWrapper.bareContext 3 packetState 0 renamingScript = some (false, s') ∧
      (SameTree packetState s' ↔ ∀ p c, InTree packetState p → packetState.cells[p]? = some c →
        ∀ acc, ∀ value ∈ (assignments PacketWrapper.bareContext 3 packetState 0 renamingScript p
          acc).getLast?, value = c.get acc) :=
  ⟨_, rfl, sameTree_iff rfl⟩

/-- The call fails, and the root layer has another name. -/
theorem renamed_layer :
    ∃ s', analyze PacketWrapper.bareContext 3 packetState 0 renamingScript = some (false, s') ∧
      s'.cells.map Cell.name = ["Ethernet", "IPv4", ""] ∧ ¬ SameTree packetState s' := by
  refine ⟨_, rfl, rfl, ?_⟩
  intro h
  have hcell := h.cells 0 _ (.root (List.mem_singleton_self _)) rfl
  have hname : "Ethernet" = "Raw Layer" := congrArg Cell.name (Option.some.inj hcell)
  exact absurd hname (by decide)

end State

end Analyze

end Dripcap
