import Dripcap.Library.Outcome
import Dripcap.Script.Packing
import Dripcap.Server.Status
import Mathlib.Data.List.ReduceOption

/-!
# Commands

The handlers of `server.cpp` and the loops of `MsgpackServer::start` that call them. A handler takes
its argument apart with conversions that throw and with iterators that may be the end of a map.

The dispatcher and the packet source run in threads of their own. What they answer while a message
is handled is part of the message.

Both platforms have the same handlers. They differ in the loop, and in the numbers that a compiler
takes for a flag.
-/

namespace Dripcap.Server

open Packing

/-- How a handler ends that does not return. -/
inductive Failure where
  /-- `std::bad_cast` -/
  | badCast
  /-- any other exception -/
  | exception
  /-- the end of a map is dereferenced -/
  | missing
  deriving DecidableEq

/-- What msgpack-c and the engine make of bytes. -/
structure Msgpack where
  /-- the string of a `bin` -/
  text : List UInt8 → String
  /-- `msgpack::unpack`; it throws where there is no object -/
  unpack : List UInt8 → Option Object
  /-- the bytes of an object that an extension is made of -/
  bytes : Object → List UInt8

/-- `Device` -/
structure Device where
  name : String := ""
  description : String := ""
  link : ℤ := 0
  loopback : Bool := false

/-- `Log` -/
structure Log where
  level : ℤ
  time : ℤ
  message : String

/-- What a handler calls. -/
inductive Call where
  | start
  | stop
  | setInterface (ifs : String)
  | setPromiscuous (promisc : Bool)
  | setSnaplen (len : ℤ)
  | setBPF (filter : String)
  | setFilter (name source : String) (options : Object)
  | loadDissector (source : String) (options : Object)
  | loadStreamDissector (namespaces : List String) (source : String) (options : Object)
  | loadModule (name source : String)
  | insert (pkt : RawPacket)
  /-- the packet source becomes a `PcapDummy` -/
  | reset (packets : List RawPacket) (devices : List Device)
  | resetLogs

/-- What stands in a reply after the id. -/
inductive Body where
  | nothing
  | text (s : String)
  | result (map : List (String × String))
  | status (stat : Status)
  | data (bytes : List UInt8)
  | length (n : UInt64)
  | packets (list : List RawPacket)
  | ids (list : List UInt64)
  | devices (list : List Device)
  | logs (list : List Log)

/-- What `d->pcap`, `d->dispatcher` and `d->logBuffer` have for a handler. -/
structure Components where
  /-- the result of `start` -/
  started : Bool := true
  /-- the error of `setBPF`, if there is one -/
  setBPF : String → Option String := fun _ => none
  /-- the numbers for a status -/
  status : Status := {}
  readStream : String → UInt64 → List UInt8 := fun _ _ => []
  streamLength : String → UInt64 := fun _ => 0
  get : List UInt64 → List RawPacket := fun _ => []
  getRange : UInt64 → UInt64 → List RawPacket := fun _ _ => []
  getFiltered : String → UInt64 → UInt64 → List UInt64 := fun _ _ _ => []
  getAllDevs : List Device := []
  logBuffer : List (Option Log) := []
  logBufferIndex : ℕ := 0

/-- What the handlers change, with their calls and replies. -/
structure Session where
  /-- `stop` of the message server has not been called -/
  active : Bool := true
  capturing : Bool := false
  pingReceived : Bool := false
  /-- the status sent last -/
  status : Status := {}
  calls : List Call := []
  replies : List (UInt32 × Body) := []

abbrev Handler (α : Type) : Type := ExceptT Failure (StateM Session) α

/-! ### Taking an argument apart -/

/-- `o.as<T>()` -/
def cast {α : Type} : Option α → Handler α
  | some a => pure a
  | none => throw .badCast

/-- `it->second`, where `it` is the result of `find`. -/
def deref : Option Object → Handler Object
  | some o => pure o
  | none => throw .missing

/-- `if (it != map.end())` around `act`. -/
def ifFound {α : Type} (it : Option Object) (default : α) (act : Object → Handler α) : Handler α :=
  match it with
  | some o => act o
  | none => pure default

/-- `as<bool>` -/
def asBool : Object → Option Bool
  | .boolean b => some b
  | _ => none

/-- `as<int>` -/
def asInt : Object → Option ℤ
  | .integer n => if -2 ^ 31 ≤ n ∧ n < 2 ^ 31 then some n else none
  | _ => none

/-- `as<std::pair<uint64_t, uint64_t>>` -/
def asPair : Object → Option (UInt64 × UInt64)
  | .array [a, b] => do some (← asUInt64 a, ← asUInt64 b)
  | _ => none

/-- `as<std::vector<T>>` -/
def asVector {α : Type} (as : Object → Handler α) : Object → Handler (List α)
  | .array os => os.mapM as
  | _ => throw .badCast

section Convert

variable [Platform] (mp : Msgpack)

/-- `as<std::string>` -/
def asString (o : Object) : Handler String := cast (o.asKey mp.text)

/-- The layers of a packet. -/
def layersOf (o : Object) : Handler RawLayerList := do
  let data ← cast (asExt mp.bytes o)
  match mp.unpack data with
  | some layers => cast (convertLayers mp.text layers)
  | none => throw .exception

/-- `as<PacketPtr>` -/
def asPacket (o : Object) : Handler RawPacket := do
  let map ← cast (asMap mp.text o)
  let id ← cast (member map "id" 0 asUInt64)
  let ts_sec ← cast (member map "ts_sec" 0 asUInt64)
  let ts_nsec ← cast (member map "ts_nsec" 0 asUInt32)
  let len ← cast (member map "len" 0 asUInt32)
  let payload ← cast (member map "payload" [] (asPayload mp.bytes))
  let stream ← cast (member map "stream" "" (Object.asKey mp.text))
  let layers ← ifFound (map.lookup "layers") [] (layersOf mp)
  pure { id, ts_sec, ts_nsec, len, payload, stream, layers }

/-- `Device::Device` -/
def device (o : Object) : Option Device := do
  let map ← asMap mp.text o
  let name ← member map "name" "" (Object.asKey mp.text)
  let description ← member map "description" "" (Object.asKey mp.text)
  let link ← member map "link" 0 asInt
  let loopback ← member map "loopback" false asBool
  some { name, description, link, loopback }

end Convert

/-! ### The handlers -/

def call (c : Call) : Handler Unit := modify fun s => { s with calls := s.calls ++ [c] }

/-- `reply`. After `stop` nothing can be written. -/
def reply (id : UInt32) (body : Body) : Handler Unit :=
  modify fun s => if s.active then { s with replies := s.replies ++ [(id, body)] } else s

/-- `result["error"] = error` if a call returns `false`. -/
def resultOf (ok : Bool) (error : String) : List (String × String) :=
  if ok then [] else [("error", error)]

section Dispatcher

variable (mp : Msgpack)

/-- `Dispatcher::loadDissector`; the workers return `true`. -/
def Dispatcher.loadDissector (source : String) (options : Object) : Handler Bool := do
  call (.loadDissector source options)
  pure true

/-- `Dispatcher::loadStreamDissector`; `at` throws `std::out_of_range`. -/
def Dispatcher.loadStreamDissector (source : String) (options : Object) : Handler Bool := do
  let map ← cast (asMap mp.text options)
  match map.lookup "namespaces" with
  | some array => do
    let namespaces ← asVector (asString mp) array
    call (.loadStreamDissector namespaces source options)
    pure true
  | none => throw .exception

/-- `Dispatcher::loadModule`; the workers return `true`. -/
def Dispatcher.loadModule (name source : String) : Handler Bool := do
  call (.loadModule name source)
  pure true

end Dispatcher

section Handlers

variable [Platform] (mp : Msgpack) (env : Components) (arg : Object) (id : UInt32)

def exit : Handler Unit := do
  reply id (.text "bye")
  modify fun s => { s with active := false }

def start : Handler Unit := do
  call .start
  modify fun s => { s with capturing := env.started }
  reply id .nothing

def stop : Handler Unit := do
  call .stop
  modify fun s => { s with capturing := false }
  reply id .nothing

def ping : Handler Unit := do
  modify fun s => { s with pingReceived := true }
  reply id .nothing

def setOpt : Handler Unit := do
  let map ← cast (asMap mp.text arg)
  ifFound (map.lookup "interface") () fun o => do call (.setInterface (← asString mp o))
  ifFound (map.lookup "promiscuous") () fun o => do call (.setPromiscuous (← cast (asBool o)))
  ifFound (map.lookup "snaplen") () fun o => do call (.setSnaplen (← cast (asInt o)))
  let result ← ifFound (map.lookup "filter") [] fun o => do
    let filter ← asString mp o
    call (.setBPF filter)
    pure (resultOf (env.setBPF filter).isNone ((env.setBPF filter).getD ""))
  reply id (.result result)

/-- No iterator is looked at before it is dereferenced. The order of the arguments of the call is up
to the compiler. -/
def setFilter : Handler Unit := do
  let map ← cast (asMap mp.text arg)
  let name ← deref (map.lookup "name")
  let source ← deref (map.lookup "source")
  let options ← deref (map.lookup "options")
  call (.setFilter (← asString mp name) (← asString mp source) options)
  reply id (.result [])

/-- `load_dissector` and `load_stream_dissector`, which differ in what they call. The iterator of
`options` is not looked at. -/
def loadWith (load : String → Object → Handler Bool) : Handler Unit := do
  let map ← cast (asMap mp.text arg)
  match map.lookup "source" with
  | some source => do
    let options ← deref (map.lookup "options")
    let ok ← load (← asString mp source) options
    reply id (.result (resultOf ok ""))
  | none => reply id (.result [("error", "module path not specified")])

def loadDissector : Handler Unit := loadWith mp arg id Dispatcher.loadDissector

def loadStreamDissector : Handler Unit := loadWith mp arg id (Dispatcher.loadStreamDissector mp)

def loadModule : Handler Unit := do
  let map ← cast (asMap mp.text arg)
  match map.lookup "name", map.lookup "source" with
  | some name, some source => do
    let ok ← Dispatcher.loadModule (← asString mp name) (← asString mp source)
    reply id (.result (resultOf ok ""))
  | _, _ => reply id (.result [("error", "module path not specified")])

/-- `Status::operator!=` throws `std::out_of_range`. -/
def getStatus : Handler Unit := do
  let s ← get
  let stat : Status := { env.status with capturing := s.capturing }
  match stat.ne s.status with
  | some true => do
    modify fun s => { s with status := stat }
    reply id (.status stat)
  | some false => reply id .nothing
  | none => throw .exception

def readStream : Handler Unit := do
  let map ← cast (asMap mp.text arg)
  match map.lookup "id", map.lookup "index" with
  | some stream, some index => do
    let data := env.readStream (← asString mp stream) (← cast (asUInt64 index))
    reply id (if data.isEmpty then .nothing else .data data)
  | _, _ => reply id .nothing

def streamLength : Handler Unit := do
  reply id (.length (env.streamLength (← asString mp arg)))

def getPackets : Handler Unit := do
  let map ← cast (asMap mp.text arg)
  match map.lookup "list", map.lookup "range" with
  | some l, _ => do
    let list ← asVector (fun o => cast (asUInt64 o)) l
    reply id (.packets (env.get list))
  | none, some r => do
    let range ← cast (asPair r)
    reply id (.packets (env.getRange range.1 range.2))
  | none, none => reply id (.packets [])

def getFiltered : Handler Unit := do
  let map ← cast (asMap mp.text arg)
  match map.lookup "name", map.lookup "range" with
  | some name, some range => do
    let pair ← cast (asPair range)
    reply id (.ids (env.getFiltered (← asString mp name) pair.1 pair.2))
  | _, _ => reply id (.packets [])

def getDevices : Handler Unit := reply id (.devices env.getAllDevs)

/-- `PcapDummy::PcapDummy` -/
def pcapDummy : Handler (List RawPacket × List Device) := do
  let map ← cast (asMap mp.text arg)
  let packets ← asVector (asPacket mp) (← deref (map.lookup "packets"))
  let devices ← asVector (fun o => cast (device mp o)) (← deref (map.lookup "devices"))
  pure (packets, devices)

def setTestdata : Handler Unit := do
  let dummy ← pcapDummy mp arg
  call (.reset dummy.1 dummy.2)
  reply id .nothing

def insertAll : List RawPacket → Handler Unit
  | [] => pure ()
  | pkt :: packets => do
    call (.insert pkt)
    insertAll packets

def analyze : Handler Unit := do
  let packets ← asVector (asPacket mp) arg
  insertAll packets
  reply id .nothing

/-- The buffer is a ring, and the index is that of the oldest log. -/
def fetchLogs : Handler Unit := do
  call .resetLogs
  reply id (.logs (env.logBuffer.rotate env.logBufferIndex).reduceOption)

end Handlers

/-- The commands for which there is a handler. -/
inductive Command where
  | exit | start | stop | ping | setOpt | setFilter | loadDissector | loadStreamDissector | loadModule
  | getStatus | readStream | streamLength | getPackets | getFiltered | getDevices | setTestdata
  | analyze | fetchLogs
  deriving DecidableEq

/-- `handlers` -/
def handlers : List (String × Command) :=
  [("exit", .exit), ("start", .start), ("stop", .stop), ("ping", .ping), ("set_opt", .setOpt),
    ("set_filter", .setFilter), ("load_dissector", .loadDissector),
    ("load_stream_dissector", .loadStreamDissector), ("load_module", .loadModule),
    ("get_status", .getStatus), ("read_stream", .readStream), ("stream_length", .streamLength),
    ("get_packets", .getPackets), ("get_filtered", .getFiltered), ("get_devices", .getDevices),
    ("set_testdata", .setTestdata), ("analyze", .analyze), ("fetch_logs", .fetchLogs)]

/-! ### The loops -/

section Loops

variable [p : Platform] (mp : Msgpack) (env : Components)

/-- The handler of a command. -/
def Command.handler (arg : Object) (id : UInt32) : Command → Handler Unit
  | .exit => Server.exit id
  | .start => Server.start env id
  | .stop => Server.stop id
  | .ping => Server.ping id
  | .setOpt => Server.setOpt mp env arg id
  | .setFilter => Server.setFilter mp arg id
  | .loadDissector => Server.loadDissector mp arg id
  | .loadStreamDissector => Server.loadStreamDissector mp arg id
  | .loadModule => Server.loadModule mp arg id
  | .getStatus => Server.getStatus env id
  | .readStream => Server.readStream mp env arg id
  | .streamLength => Server.streamLength mp env arg id
  | .getPackets => Server.getPackets mp env arg id
  | .getFiltered => Server.getFiltered mp env arg id
  | .getDevices => Server.getDevices env id
  | .setTestdata => Server.setTestdata mp arg id
  | .analyze => Server.analyze mp arg id
  | .fetchLogs => Server.fetchLogs env id

/-- `obj.as<std::tuple<std::string, uint32_t, msgpack::object>>()`; a longer array is taken as
well. -/
def asRequest : Object → Option (String × UInt32 × Object)
  | .array (name :: id :: arg :: _) => do some (← name.asKey mp.text, ← asUInt32 id, arg)
  | _ => none

/-- The handler is looked up and called. -/
def handle (tuple : String × UInt32 × Object) : Handler Unit :=
  match handlers.lookup tuple.1 with
  | some cmd => cmd.handler mp env tuple.2.2 tuple.2.1
  | none => pure ()

/-- The body of the loop in `darwin/msgpack_server.cpp`, which is included for Linux. Without a
request the tuple is as it was constructed. -/
def Posix.receive (obj : Object) : Handler Unit := do
  let tuple ← tryCatch (cast (asRequest mp obj)) fun
    | .badCast => pure ("", 0, .nil)
    | e => throw e
  handle (p := .posix) mp env tuple

/-- The body of the loop in `win32/msgpack_server.cpp`, which is left as soon as `stop` has been
called. -/
def Win32.receive (obj : Object) : Handler Unit := do
  let s ← get
  if s.active then
    tryCatch (do handle (p := .win32) mp env (← cast (asRequest mp obj))) fun
      | .badCast => pure ()
      | e => throw e

end Loops

/-- The ping thread, 30 seconds after it has last looked. -/
def pingTimeout (s : Session) : Session :=
  if s.pingReceived then { s with pingReceived := false } else { s with active := false }

end Dripcap.Server
