import Dripcap.Dissector.Analysis

/-!
# The Ethernet dissector

`EthrenetDissector` of `eth.es`. It has no `try`: what is thrown leaves `analyze`.
-/

namespace Dripcap

open Dissect

namespace EthrenetDissector

def readAddresses (payload : Payload) : Dissect (MACAddress × MACAddress) := do
  assertLength payload 6
  let destination := payload.slice 0 6
  push { name := "MAC destination", attr := some "dst", data := destination }
  let dst ← construct (MACAddress.new destination.bytes)
  setAttr "dst" (.instance (.macAddress dst))
  assertLength payload 12
  let source := payload.slice 6 12
  push { name := "MAC source", attr := some "src", data := source }
  let src ← construct (MACAddress.new source.bytes)
  setAttr "src" (.instance (.macAddress src))
  pure (dst, src)

/-- The length or the type of the frame. -/
def readType (payload : Payload) : Dissect (Option Enum) := do
  assertLength payload 14
  let type ← readUInt16BE payload 12
  if type ≤ 1500 then do
    push { name := "Length", value := some (.number type), data := payload.slice 12 14 }
    pure none
  else do
    let type ← readUInt16BE payload 12
    let etherType := Enum.ofClass .ethType type
    push { name := "EtherType", attr := some "etherType", data := payload.slice 12 14 }
    setAttr "etherType" (.instance (.enum etherType))
    setProtocol "::Ethernet" etherType
    pure (some etherType)

def body (payload : Payload) : Dissect PUnit := do
  let addresses ← readAddresses payload
  let etherType ← readType payload
  pushPayload (payload.slice 14 payload.length)
  let text := addresses.2.toString ++ " -> " ++ addresses.1.toString
  setSummary (match etherType with
    | some etherType => "[" ++ etherType.name ++ "] " ++ text
    | none => text)

/-- `new Layer()` with its name and namespace. -/
def start (parentLayer : ParentLayer) : Analysis where
  layer := { name := "Ethernet", ns := "::Ethernet" }
  parentLayer := parentLayer

/-- `analyze`, which can throw. -/
def analyze (parentLayer : ParentLayer) : Dissect PUnit := do
  body parentLayer.payload
  attach

end EthrenetDissector

end Dripcap
