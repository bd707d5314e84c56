import Dripcap.Dissector.Analysis

/-!
# The ARP dissector

`ARPDissector` of `arp.es`. At its end it takes the padding out of the payload of the parent.
-/

namespace Dripcap

open Dissect

namespace ARPDissector

/-- From the hardware type to the operation. -/
def readTypes (payload : Payload) : Dissect Enum := do
  assertLength payload 2
  let htype ← readUInt16BE payload 0
  pushAttr "Hardware type" "htype" (payload.slice 0 2)
    (pure (.instance (.enum (.ofClass .hardware htype))))
  assertLength payload 4
  let ptype ← readUInt16BE payload 2
  pushAttr "Protocol type" "ptype" (payload.slice 2 4)
    (pure (.instance (.enum (.ofClass .arpProtocol ptype))))
  assertLength payload 5
  let hlen ← readUInt8 payload 4
  pushAttr "Hardware length" "hlen" (payload.slice 4 5) (pure (.number hlen))
  assertLength payload 6
  let plen ← readUInt8 payload 5
  pushAttr "Protocol length" "plen" (payload.slice 5 6) (pure (.number plen))
  assertLength payload 8
  let operation ← readUInt16BE payload 6
  let operation := Enum.ofClass .arpOperation operation
  pushAttr "Operation" "operation" (payload.slice 6 8) (pure (.instance (.enum operation)))
  pure operation

def readSender (payload : Payload) : Dissect (MACAddress × IPv4Address) := do
  assertLength payload 14
  let sha ← construct (MACAddress.new (payload.slice 8 14).bytes)
  pushAttr "Sender hardware address" "sha" (payload.slice 8 14) (pure (.instance (.macAddress sha)))
  assertLength payload 18
  let spa ← construct (IPv4Address.new (payload.slice 14 18).bytes)
  pushAttr "Sender protocol address" "spa" (payload.slice 14 18) (pure (.instance (.ipv4Address spa)))
  pure (sha, spa)

def readTarget (payload : Payload) : Dissect (MACAddress × IPv4Address) := do
  assertLength payload 24
  let tha ← construct (MACAddress.new (payload.slice 18 24).bytes)
  pushAttr "Target hardware address" "tha" (payload.slice 18 24) (pure (.instance (.macAddress tha)))
  assertLength payload 28
  let tpa ← construct (IPv4Address.new (payload.slice 24 28).bytes)
  -- the field has the attribute of the sender
  push { name := "Target protocol address", attr := some "spa", data := payload.slice 24 28 }
  setAttr "tpa" (.instance (.ipv4Address tpa))
  pure (tha, tpa)

/-- What follows the 28 bytes becomes the padding of the parent. -/
def takePadding (payload : Payload) : Dissect PUnit :=
  modify fun a =>
    let ethPadding := payload.slice 28 payload.length
    { a with parentLayer := { a.parentLayer with
        payload := payload.slice 0 28
        fields := a.parentLayer.fields ++
          [{ name := "Padding", attr := some "padding", data := ethPadding }]
        attrs := Function.update a.parentLayer.attrs "padding" (some (.buffer ethPadding.bytes)) } }

def body (payload : Payload) : Dissect PUnit := do
  let operation ← readTypes payload
  let sender ← readSender payload
  let target ← readTarget payload
  takePadding payload
  setSummary ("[" ++ operation.name.toUpper ++ "] " ++ sender.1.toString ++ "-" ++
    sender.2.toString ++ " -> " ++ target.1.toString ++ "-" ++ target.2.toString)

/-- `new Layer()` with its name and namespace. -/
def start (parentLayer : ParentLayer) : Analysis where
  layer := { name := "ARP", ns := "::Ethernet::ARP" }
  parentLayer := parentLayer

/-- `analyze` -/
def analyze (parentLayer : ParentLayer) : Analysis :=
  run (body parentLayer.payload) (start parentLayer)

end ARPDissector

end Dripcap
