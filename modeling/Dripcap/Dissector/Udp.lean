import Dripcap.Dissector.Tcp

/-!
# The UDP dissector

`UDPDissector` of `udp.es`. The ports are read as in TCP.
-/

namespace Dripcap

open Dissect

namespace UDPDissector

/-- The length, with its checksum after it. -/
def readLength (payload : Payload) : Dissect ℕ := do
  assertLength payload 6
  let length ← readUInt16BE payload 4
  pushAttr "Length" "length" (payload.slice 4 6) (pure (.number length))
  assertLength payload 8
  let checksum ← readUInt16BE payload 6
  pushAttr "Checksum" "checksum" (payload.slice 6 8) (pure (.number checksum))
  pure length

def body (parentLayer : ParentLayer) : Dissect PUnit := do
  let payload := parentLayer.payload
  let hosts ← ports parentLayer
  let length ← readLength payload
  assertLength payload length
  pushPayload (payload.slice 8 length)
  setSummary (hosts.1.toString ++ " -> " ++ hosts.2.toString)

/-- `new Layer()` with its name and namespace. -/
def start (parentLayer : ParentLayer) : Analysis where
  layer := { name := "UDP", ns := replaceIn parentLayer.ns "<UDP>" "UDP" }
  parentLayer := parentLayer

/-- `analyze` -/
def analyze (parentLayer : ParentLayer) : Analysis := run (body parentLayer) (start parentLayer)

end UDPDissector

end Dripcap
