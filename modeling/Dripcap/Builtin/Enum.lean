import Mathlib.Data.Int.Notation
import Mathlib.Data.List.Nodup
import Mathlib.Data.Nat.Notation

/-!
# Enumerations and flags

The classes `Enum` and `Flags` of `dripcap/builtin` with the subclasses that the dissectors
register. An integer stands for a number of a script that is an integer, and its digits for what
`String` makes of it; from `2 ^ 53` on the script engine writes fewer digits, of which nothing here
depends.
-/

namespace Dripcap

/-! ### Tables -/

/-- `table[value]` for a table with integers as its keys, as an object literal gives it: the last
entry of a key counts. -/
def entry (table : List (ℤ × String)) (value : ℤ) : Option String := table.reverse.lookup value

/-- The subclasses of `Enum`. -/
inductive EnumClass where
  | ethType | hardware | arpProtocol | arpOperation | ipv4Protocol | ipv6Protocol
  | dnsOperation | dnsRecord
  deriving DecidableEq

/-- The subclasses of `Flags`. -/
inductive FlagsClass where
  | tcp | field
  deriving DecidableEq

/-- The table of `EthTypeEnum`. -/
def ethTypeTable : List (ℤ × String) :=
  [(0x0800, "IPv4"), (0x0806, "ARP"), (0x0842, "WoL"), (0x809B, "AppleTalk"), (0x80F3, "AARP"),
   (0x86DD, "IPv6")]

/-- The table of `HardwareEnum` of ARP. -/
def hardwareTable : List (ℤ × String) := [(0x1, "Ethernet")]

/-- The table of `ProtocolEnum` of ARP. -/
def arpProtocolTable : List (ℤ × String) := [(0x0800, "IPv4"), (0x86DD, "IPv6")]

/-- The table of `OperationEnum` of ARP. -/
def arpOperationTable : List (ℤ × String) := [(0x1, "request"), (0x2, "reply")]

/-- The table of `ProtocolEnum` of IPv4; IPv6 has the same in a file of its own. -/
def protocolTable : List (ℤ × String) :=
  [(0x00, "HOPOPT"), (0x01, "ICMP"), (0x02, "IGMP"), (0x03, "GGP"), (0x04, "IP-in-IP"),
   (0x05, "ST"), (0x06, "TCP"), (0x07, "CBT"), (0x08, "EGP"), (0x09, "IGP"),
   (0x0A, "BBN-RCC-MON"), (0x0B, "NVP-II"), (0x0C, "PUP"), (0x0D, "ARGUS"), (0x0E, "EMCON"),
   (0x0F, "XNET"), (0x10, "CHAOS"), (0x11, "UDP"), (0x12, "MUX"), (0x13, "DCN-MEAS"),
   (0x14, "HMP"), (0x15, "PRM"), (0x16, "XNS-IDP"), (0x17, "TRUNK-1"), (0x18, "TRUNK-2"),
   (0x19, "LEAF-1"), (0x1A, "LEAF-2"), (0x1B, "RDP"), (0x1C, "IRTP"), (0x1D, "ISO-TP4"),
   (0x1E, "NETBLT"), (0x1F, "MFE-NSP"), (0x20, "MERIT-INP"), (0x21, "DCCP"), (0x22, "3PC"),
   (0x23, "IDPR"), (0x24, "XTP"), (0x25, "DDP"), (0x26, "IDPR-CMTP"), (0x27, "TP++"),
   (0x28, "IL"), (0x29, "IPv6"), (0x2A, "SDRP"), (0x2B, "Route"), (0x2C, "Frag"), (0x2D, "IDRP"),
   (0x2E, "RSVP"), (0x2F, "GRE"), (0x30, "MHRP"), (0x31, "BNA"), (0x32, "ESP"), (0x33, "AH"),
   (0x34, "I-NLSP"), (0x35, "SWIPE"), (0x36, "NARP"), (0x37, "MOBILE"), (0x38, "TLSP"),
   (0x39, "SKIP"), (0x3A, "ICMP"), (0x3B, "NoNxt"), (0x3C, "Opts"), (0x3E, "CFTP"),
   (0x40, "SAT-EXPAK"), (0x41, "KRYPTOLAN"), (0x42, "RVD"), (0x43, "IPPC"), (0x45, "SAT-MON"),
   (0x46, "VISA"), (0x47, "IPCU"), (0x48, "CPNX"), (0x49, "CPHB"), (0x4A, "WSN"), (0x4B, "PVP"),
   (0x4C, "BR-SAT-MON"), (0x4D, "SUN-ND"), (0x4E, "WB-MON"), (0x4F, "WB-EXPAK"), (0x50, "ISO-IP"),
   (0x51, "VMTP"), (0x52, "SECURE-VMTP"), (0x53, "VINES"), (0x54, "TTP"), (0x54, "IPTM"),
   (0x55, "NSFNET-IGP"), (0x56, "DGP"), (0x57, "TCF"), (0x58, "EIGRP"), (0x59, "OSPF"),
   (0x5A, "Sprite-RPC"), (0x5B, "LARP"), (0x5C, "MTP"), (0x5D, "AX.25"), (0x5E, "IPIP"),
   (0x5F, "MICP"), (0x60, "SCC-SP"), (0x61, "ETHERIP"), (0x62, "ENCAP"), (0x64, "GMTP"),
   (0x65, "IFMP"), (0x66, "PNNI"), (0x67, "PIM"), (0x68, "ARIS"), (0x69, "SCPS"), (0x6A, "QNX"),
   (0x6B, "A/N"), (0x6C, "IPComp"), (0x6D, "SNP"), (0x6E, "Compaq-Peer"), (0x6F, "IPX-in-IP"),
   (0x70, "VRRP"), (0x71, "PGM"), (0x73, "L2TP"), (0x74, "DDX"), (0x75, "IATP"), (0x76, "STP"),
   (0x77, "SRP"), (0x78, "UTI"), (0x79, "SMP"), (0x7A, "SM"), (0x7B, "PTP"), (0x7C, "IS-IS"),
   (0x7D, "FIRE"), (0x7E, "CRTP"), (0x7F, "CRUDP"), (0x80, "SSCOPMCE"), (0x81, "IPLT"),
   (0x82, "SPS"), (0x83, "PIPE"), (0x84, "SCTP"), (0x85, "FC"), (0x86, "RSVP-E2E-IGNORE"),
   (0x87, "RFC6275"), (0x88, "UDPLite"), (0x89, "MPLS-in-IP"), (0x8A, "manet"), (0x8B, "HIP"),
   (0x8C, "Shim6"), (0x8D, "WESP"), (0x8E, "ROHC")]

/-- The table of `OperationEnum` of DNS. -/
def dnsOperationTable : List (ℤ × String) :=
  [(0, "QUERY"), (1, "IQUERY"), (2, "STATUS"), (4, "NOTIFY"), (5, "UPDATE")]

/-- The table of `RecordEnum` of DNS. -/
def dnsRecordTable : List (ℤ × String) :=
  [(0, "No Error"), (1, "Format Error"), (2, "Server Failure"), (3, "Name Error"),
   (4, "Not Implemented"), (5, "Refused"), (6, "YX Domain"), (7, "YX RR Set"), (8, "NX RR Set"),
   (9, "Not Auth"), (10, "Not Zone")]

def EnumClass.table : EnumClass → List (ℤ × String)
  | .ethType => ethTypeTable
  | .hardware => hardwareTable
  | .arpProtocol => arpProtocolTable
  | .arpOperation => arpOperationTable
  | .ipv4Protocol => protocolTable
  | .ipv6Protocol => protocolTable
  | .dnsOperation => dnsOperationTable
  | .dnsRecord => dnsRecordTable

/-- The table of `TCPFlags`. -/
def tcpFlagsTable : List (String × ℤ) :=
  [("NS", 0x100), ("CWR", 0x80), ("ECE", 0x40), ("URG", 0x20), ("ACK", 0x10), ("PSH", 0x8),
   ("RST", 0x4), ("SYN", 0x2), ("FIN", 0x1)]

/-- The table of `FieldFlags`. -/
def fieldFlagsTable : List (String × ℤ) :=
  [("Reserved", 0x1), ("Don't Fragment", 0x2), ("More Fragments", 0x4)]

def FlagsClass.table : FlagsClass → List (String × ℤ)
  | .tcp => tcpFlagsTable
  | .field => fieldFlagsTable

lemma FlagsClass.nodup (c : FlagsClass) : (c.table.map Prod.fst).Nodup := by
  cases c with
  | tcp => decide
  | field => decide

/-! ### Enumerations -/

/-- `Enum`, or an instance of the subclass `cls`. -/
structure Enum where
  cls : Option EnumClass
  table : List (ℤ × String)
  value : ℤ
  table_eq : ∀ c, cls = some c → table = c.table
  deriving DecidableEq

namespace Enum

/-- The constructor of `Enum`. -/
def new (table : List (ℤ × String)) (value : ℤ) : Enum where
  cls := none
  table := table
  value := value
  table_eq := nofun

/-- The constructor of a subclass. -/
def ofClass (c : EnumClass) (value : ℤ) : Enum where
  cls := some c
  table := c.table
  value := value
  table_eq _ h := congrArg EnumClass.table (Option.some.inj h)

variable (e : Enum)

/-- `name ? name : 'unknown'` -/
def name : String := ((entry e.table e.value).filter fun name => name ≠ "").getD "unknown"

def known : Bool := (entry e.table e.value).isSome

def toString : String := e.name ++ " (" ++ ToString.toString e.value ++ ")"

/-- The table that `toMsgpack` of `Enum` writes. -/
def ownEntry : List (ℤ × String) := ((entry e.table e.value).map fun name => (e.value, name)).toList

end Enum

/-! ### Flags -/

/-- `a & b`, which is an operation on 32 bits. -/
def bitAnd (a b : ℤ) : ℤ := (BitVec.ofInt 32 a &&& BitVec.ofInt 32 b).toInt

/-- `Flags`, or an instance of the subclass `cls`. The table has its keys in the order in which
`for ... in` goes through them. -/
structure Flags where
  cls : Option FlagsClass
  table : List (String × ℤ)
  value : ℤ
  nodup : (table.map Prod.fst).Nodup
  table_eq : ∀ c, cls = some c → table = c.table
  deriving DecidableEq

namespace Flags

/-- The constructor of `Flags`. -/
def new (table : List (String × ℤ)) (nodup : (table.map Prod.fst).Nodup) (value : ℤ) : Flags where
  cls := none
  table := table
  value := value
  nodup := nodup
  table_eq := nofun

/-- The constructor of a subclass. -/
def ofClass (c : FlagsClass) (value : ℤ) : Flags where
  cls := some c
  table := c.table
  value := value
  nodup := c.nodup
  table_eq _ h := congrArg FlagsClass.table (Option.some.inj h)

variable (f : Flags)

/-- An inherited property of the table is a function, and `value & table[key]` is 0 for it. -/
def get (key : String) : Bool :=
  match f.table.lookup key with
  | some mask => bitAnd f.value mask ≠ 0
  | none => false

/-- The names of the flags that are set. -/
def names : List String := (f.table.map Prod.fst).filter f.get

def toString : String :=
  (if f.names = [] then "none" else ", ".intercalate f.names) ++
    " (" ++ ToString.toString f.value ++ ")"

end Flags

end Dripcap
