import Dripcap.Library.Run
import Dripcap.Library.Placement
import Dripcap.Library.Prefix
import Dripcap.Library.Cursor
import Dripcap.Library.LittleEndian
import Dripcap.Library.Episode
import Dripcap.Library.Outcome
import Dripcap.Script.Layer
import Dripcap.Script.Buffer
import Dripcap.Script.Keys
import Dripcap.Script.Value
import Dripcap.Script.Wrapper
import Dripcap.Script.Echo
import Dripcap.Script.Analyze
import Dripcap.Dispatcher.ObjectCache
import Dripcap.Dispatcher.FilterContext
import Dripcap.Dispatcher.State
import Dripcap.Dispatcher.Step
import Dripcap.Dispatcher.Lookup
import Dripcap.Dispatcher.Places
import Dripcap.Dispatcher.Ids
import Dripcap.Dispatcher.FilterWorker
import Dripcap.Dispatcher.Wakeup
import Dripcap.Dispatcher.Filtering
import Dripcap.Dispatcher.Import
import Dripcap.Dispatcher.Sources
import Dripcap.Dispatcher.Analyzed
import Dripcap.Dispatcher.Eviction
import Dripcap.Dispatcher.Queries
import Dripcap.Dispatcher.Reinsertion
import Dripcap.Dispatcher.Streams
import Dripcap.Dispatcher.Lifecycle
import Dripcap.Script.BufferStream
import Dripcap.Dissector.TcpStream
import Dripcap.Client.BufferStream
import Dripcap.Script.StreamPayload
import Dripcap.Script.Crossing
import Dripcap.Script.Packer
import Dripcap.Script.Packing
import Dripcap.Client.Codec
import Dripcap.Client.Filter
import Dripcap.Client.FilterMeaning
import Dripcap.Client.FilterSound
import Dripcap.Library.Occurrence
import Dripcap.Script.Search
import Dripcap.Script.Read
import Dripcap.Script.Slice
import Dripcap.Script.Hex
import Dripcap.Client.PcapFile
import Dripcap.Client.PcapImport
import Dripcap.Dispatcher.CacheMap
import Dripcap.Library.Keyed
import Dripcap.Server.Status
import Dripcap.Server.Capture
import Dripcap.Server.Commands
import Dripcap.Server.Survival
import Dripcap.Builtin.Address
import Dripcap.Builtin.Enum
import Dripcap.Library.AddressText
import Dripcap.Builtin.IPv6Text
import Dripcap.Builtin.TextRoundTrip
import Dripcap.Builtin.Instance
import Dripcap.Client.FilterEquality
import Dripcap.Dissector.Analysis
import Dripcap.Dissector.Tcp
import Dripcap.Dissector.TcpOptions
import Dripcap.Builtin.HostText
import Dripcap.Dissector.StreamId
import Dripcap.Dissector.Ipv4
import Dripcap.Dissector.Ipv6
import Dripcap.Dissector.Arp
import Dripcap.Dissector.Dns
import Dripcap.Dissector.Udp
import Dripcap.Dissector.Highlight
import Dripcap.Dissector.Highlighted
import Dripcap.Dissector.Http
import Dripcap.Dissector.Ethernet
import Dripcap.Client.LiveImport
import Dripcap.Dissector.Reported
import Dripcap.Dispatcher.Walk
import Dripcap.Dispatcher.Creation
import Dripcap.Dispatcher.QueueBound
import Dripcap.Library.Ring
import Dripcap.Server.LogBuffer
import Dripcap.Client.AddClass
import Dripcap.Client.ClassStages
import Dripcap.Client.ClassOrder
import Dripcap.Client.ClassesLoaded
import Dripcap.Client.Registration
import Dripcap.Client.Keybind
import Dripcap.Dispatcher.Comparator
import Dripcap.Server.ReadLoop
import Dripcap.Library.Delivery
import Dripcap.Server.Writes
import Dripcap.Server.Reply
import Dripcap.Server.CaptureFilter
import Dripcap.Library.PolishNotation
import Dripcap.Library.MessagePack
import Dripcap.Server.Unpacker
import Dripcap.Server.Unpacked
import Dripcap.Server.UnpackedStream
import Dripcap.Server.Packed
import Dripcap.Server.PacketBytes
import Dripcap.Server.ReadStream
