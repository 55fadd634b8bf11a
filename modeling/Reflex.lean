import Reflex.RustStd.Str
import Reflex.RustStd.Num
import Reflex.RustStd.Net
import Reflex.RustStd.NetDisplay
import Reflex.RustStd.Slice
import Reflex.Lib.Intervals
import Reflex.Lib.LabelledTree
import Reflex.Lib.PrefixBlock
import Reflex.Lib.FirstMatch
import Reflex.Lib.PartialInverse
import Reflex.Lib.ByteStream
import Reflex.Lib.Transition
import Reflex.Lib.PolledStream
import Reflex.Lib.Journal
import Reflex.Lib.Sessions
import Reflex.Lib.Lru
import Reflex.Lib.Outcome
import Reflex.Lib.Toposort
import Reflex.Lib.Words
import Reflex.Lib.Gcm
import Reflex.Lib.Receiver
import Reflex.Lib.Rotation
import Reflex.Lib.Fnv
import Reflex.Lib.KeyedRemoval
import Reflex.Lib.Numbered
import Reflex.Lib.Tally
import Reflex.Lib.Calendar
import Reflex.Ruleset.Format
import Reflex.Ruleset.Compiler
import Reflex.Ruleset.Loader
import Reflex.Ruleset.RoundTrip
import Reflex.Ruleset.Spelling
import Reflex.Ruleset.Trie
import Reflex.Ruleset.Matcher
import Reflex.Ruleset.TextRules
import Reflex.Ruleset.AddressMatch
import Reflex.Ruleset.SuffixMatch
import Reflex.Ruleset.PrefixLengths
import Reflex.Ruleset.Pipeline
import Reflex.Inbound.Types
import Reflex.Inbound.Mixed
import Reflex.Inbound.PlainHttp
import Reflex.Inbound.TcpNat
import Reflex.Inbound.Tun
import Reflex.App.Sniff
import Reflex.Inbound.Sniffed
import Reflex.App.Aes
import Reflex.App.QuicGcm
import Reflex.Router.Config
import Reflex.Router.Basic
import Reflex.Router.Declared
import Reflex.Router.Literal
import Reflex.App.Dispatcher
import Reflex.App.Reroute
import Reflex.Outbound.VlessStream
import Reflex.Outbound.VmessFrame
import Reflex.Outbound.VmessChecksum
import Reflex.Inbound.VmessServer
import Reflex.Outbound.VmessStream
import Reflex.Outbound.VmessWrite
import Reflex.Provider.Manager
import Reflex.Provider.Updates
import Reflex.Provider.Groups
import Reflex.Provider.GroupCycles
import Reflex.Outbound.Basic
import Reflex.Outbound.GroupTcp
import Reflex.Outbound.Relay
import Reflex.Outbound.ClientHeader
import Reflex.Outbound.VlessWrite
import Reflex.Inbound.ServerHeader
import Reflex.Inbound.WsStream
import Reflex.Outbound.Shadowsocks
import Reflex.Outbound.ShadowsocksXhttp
import Reflex.Outbound.ShadowsocksKeys
import Reflex.Outbound.ShadowsocksUdp
import Reflex.Inbound.ShadowsocksServer
import Reflex.App.RulesetRegistry
import Reflex.Inbound.TcpNatRuns
import Reflex.Inbound.TunUids
import Reflex.Lib.OnesComplement
import Reflex.Inbound.TunRules
import Reflex.Inbound.TunTeardown
import Reflex.Inbound.TunChecksums
import Reflex.Inbound.TunIcmp
import Reflex.Outbound.Hy2Wire
import Reflex.Outbound.TuicWire
import Reflex.Inbound.QuicServers
import Reflex.Outbound.Hy2Udp
import Reflex.Outbound.TuicUdp
import Reflex.Outbound.UdpFlows
import Reflex.App.UdpSessions
import Reflex.App.UdpSource
import Reflex.Inbound.TunUdp
import Reflex.Inbound.TunUdpReplies
import Reflex.Inbound.Socks5Udp
import Reflex.Experimental.CacheFile
import Reflex.Dns.Wire
import Reflex.Dns.DohHttp
import Reflex.Dns.Records
import Reflex.Dns.FakeIp
import Reflex.Dns.FakeIpRange
import Reflex.Dns.FakeIpFile
import Reflex.Dns.FakeIpBounds
import Reflex.Dns.FakeIpLifetime
import Reflex.Dns.FakeIpRotation
import Reflex.Dns.Cache
import Reflex.Dns.Name
import Reflex.Dns.UdpUpstream
import Reflex.Dns.Resolver
import Reflex.Dns.Handle
import Reflex.Dns.DiskKey
import Reflex.Dns.CacheRace
import Reflex.Dns.CacheLifetime
import Reflex.Dns.Dedup
import Reflex.Dns.FakeCache
import Reflex.Dns.FakeIpReply
import Reflex.Dns.Query
import Reflex.Dns.ServedTtl
import Reflex.Dns.TcpExchange
import Reflex.Dns.Config
import Reflex.Dns.Upstreams
import Reflex.Dns.Toposort
import Reflex.Dns.Selection
import Reflex.Dns.FakeIpServers
import Reflex.Ruleset.SingBox
import Reflex.Config.Comments
import Reflex.Config.Values
import Reflex.Config.Validate
import Reflex.Outbound.HeaderWrite
import Reflex.Outbound.VmessCopy
import Reflex.Lib.SegmentReader
import Reflex.Outbound.TrojanUdp
import Reflex.Lib.Custody
import Reflex.Lib.Dialogue
import Reflex.Lib.Datagrams
import Reflex.Outbound.Socks
import Reflex.Outbound.SocksDialogue
import Reflex.Outbound.SocksUdp
import Reflex.Outbound.InterruptGroup
import Reflex.Outbound.UrlTest
import Reflex.Lib.Machine
import Reflex.Lib.PrefixCode
import Reflex.Outbound.Huffman
import Reflex.Outbound.Qpack
import Reflex.Outbound.QpackRoundTrip
import Reflex.Lib.Slots
import Reflex.Outbound.Hy2Fragments
import Reflex.App.TlsSniff
import Reflex.Outbound.RealityHello
import Reflex.Outbound.XhttpBody
import Reflex.App.LiveCounters
import Reflex.Outbound.XhttpUpload
import Reflex.Provider.SelectorLife
import Reflex.Provider.Dial
import Reflex.Provider.RemoteCache
import Reflex.Outbound.UrlTestRace
import Reflex.App.IsoTime
import Reflex.App.QuicVarint
import Reflex.App.QuicKeys
import Reflex.App.QuicPacket
import Reflex.App.QuicSniff
import Reflex.App.PercentDecode
import Reflex.App.ClashRequest
import Reflex.App.Start
import Reflex.App.Stats
