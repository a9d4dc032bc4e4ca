import MultiIp.Lib.Chain
import MultiIp.Lib.Checksum
import MultiIp.Lib.Places
import MultiIp.Lib.Run
import MultiIp.Lib.Text
import MultiIp.Lib.Scan
import MultiIp.Lib.Cursor
import MultiIp.Lib.Shift
import MultiIp.Lib.FirstFit
import MultiIp.Lib.Detect
import MultiIp.Lib.Tally
import MultiIp.Lib.RefCount
import MultiIp.Lwip.Basic
import MultiIp.Lwip.IpAddr
import MultiIp.Lwip.Chksum
import MultiIp.Lwip.ChksumGen
import MultiIp.Lwip.Mem
import MultiIp.Lwip.MemLayout
import MultiIp.Lwip.MemAlloc
import MultiIp.Lwip.MemRuns
import MultiIp.Lwip.PbufStore
import MultiIp.Lwip.PbufRefs
import MultiIp.Lwip.PbufAlloc
import MultiIp.Lwip.PbufChains
import MultiIp.Lwip.PbufResize
import MultiIp.Lwip.PbufRuns
import MultiIp.Lwip.Pbuf
import MultiIp.Lwip.RxPbuf
import MultiIp.Lwip.Udp
import MultiIp.Lwip.UdpRules
import MultiIp.Lwip.UdpPorts
import MultiIp.Lwip.Etharp
import MultiIp.Lwip.EtharpRules
import MultiIp.Lwip.EtharpEntries
import MultiIp.Lwip.EtharpLoad
import MultiIp.Lwip.EtharpNames
import MultiIp.Lwip.EtharpLearns
import MultiIp.Lwip.EtharpUnique
import MultiIp.Lwip.Netif
import MultiIp.Board.State
import MultiIp.Board.UdpSource
import MultiIp.Board.Registry
import MultiIp.Board.Machine
import MultiIp.Board.Slots
import MultiIp.Board.Interfaces
import MultiIp.Board.Reachable
import MultiIp.Board.StaleIds
import MultiIp.Board.Mailbox
import MultiIp.Board.Statements
import MultiIp.Board.Opening
import MultiIp.Board.Released
import MultiIp.Board.Ping
import MultiIp.Board.PingRecv
import MultiIp.Board.PingExchange
import MultiIp.Board.IpInput
import MultiIp.Board.Command
import MultiIp.Board.Execute
import MultiIp.Board.Firmware
import MultiIp.Board.Refusals
import MultiIp.Board.Bindings
import MultiIp.Board.Compete
import MultiIp.Board.Receivers
import MultiIp.Board.Follow
import MultiIp.Board.LiveIds
import MultiIp.Wire.Answer
import MultiIp.Board.Answers
import MultiIp.Board.Addressed
import MultiIp.Board.Arguments
import MultiIp.Board.Readback
import MultiIp.Board.Shelf
import MultiIp.Board.Console
import MultiIp.Board.Replies
import MultiIp.Board.Fragments
import MultiIp.Board.LineBuffer
import MultiIp.Board.AliasFilter
import MultiIp.Board.Removal
import MultiIp.Board.Moves
import MultiIp.Board.OpenOutcome
import MultiIp.Board.Announce
import MultiIp.Board.Menu
import MultiIp.Board.LineEditor
import MultiIp.Board.LineEcho
import MultiIp.Board.ArpMoves
import MultiIp.Board.ArpReset
import MultiIp.Board.ScanTargets
import MultiIp.Board.ScanRun
import MultiIp.Board.TxBytes
import MultiIp.Board.TxIntact
import MultiIp.Board.Transit
import MultiIp.Board.Damage
import MultiIp.Board.Handed
import MultiIp.Board.Network
import MultiIp.Board.Delivery
import MultiIp.Board.ArpTruth
import MultiIp.Board.IcmpInput
import MultiIp.Board.PingAnswered
import MultiIp.Board.ArpExchange
import MultiIp.Panel.Serial
import MultiIp.Panel.SerialRules
import MultiIp.Panel.Stream
import MultiIp.Panel.Protocol
import MultiIp.Panel.Decode
import MultiIp.Panel.Events
import MultiIp.Panel.Link
import MultiIp.Panel.Attribution
import MultiIp.Panel.Payload
import MultiIp.Panel.Polling
import MultiIp.Panel.Cards
import MultiIp.Panel.Redraw
import MultiIp.Panel.Selection
