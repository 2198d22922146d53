import CabinetBus.Audit
import CabinetBus.Bench.Basic
import CabinetBus.Bench.Device
import CabinetBus.Bench.Host
import CabinetBus.Bench.Session
import CabinetBus.Bytes.Basic
import CabinetBus.Bytes.Cursor
import CabinetBus.Bytes.Hex
import CabinetBus.Bytes.Word
import CabinetBus.Config
import CabinetBus.Error
import CabinetBus.Frame.Assembler
import CabinetBus.Frame.Check
import CabinetBus.Frame.Checksum
import CabinetBus.Frame.Framing
import CabinetBus.Frame.Fresh
import CabinetBus.Frame.Marker
import CabinetBus.Frame.Scanner
import CabinetBus.Frame.Unframing
import CabinetBus.Json.Basic
import CabinetBus.Json.Printer
import CabinetBus.Json.Reader
import CabinetBus.Json.Schema
import CabinetBus.Link.Connection
import CabinetBus.Link.Pacing
import CabinetBus.Link.Port
import CabinetBus.Link.Settings
import CabinetBus.Message.Identifier
import CabinetBus.Message.Mode
import CabinetBus.Message.Presence
import CabinetBus.Message.Report
import CabinetBus.Message.ReportReader
import CabinetBus.Message.Request
import CabinetBus.Metrics
import CabinetBus.Poll.Metronome
import CabinetBus.Poll.Poller
import CabinetBus.Poll.StatusWatch
import CabinetBus.Proofs.Agreement
import CabinetBus.Proofs.Assembling
import CabinetBus.Proofs.Conservation
import CabinetBus.Proofs.Delivery
import CabinetBus.Proofs.FrameShape
import CabinetBus.Proofs.Observing
import CabinetBus.Proofs.Outbound
import CabinetBus.Proofs.RoundTrip
import CabinetBus.Proofs.Scanning
import CabinetBus.Proofs.Unescaping
import CabinetBus.Proofs.Unframing
import CabinetBus.Proofs.Words
import CabinetBus.Service.Basic
import CabinetBus.Service.BufferPool
import CabinetBus.Service.Inbound
import CabinetBus.Service.Lifecycle
import CabinetBus.Service.Outbound
import CabinetBus.Text.Blank
import CabinetBus.Text.Numeral
import CabinetBus.Time.Calendar
import CabinetBus.Time.Timestamp
import CabinetBus.Proofs.Following
import CabinetBus.Proofs.Inbound
import CabinetBus.Proofs.LinkPeriods
import CabinetBus.Proofs.LinkRuns
import CabinetBus.Proofs.Reconnecting
import CabinetBus.Proofs.ChecksumRegister
import CabinetBus.Proofs.ErrorDetection
import CabinetBus.Proofs.WireFlips
import CabinetBus.Proofs.Reading
import CabinetBus.Proofs.Resynchronising
import CabinetBus.Proofs.StatusWatching
import CabinetBus.Proofs.Moves
import CabinetBus.Proofs.Stopping
import CabinetBus.Proofs.Auditing
import CabinetBus.Proofs.Payloads
import CabinetBus.Proofs.Loading
import CabinetBus.Proofs.Requesting
import CabinetBus.Proofs.JsonText
import CabinetBus.Proofs.ConfigFile
import CabinetBus.Proofs.JsonGrammar
import CabinetBus.Proofs.RecordMembers
import CabinetBus.Proofs.PartialConfig
import CabinetBus.Proofs.InBounds
import CabinetBus.Proofs.Framed
import CabinetBus.Proofs.Unframed
import CabinetBus.Proofs.Reframing
import CabinetBus.Proofs.AssemblerArea
import CabinetBus.Proofs.AssemblerRuns
import CabinetBus.Proofs.Writing
import CabinetBus.Proofs.Rhythm
import CabinetBus.Proofs.Beats
import CabinetBus.Proofs.Accesses
import CabinetBus.Proofs.ByteQueue
import CabinetBus.Proofs.Polling
import CabinetBus.Proofs.Numerals
import CabinetBus.Proofs.HexText
import CabinetBus.Proofs.HexTrail
import CabinetBus.Proofs.BroadcastTime
import CabinetBus.Proofs.Lending
import CabinetBus.Proofs.PoolAccounts
import CabinetBus.Proofs.CountingOrder
import CabinetBus.Proofs.LinkMoves
import CabinetBus.Proofs.Receiving
