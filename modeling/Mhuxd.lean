import Mhuxd.Lib.Run
import Mhuxd.Lib.Mealy
import Mhuxd.Buffer
import Mhuxd.Channel
import Mhuxd.Mux
import Mhuxd.WireDec
import Mhuxd.MuxSpec
import Mhuxd.Command
import Mhuxd.MuxRun
import Mhuxd.Demux
import Mhuxd.Router
import Mhuxd.Link
import Mhuxd.Fifo
import Mhuxd.Ptt
import Mhuxd.Weave
import Mhuxd.Control
import Mhuxd.ControlWire
import Mhuxd.CatState
import Mhuxd.CatCiv
import Mhuxd.CatAscii
import Mhuxd.CatYbin
import Mhuxd.CatNative
import Mhuxd.RouterGate
import Mhuxd.CatActs
import Mhuxd.CatOwn
import Mhuxd.CivFramer
import Mhuxd.Lib.Expiry
import Mhuxd.CivFrames
import Mhuxd.CivRuns
import Mhuxd.ControlOnce
import Mhuxd.ConTcp
import Mhuxd.TcpStream
import Mhuxd.ConVsp
import Mhuxd.PttRelease
import Mhuxd.ConRegistry
import Mhuxd.Processors
import Mhuxd.EndpointLife
import Mhuxd.InitComplete
import Mhuxd.AsciiClients
import Mhuxd.CatRoute
import Mhuxd.YbinClients
import Mhuxd.CatClients
import Mhuxd.AsciiAttribution
import Mhuxd.AsciiReplay
import Mhuxd.SmIdentity
import Mhuxd.SmCodec
import Mhuxd.SmDownload
import Mhuxd.SmEdits
import Mhuxd.SmReferences
import Mhuxd.YbinAttribution
import Mhuxd.YbinReplay
import Mhuxd.CivReplay
import Mhuxd.AsciiAtomic
import Mhuxd.AsciiRepeats
import Mhuxd.CivResync
import Mhuxd.VspIntegrity
import Mhuxd.YbinAtomic
import Mhuxd.FreqInfo
import Mhuxd.HttpConnection
import Mhuxd.HttpRequests
import Mhuxd.WsHandshake
import Mhuxd.Devices
import Mhuxd.HttpFraming
import Mhuxd.Lib.Framing
import Mhuxd.WsChunks
import Mhuxd.Lib.BitField
import Mhuxd.Kcfg
import Mhuxd.CatFresh
import Mhuxd.CatTold
import Mhuxd.CatWords
import Mhuxd.Citem
import Mhuxd.KcfgLaws
import Mhuxd.Mcp
import Mhuxd.Messages
import Mhuxd.SmBands
import Mhuxd.SmSectors
import Mhuxd.SmDecode
import Mhuxd.SmRoundTrip
import Mhuxd.CatTurns
import Mhuxd.FreqMerge
import Mhuxd.HttpFiles
import Mhuxd.Lib.Utf8
import Mhuxd.McpErrors
import Mhuxd.RigctldProc
import Mhuxd.RouterRate
import Mhuxd.VspRead
import Mhuxd.WsText
import Mhuxd.BcdFreqs
import Mhuxd.TraceFrames
import Mhuxd.RigctldClient
import Mhuxd.RigctldCuts
import Mhuxd.WsClosing
import Mhuxd.PgList
import Mhuxd.RadioMode
import Mhuxd.RadioForce
import Mhuxd.Winkey
import Mhuxd.Eventbus
import Mhuxd.Settings
import Mhuxd.SavedMessages
import Mhuxd.Lib.Lines
import Mhuxd.Rotator
