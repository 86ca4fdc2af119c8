import NetworkTest.Machine
import NetworkTest.Endings
import NetworkTest.CBuffer
import NetworkTest.SwapRemove
import NetworkTest.Descriptors
import NetworkTest.StandardSignal
import NetworkTest.Channel
import NetworkTest.Served
import NetworkTest.IntBytes
import NetworkTest.Directory
import NetworkTest.SelectServer
import NetworkTest.SelectTable
import NetworkTest.SelectEcho
import NetworkTest.SelectLoad
import NetworkTest.ForkServer
import NetworkTest.ForkRuns
import NetworkTest.ChatServer
import NetworkTest.ChatBroadcast
import NetworkTest.TalkServer
import NetworkTest.ChatTables
import NetworkTest.ChatReaders
import NetworkTest.FileServer
import NetworkTest.FileClient
import NetworkTest.TruncatedRequest
import NetworkTest.Upload
import NetworkTest.UploadSession
import NetworkTest.UploadVerdict
import NetworkTest.UploadResume
import NetworkTest.Checksum
import NetworkTest.LedDriver
import NetworkTest.LedServer
import NetworkTest.LedChain
import NetworkTest.LedCommands
import NetworkTest.TalkPair
import NetworkTest.KeyDriver
import NetworkTest.KernelTimer
import NetworkTest.EchoAlarm
import NetworkTest.PipeEcho
import NetworkTest.LineServer
import NetworkTest.LineEcho
import NetworkTest.WholeClient
import NetworkTest.WholeServer
import NetworkTest.WholeUpload
import NetworkTest.UploadsAgree
import NetworkTest.Lookup
import NetworkTest.InCksum
import NetworkTest.ChecksumsAgree
import NetworkTest.MemoryBytes
import NetworkTest.Packets
import NetworkTest.SynProbe
import NetworkTest.PortScan
import NetworkTest.TimeOfDay
import NetworkTest.PingLoop
import NetworkTest.PingTimes
import NetworkTest.Streaks
import NetworkTest.PingRequests
import NetworkTest.PingTimeouts
import NetworkTest.SelectPass
import NetworkTest.LoopEnds
import NetworkTest.LinePieces
import NetworkTest.EchoClients
import NetworkTest.PipePayload
import NetworkTest.LedPeer
import NetworkTest.AppendOnly
import NetworkTest.UploadOffset
import NetworkTest.NameField
import NetworkTest.KeyboardStop
import NetworkTest.KernelBuffer
import NetworkTest.CharDrivers
import NetworkTest.LineStores
import NetworkTest.FieldReads
import NetworkTest.RawDatagrams
import NetworkTest.CriticalSection
import NetworkTest.MutexCount
import NetworkTest.Projection
import NetworkTest.ThreadEcho
import NetworkTest.EchoSession
import NetworkTest.UdpEcho
import NetworkTest.LsSession
import NetworkTest.TimerSignals
import NetworkTest.Precedence
import NetworkTest.ProbeShown
import NetworkTest.Broadcast
import NetworkTest.EchoService
import NetworkTest.SelectService
import NetworkTest.ThreadService
import NetworkTest.ForkService
import NetworkTest.ChatRoom
import NetworkTest.ChatShown
import NetworkTest.ChatDelivery
