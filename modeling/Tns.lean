import Tns.FileTransfer
import Tns.HostNode
import Tns.Ip.Cidr
import Tns.Ip.ConvergedForwarding
import Tns.Ip.DatagramBounds
import Tns.Ip.DatagramRoundTrip
import Tns.Ip.DisabledInterface
import Tns.Ip.DistanceVector
import Tns.Ip.Forwarding
import Tns.Ip.RipWire
import Tns.Lnx.NodeSetup
import Tns.ReceivedFile
import Tns.Tcp.AcceptHandoff
import Tns.Tcp.AcknowledgedData
import Tns.Tcp.AdvertisedWindow
import Tns.Tcp.BlockingWrite
import Tns.Tcp.ConcurrentCreation
import Tns.Tcp.FailedOpen
import Tns.Tcp.FinWait
import Tns.Tcp.InitialSequence
import Tns.Tcp.IntervalRuns
import Tns.Tcp.ListenerReferences
import Tns.Tcp.ProbeEntry
import Tns.Tcp.QueuedData
import Tns.Tcp.ReadableData
import Tns.Tcp.Reassembly
import Tns.Tcp.ReceiveSequence
import Tns.Tcp.RemoteFin
import Tns.Tcp.RetransmissionEdge
import Tns.Tcp.SegmentOptions
import Tns.Tcp.SendOrder
import Tns.Tcp.SenderWakeup
import Tns.Tcp.SequenceSpace
import Tns.Tcp.SocketSetup
import Tns.Tcp.Transmission
import Tns.ThreadPool
import Tns.Vnet.GeneratedHosts
