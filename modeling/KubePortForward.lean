import KubePortForward.Verified.Transition
import KubePortForward.Verified.Channel
import KubePortForward.Verified.BigEndian
import KubePortForward.Verified.Conveyor
import KubePortForward.Verified.Simulation
import KubePortForward.Verified.Counting
import KubePortForward.Codec.Frame
import KubePortForward.Codec.HeaderBlock
import KubePortForward.Mux.Commands
import KubePortForward.Mux.Window
import KubePortForward.Mux.Shared
import KubePortForward.Mux.Worker
import KubePortForward.Mux.Reader
import KubePortForward.Mux.Writer
import KubePortForward.Mux.Stream
import KubePortForward.Mux.Handle
import KubePortForward.Mux.System
import KubePortForward.Mux.Footprint
import KubePortForward.Mux.Pipeline
import KubePortForward.Mux.Traffic
import KubePortForward.Mux.SynOrder
import KubePortForward.Mux.Ownership
import KubePortForward.Mux.Registration
import KubePortForward.Mux.Zombies
import KubePortForward.Mux.WindowResize
import KubePortForward.Mux.Routing
import KubePortForward.Mux.WireOrder
import KubePortForward.Mux.Delivery
import KubePortForward.Mux.Consumption
import KubePortForward.Mux.Inbound
import KubePortForward.Mux.LiveSenders
import KubePortForward.Mux.EndOfStream
import KubePortForward.Mux.Session
import KubePortForward.Mux.Flushing
import KubePortForward.Mux.IdleProbe
import KubePortForward.Mux.GoAway
import KubePortForward.Mux.FailedRealization
import KubePortForward.Mux.Owner
import KubePortForward.Mux.OwnerInvariant
import KubePortForward.Mux.OwnerRefinement
import KubePortForward.Mux.PairCommands
import KubePortForward.Mux.Slots
import KubePortForward.Forwarder.Pool
import KubePortForward.Forwarder.System
import KubePortForward.Forwarder.PoolInvariant
import KubePortForward.Forwarder.Bound
import KubePortForward.Forwarder.Matching
import KubePortForward.Forwarder.FailOver
import KubePortForward.Mux.FlowControl
import KubePortForward.Codec.FrameHeader
import KubePortForward.Mux.SizeFaults
import KubePortForward.Mux.UnknownStreams
import KubePortForward.Mux.Peer
import KubePortForward.Mux.SessionCredit
import KubePortForward.Mux.StreamCredit
import KubePortForward.Forwarder.PrefetchFlag
import KubePortForward.Verified.Broadcast
import KubePortForward.Forwarder.PodWatch
import KubePortForward.Forwarder.ReadyWaiters
import KubePortForward.Forwarder.Removal
import KubePortForward.Forwarder.Watched
import KubePortForward.Forwarder.DeletedTarget
import KubePortForward.Mux.Exits
import KubePortForward.Mux.Teardown
import KubePortForward.Verified.Framing
import KubePortForward.Codec.Dictionary
import KubePortForward.Codec.Flate
import KubePortForward.Codec.SpdyCodec
import KubePortForward.Mux.Chunking
import KubePortForward.Codec.HeaderGrammar
import KubePortForward.Codec.FrameWords
import KubePortForward.Mux.OutgoingData
import KubePortForward.Mux.Draining
import KubePortForward.Mux.Pings
import KubePortForward.Mux.PoisonedWindows
import KubePortForward.Mux.Wakeups
import KubePortForward.Verified.Recording
import KubePortForward.Mux.FrameLimit
import KubePortForward.Mux.StreamLimit
import KubePortForward.Mux.ConcurrentOpens
import KubePortForward.Forwarder.Spares
import KubePortForward.Codec.HeaderStreams
import KubePortForward.Codec.WordFlate
import KubePortForward.Codec.RoundTrip
import KubePortForward.Mux.RttEstimate
import KubePortForward.Forwarder.PrefetchLoad
import KubePortForward.Verified.Extraction
import KubePortForward.Forwarder.Occupancy
import KubePortForward.Forwarder.Pruning
import KubePortForward.Forwarder.ReadyChoice
import KubePortForward.Codec.Inflation
import KubePortForward.Connect.Upgrade
import KubePortForward.Connect.Negotiation
import KubePortForward.Connect.Exclusive
import KubePortForward.Verified.Timeline
import KubePortForward.Connect.Poisoning
import KubePortForward.Connect.Fallback
import KubePortForward.Verified.Merge
import KubePortForward.Mux.Outbound
import KubePortForward.Forwarder.RequestIds
import KubePortForward.Mux.Transport
import KubePortForward.Verified.Totals
import KubePortForward.Mux.Permits
