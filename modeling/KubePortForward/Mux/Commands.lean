import KubePortForward.Codec.Frame

/-!
# Commands, registrations and limits of one multiplexed connection

The messages that the tasks of `spdy-mux/src/mux` exchange, the constants of
`mux/mod.rs` and the limits of `mux/config.rs` that the modelled code reads.
Durations are left out: timers are moves of the environment.
-/

namespace KubePortForward.Mux

open KubePortForward.Codec

/-- Number of frame worker tasks per connection. -/
def FRAME_WORKERS : Nat := 5

/-- Maximum outbound commands coalesced into one batch. -/
def WRITE_BATCH_CAP : Nat := 64

def RST_STATUS_INVALID_STREAM : UInt32 := 2
def RST_STATUS_REFUSED_STREAM : UInt32 := 3
def RST_STATUS_CANCEL : UInt32 := 5
def RST_STATUS_FLOW_CONTROL : UInt32 := 7
def GOAWAY_STATUS_OK : UInt32 := 0

/-- Maximum valid SPDY stream id (31-bit unsigned). -/
def MAX_STREAM_ID : StreamId := 0x7FFFFFFF

/-- A frame worker, by its index. -/
abbrev Shard := Fin FRAME_WORKERS

/-- The worker that owns a stream: `stream_id % FRAME_WORKERS`. -/
def shardOf (id : StreamId) : Shard :=
  ⟨id.toNat % FRAME_WORKERS, Nat.mod_lt _ (by decide)⟩

/-- The two streams of a pair. -/
inductive HalfKind where
  | data
  | error
  deriving DecidableEq, Repr

/-- One per-stream inbound channel: which half of which pair it belongs to.
Naming the channel stands for holding its `mpsc::Sender`, of which there is
exactly one. -/
structure ChanRef where
  pair : Nat
  half : HalfKind
  deriving DecidableEq, Repr

/-- Commands sent to the writer task. -/
inductive MuxCommand where
  | openStreamPair (errorId dataId : StreamId) (errorHeaders dataHeaders : Headers)
  | sendData (streamId : StreamId) (payload : Bytes) (fin : Bool)
  | sendRawFrame (frame : Bytes)
  | closeStream (streamId : StreamId) (status : UInt32)
  | encodePing (id : UInt32)
  | sendWsPong (payload : Bytes)
  | encodeWindowUpdate (streamId : StreamId) (delta : UInt32)
  | goAway (lastGoodStreamId : StreamId)
  deriving DecidableEq, Repr

/-- Messages to a frame worker about the streams it owns.  `openStream` also
carries the `Arc<SendWindow>` of the stream, which is the window kept under
the stream's id; the reply channel it carries has no receiver left. -/
inductive StreamRegistration where
  | openStream (streamId : StreamId) (dataTx : ChanRef)
  | close (streamId : StreamId)
  | settingsWindowDelta (delta : Int)
  | goAway (lastGoodStreamId : StreamId) (status : UInt32)
  deriving DecidableEq, Repr

/-- The limits of `MuxConfig` that the modelled code reads. -/
structure MuxConfig where
  initialWindowSize : UInt32
  maxConcurrentStreams : UInt32
  operatingMaxStreams : UInt32
  maxFrameSize : UInt32
  cmdBufferSize : Nat
  controlBufferSize : Nat
  regBufferSize : Nat
  closeRegBufferSize : Nat
  workerQueueSize : Nat
  windowBufferSize : Nat
  streamDataBuffer : Nat
  streamErrorBuffer : Nat

/-- `MuxConfig::default`. -/
def MuxConfig.default : MuxConfig where
  initialWindowSize := 1024 * 1024
  maxConcurrentStreams := 100
  operatingMaxStreams := 64
  maxFrameSize := 1024 * 1024
  cmdBufferSize := 512
  controlBufferSize := 256
  regBufferSize := 128
  closeRegBufferSize := 64
  workerQueueSize := 128
  windowBufferSize := 256
  streamDataBuffer := 64
  streamErrorBuffer := 8

end KubePortForward.Mux
