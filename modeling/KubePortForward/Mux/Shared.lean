import Mathlib.Logic.Function.Basic
import KubePortForward.Verified.Channel
import KubePortForward.Mux.Commands
import KubePortForward.Mux.Window

/-!
# What the tasks of one connection share

The memory behind one `MuxHandle`: flags, counters, the command channels of
the writer, the frame and registration channels of the five workers, and for
every stream its inbound channel and its send window.  A task's local
variables are in the module of that task.

Inbound channels are named by the half they serve and send windows by the
stream id, because both are created afresh for every pair.  `History` records
what happened; no step reads it.
-/

namespace KubePortForward.Mux

open KubePortForward.Codec
open KubePortForward.Verified.Channel

/-- One per-stream inbound channel.  `txAlive` is whether its only sender
still exists; `delivered` is history, every payload it ever accepted. -/
structure DataChan where
  chan : Chan Bytes
  txAlive : Bool
  delivered : List Bytes

def DataChan.new (capacity : Nat) : DataChan :=
  { chan := Chan.new capacity, txAlive := true, delivered := [] }

/-- A channel that does not exist yet. -/
def DataChan.absent : DataChan :=
  { chan := Chan.new 0, txAlive := false, delivered := [] }

/-- What happened so far: frames handed to `route_frame`, streams whose
`Open` and whose `Close` registration was enqueued, and for every stream the
credit it was given and the bytes it debited. -/
structure History where
  routed : List Frame := []
  openLog : List StreamId := []
  closeLog : List StreamId := []
  credited : StreamId → Int := fun _ => 0
  written : StreamId → Int := fun _ => 0

structure Shared where
  cancelled : Bool
  goawayReceived : Bool
  nextStreamId : StreamId
  peerInitialWindow : UInt32
  peerMaxConcurrent : UInt32
  maxFrameSize : UInt32
  activePairs : Nat
  sessionSendWindow : SendWindow
  cmd : Chan MuxCommand
  control : Chan MuxCommand
  window : Chan MuxCommand
  frames : Shard → Chan Frame
  reg : Shard → Chan StreamRegistration
  closeReg : Shard → Chan StreamRegistration
  chans : ChanRef → DataChan
  windows : StreamId → SendWindow
  history : History

/-- The shared memory `MuxHandle::spawn` sets up. -/
def Shared.init (cfg : MuxConfig) : Shared where
  cancelled := false
  goawayReceived := false
  nextStreamId := 1
  peerInitialWindow := cfg.initialWindowSize
  peerMaxConcurrent := 0
  maxFrameSize := cfg.maxFrameSize
  activePairs := 0
  sessionSendWindow := SendWindow.new cfg.initialWindowSize
  cmd := Chan.new cfg.cmdBufferSize
  control := Chan.new cfg.controlBufferSize
  window := Chan.new cfg.windowBufferSize
  frames := fun _ => Chan.new cfg.workerQueueSize
  reg := fun _ => Chan.new cfg.regBufferSize
  closeReg := fun _ => Chan.new cfg.closeRegBufferSize
  chans := fun _ => DataChan.absent
  windows := fun _ => SendWindow.new 0
  history := {}

namespace Shared

def updChan (sh : Shared) (r : ChanRef) (f : DataChan → DataChan) : Shared :=
  { sh with chans := Function.update sh.chans r (f (sh.chans r)) }

def updWindow (sh : Shared) (id : StreamId) (f : SendWindow → SendWindow) : Shared :=
  { sh with windows := Function.update sh.windows id (f (sh.windows id)) }

def setReg (sh : Shared) (w : Shard) (c : Chan StreamRegistration) : Shared :=
  { sh with reg := Function.update sh.reg w c }

def setCloseReg (sh : Shared) (w : Shard) (c : Chan StreamRegistration) : Shared :=
  { sh with closeReg := Function.update sh.closeReg w c }

def setFrames (sh : Shared) (w : Shard) (c : Chan Frame) : Shared :=
  { sh with frames := Function.update sh.frames w c }

/-- The sender of an inbound channel is dropped. -/
def dropTx (sh : Shared) (r : ChanRef) : Shared :=
  sh.updChan r fun c => { c with txAlive := false }

/-- The sender held by a worker entry or a registration, if any, is dropped. -/
def dropTx? (sh : Shared) : Option ChanRef → Shared
  | some r => sh.dropTx r
  | none => sh

/-- `let _ = control_tx.try_send(cmd)`. -/
def sendControl (sh : Shared) (cmd : MuxCommand) : Shared :=
  { sh with control := sh.control.sendOrDrop cmd }

/-- Enqueue a `Close` registration for `id` with its worker, and say whether
and why it was refused. -/
def sendClose (sh : Shared) (id : StreamId) : Except TrySendError Shared :=
  match (sh.closeReg (shardOf id)).trySend (.close id) with
  | .ok c =>
      .ok { sh.setCloseReg (shardOf id) c with
        history := { sh.history with closeLog := sh.history.closeLog ++ [id] } }
  | .error e => .error e

/-- `let _ = close_reg_tx.try_send(Close { id })`. -/
def sendCloseOrDrop (sh : Shared) (id : StreamId) : Shared :=
  match sh.sendClose id with
  | .ok sh' => sh'
  | .error _ => sh

end Shared

end KubePortForward.Mux
