import KubePortForward.Mux.Shared

/-!
# The writer task

`mux/writer.rs`: the writer owns the transport.  Its loop is a biased
`select!` over the window, control and data command channels, each arm of
which drains more commands before the batch is flushed and the workers are
told about the streams that were reset.

`processWriterCommand` lists the frames one command writes, in order; the
frames of the command being processed are in `out` and are handed to the
transport one at a time, because the other tasks run while the writer waits
for each of them.  A write that fails, times out or could not be encoded ends
the session.  Whether any byte was counted since the last flush is all the
source asks of its byte counter; a WebSocket PONG and a keepalive PING are
written without being counted.
-/

namespace KubePortForward.Mux

open KubePortForward.Codec
open KubePortForward.Verified.Channel

/-- A frame handed to the transport. -/
inductive Outgoing where
  | synStream (streamId : StreamId) (headers : Headers) (fin : Bool)
  | data (streamId : StreamId) (payload : Bytes) (fin : Bool)
  | raw (frame : Bytes)
  | rstStream (streamId : StreamId) (status : UInt32)
  | ping (id : UInt32)
  | windowUpdate (streamId : StreamId) (delta : UInt32)
  | goAway (lastGoodStreamId : StreamId) (status : UInt32)
  | settings (entries : List (UInt32 × UInt32))
  | pong (payload : Bytes)
  deriving DecidableEq, Repr

/-- One write of a command: the frame, whether its length is added to the
byte counter, and the stream whose workers are told once it is written. -/
structure PendingWrite where
  frame : Outgoing
  counted : Bool
  close : Option StreamId
  deriving DecidableEq, Repr

/-- Where the writer's loop stands. -/
inductive WriterPc where
  | startPing
  | startSettings
  | selectCancel
  | selectWindow
  | selectControl
  | selectCmd
  | selectTimers
  | windowDrain
  | controlDrain (left : Nat)
  | holdCmd (cmd : MuxCommand)
  | cmdDrain (left : Nat)
  | finish
  | closes (todo requeued : List StreamId)
  | exiting
  | stopped
  deriving DecidableEq, Repr

structure Writer where
  pc : WriterPc
  out : List PendingWrite
  wire : List Outgoing
  flushed : Nat
  bytesSinceFlush : Bool
  pendingCloses : List StreamId
  pingId : UInt32
  writeFailed : Bool

/-- Max commands coalesced after the first one of a batch. -/
def OPPORTUNISTIC_CAP : Nat := WRITE_BATCH_CAP - 1

/-- A counted write that closes nothing. -/
def PendingWrite.plain (f : Outgoing) : PendingWrite :=
  { frame := f, counted := true, close := none }

/-- A write whose bytes are not counted. -/
def PendingWrite.uncounted (f : Outgoing) : PendingWrite :=
  { frame := f, counted := false, close := none }

/-- The task first writes and flushes PING 1, then our SETTINGS. -/
def Writer.init : Writer where
  pc := .startPing
  out := [.uncounted (.ping 1)]
  wire := []
  flushed := 0
  bytesSinceFlush := false
  pendingCloses := []
  pingId := 3
  writeFailed := false

/-- The frames a command writes, in order.  Opening a pair writes the two
SYN_STREAMs and the empty DATA+FIN that half-closes the error stream. -/
def processWriterCommand : MuxCommand → List PendingWrite
  | .openStreamPair errorId dataId errorHeaders dataHeaders =>
      [.plain (.synStream errorId errorHeaders false),
        .plain (.synStream dataId dataHeaders false),
        .plain (.data errorId [] true)]
  | .sendWsPong payload => [.uncounted (.pong payload)]
  | .closeStream id status =>
      [{ frame := .rstStream id status, counted := true, close := some id }]
  | .sendData id payload fin => [.plain (.data id payload fin)]
  | .sendRawFrame frame => [.plain (.raw frame)]
  | .encodePing id => [.plain (.ping id)]
  | .encodeWindowUpdate id delta => [.plain (.windowUpdate id delta)]
  | .goAway last => [.plain (.goAway last GOAWAY_STATUS_OK)]

/-- Start writing a command and go on at `pc` afterwards. -/
def Writer.process (wr : Writer) (cmd : MuxCommand) (pc : WriterPc) : Writer :=
  { wr with out := processWriterCommand cmd, pc := pc }

/-- One write to the transport.  A failed one leaves the loop. -/
def Writer.emit (ok : Bool) (sh : Shared) (wr : Writer) : Option (Shared × Writer) :=
  match wr.out with
  | [] => none
  | p :: rest =>
      if ok then
        some (sh, { wr with
          out := rest
          wire := wr.wire ++ [p.frame]
          bytesSinceFlush := wr.bytesSinceFlush || p.counted
          pendingCloses := wr.pendingCloses ++ p.close.toList })
      else
        some ({ sh with cancelled := true },
          { wr with out := [], pc := .exiting, writeFailed := true })

/-- Where the loop goes after a successful flush, and what it writes next. -/
def Writer.afterFlush (cfg : MuxConfig) (wr : Writer) : Option Writer :=
  match wr.pc with
  | .startPing =>
      some { wr with
        out := [.uncounted (.settings
          [(7, cfg.initialWindowSize), (4, cfg.maxConcurrentStreams)])]
        pc := .startSettings }
  | .startSettings => some { wr with pc := .selectCancel }
  | .finish =>
      if wr.bytesSinceFlush then
        some { wr with
          bytesSinceFlush := false
          pc := .closes wr.pendingCloses []
          pendingCloses := [] }
      else none
  | _ => none

/-- A flush: of each of the two opening frames, and of every batch in which
some byte was counted. -/
def Writer.flush (cfg : MuxConfig) (ok : Bool) (sh : Shared) (wr : Writer) :
    Option (Shared × Writer) :=
  if wr.out ≠ [] then none
  else match wr.afterFlush cfg with
  | none => none
  | some wr' =>
      if ok then some (sh, { wr' with flushed := wr.wire.length })
      else
        some ({ sh with cancelled := true },
          { wr with pc := .exiting, writeFailed := true })

/-- The keepalive tick writes a PING without counting its bytes. -/
def Writer.pingTick (sh : Shared) (wr : Writer) : Option (Shared × Writer) :=
  if wr.out = [] ∧ wr.pc = .selectTimers then
    some (sh, { wr with
      out := [.uncounted (.ping wr.pingId)]
      pingId := wr.pingId + 2
      pc := .finish })
  else none

/-- The stall watchdog kills the handle when commands are queued. -/
def Writer.stallTick (sh : Shared) (wr : Writer) : Option (Shared × Writer) :=
  if wr.out = [] ∧ wr.pc = .selectTimers ∧
      0 < sh.control.queue.length + sh.cmd.queue.length then
    some ({ sh with cancelled := true }, { wr with pc := .exiting })
  else none

/-- The next poll of the loop, once the current command is written. -/
def Writer.step (sh : Shared) (wr : Writer) : Option (Shared × Writer) :=
  if wr.out ≠ [] then none
  else match wr.pc with
  | .startPing => none
  | .startSettings => none
  | .selectCancel =>
      if sh.cancelled then some (sh, { wr with pc := .exiting })
      else some (sh, { wr with pc := .selectWindow })
  | .selectWindow =>
      match sh.window.recv with
      | some (cmd, c) => some ({ sh with window := c }, wr.process cmd .windowDrain)
      | none => some (sh, { wr with pc := .selectControl })
  | .selectControl =>
      match sh.control.recv with
      | some (cmd, c) =>
          some ({ sh with control := c }, wr.process cmd (.controlDrain OPPORTUNISTIC_CAP))
      | none => some (sh, { wr with pc := .selectCmd })
  | .selectCmd =>
      match sh.cmd.recv with
      | some (cmd, c) => some ({ sh with cmd := c }, { wr with pc := .holdCmd cmd })
      | none => some (sh, { wr with pc := .selectTimers })
  | .selectTimers => some (sh, { wr with pc := .selectCancel })
  | .windowDrain =>
      match sh.window.recv with
      | some (cmd, c) => some ({ sh with window := c }, wr.process cmd .windowDrain)
      | none => some (sh, { wr with pc := .finish })
  | .controlDrain 0 => some (sh, { wr with pc := .finish })
  | .controlDrain (left + 1) =>
      match sh.control.recv with
      | some (cmd, c) => some ({ sh with control := c }, wr.process cmd (.controlDrain left))
      | none => some (sh, { wr with pc := .finish })
  -- Pending control commands go out before the data command already taken.
  | .holdCmd held =>
      match sh.control.recv with
      | some (cmd, c) => some ({ sh with control := c }, wr.process cmd (.holdCmd held))
      | none => some (sh, wr.process held (.cmdDrain OPPORTUNISTIC_CAP))
  | .cmdDrain 0 => some (sh, { wr with pc := .finish })
  | .cmdDrain (left + 1) =>
      match sh.cmd.recv with
      | some (cmd, c) => some ({ sh with cmd := c }, wr.process cmd (.cmdDrain left))
      | none => some (sh, { wr with pc := .finish })
  | .finish =>
      if wr.bytesSinceFlush then none
      else some (sh, { wr with pc := .closes wr.pendingCloses [], pendingCloses := [] })
  | .closes [] requeued =>
      some (sh, { wr with pc := .selectCancel, pendingCloses := requeued })
  | .closes (id :: rest) requeued =>
      match sh.sendClose id with
      | .ok sh' => some (sh', { wr with pc := .closes rest requeued })
      | .error .full => some (sh, { wr with pc := .closes rest (requeued ++ [id]) })
      | .error .closed =>
          some ({ sh with cancelled := true }, { wr with pc := .exiting })
  | .exiting =>
      some ({ sh with
          cancelled := true
          cmd := sh.cmd.closeReceiver
          control := sh.control.closeReceiver
          window := sh.window.closeReceiver },
        { wr with pc := .stopped })
  | .stopped => none

end KubePortForward.Mux
