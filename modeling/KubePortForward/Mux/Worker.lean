import Mathlib.Data.List.AList
import Mathlib.Data.Finset.Basic
import KubePortForward.Mux.Shared

/-!
# The frame worker

`mux/worker.rs`: each of the five workers owns the streams whose id falls in
its shard.  `dispatchFrameInWorker` and `applyRegistration` are the two
synchronous functions of the source; `Worker.step` is the task's loop, one
channel poll at a time, because other tasks run between two polls.

The `select!` of the source is biased and polls its arms from the top each
time the task is woken, so a round that finds nothing goes back to
`selectCancel`.  The reply channels in `pending_replies` have no receiver
(`realize_stream_pair` drops it), so a reply is only a removal here.  The
handle keeps a sender of every registration channel, so those arms never see
a disconnected channel.
-/

namespace KubePortForward.Mux

open KubePortForward.Codec
open KubePortForward.Verified.Channel

/-- `StreamState` of the source: `dataTx` is `none` after the peer's FIN; the
send window is the one kept under the stream's id. -/
structure StreamState where
  dataTx : Option ChanRef
  consumedSinceUpdate : Nat
  deriving DecidableEq, Repr

/-- `HashMap<u32, StreamState>`. -/
abbrev StreamMap := AList (fun _ : StreamId => StreamState)

/-- Where a worker's loop stands. -/
inductive WorkerPc where
  | drainClose
  | drainReg
  | selectCancel
  | selectClose
  | selectReg
  | selectFrame
  | shutdown
  | exiting
  | stopped
  deriving DecidableEq, Repr

structure Worker where
  pc : WorkerPc
  streams : StreamMap
  pendingReplies : Finset StreamId

def Worker.init : Worker :=
  { pc := .drainClose, streams := ∅, pendingReplies := ∅ }

/-! ## `dispatch_frame_in_worker` -/

/-- The peer's FIN: the sender goes away, the entry stays for outgoing
WINDOW_UPDATE processing. -/
def halfClose (id : StreamId) (k : Worker) (sh : Shared) : Worker × Shared :=
  match k.streams.lookup id with
  | some st =>
      ({ k with streams := k.streams.insert id { st with dataTx := none } },
        sh.dropTx? st.dataTx)
  | none => (k, sh)

/-- Remove one entry, dropping its sender and poisoning its window. -/
def removeStream (id : StreamId) (k : Worker) (sh : Shared) : Worker × Shared :=
  let sh' := match k.streams.lookup id with
    | some st => (sh.dropTx? st.dataTx).updWindow id SendWindow.close
    | none => sh
  ({ k with
      streams := k.streams.erase id
      pendingReplies := k.pendingReplies.erase id }, sh')

/-- Bytes accepted by the stream's channel are credited back to the peer once
half a window has accumulated; a full window channel keeps the count. -/
def creditPeer (initialWindowSize : UInt32) (id : StreamId) (consumed : Nat)
    (sh : Shared) : Nat × Shared :=
  if initialWindowSize.toNat / 2 ≤ consumed then
    match sh.window.trySend (.encodeWindowUpdate id (UInt32.ofNat consumed)) with
    | .ok c => (0, { sh with window := c })
    | .error _ => (consumed, sh)
  else (consumed, sh)

/-- The payload of a DATA frame; an empty one needs no delivery.  The flag says
that the entry was removed, which ends the processing of the frame. -/
def deliverPayload (initialWindowSize : UInt32) (id : StreamId) (payload : Bytes)
    (k : Worker) (sh : Shared) : Worker × Shared × Bool :=
  if payload.isEmpty then (k, sh, false)
  else match k.streams.lookup id with
  | none => (k, sh.sendControl (.closeStream id RST_STATUS_INVALID_STREAM), false)
  | some st =>
      match st.dataTx with
      | none => (k, sh, false)
      | some r =>
          match (sh.chans r).chan.trySend payload with
          | .ok c =>
              let sh' := sh.updChan r fun d =>
                { d with chan := c, delivered := d.delivered ++ [payload] }
              let (consumed, sh'') := creditPeer initialWindowSize id
                (st.consumedSinceUpdate + payload.length) sh'
              ({ k with streams :=
                  k.streams.insert id { st with consumedSinceUpdate := consumed } },
                sh'', false)
          -- The source logs "applying backpressure" and goes on: the payload
          -- is dropped and the worker keeps draining its frame queue.
          | .error .full => (k, sh, false)
          | .error .closed =>
              ({ k with streams := k.streams.erase id },
                (sh.dropTx r).sendControl (.closeStream id RST_STATUS_FLOW_CONTROL),
                true)

/-- A SYN_REPLY answers the open that waits for it; one for a stream that is
not known here is answered with a reset. -/
def answerReply (id : StreamId) (k : Worker) (sh : Shared) : Worker × Shared :=
  if id ∈ k.pendingReplies then
    ({ k with pendingReplies := k.pendingReplies.erase id }, sh)
  else if id ∈ k.streams then (k, sh)
  else (k, sh.sendControl (.closeStream id RST_STATUS_INVALID_STREAM))

def dispatchFrameInWorker (initialWindowSize : UInt32) (frame : Frame)
    (k : Worker) (sh : Shared) : Worker × Shared :=
  match frame with
  | .data id payload fin =>
      let (k', sh', removed) := deliverPayload initialWindowSize id payload k sh
      if removed then (k', sh')
      else if fin then halfClose id k' sh'
      else (k', sh')
  | .synReply id _ fin =>
      let (k', sh') := answerReply id k sh
      if fin then halfClose id k' sh' else (k', sh')
  | .rstStream id _ => removeStream id k sh
  | .windowUpdate id delta =>
      if id ∈ k.streams then
        (k, { sh.updWindow id (·.replenish delta) with
          history := { sh.history with
            credited := Function.update sh.history.credited id
              (sh.history.credited id + delta.toNat) } })
      else (k, sh)
  | _ => (k, sh)

/-! ## `apply_registration` -/

/-- The streams a GOAWAY refuses, walked in the order the hash map yields. -/
def refuseStreams (ids : List StreamId) (k : Worker) (sh : Shared) : Worker × Shared :=
  match ids with
  | [] => (k, sh)
  | id :: rest =>
      let (k', sh') := removeStream id k sh
      refuseStreams rest k' (sh'.sendControl (.closeStream id RST_STATUS_CANCEL))

/-- Ids of the worker's streams above `last`. -/
def badIds (last : StreamId) (k : Worker) : List StreamId :=
  k.streams.keys.filter (fun id => last < id)

/-- `order` is the order in which the hash map yields the ids a GOAWAY
refuses; a list that is not an enumeration of them is not a possible move. -/
def applyRegistration (order : List StreamId) (reg : StreamRegistration)
    (k : Worker) (sh : Shared) : Option (Worker × Shared) :=
  match reg with
  | .openStream id r =>
      -- An entry already under this id would lose its sender.
      let sh' := sh.dropTx? ((k.streams.lookup id).bind (·.dataTx))
      some ({ k with
          streams := k.streams.insert id { dataTx := some r, consumedSinceUpdate := 0 }
          pendingReplies := insert id k.pendingReplies }, sh')
  | .close id => some (removeStream id k sh)
  | .settingsWindowDelta delta =>
      some (k, { sh with windows := fun id =>
        if id ∈ k.streams then (sh.windows id).applyDelta delta else sh.windows id })
  | .goAway last _ =>
      if order.Perm (badIds last k) then some (refuseStreams order k sh) else none

/-! ## The loop -/

/-- Poison every window and drop every sender of the worker. -/
def closeAll (k : Worker) (sh : Shared) : Shared :=
  let sh' := (k.streams.entries.filterMap (fun e => e.2.dataTx)).foldl Shared.dropTx sh
  { sh' with windows := fun id =>
      if id ∈ k.streams then (sh'.windows id).close else sh'.windows id }

/-- Senders inside registrations that nobody will receive. -/
def queuedSenders (q : List StreamRegistration) : List ChanRef :=
  q.filterMap fun
    | .openStream _ r => some r
    | _ => none

/-- The worker's receivers are dropped with whatever they still hold. -/
def dropReceivers (w : Shard) (sh : Shared) : Shared :=
  let sh' := (queuedSenders (sh.reg w).queue).foldl Shared.dropTx sh
  ((sh'.setReg w (sh'.reg w).closeReceiver).setCloseReg w
    (sh'.closeReg w).closeReceiver).setFrames w (sh'.frames w).closeReceiver

/-- One poll of the worker's loop.  `readerGone` is whether the reader, the
only sender on the frame channel, has ended. -/
def Worker.step (cfg : MuxConfig) (readerGone : Bool) (order : List StreamId)
    (w : Shard) (k : Worker) (sh : Shared) : Option (Worker × Shared) :=
  match k.pc with
  | .drainClose =>
      match (sh.closeReg w).recv with
      | some (reg, c) => applyRegistration order reg k (sh.setCloseReg w c)
      | none => some ({ k with pc := .drainReg }, sh)
  | .drainReg =>
      match (sh.reg w).recv with
      | some (reg, c) => applyRegistration order reg k (sh.setReg w c)
      | none => some ({ k with pc := .selectCancel }, sh)
  | .selectCancel =>
      if sh.cancelled then some ({ k with pc := .shutdown }, sh)
      else some ({ k with pc := .selectClose }, sh)
  | .selectClose =>
      match (sh.closeReg w).recv with
      | some (reg, c) =>
          applyRegistration order reg { k with pc := .drainClose } (sh.setCloseReg w c)
      | none => some ({ k with pc := .selectReg }, sh)
  | .selectReg =>
      match (sh.reg w).recv with
      | some (reg, c) =>
          applyRegistration order reg { k with pc := .drainClose } (sh.setReg w c)
      | none => some ({ k with pc := .selectFrame }, sh)
  | .selectFrame =>
      match (sh.frames w).recv with
      | some (frame, c) =>
          some (dispatchFrameInWorker cfg.initialWindowSize frame
            { k with pc := .drainClose } (sh.setFrames w c))
      | none =>
          if readerGone then some ({ k with pc := .shutdown }, sh)
          else some ({ k with pc := .selectCancel }, sh)
  | .shutdown =>
      some ({ pc := .exiting, streams := ∅, pendingReplies := ∅ }, closeAll k sh)
  | .exiting => some ({ k with pc := .stopped }, dropReceivers w sh)
  | .stopped => none

end KubePortForward.Mux
