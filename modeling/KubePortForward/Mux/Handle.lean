import KubePortForward.Mux.Stream

/-!
# Reserving and realizing a stream pair

`mux/handle.rs`.  `open_stream_pair` reserves a slot optimistically and gives
it back when a limit is reached; `realize_stream_pair` allocates the stream
ids, registers both streams with their workers, enqueues the open command and
reserves the slots the guard will need, all under the `open_seq` mutex and
without waiting.  Both are cut into their atomic accesses.  Since the mutex
admits one realization at a time, the one in progress is a single value, and
the mutex is free exactly when there is none.

A realization that fails has moved the senders of both inbound channels out
of the pair, so the pair is `broken` for good.
-/

namespace KubePortForward.Mux

open KubePortForward.Codec
open KubePortForward.Verified.Channel

/-- `min(local, peer)`, where a peer limit of 0 means no limit. -/
def limitWith (localMax : UInt32) (sh : Shared) : UInt32 :=
  if 0 < sh.peerMaxConcurrent then min localMax sh.peerMaxConcurrent else localMax

def operatingLimit (cfg : MuxConfig) (sh : Shared) : UInt32 :=
  limitWith cfg.operatingMaxStreams sh

def hardLimit (cfg : MuxConfig) (sh : Shared) : UInt32 :=
  limitWith cfg.maxConcurrentStreams sh

/-! ## `open_stream_pair` -/

/-- The checks of the closed and GOAWAY flags, then the increment. -/
def Pair.openBegin (errorHeaders dataHeaders : Headers) (sh : Shared) (pr : Pair) :
    Option (Shared × Pair) :=
  if pr.phase = .absent then
    if sh.cancelled ∨ sh.goawayReceived then some (sh, { pr with phase := .refused })
    else
      some ({ sh with activePairs := sh.activePairs + 1 },
        { pr with
          phase := .checkOperating sh.activePairs
          errorHeaders := errorHeaders
          dataHeaders := dataHeaders })
  else none

/-- The limit checks, the decrement of a refused attempt, and the grant. -/
def Pair.openStep (cfg : MuxConfig) (p : Nat) (sh : Shared) (pr : Pair) :
    Option (Shared × Pair) :=
  match pr.phase with
  | .checkOperating prev =>
      if operatingLimit cfg sh ≤ UInt32.ofNat prev then some (sh, { pr with phase := .undo })
      else some (sh, { pr with phase := .checkHard prev })
  | .checkHard prev =>
      if hardLimit cfg sh ≤ UInt32.ofNat prev then some (sh, { pr with phase := .undo })
      else some (sh, { pr with phase := .granting })
  | .undo =>
      some ({ sh with activePairs := sh.activePairs - 1 }, { pr with phase := .refused })
  | .granting =>
      some ((sh.updChan ⟨p, .error⟩ fun _ => DataChan.new cfg.streamErrorBuffer).updChan
          ⟨p, .data⟩ fun _ => DataChan.new cfg.streamDataBuffer,
        { pr with phase := .unopened, maxFrameSize := sh.maxFrameSize })
  | _ => none

/-! ## `realize_stream_pair` -/

/-- Where the realization that holds `open_seq` stands.  A cleanup carries how
many of the four reservations it has to give back. -/
inductive RealizePc where
  | loadErrorWindow
  | loadDataWindow
  | registerError
  | registerData
  | enqueueOpen
  | reserveCtrlError
  | reserveCtrlData
  | reserveCloseError
  | reserveCloseData
  | cleanupErrorOnly
  | cleanupError (held : Nat)
  | cleanupData (held : Nat)
  deriving DecidableEq, Repr

structure Realize where
  pair : Nat
  errorId : StreamId
  dataId : StreamId
  pc : RealizePc
  deriving DecidableEq, Repr

/-- Both senders of a pair are dropped. -/
def Shared.dropPairTx (sh : Shared) (p : Nat) : Shared :=
  (sh.dropTx ⟨p, .data⟩).dropTx ⟨p, .error⟩

/-- The flag checks and the allocation of the two ids.  A counter that would
leave the 31-bit range is not advanced. -/
def realizeBegin (p : Nat) (sh : Shared) (pr : Pair) : Shared × Pair × Option Realize :=
  if sh.cancelled ∨ sh.goawayReceived then
    (sh.dropPairTx p, { pr with phase := .broken }, none)
  else
    let errorId := sh.nextStreamId
    let dataId := sh.nextStreamId + 2
    if MAX_STREAM_ID < dataId ∨ MAX_STREAM_ID < errorId then
      ((sh.dropPairTx p).sendControl (.goAway (errorId - 2)),
        { pr with phase := .broken }, none)
    else
      ({ sh with nextStreamId := dataId + 2 },
        { pr with phase := .realizing, errorId := errorId, dataId := dataId },
        some { pair := p, errorId := errorId, dataId := dataId, pc := .loadErrorWindow })

/-- Enqueue an `Open` registration for one half. -/
def Shared.sendOpen (sh : Shared) (id : StreamId) (r : ChanRef) : Option Shared :=
  match (sh.reg (shardOf id)).trySend (.openStream id r) with
  | .ok c =>
      some { sh.setReg (shardOf id) c with
        history := { sh.history with openLog := sh.history.openLog ++ [id] } }
  | .error _ => none

/-- Give back the first `held` of the reservations made so far. -/
def Shared.releaseHeld (sh : Shared) (errorId : StreamId) (held : Nat) : Shared :=
  let control := if 1 ≤ held then sh.control.releaseReserved else sh.control
  let control := if 2 ≤ held then control.releaseReserved else control
  let sh := { sh with control := control }
  if 3 ≤ held then
    sh.setCloseReg (shardOf errorId) (sh.closeReg (shardOf errorId)).releaseReserved
  else sh

/-- The next atomic access of the realization; `none` in the last component
when it returns and the mutex is released. -/
def Realize.step (z : Realize) (sh : Shared) (pr : Pair) : Shared × Pair × Option Realize :=
  let broken : Pair := { pr with phase := .broken }
  let goto (pc : RealizePc) : Option Realize := some { z with pc := pc }
  match z.pc with
  | .loadErrorWindow =>
      (sh.updWindow z.errorId fun _ => SendWindow.new sh.peerInitialWindow, pr,
        goto .loadDataWindow)
  | .loadDataWindow =>
      (sh.updWindow z.dataId fun _ => SendWindow.new sh.peerInitialWindow, pr,
        goto .registerError)
  | .registerError =>
      match sh.sendOpen z.errorId ⟨z.pair, .error⟩ with
      | some sh' => (sh', pr, goto .registerData)
      | none => (sh.dropPairTx z.pair, broken, none)
  | .registerData =>
      match sh.sendOpen z.dataId ⟨z.pair, .data⟩ with
      | some sh' => (sh', pr, goto .enqueueOpen)
      | none => (sh.dropTx ⟨z.pair, .data⟩, pr, goto .cleanupErrorOnly)
  | .enqueueOpen =>
      match sh.cmd.trySend
          (.openStreamPair z.errorId z.dataId pr.errorHeaders pr.dataHeaders) with
      | .ok c => ({ sh with cmd := c }, pr, goto .reserveCtrlError)
      | .error _ => (sh, pr, goto (.cleanupError 0))
  | .reserveCtrlError =>
      match sh.control.tryReserve with
      | .ok c => ({ sh with control := c }, pr, goto .reserveCtrlData)
      | .error _ => (sh, pr, goto (.cleanupError 0))
  | .reserveCtrlData =>
      match sh.control.tryReserve with
      | .ok c => ({ sh with control := c }, pr, goto .reserveCloseError)
      | .error _ => (sh, pr, goto (.cleanupError 1))
  | .reserveCloseError =>
      match (sh.closeReg (shardOf z.errorId)).tryReserve with
      | .ok c => (sh.setCloseReg (shardOf z.errorId) c, pr, goto .reserveCloseData)
      | .error _ => (sh, pr, goto (.cleanupError 2))
  | .reserveCloseData =>
      match (sh.closeReg (shardOf z.dataId)).tryReserve with
      | .ok c => (sh.setCloseReg (shardOf z.dataId) c, { pr with phase := .opened }, none)
      | .error _ => (sh, pr, goto (.cleanupError 3))
  | .cleanupErrorOnly => (sh.sendCloseOrDrop z.errorId, broken, none)
  | .cleanupError held => (sh.sendCloseOrDrop z.errorId, pr, goto (.cleanupData held))
  | .cleanupData held =>
      ((sh.sendCloseOrDrop z.dataId).releaseHeld z.errorId held, broken, none)

end KubePortForward.Mux
