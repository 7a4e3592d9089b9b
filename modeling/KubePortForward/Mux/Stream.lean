import KubePortForward.Mux.Shared

/-!
# The two halves of a stream pair

`spdy-mux/src/stream.rs`: what the owner of a pair does with it.  Reading is
`pollReadChannel`, `pollFillBufChannel` and `consumeChannelBuf`; writing is
`poll_write_via_sender`, one atomic access at a time; dropping the pair runs
the guard, one channel operation at a time.

A split pair and an unsplit one differ only in who may drop which receiver
when, so a receiver is dropped on its own here and the guard runs once both
are gone.  `obtained` is history: the bytes the owner took out of a half.
-/

namespace KubePortForward.Mux

open KubePortForward.Codec
open KubePortForward.Verified.BigEndian
open KubePortForward.Verified.Channel

/-- What polling an asynchronous operation returned. -/
inductive Poll (α : Type) where
  | pending
  | ready (value : α)
  deriving DecidableEq, Repr

/-- The read side of one half. -/
structure ReadHalf where
  readBuf : Option Bytes := none
  readEof : Bool := false
  obtained : Bytes := []
  deriving DecidableEq, Repr

/-- Where `StreamGuard::drop` stands. -/
inductive DropPc where
  | releaseCtrlError
  | resetData
  | closeError
  | closeData
  | releasePair
  | releaseCtrlData
  deriving DecidableEq, Repr

/-- The life of a pair, from `open_stream_pair` to its drop. -/
inductive PairPhase where
  | absent
  | checkOperating (prev : Nat)
  | checkHard (prev : Nat)
  | undo
  | granting
  | refused
  | unopened
  | realizing
  | opened
  | broken
  | dropping (pc : DropPc)
  | dropped
  deriving DecidableEq, Repr

/-- Where a `poll_write` stands between two atomic accesses. -/
inductive WritePc where
  | idle
  | checked (buf : Bytes)
  | recheck (buf : Bytes)
  | picked (payload : Bytes)
  | debited (payload : Bytes)
  deriving DecidableEq, Repr

/-- A stream pair as its owner holds it.  The ids are meaningful once it is
realized; `cmdPermit` is the slot a `PollSender` has reserved. -/
structure Pair where
  phase : PairPhase := .absent
  errorId : StreamId := 0
  dataId : StreamId := 0
  errorHeaders : Headers := []
  dataHeaders : Headers := []
  maxFrameSize : UInt32 := 0
  data : ReadHalf := {}
  error : ReadHalf := {}
  gracefulShutdown : Bool := false
  cmdPermit : Bool := false
  write : WritePc := .idle

def Pair.half (pr : Pair) : HalfKind → ReadHalf
  | .data => pr.data
  | .error => pr.error

def Pair.setHalf (pr : Pair) (h : ReadHalf) : HalfKind → Pair
  | .data => { pr with data := h }
  | .error => { pr with error := h }

@[simp, grind =] theorem Pair.setHalf_phase (pr : Pair) (h : ReadHalf) (kind : HalfKind) :
    (pr.setHalf h kind).phase = pr.phase := by
  cases kind <;> rfl

@[simp, grind =] theorem Pair.setHalf_errorId (pr : Pair) (h : ReadHalf)
    (kind : HalfKind) : (pr.setHalf h kind).errorId = pr.errorId := by
  cases kind <;> rfl

@[simp, grind =] theorem Pair.setHalf_dataId (pr : Pair) (h : ReadHalf)
    (kind : HalfKind) : (pr.setHalf h kind).dataId = pr.dataId := by
  cases kind <;> rfl

@[simp, grind =] theorem Pair.setHalf_write (pr : Pair) (h : ReadHalf)
    (kind : HalfKind) : (pr.setHalf h kind).write = pr.write := by
  cases kind <;> rfl

@[simp, grind =] theorem Pair.setHalf_gracefulShutdown (pr : Pair) (h : ReadHalf)
    (kind : HalfKind) : (pr.setHalf h kind).gracefulShutdown = pr.gracefulShutdown := by
  cases kind <;> rfl

/-- The stream id of a half. -/
def Pair.idOf (pr : Pair) : HalfKind → StreamId
  | .data => pr.dataId
  | .error => pr.errorId

/-! ## Reading -/

/-- `poll_read_channel` with room for `n` bytes: what was put in the buffer,
the channel and the read side afterwards. -/
def pollReadChannel (c : DataChan) (h : ReadHalf) (n : Nat) :
    Poll Bytes × DataChan × ReadHalf :=
  if h.readEof then (.ready [], c, h)
  else match h.readBuf with
  | some remaining =>
      let toCopy := min remaining.length n
      (.ready (remaining.take toCopy), c,
        { h with readBuf :=
            if remaining.length ≤ toCopy then none else some (remaining.drop toCopy) })
  | none =>
      match c.chan.recv with
      | some (data, ch) =>
          let toCopy := min data.length n
          (.ready (data.take toCopy), { c with chan := ch },
            { h with readBuf :=
                if toCopy < data.length then some (data.drop toCopy) else none })
      | none =>
          if c.txAlive then (.pending, c, h)
          else (.ready [], c, { h with readEof := true })

/-- `consume_channel_buf`: what it removes, and the read side afterwards. -/
def consumeChannelBuf (h : ReadHalf) (amt : Nat) : Bytes × ReadHalf :=
  match h.readBuf with
  | some bytes =>
      let consumed := min amt bytes.length
      let rest := bytes.drop consumed
      (bytes.take consumed, { h with readBuf := if rest.isEmpty then none else some rest })
  | none => ([], h)

/-- `poll_fill_buf_channel`.  Each round of the source's loop either returns
or takes one chunk, so the chunks queued now bound the rounds. -/
def pollFillBufChannel : Nat → DataChan → ReadHalf → Poll Bytes × DataChan × ReadHalf
  | 0, c, h => (.pending, c, h)
  | fuel + 1, c, h =>
      match h.readBuf with
      | some (b :: bs) => (.ready (b :: bs), c, h)
      | _ =>
          if h.readEof then (.ready [], c, { h with readBuf := none })
          else match c.chan.recv with
          | some (data, ch) =>
              pollFillBufChannel fuel { c with chan := ch } { h with readBuf := some data }
          | none =>
              if c.txAlive then (.pending, c, { h with readBuf := none })
              else (.ready [], c, { h with readBuf := none, readEof := true })

/-- The owner of an opened pair reads from one half that it still holds. -/
def Pair.canRead (pr : Pair) (c : DataChan) : Bool :=
  pr.phase == .opened && !c.chan.closed

/-- `poll_read` on one half with a non-empty buffer. -/
def Pair.read (p : Nat) (kind : HalfKind) (n : Nat) (sh : Shared) (pr : Pair) :
    Option (Shared × Pair) :=
  let r : ChanRef := ⟨p, kind⟩
  if pr.canRead (sh.chans r) && decide (0 < n) then
    match pollReadChannel (sh.chans r) (pr.half kind) n with
    | (.ready bytes, c, h) =>
        some (sh.updChan r fun _ => c,
          pr.setHalf { h with obtained := h.obtained ++ bytes } kind)
    | (.pending, _, _) => none
  else none

/-- `poll_fill_buf` on the data half. -/
def Pair.fillBuf (p : Nat) (sh : Shared) (pr : Pair) : Option (Shared × Pair) :=
  let r : ChanRef := ⟨p, .data⟩
  if pr.canRead (sh.chans r) then
    match pollFillBufChannel ((sh.chans r).chan.queue.length + 1) (sh.chans r) pr.data with
    | (_, c, h) => some (sh.updChan r fun _ => c, { pr with data := h })
  else none

/-- `consume` on the data half. -/
def Pair.consume (p amt : Nat) (sh : Shared) (pr : Pair) : Option (Shared × Pair) :=
  if pr.canRead (sh.chans ⟨p, .data⟩) then
    match consumeChannelBuf pr.data amt with
    | (bytes, h) => some (sh, { pr with data := { h with obtained := h.obtained ++ bytes } })
  else none

/-! ## Writing -/

/-- The pre-encoded DATA frame that `poll_write_via_sender` builds. -/
def rawDataFrame (id : StreamId) (payload : Bytes) : Bytes :=
  beField 4 (id &&& 0x7FFFFFFF).toNat ++
    beField 4 (UInt32.ofNat payload.length &&& 0x00FFFFFF).toNat ++ payload

/-- How many bytes of `buf` the window and the frame size admit now. -/
def writeSize (maxFrameSize : UInt32) (w : SendWindow) (buf : Bytes) : Nat :=
  let maxPayload := maxFrameSize.toNat - 8
  let maxPayload := if maxPayload = 0 then buf.length else maxPayload
  min (min buf.length w.available.toNat) maxPayload

/-- The early check of `poll_write`: not shut down, not poisoned. -/
def Pair.writeBegin (buf : Bytes) (sh : Shared) (pr : Pair) : Option (Shared × Pair) :=
  if pr.phase = .opened ∧ pr.write = .idle ∧ buf ≠ [] ∧ pr.gracefulShutdown = false ∧
      (sh.windows pr.dataId).isClosed = false then
    some (sh, { pr with write := .checked buf })
  else none

/-- `poll_reserve` on the data command channel.  The slot stays reserved when
the write then waits for the window, and a waiting `PollSender` may be given
its slot between two polls. -/
def Pair.writeReserve (sh : Shared) (pr : Pair) : Option (Shared × Pair) :=
  if pr.phase = .opened ∧ pr.cmdPermit = false then
    match pr.write, sh.cmd.tryReserve with
    | .idle, .ok c => some ({ sh with cmd := c }, { pr with cmdPermit := true })
    | .checked _, .ok c => some ({ sh with cmd := c }, { pr with cmdPermit := true })
    | .checked _, .error _ => some (sh, { pr with write := .idle })
    | _, _ => none
  else none

/-- Read the window and choose how much to write.  An exhausted window
registers the waker before looking again. -/
def Pair.writePick (sh : Shared) (pr : Pair) : Option (Shared × Pair) :=
  match pr.write with
  | .checked buf =>
      if pr.cmdPermit then
        let n := writeSize pr.maxFrameSize (sh.windows pr.dataId) buf
        if n = 0 then
          some (sh.updWindow pr.dataId SendWindow.registerWaker,
            { pr with write := .recheck buf })
        else some (sh, { pr with write := .picked (buf.take n) })
      else none
  | _ => none

/-- The second look, after the waker was registered. -/
def Pair.writeRecheck (sh : Shared) (pr : Pair) : Option (Shared × Pair) :=
  match pr.write with
  | .recheck buf =>
      let n := writeSize pr.maxFrameSize (sh.windows pr.dataId) buf
      if (sh.windows pr.dataId).isClosed ∨ n = 0 then some (sh, { pr with write := .idle })
      else some (sh, { pr with write := .picked (buf.take n) })
  | _ => none

/-- Debit the window; a poisoned one ends the write with `BrokenPipe`. -/
def Pair.writeDebit (sh : Shared) (pr : Pair) : Option (Shared × Pair) :=
  match pr.write with
  | .picked payload =>
      match (sh.windows pr.dataId).consume payload.length with
      | (true, w) =>
          some ({ sh.updWindow pr.dataId fun _ => w with
              history := { sh.history with
                written := Function.update sh.history.written pr.dataId
                  (sh.history.written pr.dataId + payload.length) } },
            { pr with write := .debited payload })
      | (false, _) => some (sh, { pr with write := .idle })
  | _ => none

/-- Send the frame through the slot reserved for it. -/
def Pair.writeSend (sh : Shared) (pr : Pair) : Option (Shared × Pair) :=
  match pr.write with
  | .debited payload =>
      if h : 0 < sh.cmd.reserved then
        some ({ sh with cmd :=
            sh.cmd.sendReserved (.sendRawFrame (rawDataFrame pr.dataId payload)) h },
          { pr with write := .idle, cmdPermit := false })
      else none
  | _ => none

/-- `poll_shutdown_opened`: the empty DATA+FIN, and the guard turns graceful. -/
def Pair.shutdown (sh : Shared) (pr : Pair) : Option (Shared × Pair) :=
  if pr.phase = .opened ∧ pr.cmdPermit = true ∧ pr.write = .idle ∧
      pr.gracefulShutdown = false then
    if h : 0 < sh.cmd.reserved then
      some ({ sh with cmd := sh.cmd.sendReserved (.sendData pr.dataId [] true) h },
        { pr with gracefulShutdown := true, cmdPermit := false })
    else none
  else none

/-! ## Dropping -/

/-- A receiver is dropped, together with what it still holds.  One half of a
split pair can go while the other realizes the pair, and the error half while
the data half writes. -/
def Pair.dropReceiver (p : Nat) (kind : HalfKind) (sh : Shared) (pr : Pair) :
    Option (Shared × Pair) :=
  if (pr.phase = .unopened ∨ pr.phase = .realizing ∨ pr.phase = .opened ∨
      pr.phase = .broken) ∧ (kind = .error ∨ pr.write = .idle) then
    some (sh.updChan ⟨p, kind⟩ fun c => { c with chan := c.chan.closeReceiver }, pr)
  else none

/-- Both receivers are gone, so whatever else the pair owns goes too: the
reservation guard of a pair that was never opened, the `PollSender` and then
the stream guard of an opened one. -/
def Pair.dropRest (p : Nat) (sh : Shared) (pr : Pair) : Option (Shared × Pair) :=
  if (sh.chans ⟨p, .data⟩).chan.closed = true ∧
      (sh.chans ⟨p, .error⟩).chan.closed = true ∧ pr.write = .idle then
    match pr.phase with
    | .unopened =>
        some ({ (sh.dropTx ⟨p, .data⟩).dropTx ⟨p, .error⟩ with
            activePairs := sh.activePairs - 1 },
          { pr with phase := .dropped })
    | .broken =>
        some ({ sh with activePairs := sh.activePairs - 1 }, { pr with phase := .dropped })
    | .opened =>
        some (if pr.cmdPermit then { sh with cmd := sh.cmd.releaseReserved } else sh,
          { pr with phase := .dropping .releaseCtrlError, cmdPermit := false })
    | _ => none
  else none

/-- Send a `Close` registration through the slot reserved for it. -/
def Shared.sendReservedClose (sh : Shared) (id : StreamId) : Option Shared :=
  if h : 0 < (sh.closeReg (shardOf id)).reserved then
    some { sh.setCloseReg (shardOf id) ((sh.closeReg (shardOf id)).sendReserved (.close id) h) with
      history := { sh.history with closeLog := sh.history.closeLog ++ [id] } }
  else none

/-- `StreamGuard::drop`, one channel operation at a time.  The error stream is
never reset; the data stream is, unless it was shut down gracefully. -/
def Pair.dropStep (sh : Shared) (pr : Pair) : Option (Shared × Pair) :=
  match pr.phase with
  | .dropping .releaseCtrlError =>
      some ({ sh with control := sh.control.releaseReserved },
        { pr with phase := .dropping .resetData })
  | .dropping .resetData =>
      if pr.gracefulShutdown then some (sh, { pr with phase := .dropping .closeError })
      else if h : 0 < sh.control.reserved then
        some ({ sh with control :=
            sh.control.sendReserved (.closeStream pr.dataId RST_STATUS_CANCEL) h },
          { pr with phase := .dropping .closeError })
      else none
  | .dropping .closeError =>
      (sh.sendReservedClose pr.errorId).map fun sh' =>
        (sh', { pr with phase := .dropping .closeData })
  | .dropping .closeData =>
      (sh.sendReservedClose pr.dataId).map fun sh' =>
        (sh', { pr with phase := .dropping .releasePair })
  | .dropping .releasePair =>
      some ({ sh with activePairs := sh.activePairs - 1 },
        { pr with phase := .dropping .releaseCtrlData })
  | .dropping .releaseCtrlData =>
      some (if pr.gracefulShutdown then
          { sh with control := sh.control.releaseReserved } else sh,
        { pr with phase := .dropped })
  | _ => none

end KubePortForward.Mux
