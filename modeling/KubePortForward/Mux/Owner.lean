import KubePortForward.Verified.Simulation
import KubePortForward.Mux.Consumption

/-!
# Streams, their halves and their guards

`spdy-mux/src/stream.rs` as its callers see it: a `Stream`, the `DataStream` and
`ErrorStream` that it splits into, the lazy open that any of their operations
may drive, and the two guards between which the session slot of the pair moves.
`Mux.Stream` has the accesses a poll consists of; here is which of them a poll
makes, in which order, and what the caller is told.

An unsplit stream is used through `&mut`, so it has one call at a time; the two
halves of a split one have one each, and share the open state behind a mutex.
Where a `&mut` stands for the mutex, `mutex` stands for the `&mut`.

`issued`, `accepted`, `touched` and `released` are history: the commands the
pair has put on the data command channel, the prefixes that writes reported as
accepted, whether an operation that opens the stream was called, and how often
the slot of the pair was released.
-/

namespace KubePortForward.Mux

open KubePortForward.Codec
open KubePortForward.Verified.Channel
open KubePortForward.Verified.Transition

/-- Who makes a call: the owner of an unsplit stream, or of one half. -/
inductive Holder where
  | stream
  | data
  | error
  deriving DecidableEq, Repr

/-- The half that the holder reads from. -/
def Holder.half : Holder → HalfKind
  | .stream => .data
  | .data => .data
  | .error => .error

/-- The receivers that go with the holder, in the order they are dropped. -/
def Holder.receivers : Holder → List HalfKind
  | .stream => [.data, .error]
  | .data => [.data]
  | .error => [.error]

/-- The operations of `AsyncRead`, `AsyncBufRead` and `AsyncWrite`. -/
inductive Op where
  | read (n : Nat)
  | fillBuf
  | consume (amt : Nat)
  | write (buf : Bytes)
  | flush
  | shutdown
  deriving DecidableEq, Repr

namespace Op

/-- The error half can only be read. -/
def offeredBy : Op → Holder → Bool
  | .read _, .error => true
  | _, .error => false
  | _, _ => true

/-- The operation opens the stream: reads into an empty buffer and empty writes
return before that. -/
def opens : Op → Bool
  | .read n => decide (0 < n)
  | .fillBuf => true
  | .consume _ => false
  | .write buf => !buf.isEmpty
  | .flush => false
  | .shutdown => true

end Op

/-! ## The guards -/

/-- `PairReleaseGuard`. -/
structure PairReleaseGuard where
  armed : Bool
  deriving DecidableEq, Repr

def PairReleaseGuard.new : PairReleaseGuard := { armed := true }

def PairReleaseGuard.disarm (g : PairReleaseGuard) : PairReleaseGuard :=
  { g with armed := false }

/-- `release_pair`. -/
def Shared.releasePair (sh : Shared) : Shared :=
  { sh with activePairs := sh.activePairs - 1 }

/-- A `PairReleaseGuard`, if there is one, is dropped.  The number says how often
it has released the slot. -/
def dropReleaseGuard : Option PairReleaseGuard → Shared → Shared × Nat
  | some g, sh => if g.armed then (sh.releasePair, 1) else (sh, 0)
  | none, sh => (sh, 0)

/-! ## The owner of a pair -/

/-- `StreamState`, and `SharedSplitState` behind the mutex of a split stream.
Channels, ids and permits are with the `Pair`; an opened state holds the
`StreamGuard`, which `closing` is running. -/
inductive OpenState where
  | none
  | unopened (pendingTx : Bool) (releaseGuard : Option PairReleaseGuard)
  | opened
  | closing
  | gone
  deriving DecidableEq, Repr

/-- Where the call of a holder stands.  An absent holder has been split or
dropped, or does not exist yet. -/
inductive CallPc where
  | absent
  | idle
  | ensuring (op : Op)
  | realizing (op : Op)
  | body (op : Op)
  | writing (buf : Bytes)
  | finishing
  | dropping (todo : List HalfKind)
  | closing
  deriving DecidableEq, Repr

/-- `refs` counts the holders that keep the open state alive. -/
structure Owner where
  state : OpenState := .none
  mutex : Option Holder := none
  refs : Nat := 0
  calls : Holder → CallPc := fun _ => .absent
  issued : List MuxCommand := []
  accepted : List Bytes := []
  touched : Bool := false
  released : Nat := 0

namespace Owner

def setCall (o : Owner) (h : Holder) (c : CallPc) : Owner :=
  { o with calls := Function.update o.calls h c }

/-- The call returns and lets the mutex go. -/
def leave (o : Owner) (h : Holder) : Owner :=
  { o with calls := Function.update o.calls h .idle, mutex := none }

/-- `Stream::new_unopened`. -/
def granted : Owner where
  state := .unopened true (some .new)
  refs := 1
  calls := Function.update (fun _ => .absent) .stream .idle

/-- `Stream::split`. -/
def split (o : Owner) : Owner :=
  { o with
    refs := 2
    calls := fun
      | .stream => .absent
      | .data => .idle
      | .error => .idle }

/-! ## Calls -/

/-- A call is made.  One that does not open the stream returns at once. -/
def call (cfg : MuxConfig) (p : Nat) (h : Holder) (op : Op) (sh : Shared) (pr : Pair)
    (o : Owner) : Shared × Pair × Owner :=
  if op.opens then (sh, pr, { o.setCall h (.ensuring op) with touched := true })
  else match op with
  | .consume amt =>
      match clientStep cfg p (.consume amt) sh pr with
      | some (sh', pr') => (sh', pr', o)
      | none => (sh, pr, o)
  | .write buf => (sh, pr, { o with accepted := o.accepted ++ [buf.take 0] })
  | _ => (sh, pr, o)

/-- The next access of `poll_write_via_sender`. -/
def nextWrite (pr : Pair) : ClientAct :=
  match pr.write with
  | .checked _ => if pr.cmdPermit then .writePick else .writeReserve
  | .recheck _ => .writeRecheck
  | .picked _ => .writeDebit
  | _ => .writeSend

/-- The write returns `Ok(n)` once its frame is sent. -/
def accept (pr : Pair) (buf : Bytes) (o : Owner) : Owner :=
  match pr.write with
  | .debited payload => { o with accepted := o.accepted ++ [buf.take payload.length] }
  | _ => o

/-- The next access of a call that found the stream open.  What cannot be done
now ends the call: nothing to read, a closed or full command channel, a closed
window, a stream that was shut down. -/
def proceed (cfg : MuxConfig) (p : Nat) (h : Holder) (sh : Shared) (pr : Pair) (o : Owner) :
    Option (Shared × Pair × Owner) :=
  match o.calls h with
  | .body (.read n) =>
      match clientStep cfg p (.read h.half n) sh pr with
      | some (sh', pr') => some (sh', pr', o.setCall h .idle)
      | none => some (sh, pr, o.setCall h .idle)
  | .body .fillBuf =>
      match clientStep cfg p .fillBuf sh pr with
      | some (sh', pr') => some (sh', pr', o.setCall h .idle)
      | none => some (sh, pr, o.setCall h .idle)
  | .body (.write buf) =>
      if o.mutex = none then
        match clientStep cfg p (.writeBegin buf) sh pr with
        | some (sh', pr') => some (sh', pr', { o.setCall h (.writing buf) with mutex := some h })
        | none => some (sh, pr, o.setCall h .idle)
      else none
  | .writing buf =>
      (clientStep cfg p (nextWrite pr) sh pr).map fun (sh', pr') =>
        (sh', pr', if pr'.write = .idle then (o.accept pr buf).leave h else o)
  | .body .shutdown =>
      if o.mutex = none then
        if pr.gracefulShutdown then some (sh, pr, o.setCall h .idle)
        else if pr.cmdPermit then some (sh, pr, { o.setCall h .finishing with mutex := some h })
        else match clientStep cfg p .writeReserve sh pr with
        | some (sh', pr') => some (sh', pr', { o.setCall h .finishing with mutex := some h })
        | none => some (sh, pr, o.setCall h .idle)
      else none
  | .finishing =>
      (clientStep cfg p .shutdown sh pr).map fun (sh', pr') => (sh', pr', o.leave h)
  | _ => none

/-! ## Dropping -/

/-- The last holder is gone, and the open state with it: the senders that were
not handed out, then the guard. -/
def dropUnopened (p : Nat) (pendingTx : Bool) (g : Option PairReleaseGuard) (sh : Shared)
    (pr : Pair) (o : Owner) : Shared × Pair × Owner :=
  let sh := if pendingTx then sh.dropPairTx p else sh
  let (sh, n) := dropReleaseGuard g sh
  (sh, { pr with phase := .dropped }, { o with state := .gone, released := o.released + n })

/-- How often the next step of `StreamGuard::drop` releases the slot. -/
def releases (pr : Pair) : Nat := if pr.phase = .dropping .releasePair then 1 else 0

/-- The drop of a holder: its receivers, then its share of the open state. -/
def dropNext (cfg : MuxConfig) (p : Nat) (h : Holder) (sh : Shared) (pr : Pair) (o : Owner) :
    Option (Shared × Pair × Owner) :=
  match o.calls h with
  | .dropping (kind :: todo) =>
      (clientStep cfg p (.dropReceiver kind) sh pr).map fun (sh', pr') =>
        (sh', pr', o.setCall h (.dropping todo))
  | .dropping [] =>
      if o.refs = 1 then
        match o.state with
        | .unopened pendingTx g =>
            some (dropUnopened p pendingTx g sh pr { o.setCall h .absent with refs := 0 })
        | .opened =>
            (clientStep cfg p .dropRest sh pr).map fun (sh', pr') =>
              (sh', pr', { o.setCall h .closing with state := .closing })
        | _ => none
      else some (sh, pr, { o.setCall h .absent with refs := o.refs - 1 })
  | .closing =>
      (clientStep cfg p .dropStep sh pr).map fun (sh', pr') =>
        let o := { o with released := o.released + releases pr }
        (sh', pr', if pr'.phase = .dropped
          then { o.setCall h .absent with state := .gone, refs := 0 } else o)
  | _ => none

end Owner

/-! ## Any number of pairs -/

/-- What the owner of a pair does, apart from opening the stream. -/
inductive OwnerAct where
  | openBegin (errorHeaders dataHeaders : Headers)
  | openStep
  | split
  | call (h : Holder) (op : Op)
  | proceed (h : Holder)
  | permit
  | drop (h : Holder)
  | dropNext (h : Holder)
  deriving DecidableEq, Repr

def Owner.step (cfg : MuxConfig) (p : Nat) (a : OwnerAct) (sh : Shared) (pr : Pair)
    (o : Owner) : Option (Shared × Pair × Owner) :=
  match a with
  | .openBegin eh dh =>
      (clientStep cfg p (.openBegin eh dh) sh pr).map fun (sh', pr') => (sh', pr', o)
  | .openStep =>
      (clientStep cfg p .openStep sh pr).map fun (sh', pr') =>
        (sh', pr', if pr.phase = .granting then .granted else o)
  | .split => if o.calls .stream = .idle then some (sh, pr, o.split) else none
  | .call h op =>
      if o.calls h = .idle ∧ op.offeredBy h then some (o.call cfg p h op sh pr) else none
  | .proceed h => o.proceed cfg p h sh pr
  -- A `PollSender` that waits is given its slot between two polls.
  | .permit =>
      if o.state = .opened ∧ pr.write = .idle then
        (clientStep cfg p .writeReserve sh pr).map fun (sh', pr') => (sh', pr', o)
      else none
  | .drop h =>
      if o.calls h = .idle then some (sh, pr, o.setCall h (.dropping h.receivers)) else none
  | .dropNext h => o.dropNext cfg p h sh pr

structure OwnedState where
  mux : MuxState
  owners : Nat → Owner

/-- The tasks of the connection, as opposed to the owners of pairs. -/
def Act.isEnv : Act → Bool
  | .reader _ => true
  | .worker _ _ => true
  | .writer _ => true
  | .cancel => true
  | _ => false

inductive OwnedAct where
  | owner (p : Nat) (a : OwnerAct)
  | ensure (p : Nat) (h : Holder)
  | realizeStep
  | env (a : Act)
  deriving DecidableEq, Repr

/-- What was appended to a queue. -/
def appended {α : Type} (before after : List α) : List α := after.drop before.length

/-- The owner of `p` has taken a step; what the step put on the data command
channel is recorded. -/
def OwnedState.put (s : OwnedState) (p : Nat) (sh : Shared) (pr : Pair) (z : Option Realize)
    (o : Owner) : OwnedState where
  mux := { s.mux with
    shared := sh, pairs := Function.update s.mux.pairs p pr, realizing := z }
  owners := Function.update s.owners p
    { o with issued := o.issued ++ appended s.mux.shared.cmd.queue sh.cmd.queue }

namespace Owner

/-- `finish_unopened_stream` and `finish_shared_open`: the stream guard holds the
slot now, so the release guard is disarmed before it is dropped. -/
def finishOpen (o : Owner) (sh : Shared) : Shared × Owner :=
  match o.state with
  | .unopened _ g =>
      let (sh, n) := dropReleaseGuard (g.map PairReleaseGuard.disarm) sh
      (sh, { o with state := .opened, released := o.released + n })
  | _ => (sh, o)

/-- `realize_stream_pair` has returned to the call that waits for it. -/
def realized (opened : Bool) (sh : Shared) (o : Owner) : Shared × Owner :=
  match o.mutex with
  | some h =>
      match o.calls h with
      | .realizing op =>
          if opened then
            let (sh, o) := o.finishOpen sh
            (sh, { o.setCall h (.body op) with mutex := none })
          else (sh, o.leave h)
      | _ => (sh, o)
  | none => (sh, o)

/-- `ensure_realized` has taken the senders and `realize_stream_pair` has begun,
or failed at once. -/
def realizes (g : Option PairReleaseGuard) (h : Holder) (op : Op) (z : Option Realize)
    (o : Owner) : Owner :=
  match z with
  | some _ =>
      { o.setCall h (.realizing op) with state := .unopened false g, mutex := some h }
  | none => { o.setCall h .idle with state := .unopened false g }

end Owner

/-- `ensure_open` and `ensure_shared_open`, up to the call of
`realize_stream_pair`. -/
def ensureStep (s : OwnedState) (p : Nat) (h : Holder) : Option OwnedState :=
  let o := s.owners p
  let sh := s.mux.shared
  let pr := s.mux.pairs p
  match o.calls h with
  | .ensuring op =>
      if o.mutex = none then
        match o.state with
        | .opened => some (s.put p sh pr s.mux.realizing (o.setCall h (.body op)))
        | .unopened true g =>
            if s.mux.realizing = none then
              match realizeBegin p sh pr with
              | (sh', pr', z) => some (s.put p sh' pr' z (o.realizes g h op z))
            else none
        -- An earlier attempt has used up the senders.
        | .unopened false _ => some (s.put p sh pr s.mux.realizing (o.setCall h .idle))
        | _ => none
      else none
  | _ => none

def ownedStep (cfg : MuxConfig) (s : OwnedState) : OwnedAct → Option OwnedState
  | .owner p a =>
      ((s.owners p).step cfg p a s.mux.shared (s.mux.pairs p)).map fun (sh, pr, o) =>
        s.put p sh pr s.mux.realizing o
  | .ensure p h => ensureStep s p h
  | .realizeStep =>
      match s.mux.realizing with
      | none => none
      | some z =>
          match z.step s.mux.shared (s.mux.pairs z.pair) with
          | (sh, pr, some z') => some (s.put z.pair sh pr (some z') (s.owners z.pair))
          | (sh, pr, none) =>
              match (s.owners z.pair).realized (decide (pr.phase = .opened)) sh with
              | (sh', o) => some (s.put z.pair sh' pr none o)
  | .env a => if a.isEnv then (step cfg s.mux a).map fun m => { s with mux := m } else none

/-- The multiplexed connection together with the streams its callers hold. -/
def owned (cfg : MuxConfig) : System OwnedState OwnedAct where
  init := { mux := MuxState.init cfg, owners := fun _ => {} }
  step := ownedStep cfg

end KubePortForward.Mux
