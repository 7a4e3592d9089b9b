import KubePortForward.Verified.Transition
import KubePortForward.Connect.Upgrade

/-!
# Opening sessions over one HTTP client

`client.rs` and the orchestration in `connect.rs`, with `Session::with_config`
of `spdy-mux/src/session.rs`: any number of `SessionBuilder::open` calls share
one Kubernetes client.  An open probes the apiserver with one upgrade, falling
back to the legacy one if that is rejected; then it fills its pool with upgrades
that run in parallel, in the protocol the probe settled on; then it starts a
multiplexer on each connection it got, one after the other.

The HTTP client hands a request an idle connection or a new one.  It never hands
out a connection that is poisoned, has a request in flight, or has switched
protocols.  A connection whose upgrade was rejected is the client's again as soon as
the answer has arrived; the call poisons it when it acts on the answer.  The client
may take it back before that, after it, or when the call was dropped in between, and
whatever was taken back before the poison can be handed out.  Other requests of the
same client come and go as they like.  `log` is history.
-/

namespace KubePortForward.Connect

open KubePortForward.Forwarder (Error)
open KubePortForward.Verified.Transition

abbrev ConnId := Nat
abbrev OpenId := Nat

/-- Which upgrade of an open: the probe, or one of those that fill the pool. -/
inductive Who where
  | probe
  | extra (j : Nat)
  deriving DecidableEq, Repr

/-- An upgrade request and whose it is. -/
structure Upgrade where
  opening : OpenId
  who : Who
  protocol : Subprotocol
  deriving DecidableEq, Repr

/-- What a connection of the HTTP client is doing.  One that was answered is not back
in the pool yet; one that switched protocols belongs to the upgrade that asked for it. -/
inductive ConnUse where
  | idle
  | serving
  | upgrading (upgrade : Upgrade)
  | answered
  | switched (upgrade : Upgrade)
  | gone
  deriving DecidableEq, Repr

structure Conn where
  use : ConnUse
  poisoned : Bool
  deriving DecidableEq, Repr

/-! ## The builder -/

def DEFAULT_SPDY_POOL_SIZE : Nat := 6

/-- `SessionBuilder`; its pool is never empty. -/
structure SessionBuilder where
  ns : String
  pod : String
  port : UInt16
  poolSize : Nat
  poolSize_pos : 0 < poolSize

/-- `Client::session`. -/
def SessionBuilder.new (ns pod : String) (port : UInt16) : SessionBuilder where
  ns := ns
  pod := pod
  port := port
  poolSize := DEFAULT_SPDY_POOL_SIZE
  poolSize_pos := by decide

/-- `SessionBuilder::spdy_pool_size`. -/
def SessionBuilder.spdyPoolSize (b : SessionBuilder) (n : Nat) : SessionBuilder :=
  { b with
    poolSize := max n 1
    poolSize_pos := Nat.lt_of_lt_of_le Nat.zero_lt_one (Nat.le_max_right n 1) }

/-! ## One open -/

/-- What `MuxHandle::spawn` fails with: the tasks ended before the first PING came
back, or it did not come back in time. -/
inductive SpawnError where
  | muxClosed
  | synReplyTimeout (streamId : UInt32)
  deriving DecidableEq, Repr

inductive OpenFailure where
  | upgrade (e : Error)
  | spdy (e : SpawnError)
  deriving DecidableEq, Repr

/-- A task that opens one more connection for the pool.  In flight, it has the answer
once `send` has come back with one. -/
inductive ExtraPc where
  | ready
  | inFlight (conn : ConnId) (answer : Option Answer)
  | finished (result : Except Error ConnId)
  | panicked
  | joined
  deriving DecidableEq

/-- Where `open_spdy_session` stands. -/
inductive Pc where
  | probe
  | probing (conn : ConnId) (answer : Option Answer)
  | fallback (wsError : Error)
  | fallingBack (wsError : Error) (conn : ConnId) (answer : Option Answer)
  | filling (protocol : Subprotocol) (first : ConnId) (succeeded : List ConnId)
  | spawning (protocol : Subprotocol) (todo handles : List ConnId)
      (lastError : Option SpawnError)
  | opened (protocol : Subprotocol) (handles : List ConnId)
  | failed (e : OpenFailure)
  | dropped
  deriving DecidableEq

structure Opening where
  poolSize : Nat
  pc : Pc
  extras : List ExtraPc
  deriving DecidableEq

/-- The call builds its first request before anything else. -/
def Opening.start (cluster : Cluster) (b : SessionBuilder) : Opening where
  poolSize := b.poolSize
  pc := match portforwardUri cluster b.ns b.pod with
    | .ok _ => .probe
    | .error e => .failed (.upgrade e)
  extras := []

/-- The probe succeeded; the rest of the pool is filled in parallel. -/
def Opening.fill (o : Opening) (protocol : Subprotocol) (first : ConnId) : Opening :=
  { o with
    pc := .filling protocol first []
    extras := List.replicate (o.poolSize - 1) .ready }

/-- `upgrade_spdy_with_fallback` after `upgrade_spdy_tunnel` has returned. -/
def Opening.probed (o : Opening) : Except Error ConnId → Opening × Option RecoverySignal
  | .ok c => (o.fill .spdy31Tunnel c, none)
  | .error e =>
      if shouldFallback e then ({ o with pc := .fallback e }, none)
      else ({ o with pc := .failed (.upgrade e) }, directSignal e)

/-- `upgrade_spdy_with_fallback` after `upgrade_legacy_spdy` has returned. -/
def Opening.fellBack (o : Opening) (wsError : Error) :
    Except Error ConnId → Opening × Option RecoverySignal
  | .ok c => (o.fill .legacySpdy c, none)
  | .error e => ({ o with pc := .failed (.upgrade e) }, some (fallbackSignal wsError e))

/-- Task `j` of the pool has returned. -/
def Opening.setExtra (o : Opening) (j : Nat) (x : ExtraPc) : Opening :=
  { o with extras := o.extras.set j x }

/-- A request goes out over `c`: in which protocol, and where the call stands then. -/
def Opening.send (o : Opening) (c : ConnId) : Who → Option (Subprotocol × Opening)
  | .probe =>
      match o.pc with
      | .probe => some (.spdy31Tunnel, { o with pc := .probing c none })
      | .fallback wsError => some (.legacySpdy, { o with pc := .fallingBack wsError c none })
      | _ => none
  | .extra j =>
      match o.pc with
      | .filling protocol _ _ =>
          if o.extras[j]? = some .ready then some (protocol, o.setExtra j (.inFlight c none))
          else none
      | _ => none

/-- The answer to a request has arrived: over which connection, in which protocol it was
asked, and where the call stands then. -/
def Opening.arrive (o : Opening) (a : Answer) : Who → Option (ConnId × Subprotocol × Opening)
  | .probe =>
      match o.pc with
      | .probing c none => some (c, .spdy31Tunnel, { o with pc := .probing c (some a) })
      | .fallingBack wsError c none =>
          some (c, .legacySpdy, { o with pc := .fallingBack wsError c (some a) })
      | _ => none
  | .extra j =>
      match o.pc with
      | .filling protocol _ _ =>
          match o.extras[j]? with
          | some (.inFlight c none) => some (c, protocol, o.setExtra j (.inFlight c (some a)))
          | _ => none
      | _ => none

/-- The call acts on an answer: over which connection and in which protocol it was asked,
the answer, where the call stands then and what it tells its callback. -/
def Opening.answer (o : Opening) :
    Who → Option (ConnId × Subprotocol × Answer × Opening × Option RecoverySignal)
  | .probe =>
      match o.pc with
      | .probing c (some a) =>
          some (c, .spdy31Tunnel, a, o.probed ((performWsUpgrade a).map fun _ => c))
      | .fallingBack wsError c (some a) =>
          some (c, .legacySpdy, a,
            o.fellBack wsError ((performLegacySpdyUpgrade a).map fun _ => c))
      | _ => none
  | .extra j =>
      match o.pc with
      | .filling protocol _ _ =>
          match o.extras[j]? with
          | some (.inFlight c (some a)) =>
              some (c, protocol, a,
                o.setExtra j (.finished ((protocol.perform a).map fun _ => c)), none)
          | _ => none
      | _ => none

/-- No connection could be had for a request. -/
def Opening.unsent (o : Opening) (message : String) :
    Who → Option (Opening × Option RecoverySignal)
  | .probe =>
      match o.pc with
      | .probe => some (o.probed (.error (.kube message)))
      | .fallback wsError => some (o.fellBack wsError (.error (.kube message)))
      | _ => none
  | .extra j =>
      if o.extras[j]? = some .ready then
        some (o.setExtra j (.finished (.error (.kube message))), none)
      else none

/-- A task that fills the pool panics. -/
def Opening.panic (o : Opening) (j : Nat) : Option Opening :=
  match o.extras[j]? with
  | some .ready => some (o.setExtra j .panicked)
  | some (.inFlight _ _) => some (o.setExtra j .panicked)
  | _ => none

/-- `join_next` returns a task that has ended. -/
def Opening.join (o : Opening) (j : Nat) : Option Opening :=
  match o.pc with
  | .filling protocol first succeeded =>
      match o.extras[j]? with
      | some (.finished (.ok c)) =>
          some ({ o with pc := .filling protocol first (succeeded ++ [c]) }.setExtra j .joined)
      | some (.finished (.error _)) => some (o.setExtra j .joined)
      | some .panicked => some (o.setExtra j .joined)
      | _ => none
  | _ => none

/-- The set of tasks is empty, and the multiplexers are started. -/
def Opening.joinedAll (o : Opening) : Option Opening :=
  match o.pc with
  | .filling protocol first succeeded =>
      if o.extras.all (· = .joined) then
        some { o with pc := .spawning protocol (first :: succeeded) [] none }
      else none
  | _ => none

/-- The next `MuxHandle::spawn` of `with_config`, and its end. -/
def Opening.spawn (o : Opening) (result : Except SpawnError Unit) : Option Opening :=
  match o.pc with
  | .spawning protocol (c :: todo) handles lastError =>
      match result with
      | .ok () => some { o with pc := .spawning protocol todo (handles ++ [c]) lastError }
      | .error e => some { o with pc := .spawning protocol todo handles (some e) }
  | _ => none

def Opening.spawnedAll (o : Opening) : Option Opening :=
  match o.pc with
  | .spawning protocol [] handles lastError =>
      if handles = [] then
        some { o with pc := .failed (.spdy (lastError.getD .muxClosed)) }
      else some { o with pc := .opened protocol handles }
  | _ => none

/-- The call is dropped while it waits, and its tasks are aborted. -/
def Opening.abandon (o : Opening) : Option Opening :=
  match o.pc with
  | .opened _ _ => none
  | .failed _ => none
  | .dropped => none
  | _ => some { o with pc := .dropped, extras := [] }

/-! ## The system -/

inductive Event where
  | sent (conn : ConnId) (upgrade : Option Upgrade)
  | arrived (conn : ConnId) (upgrade : Upgrade) (a : Answer)
  | answered (conn : ConnId) (upgrade : Upgrade) (a : Answer)
  | signalled (opening : OpenId) (signal : RecoverySignal)
  deriving DecidableEq

structure State where
  conns : List Conn
  opens : List Opening
  log : List Event
  deriving DecidableEq

inductive Act where
  | openSession (b : SessionBuilder)
  | send (i : OpenId) (who : Who) (conn : Option ConnId)
  | arrive (i : OpenId) (who : Who) (a : Answer)
  | answer (i : OpenId) (who : Who)
  | unsent (i : OpenId) (who : Who) (message : String)
  | panic (i : OpenId) (j : Nat)
  | join (i : OpenId) (j : Nat)
  | joinedAll (i : OpenId)
  | spawn (i : OpenId) (result : Except SpawnError Unit)
  | spawnedAll (i : OpenId)
  | abandon (i : OpenId)
  | otherSend (conn : Option ConnId)
  | otherDone (conn : ConnId)
  | release (conn : ConnId)
  | close (conn : ConnId)

namespace State

def setUse (s : State) (c : ConnId) (use : ConnUse) : State :=
  { s with conns := s.conns.modify c fun x => { x with use := use } }

def setOpening (s : State) (i : OpenId) (o : Opening) : State :=
  { s with opens := s.opens.set i o }

def record (s : State) (es : List Event) : State := { s with log := s.log ++ es }

/-- The client finds a connection for a request: a new one, or one that is idle and
not poisoned. -/
def take (s : State) : Option ConnId → Option (ConnId × State)
  | none => some (s.conns.length, { s with conns := s.conns ++ [⟨.idle, false⟩] })
  | some c => if s.conns[c]? = some ⟨.idle, false⟩ then some (c, s) else none

/-- What becomes of the connection when the answer to `u` arrives over it. -/
def handBack (s : State) (c : ConnId) (u : Upgrade) : Answer → State
  | .failed _ => s.setUse c .gone
  | .response res _ =>
      if res.status ≠ SWITCHING_PROTOCOLS then s.setUse c .answered
      else s.setUse c (.switched u)

/-- `poison_rejected_upgrade`: the connection that was captured, if any. -/
def poisonRejectedUpgrade (s : State) : Option ConnId → State
  | some c => { s with conns := s.conns.modify c fun x => { x with poisoned := true } }
  | none => s

/-- What a call does about the connection once `send` has returned to it. -/
def settle (s : State) (c : ConnId) : Answer → State
  | .failed _ => s
  | .response res _ =>
      if res.status ≠ SWITCHING_PROTOCOLS then s.poisonRejectedUpgrade (some c) else s

/-- The client closes the connections of requests that nobody waits for any more. -/
def giveUp (s : State) (whose : Upgrade → Bool) : State :=
  { s with
    conns := s.conns.map fun x =>
      match x.use with
      | .upgrading u => if whose u then { x with use := .gone } else x
      | _ => x }

/-- An opening moves on by itself. -/
def advance (s : State) (i : OpenId) (move : Opening → Option Opening) : Option State :=
  match s.opens[i]? with
  | some o => (move o).map fun o' => s.setOpening i o'
  | none => none

end State

def signals (i : OpenId) (signal : Option RecoverySignal) : List Event :=
  signal.toList.map fun x => .signalled i x

def step (cluster : Cluster) (s : State) : Act → Option State
  | .openSession b => some { s with opens := s.opens ++ [.start cluster b] }
  | .send i who conn =>
      match s.opens[i]?, s.take conn with
      | some o, some (c, s') =>
          (o.send c who).map fun (protocol, o') =>
            ((s'.setUse c (.upgrading ⟨i, who, protocol⟩)).setOpening i o').record
              [.sent c (some ⟨i, who, protocol⟩)]
      | _, _ => none
  -- The answer is there before the call goes on with it, and may stay unread.
  | .arrive i who a =>
      match s.opens[i]? with
      | some o =>
          (o.arrive a who).map fun (c, protocol, o') =>
            ((s.handBack c ⟨i, who, protocol⟩ a).setOpening i o').record
              [.arrived c ⟨i, who, protocol⟩ a]
      | none => none
  | .answer i who =>
      match s.opens[i]? with
      | some o =>
          (o.answer who).map fun (c, protocol, a, o', signal) =>
            ((s.settle c a).setOpening i o').record
              (.answered c ⟨i, who, protocol⟩ a :: signals i signal)
      | none => none
  | .unsent i who message =>
      match s.opens[i]? with
      | some o =>
          (o.unsent message who).map fun (o', signal) =>
            (s.setOpening i o').record (signals i signal)
      | none => none
  | .panic i j =>
      (s.advance i fun o => o.panic j).map fun s' =>
        s'.giveUp fun u => u.opening == i && u.who == .extra j
  | .join i j => s.advance i fun o => o.join j
  | .joinedAll i => s.advance i Opening.joinedAll
  | .spawn i result => s.advance i fun o => o.spawn result
  | .spawnedAll i => s.advance i Opening.spawnedAll
  | .abandon i => (s.advance i Opening.abandon).map fun s' => s'.giveUp fun u => u.opening == i
  | .otherSend conn =>
      (s.take conn).map fun (c, s') => (s'.setUse c .serving).record [.sent c none]
  | .otherDone c =>
      if (s.conns[c]?).map Conn.use = some .serving then some (s.setUse c .idle) else none
  | .release c =>
      if (s.conns[c]?).map Conn.use = some .answered then some (s.setUse c .idle) else none
  | .close c =>
      if (s.conns[c]?).map Conn.use = some .idle ∨ (s.conns[c]?).map Conn.use = some .answered
      then some (s.setUse c .gone)
      else none

/-- One HTTP client and the sessions opened through it. -/
def negotiation (cluster : Cluster) : System State Act where
  init := { conns := [], opens := [], log := [] }
  step := step cluster

end KubePortForward.Connect
