import KubePortForward.Mux.Session

/-!
# Pooled sessions

`kube-portforward/src/session.rs`, `forwarder/pool.rs` and `error.rs`: one
session to one port of one pod, the pool of sessions behind a forwarder, and
the predicates both sides of the pool decide by.

The pool names its sessions by number, as the source shares them behind an
`Arc`.  `openedFor` is history: the pod that the task which opened the session
had resolved.
-/

namespace KubePortForward.Forwarder

open KubePortForward.Codec
open KubePortForward.Mux (OpenError)

/-- `pod_watch::ReadyPod`. -/
structure ReadyPod where
  name : String
  uid : Option String
  deriving DecidableEq, Repr

/-- `error::Error`.  What the Kubernetes client and the operating system report
is kept as text. -/
inductive Error where
  | upgradeFailed (status : Option UInt16) (message : String)
  | protocolViolation (context detail : String)
  | capacityExhausted (inUse capacity : Nat)
  | configuration (message : String)
  | network (message : String)
  | cancelled
  | kube (message : String)
  | io (message : String)
  | spdy (error : OpenError)
  deriving DecidableEq, Repr

/-- `impl From<spdy_mux::Error> for Error`. -/
def Error.ofSpdy (e : OpenError) : Error := .spdy e

/-- A stream handed to the caller of `connect`, or kept as a spare. -/
structure Stream where
  pair : Mux.Pair
  readClosed : Bool

/-! ## One session -/

/-- `session::Session`.  `cancelled` is its cancellation token. -/
structure Session where
  inner : Mux.Session
  port : UInt16
  nextRequestId : UInt32
  spareStreams : List Stream
  cancelled : Bool
  openedFor : ReadyPod

namespace Session

/-- A session that does not exist yet. -/
def absent : Session where
  inner := { cfg := .default, pool := [], next := 0 }
  port := 0
  nextRequestId := 0
  spareStreams := []
  cancelled := false
  openedFor := { name := "", uid := none }

/-- `from_spdy`, for a session that was opened for `ready`. -/
def fromSpdy (inner : Mux.Session) (port : UInt16) (ready : ReadyPod) : Session where
  inner := inner
  port := port
  nextRequestId := 0
  spareStreams := []
  cancelled := false
  openedFor := ready

/-- `cancellation_token().cancel()`; the token of every connection is a child. -/
def cancel (x : Session) : Session :=
  { x with
    cancelled := true
    inner := { x.inner with pool := x.inner.pool.map fun m =>
      { m with shared := { m.shared with cancelled := true } } } }

def isFull (x : Session) : Bool := x.inner.isFull

def inUse (x : Session) : Nat := x.inner.inUse

/-- `is_drained`: every connection has closed. -/
def isDrained (x : Session) : Bool := x.inner.pool.all fun m => m.shared.cancelled

/-- `operating_capacity`: the slots that the live connections have left below
their scheduling caps. -/
def operatingCapacity (x : Session) : Nat :=
  ((x.inner.pool.filter fun m => !m.shared.cancelled).map fun m =>
    (Mux.operatingLimit x.inner.cfg m.shared).toNat - m.shared.activePairs).sum

/-- `portforward_headers`: the headers of the error and of the data stream. -/
def portforwardHeaders (x : Session) : Headers × Headers :=
  let requestId := toString x.nextRequestId
  let port := toString x.port
  ([("streamtype", "error"), ("port", port), ("requestid", requestId)],
    [("streamtype", "data"), ("port", port), ("requestid", requestId)])

/-- `open_new_stream`. -/
def openNewStream (elapsedNs : UInt64) (x : Session) : Except Error Stream × Session :=
  let (errorHeaders, dataHeaders) := x.portforwardHeaders
  let (r, inner) := x.inner.openStreamPair errorHeaders dataHeaders elapsedNs
  let x := { x with inner := inner, nextRequestId := x.nextRequestId + 1 }
  match r with
  | .ok pr => (.ok { pair := pr, readClosed := false }, x)
  | .error e => (.error (.ofSpdy e), x)

/-- The loop of `connect` over the spare streams: stale ones are discarded. -/
def popSpare : List Stream → Option Stream × List Stream
  | [] => (none, [])
  | stream :: rest => if stream.readClosed then popSpare rest else (some stream, rest)

/-- `connect`. -/
def connect (elapsedNs : UInt64) (x : Session) : Except Error Stream × Session :=
  match popSpare x.spareStreams with
  | (some stream, rest) => (.ok stream, { x with spareStreams := rest })
  | (none, rest) => { x with spareStreams := rest }.openNewStream elapsedNs

/-- `Forwarder::session_serves`. -/
def serves (x : Session) (targetPort : UInt16) : Bool :=
  x.port == targetPort && !x.cancelled && !x.isFull

end Session

/-! ## The pool -/

abbrev SessionId := Nat

structure PooledSession where
  session : SessionId
  createdAt : Nat
  deriving DecidableEq, Repr

/-- `SessionPool`.  Everything but `openingCount` and `snapshot` is behind the
lock. -/
structure SessionPool where
  entries : List PooledSession
  target : Option ReadyPod
  prefetchInFlight : Bool
  openingCount : Nat
  snapshot : List SessionId
  deriving DecidableEq, Repr

namespace SessionPool

def new : SessionPool where
  entries := []
  target := none
  prefetchInFlight := false
  openingCount := 0
  snapshot := []

/-- The sessions of the entries, in order. -/
def sessions (pool : SessionPool) : List SessionId := pool.entries.map (·.session)

/-- `refresh_snapshot`. -/
def refreshSnapshot (pool : SessionPool) : SessionPool :=
  { pool with snapshot := pool.sessions }

/-- `has_in_flight_open`. -/
def hasInFlightOpen (pool : SessionPool) : Bool :=
  decide (0 < pool.openingCount) || pool.prefetchInFlight

/-- `pool.entries.push(..)`. -/
def push (pool : SessionPool) (session : SessionId) (now : Nat) : SessionPool :=
  { pool with entries := pool.entries ++ [{ session := session, createdAt := now }] }

end SessionPool

end KubePortForward.Forwarder
