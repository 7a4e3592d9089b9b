import KubePortForward.Verified.Transition
import KubePortForward.Forwarder.Pool

/-!
# The forwarder as a transition system

`forwarder/mod.rs`, `lifecycle.rs`, `pool.rs` and `prefetch.rs`: any number of
`connect_on_pod` calls, prefetch tasks, prune ticks, pod-death events and
shutdowns over one session pool.  The pool is behind a lock; its snapshot and
its count of openings are not, so they are read and written between the steps
of whoever holds the lock.  A label names the task that moves and what its
environment answers: the pod that is ready, whether a permit came, what an
upgrade returned.

A task is dropped only where it waits.  Sessions change on their own: streams
come and go on them, connections die, spares are replenished, tokens are
cancelled from outside.  Waiting on `session_ready` ends at any time, as it is
bounded by a timeout.
-/

namespace KubePortForward.Forwarder

open KubePortForward.Verified.Transition

/-- The settings of `ForwarderConfig` that the modelled code reads.  The
threshold is compared in floating point, so the comparison is a parameter:
`belowThreshold inUse capacity`. -/
structure ForwarderConfig where
  maxSessions : Nat
  pruneIdleAge : Nat
  belowThreshold : Nat → Nat → Bool

/-- `ForwarderConfig::default`, with the threshold 0.60 compared exactly and ages
in seconds. -/
def ForwarderConfig.default : ForwarderConfig where
  maxSessions := 128
  pruneIdleAge := 60
  belowThreshold := fun inUse capacity => decide (10 * inUse < 6 * capacity)

def CONNECTION_SLOT_PERMITS : Nat := 50

abbrev TaskId := Nat

/-- Which look at the snapshot a call is at: the first `try_reuse_session`, the
`find_reusable_session` after dead sessions were retired, or the
`try_reuse_session` after waiting. -/
inductive Look where
  | first
  | retired
  | waited
  deriving DecidableEq, Repr

/-- Where a task goes once it has cancelled what it removed. -/
inductive After where
  | look (l : Look)
  | stale
  | finish
  deriving DecidableEq, Repr

/-- What a task does while it holds the write lock. -/
inductive Section where
  | retarget
  | drainAll
  | podDied (name : String)
  | takeAll (after : After)
  | publish (removed : List SessionId) (after : After)
  | retire
  | retiring (kept rest : List PooledSession) (removed : List SessionId)
  | prune
  | pruning (left : Nat) (kept rest : List PooledSession) (removed : List SessionId)
  | install (session : SessionId)
  | publishInstalled (session : SessionId)
  | reserve
  | reserveSlot
  | prefetchStart (session : SessionId)
  | prefetchInstall (opened : Option SessionId)
  | publishPrefetched
  deriving DecidableEq, Repr

/-- How `ensure_session_for_pod` leaves its loop body. -/
inductive Outcome where
  | ok (session : SessionId)
  | again
  | err (e : Error)
  deriving DecidableEq, Repr

inductive Pc where
  | round
  | lookup
  | checkTarget
  | acquire (sec : Section)
  | locked (sec : Section)
  | cancelling (todo : List SessionId) (after : After)
  | load (look : Look)
  | scan (look : Look) (rest : List SessionId)
  | checkInFlight
  | waiting
  | permit
  | opening
  | prefetch (session : SessionId)
  | spawnPrefetch (session : SessionId)
  | leave (out : Outcome)
  | connect (session : SessionId)
  | prefetching
  | returned (stream : Stream) (pod : ReadyPod)
  | failed (e : Error)
  | finished

/-- A task and its local variables.  `left` counts the rounds of
`connect_on_pod`, `retry` is `retry_after_stale_open`, `slot` and `permit` say
whether it holds an `OpeningSlot` and a semaphore permit.  `pushed` is history:
the session the slot was reserved for is in the pool. -/
structure Task where
  pc : Pc
  port : UInt16
  ready : ReadyPod := { name := "", uid := none }
  left : Nat := 0
  retry : Bool := true
  slot : Bool := false
  permit : Bool := false
  pushed : Bool := false

/-- What `ensure_session_for_pod` returned with success. -/
structure Ensured where
  targetPort : UInt16
  session : SessionId
  pod : ReadyPod
  deriving DecidableEq, Repr

/-- What happened so far: the results of `ensure_session_for_pod`, the pod the
snapshot was last published for, and the sessions each task took out of the
pool. -/
structure History where
  ensured : List Ensured := []
  publishedFor : Option ReadyPod := none
  removed : TaskId → List SessionId := fun _ => []

structure State where
  pool : SessionPool
  lock : Option TaskId
  sessions : SessionId → Session
  nextSession : SessionId
  permits : Nat
  now : Nat
  tasks : List Task
  history : History

def State.init : State where
  pool := .new
  lock := none
  sessions := fun _ => .absent
  nextSession := 0
  permits := CONNECTION_SLOT_PERMITS
  now := 0
  tasks := []
  history := {}

/-- The outcome of `timeout(.., semaphore.acquire())`. -/
inductive PermitOutcome where
  | acquired
  | closed
  | timedOut
  deriving DecidableEq, Repr

/-- What the environment answers to a step. -/
inductive Choice where
  | go
  | pod (ready : Option ReadyPod)
  | permit (outcome : PermitOutcome)
  | opened (result : Except Error Mux.Session)
  | contains (found : Bool)
  | elapsed (ns : UInt64)

inductive Act where
  | connect (port : UInt16)
  | prune
  | podDied (name : String)
  | shutdown
  | task (t : TaskId) (choice : Choice)
  | abandon (t : TaskId)
  | session (x : SessionId) (inner : Mux.Session) (spares : List Stream) (cancel : Bool)
  | tick

namespace State

def setTask (s : State) (t : TaskId) (k : Task) : State := { s with tasks := s.tasks.set t k }

def spawn (s : State) (k : Task) : State := { s with tasks := s.tasks ++ [k] }

def setPool (s : State) (pool : SessionPool) : State := { s with pool := pool }

def unlock (s : State) : State := { s with lock := none }

/-- `refresh_snapshot`, on the pool behind the lock. -/
def refresh (s : State) : State :=
  { s with
    pool := s.pool.refreshSnapshot
    history := { s.history with publishedFor := s.pool.target } }

/-- Task `t` has taken these sessions out of the entries. -/
def logRemoved (s : State) (t : TaskId) (removed : List SessionId) : State :=
  { s with history := { s.history with
      removed := Function.update s.history.removed t (s.history.removed t ++ removed) } }

/-- `ensure_session_for_pod` returns with success. -/
def logEnsured (s : State) (e : Ensured) : State :=
  { s with history := { s.history with ensured := s.history.ensured ++ [e] } }

/-- A session is opened for `ready` and `port`. -/
def openSession (s : State) (inner : Mux.Session) (port : UInt16) (ready : ReadyPod) : State :=
  { s with
    sessions := Function.update s.sessions s.nextSession (.fromSpdy inner port ready)
    nextSession := s.nextSession + 1 }

def updSession (s : State) (x : SessionId) (f : Session → Session) : State :=
  { s with sessions := Function.update s.sessions x (f (s.sessions x)) }

end State

/-! ## The sections under the write lock -/

/-- `retire_dead_sessions` retires the entry. -/
def State.isDead (s : State) (e : PooledSession) : Bool :=
  (s.sessions e.session).cancelled || (s.sessions e.session).isDrained

/-- `prune_once` drops the entry. -/
def State.isIdle (cfg : ForwarderConfig) (s : State) (e : PooledSession) : Bool :=
  (s.sessions e.session).cancelled ||
    ((s.sessions e.session).inUse == 0 && decide (cfg.pruneIdleAge < s.now - e.createdAt))

/-- The next access of the section that task `t` is in. -/
def lockedStep (cfg : ForwarderConfig) (t : TaskId) (k : Task) (s : State) :
    Section → Choice → Option State
  -- The re-check of `ensure_session_for_pod`, then the new target.
  | .retarget, .go =>
      if s.pool.target = some k.ready then
        some (s.unlock.setTask t { k with pc := .cancelling [] (.look .first) })
      else
        some ((s.setPool { s.pool with target := some k.ready }).setTask t
          { k with pc := .locked (.takeAll (.look .first)) })
  | .drainAll, .go =>
      some ((s.setPool { s.pool with target := none }).setTask t
        { k with pc := .locked (.takeAll .finish) })
  | .podDied name, .contains found =>
      match s.pool.target with
      | none => some (s.unlock.setTask t { k with pc := .finished })
      | some target =>
          if target.name ≠ name ∨ found then
            some (s.unlock.setTask t { k with pc := .finished })
          else
            some ((s.setPool { s.pool with target := none }).setTask t
              { k with pc := .locked (.takeAll .finish) })
  | .takeAll after, .go =>
      some (((s.setPool { s.pool with entries := [] }).logRemoved t s.pool.sessions).setTask t
        { k with pc := .locked (.publish s.pool.sessions after) })
  | .publish removed after, .go =>
      some (s.refresh.unlock.setTask t { k with pc := .cancelling removed after })
  | .retire, .go =>
      some (s.setTask t { k with pc := .locked (.retiring [] s.pool.entries []) })
  | .retiring kept (e :: rest) removed, .go =>
      let next : Section :=
        if s.isDead e then .retiring kept rest (removed ++ [e.session])
        else .retiring (kept ++ [e]) rest removed
      some (s.setTask t { k with pc := .locked next })
  | .retiring kept [] removed, .go =>
      let s' := (s.setPool { s.pool with entries := kept }).logRemoved t removed
      if removed = [] then
        some (s'.unlock.setTask t { k with pc := .cancelling [] (.look .retired) })
      else
        some (s'.setTask t { k with pc := .locked (.publish removed (.look .retired)) })
  | .prune, .go =>
      let limit := s.pool.entries.length - 1
      some (s.setTask t { k with pc := .locked (.pruning limit [] s.pool.entries []) })
  | .pruning (left + 1) kept (e :: rest) removed, .go =>
      let next : Section :=
        if s.isIdle cfg e then .pruning left kept rest (removed ++ [e.session])
        else .pruning (left + 1) (kept ++ [e]) rest removed
      some (s.setTask t { k with pc := .locked next })
  -- The iterator stopped short; what it did not visit is retained.
  | .pruning _ kept rest removed, .go =>
      let s' := (s.setPool { s.pool with entries := kept ++ rest }).logRemoved t removed
      if removed = [] then
        some (s'.unlock.setTask t { k with pc := .cancelling [] .finish })
      else
        some (s'.setTask t { k with pc := .locked (.publish removed .finish) })
  | .install x, .go =>
      if s.pool.target = some k.ready then
        some ((s.setPool (s.pool.push x s.now)).setTask t
          { k with pc := .locked (.publishInstalled x), pushed := true })
      else some (s.unlock.setTask t { k with pc := .cancelling [x] .stale })
  | .publishInstalled x, .go =>
      some (s.refresh.unlock.setTask t { k with pc := .prefetch x })
  | .reserve, .go =>
      let projected := s.pool.entries.length + s.pool.openingCount
      if cfg.maxSessions ≤ projected then
        some (s.unlock.setTask t
          { k with pc := .leave (.err (.capacityExhausted projected cfg.maxSessions)) })
      else some (s.setTask t { k with pc := .locked .reserveSlot })
  | .reserveSlot, .go =>
      some ((s.setPool { s.pool with openingCount := s.pool.openingCount + 1 }).unlock.setTask t
        { k with pc := .permit, slot := true })
  | .prefetchStart x, .go =>
      if s.pool.prefetchInFlight ∨ cfg.maxSessions ≤ s.pool.entries.length ∨
          s.pool.target ≠ some k.ready then
        some (s.unlock.setTask t { k with pc := .leave (.ok x) })
      else
        some ((s.setPool { s.pool with prefetchInFlight := true }).unlock.setTask t
          { k with pc := .spawnPrefetch x })
  | .prefetchInstall opened, .go =>
      let pool := { s.pool with prefetchInFlight := false }
      match opened with
      | none => some ((s.setPool pool).unlock.setTask t { k with pc := .finished })
      | some x =>
          if pool.entries.length < cfg.maxSessions ∧ pool.target = some k.ready then
            some ((s.setPool (pool.push x s.now)).setTask t
              { k with pc := .locked .publishPrefetched })
          else
            some ((s.setPool pool).unlock.setTask t { k with pc := .cancelling [x] .finish })
  | .publishPrefetched, .go => some (s.refresh.unlock.setTask t { k with pc := .finished })
  | _, _ => none

/-! ## The tasks -/

/-- Where a look at the snapshot that found nothing goes on. -/
def Look.missed : Look → Pc
  | .first => .acquire .retire
  | .retired => .checkInFlight
  | .waited => .acquire .reserve

/-- A task that has cancelled what it removed goes on. -/
def Task.proceed (k : Task) : After → Task
  | .look l => { k with pc := .load l }
  | .stale =>
      if k.retry then { k with pc := .leave .again, retry := false }
      else { k with pc := .leave (.err (.configuration
        "target pod changed while opening a session")) }
  | .finish => { k with pc := .finished }

/-- The last two steps out of the loop body drop the permit and the slot; then
the call returns, or starts over. -/
def leaveStep (t : TaskId) (k : Task) (s : State) (out : Outcome) : State :=
  if k.permit then
    ({ s with permits := s.permits + 1 } : State).setTask t { k with permit := false }
  else if k.slot then
    (s.setPool { s.pool with openingCount := s.pool.openingCount - 1 }).setTask t
      { k with slot := false, pushed := false }
  else match out with
  | .ok x =>
      (s.logEnsured ⟨k.port, x, k.ready⟩).setTask t { k with pc := .connect x }
  | .again => s.setTask t { k with pc := .lookup }
  | .err e => s.setTask t { k with pc := .failed e }

/-- The next access of task `t`. -/
def taskStep (cfg : ForwarderConfig) (t : TaskId) (k : Task) (s : State) (c : Choice) :
    Option State :=
  match k.pc, c with
  | .round, .go =>
      if k.left = 0 then
        some (s.setTask t { k with pc := .failed (.capacityExhausted 0 cfg.maxSessions) })
      else some (s.setTask t { k with pc := .lookup, left := k.left - 1, retry := true })
  | .lookup, .pod none =>
      some (s.setTask t
        { k with pc := .leave (.err (.configuration "no ready pod available")) })
  | .lookup, .pod (some ready) =>
      some (s.setTask t { k with pc := .checkTarget, ready := ready })
  | .checkTarget, .go =>
      if s.lock = none then
        let next : Pc :=
          if s.pool.target = some k.ready then .load .first else .acquire .retarget
        some (s.setTask t { k with pc := next })
      else none
  | .acquire sec, .go =>
      if s.lock = none then
        some (({ s with lock := some t } : State).setTask t { k with pc := .locked sec })
      else none
  | .locked sec, c => lockedStep cfg t k s sec c
  | .cancelling (x :: todo) after, .go =>
      some ((s.updSession x Session.cancel).setTask t { k with pc := .cancelling todo after })
  | .cancelling [] after, .go => some (s.setTask t (k.proceed after))
  | .load look, .go => some (s.setTask t { k with pc := .scan look s.pool.snapshot })
  | .scan look (x :: rest), .go =>
      let next : Pc := if (s.sessions x).serves k.port then .prefetch x else .scan look rest
      some (s.setTask t { k with pc := next })
  | .scan look [], .go => some (s.setTask t { k with pc := look.missed })
  | .checkInFlight, .go =>
      if s.lock = none then
        let next : Pc := if s.pool.hasInFlightOpen then .waiting else .acquire .reserve
        some (s.setTask t { k with pc := next })
      else none
  | .waiting, .go => some (s.setTask t { k with pc := .load .waited })
  | .permit, .permit .acquired =>
      if 0 < s.permits then
        some (({ s with permits := s.permits - 1 } : State).setTask t
          { k with pc := .opening, permit := true })
      else none
  | .permit, .permit .closed =>
      some (s.setTask t
        { k with pc := .leave (.err (.network "connection slot semaphore closed")) })
  | .permit, .permit .timedOut =>
      some (s.setTask t
        { k with pc := .leave (.err (.network "timed out waiting for connection slot")) })
  | .opening, .opened (.ok inner) =>
      some ((s.openSession inner k.port k.ready).setTask t
        { k with pc := .acquire (.install s.nextSession) })
  | .opening, .opened (.error e) => some (s.setTask t { k with pc := .leave (.err e) })
  | .prefetch x, .go =>
      let capacity := (s.sessions x).operatingCapacity
      if capacity = 0 ∨ cfg.belowThreshold (s.sessions x).inUse capacity then
        some (s.setTask t { k with pc := .leave (.ok x) })
      else some (s.setTask t { k with pc := .acquire (.prefetchStart x) })
  | .spawnPrefetch x, .go =>
      some ((s.setTask t { k with pc := .leave (.ok x) }).spawn
        { pc := .prefetching, port := k.port, ready := k.ready })
  | .leave out, .go => some (leaveStep t k s out)
  | .connect x, .elapsed ns =>
      match (s.sessions x).connect ns with
      | (r, x') =>
          let s' := s.updSession x fun _ => x'
          match r with
          | .ok stream => some (s'.setTask t { k with pc := .returned stream k.ready })
          | .error (.capacityExhausted _ _) => some (s'.setTask t { k with pc := .round })
          | .error e => some (s'.setTask t { k with pc := .failed e })
  | .prefetching, .opened (.ok inner) =>
      some ((s.openSession inner k.port k.ready).setTask t
        { k with pc := .acquire (.prefetchInstall (some s.nextSession)) })
  | .prefetching, .opened (.error _) =>
      some (s.setTask t { k with pc := .acquire (.prefetchInstall none) })
  | _, _ => none

/-- The task waits, so its future can be dropped. -/
def Pc.awaits : Pc → Bool
  | .lookup => true
  | .checkTarget => true
  | .acquire _ => true
  | .checkInFlight => true
  | .waiting => true
  | .permit => true
  | .opening => true
  | .prefetch _ => true
  | .spawnPrefetch _ => true
  | .prefetching => true
  | _ => false

/-- `connect_on_pod` checks its port before anything else. -/
def Task.connect (cfg : ForwarderConfig) (port : UInt16) : Task where
  pc := if port = 0 then .failed (.configuration "target port must be greater than zero")
    else .round
  port := port
  left := cfg.maxSessions

def step (cfg : ForwarderConfig) (s : State) : Act → Option State
  | .connect port => some (s.spawn (.connect cfg port))
  | .prune => some (s.spawn { pc := .acquire .prune, port := 0 })
  | .podDied name => some (s.spawn { pc := .acquire (.podDied name), port := 0 })
  | .shutdown => some (s.spawn { pc := .acquire .drainAll, port := 0 })
  | .task t c =>
      match s.tasks[t]? with
      | some k => taskStep cfg t k s c
      | none => none
  -- The locals of a dropped future are dropped as on any other way out.
  | .abandon t =>
      match s.tasks[t]? with
      | some k =>
          if k.pc.awaits then some (s.setTask t { k with pc := .leave (.err .cancelled) })
          else none
      | none => none
  | .session x inner spares cancel =>
      some (s.updSession x fun y =>
        { y with
          inner := inner
          spareStreams := spares
          cancelled := y.cancelled || cancel })
  | .tick => some { s with now := s.now + 1 }

/-- A forwarder with settings `cfg`. -/
def forwarder (cfg : ForwarderConfig) : System State Act where
  init := State.init
  step := step cfg

/-! ## What a step of a task outside the lock is -/

/-- A section as it is entered, right after the lock is acquired. -/
@[simp] def Section.isEntry : Section → Bool
  | .takeAll _ => false
  | .publish _ _ => false
  | .retiring _ _ _ => false
  | .pruning _ _ _ _ => false
  | .publishInstalled _ => false
  | .reserveSlot => false
  | .publishPrefetched => false
  | _ => true

namespace Pc

/-- The lock is acquired only to enter a section. -/
@[simp] def enters : Pc → Bool
  | .acquire sec => sec.isEntry
  | _ => true

@[simp] def isLocked : Pc → Bool
  | .locked _ => true
  | _ => false

/-- Removed sessions that are still to be cancelled. -/
@[simp] def pending : Pc → List SessionId
  | .locked (.publish removed _) => removed
  | .cancelling todo _ => todo
  | _ => []

/-- A session the task has opened, until the pool has taken or refused it. -/
@[simp] def carried : Pc → Option SessionId
  | .acquire (.install x) => some x
  | .locked (.install x) => some x
  | .acquire (.prefetchInstall opened) => opened
  | .locked (.prefetchInstall opened) => opened
  | _ => none

/-- Sessions of a loaded snapshot that the call has not examined yet. -/
@[simp] def unexamined : Pc → List SessionId
  | .scan _ rest => rest
  | _ => []

/-- The session the call is about to return. -/
@[simp] def chosen : Pc → Option SessionId
  | .locked (.publishInstalled x) => some x
  | .prefetch x => some x
  | .acquire (.prefetchStart x) => some x
  | .locked (.prefetchStart x) => some x
  | .spawnPrefetch x => some x
  | .leave (.ok x) => some x
  | _ => none

/-- Where a call can hold a slot. -/
@[simp] def mayHold : Pc → Bool
  | .permit => true
  | .opening => true
  | .acquire (.install _) => true
  | .locked (.install _) => true
  | .cancelling _ .stale => true
  | .locked (.publishInstalled _) => true
  | .prefetch _ => true
  | .acquire (.prefetchStart _) => true
  | .locked (.prefetchStart _) => true
  | .spawnPrefetch _ => true
  | .leave _ => true
  | _ => false

/-- Where a call holds a slot for a session that is not in the pool. -/
@[simp] def reserved : Pc → Bool
  | .permit => true
  | .opening => true
  | .acquire (.install _) => true
  | .locked (.install _) => true
  | _ => false

end Pc

/-- A step that only moves the task on: it takes up no session and gives no
slot back. -/
structure Task.MovesOn (k k' : Task) : Prop where
  port : k'.port = k.port
  ready : k'.ready = k.ready
  slot : k'.slot = k.slot
  pushed : k'.pushed = k.pushed
  outside : k.pc.isLocked = false
  unlocked : k'.pc.isLocked = false
  enters : k'.pc.enters = true
  settled : k.pc.pending = []
  pending : k'.pc.pending = []
  carried : k'.pc.carried = none
  unexamined : k'.pc.unexamined = [] ∨ ∃ look x, k.pc = .scan look (x :: k'.pc.unexamined)
  chosen : ∀ x, k'.pc.chosen = some x → k.pc.chosen = some x
  mayHold : k.slot = true → k.pc.mayHold = true → k'.pc.mayHold = true
  reserved : k'.pc.reserved = true → k.pc.reserved = true

/-- The task holds no lock and no session. -/
structure Pc.Plain (pc : Pc) : Prop where
  unlocked : pc.isLocked = false
  enters : pc.enters = true
  pending : pc.pending = []
  carried : pc.carried = none
  unexamined : pc.unexamined = []
  chosen : pc.chosen = none

theorem Task.MovesOn.plain {k k' : Task} {pc : Pc} (hpc : k.pc = pc)
    (hfrom : pc.isLocked = false ∧ pc.pending = [])
    (hsame : k'.port = k.port ∧ k'.ready = k.ready ∧ k'.slot = k.slot ∧ k'.pushed = k.pushed)
    (h : k'.pc.Plain)
    (hslot : (k.slot = true → pc.mayHold = true → k'.pc.mayHold = true) ∧
      (k'.pc.reserved = true → pc.reserved = true)) : k.MovesOn k' where
  port := hsame.1
  ready := hsame.2.1
  slot := hsame.2.2.1
  pushed := hsame.2.2.2
  outside := by rw [hpc, hfrom.1]
  unlocked := h.unlocked
  enters := h.enters
  settled := by rw [hpc, hfrom.2]
  pending := h.pending
  carried := h.carried
  unexamined := .inl h.unexamined
  chosen := by
    intro x hx
    rw [h.chosen] at hx
    contradiction
  mayHold := by
    rw [hpc]
    exact hslot.1
  reserved := by
    rw [hpc]
    exact hslot.2

/-- The steps of a task that does not hold the lock and does not take it: the
state and the task afterwards. -/
inductive TaskMove (s : State) (k : Task) : State → Task → Prop
  | movesOn (permits : Nat) (k' : Task) (h : k.MovesOn k') :
      TaskMove s k { s with permits := permits } k'
  | lookup (ready : ReadyPod) (h : k.pc = .lookup) :
      TaskMove s k s { k with pc := .checkTarget, ready := ready }
  | load (look : Look) (h : k.pc = .load look) :
      TaskMove s k s { k with pc := .scan look s.pool.snapshot }
  | choose (look : Look) (x : SessionId) (rest : List SessionId)
      (h : k.pc = .scan look (x :: rest)) (hserves : (s.sessions x).serves k.port = true) :
      TaskMove s k s { k with pc := .prefetch x }
  | cancel (x : SessionId) (todo : List SessionId) (after : After)
      (h : k.pc = .cancelling (x :: todo) after) :
      TaskMove s k (s.updSession x Session.cancel) { k with pc := .cancelling todo after }
  | opened (inner : Mux.Session) (h : k.pc = .opening) :
      TaskMove s k (s.openSession inner k.port k.ready)
        { k with pc := .acquire (.install s.nextSession) }
  | prefetched (inner : Mux.Session) (h : k.pc = .prefetching) :
      TaskMove s k (s.openSession inner k.port k.ready)
        { k with pc := .acquire (.prefetchInstall (some s.nextSession)) }
  | releaseSlot (out : Outcome) (h : k.pc = .leave out) (hslot : k.slot = true) :
      TaskMove s k (s.setPool { s.pool with openingCount := s.pool.openingCount - 1 })
        { k with slot := false, pushed := false }
  | ensured (x : SessionId) (h : k.pc = .leave (.ok x)) (hslot : k.slot = false) :
      TaskMove s k (s.logEnsured ⟨k.port, x, k.ready⟩) { k with pc := .connect x }
  | connect (x : SessionId) (ns : UInt64) (pc' : Pc) (h : k.pc = .connect x)
      (hpc : pc' = .round ∨ (∃ e, pc' = .failed e) ∨ ∃ stream pod, pc' = .returned stream pod) :
      TaskMove s k (s.updSession x fun y => (y.connect ns).2) { k with pc := pc' }

/-! ## The steps outside the lock, by where the task stands -/

section

variable {cfg : ForwarderConfig} {t : TaskId} {k : Task} {s s' : State} {c : Choice}

-- The equations of `taskStep` are made once here, for every lemma of the section.
attribute [local simp] taskStep

/-- A step to a place without a lock or a session, which may take or give a permit. -/
theorem plain_moves {k' : Task} {pc : Pc} (n : Nat)
    (hs' : s' = ({ s with permits := n } : State).setTask t k') (hpc : k.pc = pc)
    (hfrom : pc.isLocked = false ∧ pc.pending = [])
    (hsame : k'.port = k.port ∧ k'.ready = k.ready ∧ k'.slot = k.slot ∧ k'.pushed = k.pushed)
    (hplain : k'.pc.Plain)
    (hslot : (k.slot = true → pc.mayHold = true → k'.pc.mayHold = true) ∧
      (k'.pc.reserved = true → pc.reserved = true)) :
    ∃ u k', TaskMove s k u k' ∧ s' = u.setTask t k' :=
  ⟨_, k', .movesOn n k' (.plain hpc hfrom hsame hplain hslot), hs'⟩

theorem round_moves (hpc : k.pc = .round) (h : taskStep cfg t k s c = some s') :
    ∃ u k', TaskMove s k u k' ∧ s' = u.setTask t k' := by
  cases c <;> simp only [taskStep, hpc, reduceCtorEq] at h
  split at h
  · cases h
    exact plain_moves s.permits rfl hpc ⟨rfl, rfl⟩ ⟨rfl, rfl, rfl, rfl⟩
      ⟨rfl, rfl, rfl, rfl, rfl, rfl⟩ (by simp)
  · cases h
    exact plain_moves s.permits rfl hpc ⟨rfl, rfl⟩ ⟨rfl, rfl, rfl, rfl⟩
      ⟨rfl, rfl, rfl, rfl, rfl, rfl⟩ (by simp)

theorem lookup_moves (hpc : k.pc = .lookup) (h : taskStep cfg t k s c = some s') :
    ∃ u k', TaskMove s k u k' ∧ s' = u.setTask t k' := by
  cases c <;> simp only [taskStep, hpc, reduceCtorEq] at h
  case pod ready =>
    cases ready with
    | none =>
        cases h
        exact plain_moves s.permits rfl hpc ⟨rfl, rfl⟩ ⟨rfl, rfl, rfl, rfl⟩
          ⟨rfl, rfl, rfl, rfl, rfl, rfl⟩ (by simp)
    | some ready =>
        cases h
        exact ⟨s, _, .lookup ready hpc, rfl⟩

theorem checkTarget_moves (hpc : k.pc = .checkTarget) (h : taskStep cfg t k s c = some s') :
    ∃ u k', TaskMove s k u k' ∧ s' = u.setTask t k' := by
  cases c <;> simp only [taskStep, hpc, reduceCtorEq] at h
  split at h
  · cases h
    refine plain_moves s.permits rfl hpc ⟨rfl, rfl⟩ ⟨rfl, rfl, rfl, rfl⟩ ?_ ?_
    · split <;> exact ⟨rfl, rfl, rfl, rfl, rfl, rfl⟩
    · split <;> simp
  · contradiction

/-- The lock is taken when it is free, and nothing else happens. -/
theorem acquire_locks {sec : Section} (hpc : k.pc = .acquire sec)
    (h : taskStep cfg t k s c = some s') :
    s.lock = none ∧
      s' = ({ s with lock := some t } : State).setTask t { k with pc := .locked sec } := by
  cases c <;> simp only [taskStep, hpc, reduceCtorEq] at h
  split at h
  · next hlock =>
      cases h
      exact ⟨hlock, rfl⟩
  · contradiction

theorem proceed_moves (after : After) (hpc : k.pc = .cancelling [] after) :
    ∃ u k', TaskMove s k u k' ∧ s.setTask t (k.proceed after) = u.setTask t k' := by
  cases after with
  | look l =>
      exact plain_moves s.permits rfl hpc ⟨rfl, rfl⟩ ⟨rfl, rfl, rfl, rfl⟩
        ⟨rfl, rfl, rfl, rfl, rfl, rfl⟩ (by simp [Task.proceed])
  | stale =>
      by_cases hretry : k.retry = true
      · have hproceed : k.proceed .stale = { k with pc := .leave .again, retry := false } :=
          if_pos hretry
        rw [hproceed]
        exact plain_moves s.permits rfl hpc ⟨rfl, rfl⟩ ⟨rfl, rfl, rfl, rfl⟩
          ⟨rfl, rfl, rfl, rfl, rfl, rfl⟩ (by simp)
      · have hproceed : k.proceed .stale = { k with pc := .leave (.err (.configuration
            "target pod changed while opening a session")) } := if_neg hretry
        rw [hproceed]
        exact plain_moves s.permits rfl hpc ⟨rfl, rfl⟩ ⟨rfl, rfl, rfl, rfl⟩
          ⟨rfl, rfl, rfl, rfl, rfl, rfl⟩ (by simp)
  | finish =>
      exact plain_moves s.permits rfl hpc ⟨rfl, rfl⟩ ⟨rfl, rfl, rfl, rfl⟩
        ⟨rfl, rfl, rfl, rfl, rfl, rfl⟩ (by simp [Task.proceed])

theorem cancelling_moves {todo : List SessionId} {after : After}
    (hpc : k.pc = .cancelling todo after) (h : taskStep cfg t k s c = some s') :
    ∃ u k', TaskMove s k u k' ∧ s' = u.setTask t k' := by
  cases todo with
  | nil =>
      cases c <;> simp only [taskStep, hpc, reduceCtorEq] at h
      cases h
      exact proceed_moves after hpc
  | cons x todo =>
      cases c <;> simp only [taskStep, hpc, reduceCtorEq] at h
      cases h
      exact ⟨_, _, .cancel x todo after hpc, rfl⟩

theorem load_moves {look : Look} (hpc : k.pc = .load look)
    (h : taskStep cfg t k s c = some s') :
    ∃ u k', TaskMove s k u k' ∧ s' = u.setTask t k' := by
  cases c <;> simp only [taskStep, hpc, reduceCtorEq] at h
  cases h
  exact ⟨s, _, .load look hpc, rfl⟩

/-- A session that serves the port is chosen, one that does not is passed over. -/
theorem scan_moves {look : Look} {rest : List SessionId} (hpc : k.pc = .scan look rest)
    (h : taskStep cfg t k s c = some s') :
    ∃ u k', TaskMove s k u k' ∧ s' = u.setTask t k' := by
  cases rest with
  | nil =>
      cases c <;> simp only [taskStep, hpc, reduceCtorEq] at h
      cases h
      refine plain_moves s.permits rfl hpc ⟨rfl, rfl⟩ ⟨rfl, rfl, rfl, rfl⟩ ?_ ?_
      · cases look <;> exact ⟨rfl, rfl, rfl, rfl, rfl, rfl⟩
      · cases look <;> simp [Look.missed]
  | cons x rest =>
      cases c <;> simp only [taskStep, hpc, reduceCtorEq] at h
      cases h
      by_cases hserves : (s.sessions x).serves k.port = true
      · simp only [if_pos hserves]
        exact ⟨s, _, .choose look x rest hpc hserves, rfl⟩
      · simp only [if_neg hserves]
        refine ⟨_, { k with pc := .scan look rest }, .movesOn s.permits _ ?_, rfl⟩
        refine ⟨rfl, rfl, rfl, rfl, by rw [hpc]; rfl, rfl, rfl, by rw [hpc]; rfl, rfl, rfl,
          .inr ⟨look, x, hpc⟩, ?_, by simp [hpc], by simp⟩
        intro y hy
        contradiction

theorem checkInFlight_moves (hpc : k.pc = .checkInFlight)
    (h : taskStep cfg t k s c = some s') :
    ∃ u k', TaskMove s k u k' ∧ s' = u.setTask t k' := by
  cases c <;> simp only [taskStep, hpc, reduceCtorEq] at h
  split at h
  · cases h
    refine plain_moves s.permits rfl hpc ⟨rfl, rfl⟩ ⟨rfl, rfl, rfl, rfl⟩ ?_ ?_
    · split <;> exact ⟨rfl, rfl, rfl, rfl, rfl, rfl⟩
    · split <;> simp
  · contradiction

theorem waiting_moves (hpc : k.pc = .waiting) (h : taskStep cfg t k s c = some s') :
    ∃ u k', TaskMove s k u k' ∧ s' = u.setTask t k' := by
  cases c <;> simp only [taskStep, hpc, reduceCtorEq] at h
  cases h
  exact plain_moves s.permits rfl hpc ⟨rfl, rfl⟩ ⟨rfl, rfl, rfl, rfl⟩
    ⟨rfl, rfl, rfl, rfl, rfl, rfl⟩ (by simp)

theorem permit_moves (hpc : k.pc = .permit) (h : taskStep cfg t k s c = some s') :
    ∃ u k', TaskMove s k u k' ∧ s' = u.setTask t k' := by
  cases c <;> simp only [taskStep, hpc, reduceCtorEq] at h
  case permit outcome =>
    cases outcome with
    | acquired =>
        simp only at h
        split at h
        · cases h
          exact plain_moves (s.permits - 1) rfl hpc ⟨rfl, rfl⟩ ⟨rfl, rfl, rfl, rfl⟩
            ⟨rfl, rfl, rfl, rfl, rfl, rfl⟩ (by simp)
        · contradiction
    | closed =>
        cases h
        exact plain_moves s.permits rfl hpc ⟨rfl, rfl⟩ ⟨rfl, rfl, rfl, rfl⟩
          ⟨rfl, rfl, rfl, rfl, rfl, rfl⟩ (by simp)
    | timedOut =>
        cases h
        exact plain_moves s.permits rfl hpc ⟨rfl, rfl⟩ ⟨rfl, rfl, rfl, rfl⟩
          ⟨rfl, rfl, rfl, rfl, rfl, rfl⟩ (by simp)

theorem opening_moves (hpc : k.pc = .opening) (h : taskStep cfg t k s c = some s') :
    ∃ u k', TaskMove s k u k' ∧ s' = u.setTask t k' := by
  cases c <;> simp only [taskStep, hpc, reduceCtorEq] at h
  case opened result =>
    cases result with
    | ok inner =>
        cases h
        exact ⟨_, _, .opened inner hpc, rfl⟩
    | error e =>
        cases h
        exact plain_moves s.permits rfl hpc ⟨rfl, rfl⟩ ⟨rfl, rfl, rfl, rfl⟩
          ⟨rfl, rfl, rfl, rfl, rfl, rfl⟩ (by simp)

theorem prefetching_moves (hpc : k.pc = .prefetching) (h : taskStep cfg t k s c = some s') :
    ∃ u k', TaskMove s k u k' ∧ s' = u.setTask t k' := by
  cases c <;> simp only [taskStep, hpc, reduceCtorEq] at h
  case opened result =>
    cases result with
    | ok inner =>
        cases h
        exact ⟨_, _, .prefetched inner hpc, rfl⟩
    | error e =>
        cases h
        exact plain_moves s.permits rfl hpc ⟨rfl, rfl⟩ ⟨rfl, rfl, rfl, rfl⟩
          ⟨rfl, rfl, rfl, rfl, rfl, rfl⟩ (by simp)

/-- Whether a prefetch is due or not, the session that was chosen stays chosen. -/
theorem prefetch_moves {x : SessionId} (hpc : k.pc = .prefetch x)
    (h : taskStep cfg t k s c = some s') :
    ∃ u k', TaskMove s k u k' ∧ s' = u.setTask t k' := by
  cases c <;> simp only [taskStep, hpc, reduceCtorEq] at h
  split at h
  · cases h
    refine ⟨_, _, .movesOn s.permits { k with pc := .leave (.ok x) } ?_, rfl⟩
    exact ⟨rfl, rfl, rfl, rfl, by rw [hpc]; rfl, rfl, rfl, by rw [hpc]; rfl, rfl, rfl, .inl rfl,
      fun y hy => by rw [hpc]; exact hy, by simp, by simp⟩
  · cases h
    refine ⟨_, _, .movesOn s.permits { k with pc := .acquire (.prefetchStart x) } ?_, rfl⟩
    exact ⟨rfl, rfl, rfl, rfl, by rw [hpc]; rfl, rfl, rfl, by rw [hpc]; rfl, rfl, rfl, .inl rfl,
      fun y hy => by rw [hpc]; exact hy, by simp, by simp⟩

/-- The permit is given back first, then the slot; only then does the call go on. -/
theorem leave_moves {out : Outcome} (hpc : k.pc = .leave out) :
    ∃ u k', TaskMove s k u k' ∧ leaveStep t k s out = u.setTask t k' := by
  unfold leaveStep
  split
  · refine ⟨_, _, .movesOn (s.permits + 1) { k with permit := false } ?_, rfl⟩
    exact ⟨rfl, rfl, rfl, rfl, by simp [hpc], by simp [hpc], by simp [hpc], by simp [hpc],
      by simp [hpc], by simp [hpc], .inl (by simp [hpc]), fun y hy => hy, fun _ hm => hm,
      fun hr => hr⟩
  split
  · next hslot => exact ⟨_, _, .releaseSlot out hpc hslot, rfl⟩
  · next hslot =>
      cases out with
      | ok x => exact ⟨_, _, .ensured x hpc (by simpa using hslot), rfl⟩
      | again =>
          exact plain_moves s.permits rfl hpc ⟨rfl, rfl⟩ ⟨rfl, rfl, rfl, rfl⟩
            ⟨rfl, rfl, rfl, rfl, rfl, rfl⟩ (by simp [hslot])
      | err e =>
          exact plain_moves s.permits rfl hpc ⟨rfl, rfl⟩ ⟨rfl, rfl, rfl, rfl⟩
            ⟨rfl, rfl, rfl, rfl, rfl, rfl⟩ (by simp [hslot])

theorem connect_moves {x : SessionId} (hpc : k.pc = .connect x)
    (h : taskStep cfg t k s c = some s') :
    ∃ u k', TaskMove s k u k' ∧ s' = u.setTask t k' := by
  cases c <;> simp only [taskStep, hpc, reduceCtorEq] at h
  case elapsed ns =>
    split at h
    · cases h
      exact ⟨_, _, .connect x ns _ hpc (.inr (.inr ⟨_, _, rfl⟩)), rfl⟩
    · cases h
      exact ⟨_, _, .connect x ns _ hpc (.inl rfl), rfl⟩
    · cases h
      exact ⟨_, _, .connect x ns _ hpc (.inr (.inl ⟨_, rfl⟩)), rfl⟩

/-- A step of a task is one of its section, takes the lock, spawns the prefetch, or is
one of the moves without the lock. -/
theorem taskStep_cases (h : taskStep cfg t k s c = some s') :
    (∃ sec, k.pc = .locked sec ∧ lockedStep cfg t k s sec c = some s') ∨
    (∃ sec, k.pc = .acquire sec ∧ s.lock = none ∧
      s' = ({ s with lock := some t } : State).setTask t { k with pc := .locked sec }) ∨
    (∃ x, k.pc = .spawnPrefetch x ∧
      s' = (s.setTask t { k with pc := .leave (.ok x) }).spawn
        { pc := .prefetching, port := k.port, ready := k.ready }) ∨
    (∃ u k', TaskMove s k u k' ∧ s' = u.setTask t k') := by
  cases hpc : k.pc with
  | locked sec =>
      have hlocked : lockedStep cfg t k s sec c = some s' := by
        cases c <;> simpa only [taskStep, hpc] using h
      exact .inl ⟨sec, rfl, hlocked⟩
  | acquire sec => exact .inr (.inl ⟨sec, rfl, acquire_locks hpc h⟩)
  | spawnPrefetch x =>
      cases c <;> simp only [taskStep, hpc, reduceCtorEq] at h
      cases h
      exact .inr (.inr (.inl ⟨x, rfl, rfl⟩))
  | round => exact .inr (.inr (.inr (round_moves hpc h)))
  | lookup => exact .inr (.inr (.inr (lookup_moves hpc h)))
  | checkTarget => exact .inr (.inr (.inr (checkTarget_moves hpc h)))
  | cancelling todo after => exact .inr (.inr (.inr (cancelling_moves hpc h)))
  | load look => exact .inr (.inr (.inr (load_moves hpc h)))
  | scan look rest => exact .inr (.inr (.inr (scan_moves hpc h)))
  | checkInFlight => exact .inr (.inr (.inr (checkInFlight_moves hpc h)))
  | waiting => exact .inr (.inr (.inr (waiting_moves hpc h)))
  | permit => exact .inr (.inr (.inr (permit_moves hpc h)))
  | opening => exact .inr (.inr (.inr (opening_moves hpc h)))
  | prefetch x => exact .inr (.inr (.inr (prefetch_moves hpc h)))
  | prefetching => exact .inr (.inr (.inr (prefetching_moves hpc h)))
  | leave out =>
      cases c <;> simp only [taskStep, hpc, reduceCtorEq] at h
      cases h
      exact .inr (.inr (.inr (leave_moves hpc)))
  | connect x => exact .inr (.inr (.inr (connect_moves hpc h)))
  | returned stream pod => cases c <;> simp only [taskStep, hpc, reduceCtorEq] at h
  | failed e => cases c <;> simp only [taskStep, hpc, reduceCtorEq] at h
  | finished => cases c <;> simp only [taskStep, hpc, reduceCtorEq] at h

end

/-- A task as it is spawned. -/
structure Task.Starts (k : Task) : Prop where
  plain : k.pc.Plain
  slot : k.slot = false
  pushed : k.pushed = false
  unreserved : k.pc.reserved = false

theorem Task.connect_starts (cfg : ForwarderConfig) (port : UInt16) :
    (Task.connect cfg port).Starts := by
  refine ⟨?_, rfl, rfl, ?_⟩
  · unfold Task.connect
    simp only
    split <;> exact ⟨rfl, rfl, rfl, rfl, rfl, rfl⟩
  · unfold Task.connect
    simp only
    split <;> rfl

/-- Every step spawns a task, moves one, or is a move of the environment. -/
theorem step_cases {cfg : ForwarderConfig} {s s' : State} {a : Act}
    (h : step cfg s a = some s') :
    (∃ k : Task, k.Starts ∧ s' = s.spawn k) ∨
    (∃ t k sec c, a = .task t c ∧ s.tasks[t]? = some k ∧ k.pc = .locked sec ∧
      lockedStep cfg t k s sec c = some s') ∨
    (∃ t k sec, s.tasks[t]? = some k ∧ k.pc = .acquire sec ∧ s.lock = none ∧
      s' = ({ s with lock := some t } : State).setTask t { k with pc := .locked sec }) ∨
    (∃ t k x, s.tasks[t]? = some k ∧ k.pc = .spawnPrefetch x ∧
      s' = (s.setTask t { k with pc := .leave (.ok x) }).spawn
        { pc := .prefetching, port := k.port, ready := k.ready }) ∨
    (∃ t k u k', s.tasks[t]? = some k ∧ (k.pc.awaits = true ∨ ∃ c, a = .task t c) ∧
      TaskMove s k u k' ∧ s' = u.setTask t k') ∨
    (∃ x inner spares cancel, s' = s.updSession x fun y =>
      { y with
        inner := inner
        spareStreams := spares
        cancelled := y.cancelled || cancel }) ∨
    s' = { s with now := s.now + 1 } := by
  cases a with
  | connect port =>
      cases h
      exact .inl ⟨_, Task.connect_starts cfg port, rfl⟩
  | prune =>
      cases h
      exact .inl ⟨_, ⟨⟨rfl, rfl, rfl, rfl, rfl, rfl⟩, rfl, rfl, rfl⟩, rfl⟩
  | podDied name =>
      cases h
      exact .inl ⟨_, ⟨⟨rfl, rfl, rfl, rfl, rfl, rfl⟩, rfl, rfl, rfl⟩, rfl⟩
  | shutdown =>
      cases h
      exact .inl ⟨_, ⟨⟨rfl, rfl, rfl, rfl, rfl, rfl⟩, rfl, rfl, rfl⟩, rfl⟩
  | task t c =>
      simp only [step] at h
      split at h
      · next k hk =>
          obtain ⟨sec, hpc, hl⟩ | ⟨sec, hpc, hlock, rfl⟩ | ⟨x, hpc, rfl⟩ | ⟨u, k', hmove, rfl⟩ :=
            taskStep_cases h
          · exact .inr (.inl ⟨t, k, sec, c, rfl, hk, hpc, hl⟩)
          · exact .inr (.inr (.inl ⟨t, k, sec, hk, hpc, hlock, rfl⟩))
          · exact .inr (.inr (.inr (.inl ⟨t, k, x, hk, hpc, rfl⟩)))
          · exact .inr (.inr (.inr (.inr (.inl
              ⟨t, k, u, k', hk, .inr ⟨c, rfl⟩, hmove, rfl⟩))))
      · contradiction
  | abandon t =>
      simp only [step] at h
      split at h
      · next k hk =>
          split at h
          · next hawaits =>
              cases h
              refine .inr (.inr (.inr (.inr (.inl ⟨t, k, s, _, hk, .inl hawaits, ?_, rfl⟩))))
              have hfrom : k.pc.isLocked = false ∧ k.pc.pending = [] := by
                cases hpc : k.pc <;> simp [hpc, Pc.awaits] at hawaits ⊢
              exact .movesOn s.permits _ (.plain rfl hfrom ⟨rfl, rfl, rfl, rfl⟩
                ⟨rfl, rfl, rfl, rfl, rfl, rfl⟩ (by simp))
          · contradiction
      · contradiction
  | session x inner spares cancel =>
      cases h
      exact .inr (.inr (.inr (.inr (.inr (.inl ⟨x, inner, spares, cancel, rfl⟩)))))
  | tick =>
      cases h
      exact .inr (.inr (.inr (.inr (.inr (.inr rfl)))))

end KubePortForward.Forwarder
