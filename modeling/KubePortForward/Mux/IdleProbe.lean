import KubePortForward.Mux.System

/-!
# The idle probe of the reader loop

`run_reader`, one iteration at a time, with a clock: the top of the loop
tests the deadline of an outstanding probe and arms the sleep of the select;
the select is left by cancellation, by the sleep or by a message.  The sleep
is armed only while no probe is outstanding, and the deadline is tested only
at the top of the loop, which is reached again only through a branch of the
select.

Times are in the clock's unit.  What a binary message makes the loop do with
the frames it holds is in `Mux.Reader`; here it matters only whether decoding
and routing them ended the loop.

## Main results

* `blocked_probe_unwatched` — whenever the loop is blocked with a probe
  outstanding, no timer is armed.
* `probe_watched_iff` — so an outstanding probe is always watched only for a
  ping timeout of zero, which never lets the loop block with one.
* `silent_peer_stays_blocked` — a peer that stays silent after the probe never
  leads to the teardown.
* `IdleLoop.refines` — the loop is the reader of the connection's transition
  system, which leaves the time of its probe open.
-/

namespace KubePortForward.Mux

open KubePortForward.Codec
open KubePortForward.Verified.Transition

/-- The durations of `ReaderConfig`. -/
structure IdleConfig where
  idleTimeout : Nat
  pingTimeout : Nat

/-- Where the loop stands.  A blocked select carries the deadline of its sleep
branch when that branch is enabled. -/
inductive LoopPc where
  | top
  | blocked (sleep : Option Nat)
  | left
  deriving DecidableEq, Repr

structure IdleLoop where
  now : Nat
  lastFrameTime : Nat
  idlePingSent : Bool
  idleProbeSentAt : Option Nat
  pc : LoopPc
  deriving DecidableEq, Repr

/-- What `read_message` returned, and for a binary message whether decoding or
routing its frames ended the loop. -/
inductive ReadResult where
  | binary (fatal : Bool)
  | ping (payload : Bytes)
  | closed
  | failed
  deriving DecidableEq, Repr

inductive IdleEvent where
  | elapse (d : Nat)
  | iterate
  | cancelled
  | timer
  | message (m : ReadResult)
  deriving DecidableEq, Repr

namespace IdleLoop

def start : IdleLoop where
  now := 0
  lastFrameTime := 0
  idlePingSent := false
  idleProbeSentAt := none
  pc := .top

/-- The deadline of an outstanding probe has passed. -/
def probeExpired (cfg : IdleConfig) (l : IdleLoop) : Bool :=
  match l.idleProbeSentAt with
  | some sentAt => decide (cfg.pingTimeout ≤ l.now - sentAt)
  | none => false

/-- The sleep branch as the select is entered: enabled only while no probe is
outstanding. -/
def armSleep (cfg : IdleConfig) (l : IdleLoop) : Option Nat :=
  let idleRemaining := cfg.idleTimeout - (l.now - l.lastFrameTime)
  if !l.idlePingSent && l.idleProbeSentAt.isNone then some (l.now + idleRemaining) else none

/-- Any message resets the idle tracking. -/
def reset (l : IdleLoop) : IdleLoop :=
  { l with lastFrameTime := l.now, idlePingSent := false, idleProbeSentAt := none, pc := .top }

def step (cfg : IdleConfig) (l : IdleLoop) : IdleEvent → Option IdleLoop
  | .elapse d => some { l with now := l.now + d }
  | .iterate =>
      if l.pc = .top then
        if l.probeExpired cfg then some { l with pc := .left }
        else some { l with pc := .blocked (l.armSleep cfg) }
      else none
  | .cancelled =>
      match l.pc with
      | .blocked _ => some { l with pc := .left }
      | _ => none
  | .timer =>
      match l.pc with
      | .blocked (some deadline) =>
          if deadline ≤ l.now then
            some { l with idlePingSent := true, idleProbeSentAt := some l.now, pc := .top }
          else none
      | _ => none
  | .message m =>
      match l.pc with
      | .blocked _ =>
          match m with
          | .binary fatal => some (if fatal then { l.reset with pc := .left } else l.reset)
          | .ping _ => some l.reset
          | .closed => some { l with pc := .left }
          | .failed => some { l with pc := .left }
      | _ => none

end IdleLoop

def idleLoop (cfg : IdleConfig) : System IdleLoop IdleEvent where
  init := IdleLoop.start
  step := IdleLoop.step cfg

/-! ## The watchdog -/

/-- The wake-ups of a blocked select besides cancellation and inbound traffic. -/
def IdleLoop.armed (l : IdleLoop) : List Nat :=
  match l.pc with
  | .blocked sleep => sleep.toList
  | _ => []

def IdleLoop.Blocked (l : IdleLoop) : Prop := ∃ sleep, l.pc = .blocked sleep

/-- A blocked loop with a probe outstanding has a timer armed that fires by
the probe's deadline. -/
def IdleLoop.Watched (cfg : IdleConfig) (l : IdleLoop) : Prop :=
  ∀ sentAt, l.Blocked → l.idleProbeSentAt = some sentAt →
    ∃ d ∈ l.armed, d ≤ sentAt + cfg.pingTimeout

/-- A sleep is armed only while no probe is outstanding, and a select is entered
with a probe outstanding only before its deadline. -/
structure IdleOk (cfg : IdleConfig) (l : IdleLoop) : Prop where
  armed : ∀ d, l.pc = .blocked (some d) → l.idlePingSent = false ∧ l.idleProbeSentAt = none
  timed : l.Blocked → l.idleProbeSentAt ≠ none → 0 < cfg.pingTimeout

theorem IdleOk.of_pc {cfg : IdleConfig} {l : IdleLoop} (h : ∀ sleep, l.pc ≠ .blocked sleep) :
    IdleOk cfg l := by
  constructor
  · intro d hd
    exact absurd hd (h _)
  · rintro ⟨sleep, hs⟩
    exact absurd hs (h _)

theorem armSleep_eq_some {cfg : IdleConfig} {l : IdleLoop} {d : Nat}
    (h : l.armSleep cfg = some d) : l.idlePingSent = false ∧ l.idleProbeSentAt = none := by
  unfold IdleLoop.armSleep at h
  split at h
  · next hg => simpa using hg
  · contradiction

theorem pingTimeout_pos {cfg : IdleConfig} {l : IdleLoop} (h : l.probeExpired cfg = false)
    (hsent : l.idleProbeSentAt ≠ none) : 0 < cfg.pingTimeout := by
  unfold IdleLoop.probeExpired at h
  split at h
  · simp only [decide_eq_false_iff_not] at h
    omega
  · next hnone => exact absurd hnone hsent

theorem idle_step {cfg : IdleConfig} {l l' : IdleLoop} {e : IdleEvent} (hI : IdleOk cfg l)
    (h : IdleLoop.step cfg l e = some l') : IdleOk cfg l' := by
  cases e with
  | elapse d =>
      cases h
      exact ⟨hI.armed, hI.timed⟩
  | iterate =>
      simp only [IdleLoop.step] at h
      split at h
      · split at h
        · cases h
          exact IdleOk.of_pc (by simp)
        · next hlive =>
            cases h
            constructor
            · intro d hd
              exact armSleep_eq_some (LoopPc.blocked.inj hd)
            · intro _ hsent
              exact pingTimeout_pos (l := l) (by simpa using hlive) hsent
      · contradiction
  | cancelled =>
      simp only [IdleLoop.step] at h
      split at h
      · cases h
        exact IdleOk.of_pc (by simp)
      · contradiction
  | timer =>
      simp only [IdleLoop.step] at h
      split at h
      · split at h
        · cases h
          exact IdleOk.of_pc (by simp)
        · contradiction
      · contradiction
  | message m =>
      simp only [IdleLoop.step] at h
      split at h
      · apply IdleOk.of_pc
        split at h
        · next fatal =>
            cases fatal <;> cases h <;> simp [IdleLoop.reset]
        all_goals
          cases h
          simp [IdleLoop.reset]
      · contradiction

theorem idleOk_invariant (cfg : IdleConfig) :
    (idleLoop cfg).Invariant anyStep (IdleOk cfg) := by
  apply Invariant.of_step
  · exact IdleOk.of_pc (by simp [idleLoop, IdleLoop.start])
  · intro l e l' hI _ h
    exact idle_step hI h

theorem IdleOk.unarmed {cfg : IdleConfig} {l : IdleLoop} {sentAt : Nat} (hI : IdleOk cfg l)
    (hb : l.Blocked) (hsent : l.idleProbeSentAt = some sentAt) : l.pc = .blocked none := by
  obtain ⟨sleep, hs⟩ := hb
  cases sleep with
  | none => exact hs
  | some d =>
      have hnone := (hI.armed d hs).2
      rw [hsent] at hnone
      contradiction

/-- In every state in which the loop is blocked with a probe outstanding, no
timer is armed. -/
theorem blocked_probe_unwatched (cfg : IdleConfig) (es : List IdleEvent) (l : IdleLoop)
    (sentAt : Nat) (hrun : (idleLoop cfg).run (idleLoop cfg).init es = some l)
    (hb : l.Blocked) (hsent : l.idleProbeSentAt = some sentAt) :
    l.armed = [] ∧ ¬ l.Watched cfg := by
  have hI := idleOk_invariant cfg es l hrun (meets_anyStep _ _)
  have harmed : l.armed = [] := by
    simp [IdleLoop.armed, hI.unarmed hb hsent]
  refine ⟨harmed, fun hw => ?_⟩
  obtain ⟨d, hd, -⟩ := hw sentAt hb hsent
  rw [harmed] at hd
  contradiction

/-- A peer that stays silent after the probe leaves the loop blocked for ever:
no passage of time and no timer leads to the teardown. -/
theorem silent_peer_stays_blocked (cfg : IdleConfig) (es : List IdleEvent) (l l' : IdleLoop)
    (hl : l.pc = .blocked none) (hrun : (idleLoop cfg).run l es = some l')
    (hsilent : ∀ e ∈ es, e ≠ .cancelled ∧ ∀ m, e ≠ .message m) : l'.pc = .blocked none := by
  induction es generalizing l with
  | nil =>
      cases hrun
      exact hl
  | cons e es ih =>
      obtain ⟨u, hstep, hrest⟩ := run_cons_some hrun
      have hquiet := hsilent e (by simp)
      have hu : u.pc = .blocked none := by
        cases e with
        | elapse d =>
            cases hstep
            exact hl
        | iterate => simp [idleLoop, IdleLoop.step, hl] at hstep
        | timer => simp [idleLoop, IdleLoop.step, hl] at hstep
        | cancelled => exact absurd rfl hquiet.1
        | message m => exact absurd rfl (hquiet.2 m)
      exact ih u hu hrest fun e' he' => hsilent e' (List.mem_cons_of_mem e he')

/-- The loop blocks, the idle timeout passes, the probe is sent, and the loop
blocks again. -/
def probeEvents (cfg : IdleConfig) : List IdleEvent :=
  [.iterate, .elapse cfg.idleTimeout, .timer, .iterate]

theorem probeEvents_run (cfg : IdleConfig) (h : 0 < cfg.pingTimeout) :
    (idleLoop cfg).run (idleLoop cfg).init (probeEvents cfg) = some
      { now := cfg.idleTimeout, lastFrameTime := 0, idlePingSent := true,
        idleProbeSentAt := some cfg.idleTimeout, pc := .blocked none } := by
  have hlive : ¬ cfg.pingTimeout ≤ 0 := by omega
  simp [probeEvents, System.run, idleLoop, IdleLoop.step, IdleLoop.start,
    IdleLoop.probeExpired, IdleLoop.armSleep, hlive]

/-- An outstanding probe is watched in every reachable state exactly for a ping
timeout of zero, with which the loop never blocks while one is outstanding. -/
theorem probe_watched_iff (cfg : IdleConfig) :
    (∀ es l, (idleLoop cfg).run (idleLoop cfg).init es = some l → l.Watched cfg) ↔
      cfg.pingTimeout = 0 := by
  constructor
  · intro h
    by_contra hne
    have hrun := probeEvents_run cfg (Nat.pos_of_ne_zero hne)
    exact (blocked_probe_unwatched cfg _ _ _ hrun ⟨_, rfl⟩ rfl).2 (h _ _ hrun)
  · intro hzero es l hrun sentAt hb hsent
    have hI := idleOk_invariant cfg es l hrun (meets_anyStep _ _)
    have hpos := hI.timed hb (by simp [hsent])
    omega

/-- The default durations, in seconds. -/
def IdleConfig.default : IdleConfig := { idleTimeout := 120, pingTimeout := 30 }

/-- With the default durations the probe is not watched. -/
theorem probe_unwatched_default :
    ¬ ∀ (cfg : IdleConfig) (es : List IdleEvent) (l : IdleLoop),
      (idleLoop cfg).run (idleLoop cfg).init es = some l → l.Watched cfg := by
  intro h
  have hrun := probeEvents_run IdleConfig.default (by decide)
  obtain ⟨d, hd, -⟩ := h IdleConfig.default _ _ hrun 120 ⟨_, rfl⟩ rfl
  contradiction

/-! ## The loop as the reader of a connection -/

/-- The reader is between two messages and agrees with the loop on whether it
has probed. -/
def Follows (l : IdleLoop) (r : Reader) : Prop :=
  if l.pc = .left then r.pc = .stopped
  else r.pc = .idle ∧ r.idlePingSent = l.idlePingSent

/-- The reader moves that carry out a step of the loop. -/
def readerMoves (l' : IdleLoop) : IdleEvent → List ReaderAct
  | .elapse _ => []
  | .iterate => if l'.pc = .left then [.exit] else []
  | .cancelled => [.exit]
  | .timer => [.idleProbe]
  | .message (.binary fatal) => if fatal then [.message, .exit] else [.message]
  | .message (.ping payload) => [.wsPing payload]
  | .message .closed => [.exit]
  | .message .failed => [.exit]

/-- Every step of the loop is carried out by moves of the connection's reader. -/
theorem IdleLoop.refines {cfg : IdleConfig} {mcfg : MuxConfig} {l l' : IdleLoop}
    {e : IdleEvent} {s : MuxState} (hI : IdleOk cfg l) (hleft : l.pc ≠ .left)
    (hf : Follows l s.reader) (h : IdleLoop.step cfg l e = some l') :
    ∃ s', (mux mcfg).run s ((readerMoves l' e).map Act.reader) = some s' ∧
      Follows l' s'.reader := by
  rw [Follows, if_neg hleft] at hf
  obtain ⟨hidle, hsent⟩ := hf
  cases e with
  | elapse d =>
      cases h
      exact ⟨s, rfl, by simp [Follows, hleft, hidle, hsent]⟩
  | iterate =>
      simp only [IdleLoop.step] at h
      split at h
      · split at h
        · cases h
          simp [readerMoves, System.run, mux, Mux.step, readerStep, Reader.exit, hidle, Follows]
        · cases h
          exact ⟨s, rfl, by simp [Follows, hidle, hsent]⟩
      · contradiction
  | cancelled =>
      simp only [IdleLoop.step] at h
      split at h
      · cases h
        simp [readerMoves, System.run, mux, Mux.step, readerStep, Reader.exit, hidle, Follows]
      · contradiction
  | timer =>
      simp only [IdleLoop.step] at h
      split at h
      · next deadline hpc =>
          have hprobed : s.reader.idlePingSent = false := by
            rw [hsent]
            exact (hI.armed deadline hpc).1
          split at h
          · cases h
            simp [readerMoves, System.run, mux, Mux.step, readerStep, Reader.idleProbe, hidle,
              hprobed, Follows]
          · contradiction
      · contradiction
  | message m =>
      simp only [IdleLoop.step] at h
      split at h
      · cases m with
        | binary fatal =>
            cases fatal <;> cases h <;>
              simp [readerMoves, System.run, mux, Mux.step, readerStep, Reader.message,
                Reader.exit, hidle, Follows, IdleLoop.reset]
        | ping payload =>
            cases h
            simp [readerMoves, System.run, mux, Mux.step, readerStep, Reader.receiveWsPing,
              hidle, Follows, IdleLoop.reset]
        | closed =>
            cases h
            simp [readerMoves, System.run, mux, Mux.step, readerStep, Reader.exit, hidle,
              Follows]
        | failed =>
            cases h
            simp [readerMoves, System.run, mux, Mux.step, readerStep, Reader.exit, hidle,
              Follows]
      · contradiction

end KubePortForward.Mux
