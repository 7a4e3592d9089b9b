import KubePortForward.Mux.FlowControl
import KubePortForward.Mux.PoisonedWindows

/-!
# Waking a blocked writer

The writer of `FlowControl` against any number of tasks that credit, resize and poison its
window, with the change of the value and the wake that follows it two separate steps.  A
writer that finds its window exhausted registers, looks again and returns; a change whose
wake comes before the registration must be seen by the second look, and one that comes
after it is followed by a wake that finds the writer registered.

A resize that does not grow the window wakes nobody, which is right as long as it leaves
the counter above `i64::MIN`.

## Main results

* `change_then_wake` — a change and its wake together are the one step of `sending`.
* `WakeOk` — what is owed to a writer that looks again or has returned.
* `blocked_writer_woken` — a writer that waits while its window admits bytes or is poisoned
  was woken or is about to be.
* `sunk_window_wakes_nobody` — resizes alone can poison a window that nobody closed.
-/

namespace KubePortForward.Mux

open KubePortForward.Codec
open KubePortForward.Verified.Channel
open KubePortForward.Verified.Transition

/-- The operation as one step of `sending`. -/
def WindowOp.act : WindowOp → SendAct
  | .replenish delta => .replenish delta
  | .applyDelta delta => .applyDelta delta
  | .close => .close

/-- Whether the operation ends with a wake. -/
def WindowOp.wakes : WindowOp → Bool
  | .applyDelta delta => decide (0 < delta)
  | _ => true

/-- The value after the operation. -/
def WindowOp.value (x : Int) : WindowOp → Int
  | .replenish delta => wrapI64 (x + delta.toNat)
  | .applyDelta delta => wrapI64 (x + delta)
  | .close => I64_MIN

/-- A resize is the difference of two window sizes, each a `u32`. -/
def WindowOp.Sized : WindowOp → Prop
  | .applyDelta delta => delta.natAbs < 2 ^ 32
  | _ => True

instance (op : WindowOp) : Decidable op.Sized := by
  cases op <;> unfold WindowOp.Sized <;> infer_instance

/-- What a window lets its writer do. -/
inductive WindowKind where
  | exhausted
  | positive
  | poisoned
  deriving DecidableEq, Repr

def windowKind (x : Int) : WindowKind :=
  if x = I64_MIN then .poisoned else if 0 < x then .positive else .exhausted

/-- The writer, and the tasks that change its window: `waking` are those that have changed
the value and have still to wake. -/
structure WakeState where
  send : SendState
  waking : Nat → Bool := fun _ => false
  /-- History: the last call returned `Pending` because the window admitted no byte. -/
  waiting : Bool := false
  /-- History: the task that last made the window positive or poisoned it. -/
  openedBy : Option Nat := none

inductive WakeAct where
  | poll (buf : Bytes)
  | step
  | granted
  | channel (c : Chan MuxCommand)
  | change (t : Nat) (op : WindowOp)
  | wake (t : Nat)

/-- The writer is at its second look. -/
def SendPc.rereads : SendPc → Bool
  | .reread _ => true
  | _ => false

/-- The value changes; whoever is registered is not woken yet. -/
def WakeState.change (id : StreamId) (maxFrameSize : UInt32) (t : Nat) (op : WindowOp)
    (s : WakeState) : Option WakeState :=
  if s.waking t = false ∧ op.Sized then
    (sendStep id maxFrameSize s.send op.act).map fun x =>
      { s with
        send := { x with window := { x.window with waker := s.send.window.waker } }
        waking := Function.update s.waking t op.wakes
        openedBy :=
          if windowKind x.window.remaining = .exhausted ∨
              windowKind x.window.remaining = windowKind s.send.window.remaining then s.openedBy
          else some t }
  else none

def WakeState.wake (t : Nat) (s : WakeState) : Option WakeState :=
  if s.waking t then
    some { s with
      send := { s.send with
        window := { s.send.window with waker := s.send.window.waker.wake } }
      waking := Function.update s.waking t false }
  else none

def wakeStep (id : StreamId) (maxFrameSize : UInt32) (s : WakeState) :
    WakeAct → Option WakeState
  | .poll buf =>
      (s.send.poll buf).map fun x => { s with send := x, waiting := false }
  | .step =>
      (s.send.step id maxFrameSize).map fun x =>
        { s with
          send := x
          waiting := s.send.pc.rereads &&
            decide (x.pc = .idle ∧ x.returned = some .pending) }
  | .granted => (sendStep id maxFrameSize s.send .granted).map fun x => { s with send := x }
  | .channel c =>
      (sendStep id maxFrameSize s.send (.channel c)).map fun x => { s with send := x }
  | .change t op => s.change id maxFrameSize t op
  | .wake t => s.wake t

/-- The writer of stream `id` and the tasks that change its window, from a window of
`initial` bytes. -/
def wakeable (id : StreamId) (maxFrameSize initial : UInt32) (cmd : Chan MuxCommand) :
    System WakeState WakeAct where
  init := { send := (sending id maxFrameSize initial cmd).init }
  step := wakeStep id maxFrameSize

/-- The window without the wake that follows a change. -/
theorem apply_eq_value (op : WindowOp) (w : SendWindow) :
    op.apply w =
      { remaining := op.value w.remaining
        waker := if op.wakes then w.waker.wake else w.waker } := by
  cases op with
  | applyDelta delta => simp [WindowOp.apply, WindowOp.value, WindowOp.wakes, SendWindow.applyDelta]
  | _ => rfl

theorem sendStep_act (id : StreamId) (maxFrameSize : UInt32) (s : SendState) (op : WindowOp) :
    ∃ x, sendStep id maxFrameSize s op.act = some x ∧ x.window = op.apply s.window ∧
      x.pc = s.pc ∧ x.returned = s.returned := by
  cases op <;> exact ⟨_, rfl, rfl, rfl, rfl⟩

variable {id : StreamId} {maxFrameSize : UInt32} {s s' : WakeState}

/-- A change and the wake that follows it are one step of `sending`. -/
theorem change_then_wake {t : Nat} {op : WindowOp} {s₁ s₂ : WakeState} (hop : op.wakes = true)
    (hchange : wakeStep id maxFrameSize s (.change t op) = some s₁)
    (hwake : wakeStep id maxFrameSize s₁ (.wake t) = some s₂) :
    sendStep id maxFrameSize s.send op.act = some s₂.send := by
  obtain ⟨x, hx, hwin, -, -⟩ := sendStep_act id maxFrameSize s.send op
  simp only [wakeStep, WakeState.change, hx] at hchange
  split at hchange
  · cases hchange
    simp only [wakeStep, WakeState.wake] at hwake
    split at hwake
    · cases hwake
      rw [hx]
      have hall := apply_eq_value op s.send.window
      rw [hop, if_pos rfl] at hall
      cases x
      simp_all
    · contradiction
  · contradiction

/-! ## What a change owes -/

/-- The registered writer was woken, which takes it off the window, or the task that made
the window what it is has still to wake. -/
def WakeState.Answered (s : WakeState) : Prop :=
  s.send.window.waker.registered = false ∨
    ∃ t, s.openedBy = some t ∧ s.waking t = true

/-- No resize takes the counter to its lower end or past it. -/
def NotSinking (s : WakeState) : WakeAct → Prop
  | .change _ (.applyDelta delta) => delta < 0 → I64_MIN < s.send.window.remaining + delta
  | _ => True

instance (s : WakeState) (a : WakeAct) : Decidable (NotSinking s a) := by
  unfold NotSinking
  split <;> infer_instance

theorem wrapI64_fits (x : Int) : FitsI64 (wrapI64 x) := by
  unfold FitsI64 wrapI64
  omega

theorem WindowOp.value_fits (x : Int) (op : WindowOp) : FitsI64 (op.value x) := by
  cases op with
  | close =>
      show FitsI64 I64_MIN
      decide
  | _ => exact wrapI64_fits _

theorem windowKind_poisoned {x : Int} : windowKind x = .poisoned ↔ x = I64_MIN := by
  unfold windowKind
  (repeat' split) <;> simp_all

theorem windowKind_exhausted {x : Int} (h : x ≠ I64_MIN) (hx : x ≤ 0) :
    windowKind x = .exhausted := by
  unfold windowKind
  rw [if_neg h, if_neg (by omega)]

/-- A change that wakes nobody leaves the window of its kind or exhausts it. -/
theorem windowKind_of_not_wakes {x : Int} {op : WindowOp} (hfits : FitsI64 x)
    (hwakes : op.wakes = false)
    (hsink : ∀ delta, op = .applyDelta delta → delta < 0 → I64_MIN < x + delta) :
    windowKind (op.value x) = .exhausted ∨ windowKind (op.value x) = windowKind x := by
  cases op with
  | applyDelta delta =>
      have hle : delta ≤ 0 := by simpa [WindowOp.wakes] using hwakes
      have hlow := hsink delta rfl
      unfold FitsI64 at hfits
      simp only [WindowOp.value, I64_MIN] at hlow ⊢
      by_cases hzero : delta = 0
      · subst hzero
        rw [Int.add_zero, wrapI64_eq hfits.1 hfits.2]
        exact .inr rfl
      · have hneg : delta < 0 := by omega
        rw [wrapI64_eq (by have := hlow hneg; omega) (by omega)]
        have hmin : x + delta ≠ I64_MIN := by
          have := hlow hneg
          unfold I64_MIN
          omega
        by_cases hpos : 0 < x + delta
        · have hx : x ≠ I64_MIN := by
            unfold I64_MIN
            omega
          refine .inr ?_
          unfold windowKind
          rw [if_neg hmin, if_pos hpos, if_neg hx, if_pos (by omega)]
        · exact .inl (windowKind_exhausted hmin (by omega))
  | _ => contradiction

/-- What a change does. -/
theorem change_spec {t : Nat} {op : WindowOp}
    (hs : s.change id maxFrameSize t op = some s') :
    s.waking t = false ∧
    s'.send.window.remaining = op.value s.send.window.remaining ∧
    s'.send.window.waker = s.send.window.waker ∧ s'.send.pc = s.send.pc ∧
    s'.waiting = s.waiting ∧ s'.waking = Function.update s.waking t op.wakes ∧
    s'.openedBy =
      if windowKind (op.value s.send.window.remaining) = .exhausted ∨
          windowKind (op.value s.send.window.remaining) =
            windowKind s.send.window.remaining then s.openedBy
      else some t := by
  obtain ⟨x, hx, hwin, hpc, -⟩ := sendStep_act id maxFrameSize s.send op
  have hvalue : x.window.remaining = op.value s.send.window.remaining := by
    rw [hwin, apply_eq_value]
  simp only [WakeState.change, hx] at hs
  split at hs
  · next hg =>
      cases hs
      exact ⟨hg.1, hvalue, rfl, hpc, rfl, rfl, by rw [← hvalue]⟩
  · contradiction

/-- A writer that was owed a wake is still owed one after a change that leaves the window
of its kind. -/
theorem Answered.of_change {t : Nat} {op : WindowOp} (h : s.Answered)
    (hs : s.change id maxFrameSize t op = some s') :
    windowKind s'.send.window.remaining = .exhausted ∨
      windowKind s'.send.window.remaining ≠ windowKind s.send.window.remaining ∨
      s'.Answered := by
  obtain ⟨hidle, hvalue, hwaker, -, -, hwaking, hopened⟩ := change_spec hs
  rw [← hvalue] at hopened
  split at hopened
  · refine .inr (.inr ?_)
    rcases h with hwoken | ⟨t', ht', howes⟩
    · exact .inl (by rw [hwaker, hwoken])
    · refine .inr ⟨t', by rw [hopened, ht'], ?_⟩
      have hne : t' ≠ t := by
        rintro rfl
        rw [hidle] at howes
        contradiction
      rw [hwaking, Function.update_of_ne hne, howes]
  · next hkind =>
      exact .inr (.inl fun heq => hkind (.inr heq))

/-- A change that makes the window positive or poisons it is followed by a wake. -/
theorem answered_of_opening {t : Nat} {op : WindowOp}
    (hfits : FitsI64 s.send.window.remaining)
    (hsink : NotSinking s (.change t op)) (hs : s.change id maxFrameSize t op = some s')
    (hopen : windowKind s'.send.window.remaining ≠ .exhausted)
    (hkind : windowKind s'.send.window.remaining ≠ windowKind s.send.window.remaining) :
    s'.Answered := by
  obtain ⟨-, hvalue, -, -, -, hwaking, hopened⟩ := change_spec hs
  rw [← hvalue, if_neg (not_or.2 ⟨hopen, hkind⟩)] at hopened
  refine .inr ⟨t, hopened, ?_⟩
  rw [hwaking, Function.update_self]
  cases hwakes : op.wakes with
  | true => rfl
  | false =>
      have hsame := windowKind_of_not_wakes hfits hwakes (x := s.send.window.remaining)
        (by rintro delta rfl; exact hsink)
      rw [← hvalue] at hsame
      exact absurd hsame (not_or.2 ⟨hopen, hkind⟩)

/-! ## No wake is lost -/

/-- The buffer of a call that has not picked its bytes yet. -/
def SendPc.buffer : SendPc → Option Bytes
  | .reserve buf | .read buf | .register buf | .recheck buf | .reread buf => some buf
  | _ => none

/-- At its second look the writer finds the window not poisoned or is owed a wake; once it
waits, the window is exhausted or it is owed a wake. -/
structure WakeOk (s : WakeState) : Prop where
  fits : FitsI64 s.send.window.remaining
  buffer : ∀ buf, s.send.pc.buffer = some buf → buf ≠ []
  rereading : s.send.pc.rereads = true →
    windowKind s.send.window.remaining ≠ .poisoned ∨ s.Answered
  waiting : s.waiting = true →
    windowKind s.send.window.remaining = .exhausted ∨ s.Answered

/-- A non-empty buffer of which no byte can be sent. -/
theorem remaining_of_writeSize {maxFrameSize : UInt32} {w : SendWindow} {buf : Bytes}
    (hbuf : buf ≠ []) (h : writeSize maxFrameSize w buf = 0) : w.remaining ≤ 0 := by
  have hlen : 0 < buf.length := List.length_pos_of_ne_nil hbuf
  simp only [writeSize, SendWindow.available] at h
  split at h <;> omega

theorem WakeOk.poll (h : WakeOk s) {buf : Bytes}
    (hs : wakeStep id maxFrameSize s (.poll buf) = some s') : WakeOk s' := by
  obtain ⟨x, hx, rfl⟩ := Option.map_eq_some_iff.1 hs
  simp only [SendState.poll] at hx
  split at hx
  · next hg =>
      split at hx
      · cases hx
        exact ⟨h.fits, by simp [SendState.finish, SendPc.buffer],
          by simp [SendState.finish, SendPc.rereads], by simp⟩
      · cases hx
        refine ⟨h.fits, ?_, by simp [SendPc.rereads], by simp⟩
        rintro buf' hbuf'
        cases hbuf'
        exact hg.2
  · contradiction

/-- A step of the call that touches nothing of the window but its waker, and leads
neither to the second look nor away from it. -/
theorem WakeOk.of_pc (h : WakeOk s) {x : SendState} {waiting : Bool}
    (hvalue : x.window.remaining = s.send.window.remaining)
    (hbuffer : ∀ buf, x.pc.buffer = some buf → s.send.pc.buffer = some buf)
    (hreads : x.pc.rereads = false) (hwaiting : waiting = false) :
    WakeOk { s with send := x, waiting := waiting } where
  fits := by rw [hvalue]; exact h.fits
  buffer buf hbuf := h.buffer buf (hbuffer buf hbuf)
  rereading hr := by rw [hreads] at hr; contradiction
  waiting hw := by rw [hwaiting] at hw; contradiction

theorem WakeOk.step (h : WakeOk s) (hs : wakeStep id maxFrameSize s .step = some s') :
    WakeOk s' := by
  obtain ⟨x, hx, rfl⟩ := Option.map_eq_some_iff.1 hs
  simp only [SendState.step] at hx
  cases hpc : s.send.pc with
  | idle =>
      rw [hpc] at hx
      contradiction
  | recheck buf =>
      simp only [hpc] at hx
      split at hx
      · cases hx
        exact h.of_pc rfl (by simp [SendState.finish, SendPc.buffer]) rfl rfl
      · next hopen =>
          cases hx
          refine ⟨h.fits, ?_, fun _ => .inl fun hp => ?_, by simp [SendPc.rereads]⟩
          · intro buf' hbuf'
            exact h.buffer buf' (by rw [hpc]; exact hbuf')
          · exact hopen (by simpa [SendWindow.isClosed] using windowKind_poisoned.1 hp)
  | reread buf =>
      simp only [hpc] at hx
      split at hx
      · next hzero =>
          cases hx
          refine ⟨h.fits, by simp [SendState.finish, SendPc.buffer],
            by simp [SendState.finish, SendPc.rereads], fun _ => ?_⟩
          have hle : s.send.window.remaining ≤ 0 :=
            remaining_of_writeSize (h.buffer buf (by rw [hpc]; rfl)) hzero
          rcases h.rereading (by rw [hpc]; rfl) with hkind | hanswered
          · refine .inl (windowKind_exhausted ?_ hle)
            exact fun hmin => hkind (windowKind_poisoned.2 hmin)
          · exact .inr hanswered
      · cases hx
        exact h.of_pc rfl (by simp [SendPc.buffer]) rfl (by simp)
  | exchange payload cur =>
      simp only [hpc] at hx
      split at hx
      · cases hx
        exact ⟨wrapI64_fits _, by simp [SendPc.buffer], by simp [SendPc.rereads],
          by simp [SendPc.rereads]⟩
      · cases hx
        exact h.of_pc rfl (by simp [SendPc.buffer]) rfl rfl
  | _ =>
      simp only [hpc] at hx
      (repeat' split at hx) <;> cases hx <;>
        exact h.of_pc rfl (by simp [SendState.finish, SendPc.buffer, hpc]) rfl rfl

theorem WakeOk.change (h : WakeOk s) {t : Nat} {op : WindowOp}
    (hsink : NotSinking s (.change t op)) (hs : s.change id maxFrameSize t op = some s') :
    WakeOk s' := by
  obtain ⟨-, hvalue, hwaker, hpc, hwaiting, -, -⟩ := change_spec hs
  have hopening := answered_of_opening h.fits hsink hs
  refine ⟨hvalue ▸ op.value_fits _, fun buf hbuf => h.buffer buf (hpc ▸ hbuf), fun hr => ?_,
    fun hw => ?_⟩
  · by_cases hp : windowKind s'.send.window.remaining = .poisoned
    · refine .inr ?_
      by_cases hkind : windowKind s'.send.window.remaining =
          windowKind s.send.window.remaining
      · rcases h.rereading (hpc ▸ hr) with hnot | hanswered
        · exact absurd (hkind ▸ hp) hnot
        · rcases Answered.of_change hanswered hs with hex | hne | hstill
          · rw [hp] at hex
            contradiction
          · exact absurd hkind hne
          · exact hstill
      · exact hopening (by simp [hp]) hkind
    · exact .inl hp
  · by_cases hex : windowKind s'.send.window.remaining = .exhausted
    · exact .inl hex
    · refine .inr ?_
      by_cases hkind : windowKind s'.send.window.remaining =
          windowKind s.send.window.remaining
      · rcases h.waiting (hwaiting ▸ hw) with hwas | hanswered
        · exact absurd (hkind.trans hwas) hex
        · rcases Answered.of_change hanswered hs with hex' | hne | hstill
          · exact absurd hex' hex
          · exact absurd hkind hne
          · exact hstill
      · exact hopening hex hkind

theorem wake_registered (w : AtomicWaker) : w.wake.registered = false := by
  unfold AtomicWaker.wake
  split
  · rfl
  · next hnone => simpa using hnone

theorem WakeOk.wake (h : WakeOk s) {t : Nat} (hs : s.wake t = some s') : WakeOk s' := by
  unfold WakeState.wake at hs
  split at hs
  · cases hs
    exact ⟨h.fits, h.buffer, fun _ => .inr (.inl (wake_registered _)),
      fun _ => .inr (.inl (wake_registered _))⟩
  · contradiction

theorem wakeStep_ok {a : WakeAct} (h : WakeOk s) (hsink : NotSinking s a)
    (hs : wakeStep id maxFrameSize s a = some s') : WakeOk s' := by
  cases a with
  | poll buf => exact h.poll hs
  | step => exact h.step hs
  | granted =>
      obtain ⟨x, hx, rfl⟩ := Option.map_eq_some_iff.1 hs
      simp only [sendStep] at hx
      split at hx
      · cases hx
        exact ⟨h.fits, h.buffer, h.rereading, h.waiting⟩
      · contradiction
  | channel c =>
      obtain ⟨x, hx, rfl⟩ := Option.map_eq_some_iff.1 hs
      simp only [sendStep] at hx
      split at hx
      · contradiction
      · cases hx
        exact ⟨h.fits, h.buffer, h.rereading, h.waiting⟩
  | change t op => exact h.change hsink hs
  | wake t => exact h.wake hs

theorem wakeable_ok (id : StreamId) (maxFrameSize initial : UInt32) (cmd : Chan MuxCommand) :
    (wakeable id maxFrameSize initial cmd).Invariant NotSinking WakeOk := by
  apply Invariant.of_step
  · refine ⟨?_, by simp [wakeable, sending, SendPc.buffer],
      by simp [wakeable, sending, SendPc.rereads], by simp [wakeable]⟩
    have hrange : (initial.toNat : Int) < 2 ^ 32 := by exact_mod_cast initial.toNat_lt
    simp only [wakeable, sending, SendWindow.new, FitsI64]
    omega
  · intro s a s' h hsink hs
    exact wakeStep_ok h hsink hs

/-- In every run in which no resize takes the counter to its lower end: when a writer has
returned because its window admitted no byte, and now the window is positive or poisoned,
then it was woken since it registered, or the task that made the window so has still to
wake it. -/
theorem blocked_writer_woken (id : StreamId) (maxFrameSize initial : UInt32)
    (cmd : Chan MuxCommand) {as : List WakeAct} {s : WakeState}
    (hrun : (wakeable id maxFrameSize initial cmd).run
      (wakeable id maxFrameSize initial cmd).init as = some s)
    (hmeets : (wakeable id maxFrameSize initial cmd).Meets NotSinking
      (wakeable id maxFrameSize initial cmd).init as)
    (hwaiting : s.waiting = true)
    (hopen : 0 < s.send.window.remaining ∨ s.send.window.isClosed = true) :
    s.send.window.waker.registered = false ∨
      ∃ t, s.openedBy = some t ∧ s.waking t = true := by
  have hok := wakeable_ok id maxFrameSize initial cmd as s hrun hmeets
  rcases hok.waiting hwaiting with hex | hanswered
  · unfold windowKind at hex
    simp only [SendWindow.isClosed, decide_eq_true_eq] at hopen
    split at hex
    · contradiction
    · next hmin =>
        split at hex
        · contradiction
        · next hpos => exact absurd (hopen.resolve_right hmin) hpos
  · exact hanswered

/-- A call on an exhausted window, up to its return. -/
def blockedActs : List WakeAct := [.poll [7], .step, .step, .step, .step, .step]

/-- Five bytes of credit arrive and a resize takes three of them back. -/
def creditedActs : List WakeAct :=
  blockedActs ++ [WakeAct.change 0 (.replenish 5), .change 1 (.applyDelta (-3))]

theorem credited_writer_woken :
    ∃ s, (wakeable 1 1024 0 (Chan.new 4)).run (wakeable 1 1024 0 (Chan.new 4)).init
        creditedActs = some s ∧
      s.waiting = true ∧ s.send.window.remaining = 2 ∧
      (s.send.window.waker.registered = false ∨
        ∃ t, s.openedBy = some t ∧ s.waking t = true) := by
  have hchecked : ((wakeable 1 1024 0 (Chan.new 4)).run
      (wakeable 1 1024 0 (Chan.new 4)).init creditedActs).map
      (fun s => (s.waiting, s.send.window.remaining)) = some (true, 2) := by decide +kernel
  obtain ⟨s, hrun, hs⟩ := Option.map_eq_some_iff.1 hchecked
  rw [Prod.mk.injEq] at hs
  refine ⟨s, hrun, hs.1, hs.2, ?_⟩
  exact blocked_writer_woken 1 1024 0 (Chan.new 4) hrun (meets_of_check (by decide +kernel))
    hs.1 (.inl (by rw [hs.2]; decide))

/-! ## A window that sinks -/

/-- Resizes of an exhausted window lower it and wake nobody. -/
theorem run_sinking (id : StreamId) (maxFrameSize initial : UInt32) (cmd : Chan MuxCommand)
    (size : Nat) (hsize : size < 2 ^ 32) (k : Nat) (s : WakeState) (hidle : s.waking 0 = false)
    (hexhausted : s.send.window.remaining ≤ 0)
    (hlow : I64_MIN ≤ s.send.window.remaining - k * size) :
    ∃ s', (wakeable id maxFrameSize initial cmd).run s
        (List.replicate k (.change 0 (.applyDelta (-size)))) = some s' ∧
      s'.waiting = s.waiting ∧ s'.send.window.waker = s.send.window.waker ∧
      s'.waking 0 = false ∧ (s'.openedBy = s.openedBy ∨ s'.openedBy = some 0) ∧
      s'.send.window.remaining = s.send.window.remaining - k * size := by
  induction k generalizing s with
  | zero => exact ⟨s, rfl, rfl, rfl, hidle, .inl rfl, by simp⟩
  | succ k ih =>
      have hmul : ((k + 1 : Nat) : Int) * size = k * size + size := by
        push_cast
        rw [Int.add_mul, Int.one_mul]
      have hpos : (0 : Int) ≤ k * size := Int.mul_nonneg (by omega) (by omega)
      rw [hmul] at hlow
      have hwrap : wrapI64 (s.send.window.remaining + -size) =
          s.send.window.remaining - size := by
        unfold I64_MIN at hlow
        rw [wrapI64_eq (by omega) (by omega), Int.sub_eq_add_neg]
      have hsized : (WindowOp.applyDelta (-size)).Sized := by
        unfold WindowOp.Sized
        omega
      have hwakes : (WindowOp.applyDelta (-size)).wakes = false := by
        simp [WindowOp.wakes]
      obtain ⟨s₁, hs₁⟩ : ∃ s₁, s.change id maxFrameSize 0 (.applyDelta (-size)) = some s₁ := by
        obtain ⟨x, hx, -⟩ := sendStep_act id maxFrameSize s.send (.applyDelta (-size))
        unfold WakeState.change
        rw [if_pos ⟨hidle, hsized⟩, hx]
        exact ⟨_, rfl⟩
      obtain ⟨-, hvalue, hwaker, -, hwaiting, hwaking, hopened⟩ := change_spec hs₁
      simp only [WindowOp.value, hwrap] at hvalue
      have hidle₁ : s₁.waking 0 = false := by
        rw [hwaking, Function.update_self, hwakes]
      obtain ⟨s', hrun, hwait', hwaker', hidle', hopened', hvalue'⟩ :=
        ih s₁ hidle₁ (by omega) (by omega)
      refine ⟨s', ?_, hwait'.trans hwaiting, hwaker'.trans hwaker, hidle', ?_, ?_⟩
      · have hstep : (wakeable id maxFrameSize initial cmd).step s
            (.change 0 (.applyDelta (-size))) = some s₁ := hs₁
        rw [List.replicate_succ, System.run, hstep]
        exact hrun
      · rcases hopened' with hopened' | hopened'
        · rw [hopened', hopened]
          split
          · exact .inl rfl
          · exact .inr rfl
        · exact .inr hopened'
      · rw [hvalue', hvalue, hmul]
        omega

/-- Two to the 31 resizes, each as large as a resize can be, and one more. -/
def sinkingActs : List WakeAct :=
  blockedActs ++
    (List.replicate (2 ^ 31) (WakeAct.change 0 (.applyDelta (-((2 ^ 32 - 1 : Nat) : Int)))) ++
    List.replicate 1 (.change 0 (.applyDelta (-((2 ^ 31 : Nat) : Int)))))

/-- The writer waits on a window that resizes alone have brought to `i64::MIN`: it reads as
poisoned, nobody has woken the writer and nobody is going to. -/
theorem sunk_window_wakes_nobody :
    ∃ s, (wakeable 1 1024 0 (Chan.new 4)).run (wakeable 1 1024 0 (Chan.new 4)).init
        sinkingActs = some s ∧
      s.waiting = true ∧ s.send.window.isClosed = true ∧
      ¬ (s.send.window.waker.registered = false ∨
        ∃ t, s.openedBy = some t ∧ s.waking t = true) := by
  have hchecked : ((wakeable 1 1024 0 (Chan.new 4)).run
      (wakeable 1 1024 0 (Chan.new 4)).init blockedActs).map
      (fun s => (s.waiting, s.send.window.remaining, s.send.window.waker.registered,
        s.waking 0, s.openedBy)) = some (true, 0, true, false, none) := by decide +kernel
  obtain ⟨s₀, hrun₀, hs₀⟩ := Option.map_eq_some_iff.1 hchecked
  simp only [Prod.mk.injEq] at hs₀
  obtain ⟨hwait₀, hvalue₀, hreg₀, hidle₀, hopened₀⟩ := hs₀
  obtain ⟨s₁, hrun₁, hwait₁, hwaker₁, hidle₁, hopened₁, hvalue₁⟩ :=
    run_sinking 1 1024 0 (Chan.new 4)
      (2 ^ 32 - 1) (by decide) (2 ^ 31) s₀ hidle₀ (by rw [hvalue₀]) (by rw [hvalue₀]; decide)
  rw [hvalue₀] at hvalue₁
  obtain ⟨s₂, hrun₂, hwait₂, hwaker₂, hidle₂, hopened₂, hvalue₂⟩ :=
    run_sinking 1 1024 0 (Chan.new 4)
      (2 ^ 31) (by decide) 1 s₁ hidle₁ (by rw [hvalue₁]; decide) (by rw [hvalue₁]; decide)
  rw [hvalue₁] at hvalue₂
  refine ⟨s₂, ?_, by rw [hwait₂, hwait₁, hwait₀], ?_, ?_⟩
  · exact run_append_some hrun₀ (run_append_some hrun₁ hrun₂)
  · rw [SendWindow.isClosed, hvalue₂]
    decide
  · rintro (hwoken | ⟨t, ht, howes⟩)
    · rw [hwaker₂, hwaker₁, hreg₀] at hwoken
      contradiction
    · have hzero : t = 0 := by
        rcases hopened₂ with h₂ | h₂
        · rcases hopened₁ with h₁ | h₁
          · rw [h₂, h₁, hopened₀] at ht
            contradiction
          · rw [h₂, h₁] at ht
            exact (Option.some.inj ht).symm
        · rw [h₂] at ht
          exact (Option.some.inj ht).symm
      rw [hzero, hidle₂] at howes
      contradiction

end KubePortForward.Mux
