import KubePortForward.Verified.Transition
import KubePortForward.Mux.Stream

/-!
# One writer against its send window

`poll_write_via_sender` of `stream.rs` with every access to shared memory a
step of its own, the load and the exchange of the debit loop included, against
a worker that credits, resizes and poisons the window between any two of them.
`Pair.writeBegin` to `Pair.writeSend` run the same function inside the whole
connection with its adjacent accesses merged; here nothing is merged, and the
rest of the connection is whatever it may do to the window and the command
channel.

The exact account is kept beside the window as history: the credit given, the
bytes debited, the frames enqueued.

## Main results

* `window_accounts` — as long as it was not poisoned, the window is the credit
  given less what was enqueued and what the current call has debited.
* `unwritten_debits_nothing` — a call that does not report bytes written has
  debited none.
* `debits_within_credit` — if no resize is negative the writer never debits
  more than it was given.
-/

namespace KubePortForward.Mux

open KubePortForward.Codec
open KubePortForward.Verified.BigEndian
open KubePortForward.Verified.Channel
open KubePortForward.Verified.Transition

/-- The access that a call of `poll_write_via_sender` makes next. -/
inductive SendPc where
  | idle
  | reserve (buf : Bytes)
  | read (buf : Bytes)
  | register (buf : Bytes)
  | recheck (buf : Bytes)
  | reread (buf : Bytes)
  | load (payload : Bytes)
  | exchange (payload : Bytes) (cur : Int)
  | enqueue (payload : Bytes)
  deriving DecidableEq, Repr

/-- What a call returned. -/
inductive WriteReturn where
  | pending
  | brokenPipe
  | written (n : Nat)
  deriving DecidableEq, Repr

/-- The writer of one stream, its window and the command channel it sends
through.  `returned` is what the last call returned, if none is running. -/
structure SendState where
  window : SendWindow
  cmd : Chan MuxCommand
  permit : Bool := false
  pc : SendPc := .idle
  returned : Option WriteReturn := none
  /-- History: the credit of every WINDOW_UPDATE so far. -/
  replenished : Nat := 0
  /-- History: the sum of the SETTINGS resizes so far. -/
  deltas : Int := 0
  /-- History: the DATA frames handed to the channel. -/
  enqueued : List Bytes := []
  /-- History: the bytes debited so far, and when the last call began. -/
  debited : Nat := 0
  debitedBefore : Nat := 0
  /-- History: whether the window was ever poisoned. -/
  poisoned : Bool := false

/-- A step of the call, or something another task does meanwhile. -/
inductive SendAct where
  | poll (buf : Bytes)
  | step
  | granted
  | replenish (delta : UInt32)
  | applyDelta (delta : Int)
  | close
  | channel (c : Chan MuxCommand)

/-- The call ends. -/
def SendState.finish (s : SendState) (r : WriteReturn) : SendState :=
  { s with pc := .idle, returned := some r }

/-- `poll_write` with a non-empty buffer; its first access is the closed check. -/
def SendState.poll (buf : Bytes) (s : SendState) : Option SendState :=
  if s.pc = .idle ∧ buf ≠ [] then
    let s := { s with returned := none, debitedBefore := s.debited }
    if s.window.isClosed then some (s.finish .brokenPipe)
    else some { s with pc := .reserve buf }
  else none

/-- The next access of the running call. -/
def SendState.step (id : StreamId) (maxFrameSize : UInt32) (s : SendState) :
    Option SendState :=
  match s.pc with
  | .idle => none
  | .reserve buf =>
      if s.permit then some { s with pc := .read buf }
      else match s.cmd.tryReserve with
      | .ok c => some { s with cmd := c, permit := true, pc := .read buf }
      | .error .full => some (s.finish .pending)
      | .error .closed => some (s.finish .brokenPipe)
  | .read buf =>
      let n := writeSize maxFrameSize s.window buf
      if n = 0 then some { s with pc := .register buf }
      else some { s with pc := .load (buf.take n) }
  | .register buf => some { s with window := s.window.registerWaker, pc := .recheck buf }
  | .recheck buf =>
      if s.window.isClosed then some (s.finish .brokenPipe)
      else some { s with pc := .reread buf }
  | .reread buf =>
      let n := writeSize maxFrameSize s.window buf
      if n = 0 then some (s.finish .pending)
      else some { s with pc := .load (buf.take n) }
  | .load payload =>
      if s.window.remaining = I64_MIN then some (s.finish .brokenPipe)
      else some { s with pc := .exchange payload s.window.remaining }
  | .exchange payload cur =>
      -- A failed exchange goes round the loop of `consume` again.
      if s.window.remaining = cur then
        some { s with
          window := { s.window with remaining := wrapI64 (cur - payload.length) }
          debited := s.debited + payload.length
          pc := .enqueue payload }
      else some { s with pc := .load payload }
  | .enqueue payload =>
      if h : 0 < s.cmd.reserved then
        some { s.finish (.written payload.length) with
          cmd := s.cmd.sendReserved (.sendRawFrame (rawDataFrame id payload)) h
          permit := false
          enqueued := s.enqueued ++ [rawDataFrame id payload] }
      else none

/-- One step of the writer, of the worker or of another user of the command
channel.  Nobody else gives up the slot the writer has reserved. -/
def sendStep (id : StreamId) (maxFrameSize : UInt32) (s : SendState) :
    SendAct → Option SendState
  | .poll buf => s.poll buf
  | .step => s.step id maxFrameSize
  | .granted =>
      match s.permit, s.cmd.tryReserve with
      | false, .ok c => some { s with cmd := c, permit := true }
      | _, _ => none
  | .replenish delta =>
      some { s with
        window := s.window.replenish delta
        replenished := s.replenished + delta.toNat }
  | .applyDelta delta =>
      some { s with window := s.window.applyDelta delta, deltas := s.deltas + delta }
  | .close => some { s with window := s.window.close, poisoned := true }
  | .channel c => if s.permit ∧ c.reserved = 0 then none else some { s with cmd := c }

/-- The writer of stream `id`, from a window of `initial` bytes. -/
def sending (id : StreamId) (maxFrameSize initial : UInt32) (cmd : Chan MuxCommand) :
    System SendState SendAct where
  init := { window := SendWindow.new initial, cmd := cmd }
  step := sendStep id maxFrameSize

/-! ## The account -/

/-- The value fits in an `i64`. -/
def FitsI64 (x : Int) : Prop := -(2 ^ 63) ≤ x ∧ x < 2 ^ 63

instance (x : Int) : Decidable (FitsI64 x) := by
  unfold FitsI64
  infer_instance

/-- Everything the window was ever given. -/
def SendState.credit (initial : UInt32) (s : SendState) : Int :=
  initial.toNat + s.replenished + s.deltas

/-- The payload bytes of the enqueued frames: all but the 8-byte headers. -/
def SendState.payloadBytes (s : SendState) : Nat :=
  (s.enqueued.map fun frame => frame.length - 8).sum

/-- What the running call has debited and not yet enqueued. -/
def SendState.inFlight (s : SendState) : Nat :=
  match s.pc with
  | .enqueue payload => payload.length
  | _ => 0

theorem rawDataFrame_length (id : StreamId) (payload : Bytes) :
    (rawDataFrame id payload).length = payload.length + 8 := by
  simp only [rawDataFrame, List.length_append, beField_length]
  omega

theorem writeSize_le_length (maxFrameSize : UInt32) (w : SendWindow) (buf : Bytes) :
    writeSize maxFrameSize w buf ≤ buf.length := by
  unfold writeSize
  exact (Nat.min_le_left _ _).trans (Nat.min_le_left _ _)

theorem writeSize_le_available (maxFrameSize : UInt32) (w : SendWindow) (buf : Bytes) :
    writeSize maxFrameSize w buf ≤ w.remaining.toNat := by
  unfold writeSize
  exact (Nat.min_le_left _ _).trans (Nat.min_le_right _ _)

/-- What a call writes is as long as the size it chose. -/
theorem take_writeSize_length (maxFrameSize : UInt32) (w : SendWindow) (buf : Bytes) :
    (buf.take (writeSize maxFrameSize w buf)).length = writeSize maxFrameSize w buf := by
  rw [List.length_take]
  exact Nat.min_eq_left (writeSize_le_length maxFrameSize w buf)

/-- Wrapped additions accumulate to one wrapped sum. -/
theorem wrapI64_add (x y : Int) : wrapI64 (wrapI64 x + y) = wrapI64 (x + y) := by
  simp only [wrapI64]
  omega

/-- A positive wrapped value is at most the exact one, if that is not negative. -/
theorem wrapI64_toNat_le {x : Int} (h : 0 ≤ x) : ((wrapI64 x).toNat : Int) ≤ x := by
  simp only [wrapI64]
  omega

/-- What the last call has debited: its payload once the exchange succeeded. -/
def SendState.callDebit (s : SendState) : Nat :=
  match s.pc, s.returned with
  | .enqueue payload, _ => payload.length
  | .idle, some (.written n) => n
  | _, _ => 0

/-- The account of a state, whatever the resizes were. -/
structure SendState.Accounts (initial : UInt32) (s : SendState) : Prop where
  window : s.poisoned = false → s.window.remaining = wrapI64 (s.credit initial - s.debited)
  enqueued : s.debited = s.payloadBytes + s.inFlight
  call : s.debited = s.debitedBefore + s.callDebit

/-- The bytes a call has picked and not yet debited. -/
def SendState.picked (s : SendState) : Nat :=
  match s.pc with
  | .load payload => payload.length
  | .exchange payload _ => payload.length
  | _ => 0

/-- What was debited, and what the call is about to debit, was given before. -/
def SendState.Within (initial : UInt32) (s : SendState) : Prop :=
  s.poisoned = false → (s.debited + s.picked : Int) ≤ s.credit initial


variable {initial maxFrameSize : UInt32} {id : StreamId} {s s' : SendState}

theorem payloadBytes_append (frames : List Bytes) (payload : Bytes) :
    ((frames ++ [rawDataFrame id payload]).map fun frame => frame.length - 8).sum =
      (frames.map fun frame => frame.length - 8).sum + payload.length := by
  simp [rawDataFrame_length]

theorem SendState.Accounts.poll (h : s.Accounts initial) {buf : Bytes}
    (hs : s.poll buf = some s') : s'.Accounts initial := by
  obtain ⟨hwin, henq, hcall⟩ := h
  simp only [SendState.poll] at hs
  split at hs
  · next hg =>
      simp only [SendState.payloadBytes, SendState.inFlight, hg.1] at henq
      split at hs <;> cases hs <;> constructor <;>
        simp_all [SendState.finish, SendState.credit, SendState.payloadBytes,
          SendState.inFlight, SendState.callDebit]
  · contradiction

theorem SendState.Accounts.step (h : s.Accounts initial)
    (hs : s.step id maxFrameSize = some s') : s'.Accounts initial := by
  obtain ⟨hwin, henq, hcall⟩ := h
  simp only [SendState.payloadBytes, SendState.inFlight] at henq
  simp only [SendState.callDebit] at hcall
  cases hpc : s.pc with
  | idle =>
      rw [SendState.step, hpc] at hs
      contradiction
  | exchange payload cur =>
      simp only [SendState.step, hpc] at hs
      simp only [hpc] at henq hcall
      split at hs
      · next hcur =>
          cases hs
          constructor
          · intro hp
            simp only [SendState.credit] at hwin ⊢
            rw [← hcur, hwin hp, Int.sub_eq_add_neg, wrapI64_add]
            congr 1
            push_cast
            omega
          · simp only [SendState.payloadBytes, SendState.inFlight]
            omega
          · simp only [SendState.callDebit]
            omega
      · cases hs
        constructor <;>
          simp_all [SendState.credit, SendState.payloadBytes, SendState.inFlight,
            SendState.callDebit]
  | enqueue payload =>
      simp only [SendState.step, hpc] at hs
      simp only [hpc] at henq hcall
      split at hs
      · cases hs
        constructor
        · exact hwin
        · simp only [SendState.finish, SendState.payloadBytes, SendState.inFlight,
            payloadBytes_append]
          omega
        · simp only [SendState.finish, SendState.callDebit]
          omega
      · contradiction
  | _ =>
      simp only [SendState.step, hpc] at hs
      (repeat' split at hs) <;> cases hs <;> constructor <;>
        simp_all [SendState.finish, SendState.credit, SendState.payloadBytes,
          SendState.inFlight, SendState.callDebit, SendWindow.registerWaker]

theorem sendStep_accounts {a : SendAct} (h : s.Accounts initial)
    (hs : sendStep id maxFrameSize s a = some s') : s'.Accounts initial := by
  cases a with
  | poll buf => exact h.poll hs
  | step => exact h.step hs
  | granted =>
      simp only [sendStep] at hs
      split at hs
      · cases hs
        exact ⟨h.window, h.enqueued, h.call⟩
      · contradiction
  | replenish delta =>
      cases hs
      refine ⟨fun hp => ?_, h.enqueued, h.call⟩
      simp only [SendWindow.replenish, h.window hp, wrapI64_add, SendState.credit]
      congr 1
      push_cast
      omega
  | applyDelta delta =>
      cases hs
      refine ⟨fun hp => ?_, h.enqueued, h.call⟩
      simp only [SendWindow.applyDelta, h.window hp, wrapI64_add, SendState.credit]
      congr 1
      omega
  | close =>
      cases hs
      exact ⟨fun hp => by simp at hp, h.enqueued, h.call⟩
  | channel c =>
      simp only [sendStep] at hs
      split at hs
      · contradiction
      · cases hs
        exact ⟨h.window, h.enqueued, h.call⟩

theorem sending_accounts (id : StreamId) (maxFrameSize initial : UInt32)
    (cmd : Chan MuxCommand) :
    (sending id maxFrameSize initial cmd).Invariant anyStep (SendState.Accounts initial) := by
  apply Invariant.of_step
  · constructor
    · intro _
      have hrange : (initial.toNat : Int) < 2 ^ 32 := by exact_mod_cast initial.toNat_lt
      simp only [sending, SendWindow.new, SendState.credit]
      rw [wrapI64_eq (by omega) (by omega)]
      simp
    · rfl
    · rfl
  · intro s a s' h _ hs
    exact sendStep_accounts h hs

/-! ## Never more than was given -/

/-- The size chosen from the current window stays within the credit. -/
theorem SendState.Within.pick (maxFrameSize : UInt32) (ha : s.Accounts initial)
    (h : s.Within initial) (buf : Bytes) (hp : s.poisoned = false) :
    (s.debited + (buf.take (writeSize maxFrameSize s.window buf)).length : Int) ≤
      s.credit initial := by
  have hgiven : (s.debited + s.picked : Int) ≤ s.credit initial := h hp
  have hsize := writeSize_le_available maxFrameSize s.window buf
  have hwrap : ((wrapI64 (s.credit initial - s.debited)).toNat : Int) ≤
      s.credit initial - s.debited := wrapI64_toNat_le (by omega)
  rw [← ha.window hp] at hwrap
  rw [take_writeSize_length]
  omega

theorem SendState.Within.step (ha : s.Accounts initial) (h : s.Within initial)
    (hs : s.step id maxFrameSize = some s') : s'.Within initial := by
  have hpick := SendState.Within.pick maxFrameSize ha h
  simp only [SendState.Within, SendState.credit, SendState.picked] at h hpick ⊢
  cases hpc : s.pc with
  | idle =>
      rw [SendState.step, hpc] at hs
      contradiction
  | read buf =>
      simp only [SendState.step, hpc] at hs
      split at hs
      · cases hs
        simpa [hpc] using h
      · cases hs
        exact hpick buf
  | reread buf =>
      simp only [SendState.step, hpc] at hs
      split at hs
      · cases hs
        simpa [hpc, SendState.finish] using h
      · cases hs
        exact hpick buf
  | load payload =>
      simp only [SendState.step, hpc] at hs
      simp only [hpc] at h
      split at hs
      · cases hs
        intro hp
        have hgiven := h hp
        simp only [SendState.finish]
        omega
      · cases hs
        exact h
  | exchange payload cur =>
      simp only [SendState.step, hpc] at hs
      simp only [hpc] at h
      split at hs
      · cases hs
        intro hp
        have hgiven := h hp
        push_cast
        omega
      · cases hs
        exact h
  | _ =>
      simp only [SendState.step, hpc] at hs
      simp only [hpc] at h
      (repeat' split at hs) <;> cases hs <;> exact h

theorem sendStep_within {a : SendAct} (ha : s.Accounts initial) (h : s.Within initial)
    (hgrow : ∀ delta, a = .applyDelta delta → 0 ≤ delta)
    (hs : sendStep id maxFrameSize s a = some s') : s'.Within initial := by
  cases a with
  | poll buf =>
      simp only [sendStep, SendState.poll] at hs
      split at hs
      · next hg =>
          simp only [SendState.Within, SendState.credit, SendState.picked, hg.1] at h ⊢
          split at hs <;> cases hs <;> exact h
      · contradiction
  | step => exact SendState.Within.step ha h hs
  | granted =>
      simp only [sendStep] at hs
      split at hs
      · cases hs
        exact h
      · contradiction
  | replenish delta =>
      cases hs
      intro hp
      have hgiven : (s.debited + s.picked : Int) ≤ s.credit initial := h hp
      show (s.debited + s.picked : Int) ≤ _
      simp only [SendState.credit] at hgiven ⊢
      push_cast
      omega
  | applyDelta delta =>
      cases hs
      intro hp
      have hgiven : (s.debited + s.picked : Int) ≤ s.credit initial := h hp
      have hdelta : 0 ≤ delta := hgrow delta rfl
      show (s.debited + s.picked : Int) ≤ _
      simp only [SendState.credit] at hgiven ⊢
      omega
  | close =>
      cases hs
      intro hp
      simp at hp
  | channel c =>
      simp only [sendStep] at hs
      split at hs
      · contradiction
      · cases hs
        exact h

/-- No SETTINGS resize that is applied is negative. -/
def growing (_ : SendState) (a : SendAct) : Prop :=
  ∀ delta, a = .applyDelta delta → 0 ≤ delta

theorem sending_within (id : StreamId) (maxFrameSize initial : UInt32)
    (cmd : Chan MuxCommand) :
    (sending id maxFrameSize initial cmd).Invariant growing (SendState.Within initial) := by
  have haccounts : (sending id maxFrameSize initial cmd).Invariant growing
      (SendState.Accounts initial) :=
    Invariant.restrict (sending_accounts id maxFrameSize initial cmd) fun _ _ _ => trivial
  refine Invariant.of_step_using haccounts ?_ ?_
  · intro _
    simp [sending, SendState.picked, SendState.credit]
  · intro s a s' ha h hgrow hs
    exact sendStep_within ha h hgrow hs

/-! ## Outbound flow control -/

/-- What the account says the window holds. -/
def SendState.owed (initial : UInt32) (s : SendState) : Int :=
  s.credit initial - s.payloadBytes - s.inFlight

/-- A call that returned without writing. -/
def SendState.unwritten (s : SendState) : Prop :=
  s.pc = .idle ∧ (s.returned = some .pending ∨ s.returned = some .brokenPipe)

theorem window_accounts (ha : s.Accounts initial) (hp : s.poisoned = false)
    (hfit : FitsI64 (s.owed initial)) : s.window.remaining = s.owed initial := by
  have hwin := ha.window hp
  have henq := ha.enqueued
  have howed : s.credit initial - s.debited = s.owed initial := by
    unfold SendState.owed
    omega
  rw [howed, wrapI64_eq hfit.1 hfit.2] at hwin
  exact hwin

theorem unwritten_debits_nothing (ha : s.Accounts initial) (hr : s.unwritten) :
    s.debited = s.debitedBefore := by
  have hcall := ha.call
  obtain ⟨hpc, hret | hret⟩ := hr <;>
    simpa [SendState.callDebit, hpc, hret] using hcall

theorem debits_within_credit (ha : s.Accounts initial) (hw : s.Within initial)
    (hp : s.poisoned = false) : 0 ≤ s.owed initial := by
  have hgiven : (s.debited + s.picked : Int) ≤ s.credit initial := hw hp
  have henq := ha.enqueued
  unfold SendState.owed
  omega

/-- In every state of every run: the window that was not poisoned holds exactly
what the account says, a call that wrote nothing debited nothing, and without
a negative resize the window never goes below zero. -/
theorem outbound_flow_control (id : StreamId) (maxFrameSize initial : UInt32)
    (cmd : Chan MuxCommand) (as : List SendAct) (s : SendState)
    (hrun : (sending id maxFrameSize initial cmd).run
      (sending id maxFrameSize initial cmd).init as = some s) :
    (s.poisoned = false → FitsI64 (s.owed initial) →
      s.window.remaining = s.owed initial) ∧
    (s.unwritten → s.debited = s.debitedBefore) ∧
    ((∀ delta, SendAct.applyDelta delta ∈ as → 0 ≤ delta) → s.poisoned = false →
      (s.payloadBytes : Int) ≤ s.credit initial ∧
      (FitsI64 (s.owed initial) → 0 ≤ s.window.remaining)) := by
  have ha : s.Accounts initial :=
    sending_accounts id maxFrameSize initial cmd as s hrun (meets_anyStep _ as)
  refine ⟨window_accounts ha, unwritten_debits_nothing ha, fun hgrow hp => ?_⟩
  have hmeets : (sending id maxFrameSize initial cmd).Meets growing
      (sending id maxFrameSize initial cmd).init as := by
    apply meets_of_forall_mem
    rintro a hmem delta rfl
    exact hgrow delta hmem
  have hw : s.Within initial := sending_within id maxFrameSize initial cmd as s hrun hmeets
  have howed : 0 ≤ s.owed initial := debits_within_credit ha hw hp
  constructor
  · unfold SendState.owed at howed
    omega
  · intro hfit
    rw [window_accounts ha hp hfit]
    exact howed

/-- A call that has debited two of five bytes and is about to enqueue them. -/
def debitedRun : List SendAct :=
  [.poll [7, 8], .step, .step, .step, .step]

/-- A second call, against an exhausted window, after a first that wrote all. -/
def exhaustedRun : List SendAct :=
  debitedRun ++ [SendAct.step, .replenish 1, .poll [1, 2, 3, 4, 5, 6], .step, .step, .step, .step,
    .step, .poll [9], .step, .step, .step, .step, .step]

theorem outbound_flow_control_exhausted :
    ∃ s, (sending 1 1024 5 (Chan.new 4)).run (sending 1 1024 5 (Chan.new 4)).init
        exhaustedRun = some s ∧ s.unwritten ∧ s.debited = s.debitedBefore ∧
      s.window.remaining = 0 ∧ s.payloadBytes = 6 := by
  have hfacts : ((sending 1 1024 5 (Chan.new 4)).run (sending 1 1024 5 (Chan.new 4)).init
      exhaustedRun).map (fun s => (s.pc, s.returned, s.poisoned, s.replenished, s.deltas,
        s.payloadBytes)) = some (.idle, some .pending, false, 1, 0, 6) := by
    decide +kernel
  obtain ⟨s, hrun, hs⟩ := Option.map_eq_some_iff.1 hfacts
  simp only [Prod.mk.injEq] at hs
  obtain ⟨hpc, hret, hpois, hrep, hdel, hpay⟩ := hs
  have hgrow : ∀ delta, SendAct.applyDelta delta ∈ exhaustedRun → 0 ≤ delta := by
    intro delta hmem
    simp [exhaustedRun, debitedRun] at hmem
  obtain ⟨hwin, hunw, hnon⟩ :=
    outbound_flow_control 1 1024 5 (Chan.new 4) exhaustedRun s hrun
  have hun : s.unwritten := ⟨hpc, .inl hret⟩
  have howed : s.owed 5 = 0 := by
    simp [SendState.owed, SendState.credit, SendState.inFlight, hpc, hrep, hdel, hpay]
  refine ⟨s, hrun, hun, hunw hun, ?_, hpay⟩
  rw [hwin hpois (by rw [howed]; decide), howed]

/-- Between the debit and the enqueue the frame is in neither place: the window
has already given the bytes up and no frame carries them yet. -/
theorem debit_precedes_enqueue :
    ∃ s, (sending 1 1024 5 (Chan.new 4)).run (sending 1 1024 5 (Chan.new 4)).init
        debitedRun = some s ∧ s.poisoned = false ∧
      FitsI64 (s.credit 5 - s.payloadBytes) ∧
      s.window.remaining ≠ s.credit 5 - s.payloadBytes := by
  have hfacts : ((sending 1 1024 5 (Chan.new 4)).run (sending 1 1024 5 (Chan.new 4)).init
      debitedRun).map (fun s => (s.window.remaining, s.poisoned, s.credit 5,
        s.payloadBytes)) = some (3, false, 5, 0) := by
    decide +kernel
  obtain ⟨s, hrun, hs⟩ := Option.map_eq_some_iff.1 hfacts
  simp only [Prod.mk.injEq] at hs
  obtain ⟨hrem, hpois, hcred, hpay⟩ := hs
  refine ⟨s, hrun, hpois, ?_, ?_⟩
  · rw [hcred, hpay]
    decide
  · rw [hrem, hcred, hpay]
    decide

end KubePortForward.Mux
