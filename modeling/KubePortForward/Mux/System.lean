import KubePortForward.Verified.Transition
import KubePortForward.Mux.Worker
import KubePortForward.Mux.Reader
import KubePortForward.Mux.Writer
import KubePortForward.Mux.Handle

/-!
# One multiplexed connection as a transition system

The reader, the five frame workers, the writer and the owners of any number
of stream pairs, over the memory of `Mux.Shared`.  A label names the task
that moves and everything the code leaves open: the frame that arrives, the
buffer an owner passes, whether a transport write succeeds, in which order a
hash map is walked.  Each step is one atomic access of the source, or several
accesses that no other task can tell apart.
-/

namespace KubePortForward.Mux

open KubePortForward.Codec
open KubePortForward.Verified.Transition

structure MuxState where
  shared : Shared
  reader : Reader
  workers : Shard → Worker
  writer : Writer
  realizing : Option Realize
  pairs : Nat → Pair

/-- The state after `MuxHandle::spawn` has started the tasks. -/
def MuxState.init (cfg : MuxConfig) : MuxState where
  shared := Shared.init cfg
  reader := Reader.init
  workers := fun _ => Worker.init
  writer := Writer.init
  realizing := none
  pairs := fun _ => {}

/-- What the owner of a pair does next. -/
inductive ClientAct where
  | openBegin (errorHeaders dataHeaders : Headers)
  | openStep
  | read (kind : HalfKind) (n : Nat)
  | fillBuf
  | consume (amt : Nat)
  | writeBegin (buf : Bytes)
  | writeReserve
  | writePick
  | writeRecheck
  | writeDebit
  | writeSend
  | shutdown
  | dropReceiver (kind : HalfKind)
  | dropRest
  | dropStep
  deriving DecidableEq, Repr

/-- What the reader does next. -/
inductive ReaderAct where
  | receive (frame : Frame)
  | tooLarge (id : StreamId)
  | wsPing (payload : Bytes)
  | message
  | idleProbe
  | exit
  | step
  deriving DecidableEq, Repr

/-- What the writer does next. -/
inductive WriterAct where
  | emit (ok : Bool)
  | flush (ok : Bool)
  | pingTick
  | stallTick
  | step
  deriving DecidableEq, Repr

inductive Act where
  | client (p : Nat) (a : ClientAct)
  | realizeBegin (p : Nat)
  | realizeStep
  | reader (a : ReaderAct)
  | worker (w : Shard) (order : List StreamId)
  | writer (a : WriterAct)
  | cancel
  deriving DecidableEq, Repr

def clientStep (cfg : MuxConfig) (p : Nat) (a : ClientAct) (sh : Shared) (pr : Pair) :
    Option (Shared × Pair) :=
  match a with
  | .openBegin eh dh => pr.openBegin eh dh sh
  | .openStep => pr.openStep cfg p sh
  | .read kind n => pr.read p kind n sh
  | .fillBuf => pr.fillBuf p sh
  | .consume amt => pr.consume p amt sh
  | .writeBegin buf => pr.writeBegin buf sh
  | .writeReserve => pr.writeReserve sh
  | .writePick => pr.writePick sh
  | .writeRecheck => pr.writeRecheck sh
  | .writeDebit => pr.writeDebit sh
  | .writeSend => pr.writeSend sh
  | .shutdown => pr.shutdown sh
  | .dropReceiver kind => pr.dropReceiver p kind sh
  | .dropRest => pr.dropRest p sh
  | .dropStep => pr.dropStep sh

def readerStep (cfg : MuxConfig) (a : ReaderAct) (sh : Shared) (r : Reader) :
    Option (Shared × Reader) :=
  match a with
  | .receive frame => r.receive cfg frame sh
  | .tooLarge id => r.rejectTooLarge id sh
  | .wsPing payload => r.receiveWsPing payload sh
  | .message => r.message sh
  | .idleProbe => r.idleProbe sh
  | .exit => r.exit sh
  | .step => r.step sh

def writerStep (cfg : MuxConfig) (a : WriterAct) (sh : Shared) (wr : Writer) :
    Option (Shared × Writer) :=
  match a with
  | .emit ok => wr.emit ok sh
  | .flush ok => wr.flush cfg ok sh
  | .pingTick => wr.pingTick sh
  | .stallTick => wr.stallTick sh
  | .step => wr.step sh

def step (cfg : MuxConfig) (s : MuxState) : Act → Option MuxState
  | .client p a =>
      (clientStep cfg p a s.shared (s.pairs p)).map fun (sh, pr) =>
        { s with shared := sh, pairs := Function.update s.pairs p pr }
  | .realizeBegin p =>
      if s.realizing = none ∧ (s.pairs p).phase = .unopened then
        match realizeBegin p s.shared (s.pairs p) with
        | (sh, pr, z) =>
            some { s with
              shared := sh, pairs := Function.update s.pairs p pr, realizing := z }
      else none
  | .realizeStep =>
      match s.realizing with
      | none => none
      | some z =>
          match z.step s.shared (s.pairs z.pair) with
          | (sh, pr, z') =>
              some { s with
                shared := sh, pairs := Function.update s.pairs z.pair pr, realizing := z' }
  | .reader a =>
      (readerStep cfg a s.shared s.reader).map fun (sh, r) =>
        { s with shared := sh, reader := r }
  | .worker w order =>
      ((s.workers w).step cfg (decide (s.reader.pc = .stopped)) order w s.shared).map
        fun (k, sh) => { s with shared := sh, workers := Function.update s.workers w k }
  | .writer a =>
      (writerStep cfg a s.shared s.writer).map fun (sh, wr) =>
        { s with shared := sh, writer := wr }
  -- The token is cancelled from outside: the session is closed, the
  -- supervisor saw a task end, or every handle of the connection is gone.
  | .cancel => some { s with shared := { s.shared with cancelled := true } }

/-- The multiplexed connection with limits `cfg`. -/
def mux (cfg : MuxConfig) : System MuxState Act where
  init := MuxState.init cfg
  step := step cfg

/-! ## What a step of each kind is -/

/-- Every step is a move of one task over the shared memory; the local state
of the others is untouched. -/
theorem step_cases {cfg : MuxConfig} {s s' : MuxState} {a : Act}
    (h : step cfg s a = some s') :
    (∃ p c sh pr, a = .client p c ∧
      clientStep cfg p c s.shared (s.pairs p) = some (sh, pr) ∧
      s' = { s with shared := sh, pairs := Function.update s.pairs p pr }) ∨
    (∃ p sh pr z, a = .realizeBegin p ∧ s.realizing = none ∧
      (s.pairs p).phase = .unopened ∧
      realizeBegin p s.shared (s.pairs p) = (sh, pr, z) ∧
      s' = { s with
        shared := sh, pairs := Function.update s.pairs p pr, realizing := z }) ∨
    (∃ z sh pr z', a = .realizeStep ∧ s.realizing = some z ∧
      z.step s.shared (s.pairs z.pair) = (sh, pr, z') ∧
      s' = { s with
        shared := sh, pairs := Function.update s.pairs z.pair pr, realizing := z' }) ∨
    (∃ c sh r, a = .reader c ∧ readerStep cfg c s.shared s.reader = some (sh, r) ∧
      s' = { s with shared := sh, reader := r }) ∨
    (∃ w order k sh, a = .worker w order ∧
      (s.workers w).step cfg (decide (s.reader.pc = .stopped)) order w s.shared =
        some (k, sh) ∧
      s' = { s with shared := sh, workers := Function.update s.workers w k }) ∨
    (∃ c sh wr, a = .writer c ∧ writerStep cfg c s.shared s.writer = some (sh, wr) ∧
      s' = { s with shared := sh, writer := wr }) ∨
    (a = .cancel ∧ s' = { s with shared := { s.shared with cancelled := true } }) := by
  cases a with
  | client p c =>
      simp only [step, Option.map_eq_some_iff, Prod.exists] at h
      obtain ⟨sh, pr, hc, hs⟩ := h
      exact .inl ⟨p, c, sh, pr, rfl, hc, hs.symm⟩
  | realizeBegin p =>
      simp only [step] at h
      split at h
      · next hg =>
          cases h
          exact .inr (.inl ⟨p, _, _, _, rfl, hg.1, hg.2, rfl, rfl⟩)
      · contradiction
  | realizeStep =>
      simp only [step] at h
      split at h
      · contradiction
      · next z hz =>
          cases h
          exact .inr (.inr (.inl ⟨z, _, _, _, rfl, hz, rfl, rfl⟩))
  | reader c =>
      simp only [step, Option.map_eq_some_iff, Prod.exists] at h
      obtain ⟨sh, r, hc, hs⟩ := h
      exact .inr (.inr (.inr (.inl ⟨c, sh, r, rfl, hc, hs.symm⟩)))
  | worker w order =>
      simp only [step, Option.map_eq_some_iff, Prod.exists] at h
      obtain ⟨k, sh, hc, hs⟩ := h
      exact .inr (.inr (.inr (.inr (.inl ⟨w, order, k, sh, rfl, hc, hs.symm⟩))))
  | writer c =>
      simp only [step, Option.map_eq_some_iff, Prod.exists] at h
      obtain ⟨sh, wr, hc, hs⟩ := h
      exact .inr (.inr (.inr (.inr (.inr (.inl ⟨c, sh, wr, rfl, hc, hs.symm⟩)))))
  | cancel =>
      simp only [step, Option.some.injEq] at h
      exact .inr (.inr (.inr (.inr (.inr (.inr ⟨rfl, h.symm⟩)))))

end KubePortForward.Mux
