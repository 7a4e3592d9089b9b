import Mathlib.Algebra.Group.Int.Defs

/-!
# The send window of one stream

`mux/window.rs`: a signed 64-bit counter shared by the stream's writer, which
debits it, and the frame worker, which credits it, and a waker for a writer
that found the window exhausted.  The counter is an `Int` and every atomic
addition wraps it as an `AtomicI64` does; the value `i64::MIN` is the mark of
a poisoned window.

`consume` is a compare-exchange loop.  It takes effect at its successful
exchange, whose expected value is the current one, so it is one atomic
operation here.
-/

namespace KubePortForward.Mux

/-- `i64::MIN`. -/
def I64_MIN : Int := -(2 ^ 63)

/-- Two's complement reduction to 64 bits. -/
def wrapI64 (x : Int) : Int := (x + 2 ^ 63) % 2 ^ 64 - 2 ^ 63

/-- `futures::task::AtomicWaker`: whether a task is registered, and how many
times a registered task was woken. -/
structure AtomicWaker where
  registered : Bool := false
  wakes : Nat := 0
  deriving DecidableEq, Repr

/-- Wake the registered task, which is thereby no longer registered. -/
def AtomicWaker.wake (w : AtomicWaker) : AtomicWaker :=
  if w.registered then { registered := false, wakes := w.wakes + 1 } else w

structure SendWindow where
  remaining : Int
  waker : AtomicWaker := {}
  deriving DecidableEq, Repr

namespace SendWindow

def new (initial : UInt32) : SendWindow := { remaining := initial.toNat }

/-- Current window; not positive when exhausted. -/
def available (w : SendWindow) : Int := w.remaining

/-- Debit `n` bytes; `false` on a poisoned window. -/
def consume (w : SendWindow) (n : Nat) : Bool × SendWindow :=
  if w.remaining = I64_MIN then (false, w)
  else (true, { w with remaining := wrapI64 (w.remaining - n) })

/-- Credit from a WINDOW_UPDATE, and wake a blocked writer. -/
def replenish (w : SendWindow) (delta : UInt32) : SendWindow :=
  { remaining := wrapI64 (w.remaining + delta.toNat), waker := w.waker.wake }

/-- Resize by a SETTINGS delta; only a growing window wakes. -/
def applyDelta (w : SendWindow) (delta : Int) : SendWindow :=
  { remaining := wrapI64 (w.remaining + delta)
    waker := if 0 < delta then w.waker.wake else w.waker }

def registerWaker (w : SendWindow) : SendWindow :=
  { w with waker := { w.waker with registered := true } }

/-- Poison the window and wake a blocked writer. -/
def close (w : SendWindow) : SendWindow :=
  { remaining := I64_MIN, waker := w.waker.wake }

def isClosed (w : SendWindow) : Bool := decide (w.remaining = I64_MIN)

end SendWindow

/-- Inside the 64-bit range wrapping is the identity. -/
theorem wrapI64_eq {x : Int} (h₁ : -(2 ^ 63) ≤ x) (h₂ : x < 2 ^ 63) : wrapI64 x = x := by
  unfold wrapI64
  rw [Int.emod_eq_of_lt (by omega) (by omega)]
  omega

end KubePortForward.Mux
