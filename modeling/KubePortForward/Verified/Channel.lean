import Mathlib.Data.List.Basic

/-!
# Bounded multi-producer channels with reserved slots

The tasks of an asynchronous program talk through bounded queues that are
used without waiting: a send either takes a free slot or fails at once, and a
slot can be reserved now and filled later.  A slot is free when it is neither
occupied by a queued item nor reserved.

A channel value carries the proof that it never holds more than its
capacity, so a state with an overfull queue cannot be written down.

## Main results

* `trySend_eq_ok` — a send succeeds exactly when the receiver is alive and a
  slot is free, and then appends at the back.
* `recv_eq_some` — a receive takes the front item.
-/

namespace KubePortForward.Verified.Channel

/-- Why a non-waiting send was refused. -/
inductive TrySendError where
  | full
  | closed
  deriving DecidableEq, Repr

/-- A bounded channel: queued items, slots reserved for later sends, and
whether the receiver is gone. -/
@[ext]
structure Chan (α : Type) where
  capacity : Nat
  queue : List α
  reserved : Nat
  closed : Bool
  bounded : queue.length + reserved ≤ capacity

variable {α : Type}

namespace Chan

/-- A fresh channel. -/
def new (capacity : Nat) : Chan α where
  capacity := capacity
  queue := []
  reserved := 0
  closed := false
  bounded := Nat.zero_le _

/-- Some slot is neither occupied nor reserved. -/
def HasRoom (c : Chan α) : Prop := c.queue.length + c.reserved < c.capacity

instance (c : Chan α) : Decidable c.HasRoom := by
  unfold HasRoom
  infer_instance

/-- A send or a reservation that does not wait succeeds now. -/
def Accepts (c : Chan α) : Prop := c.closed = false ∧ c.HasRoom

instance (c : Chan α) : Decidable c.Accepts := by
  unfold Accepts
  infer_instance

/-- Append an item to a channel that has room. -/
def push (c : Chan α) (x : α) (h : c.HasRoom) : Chan α where
  capacity := c.capacity
  queue := c.queue ++ [x]
  reserved := c.reserved
  closed := c.closed
  bounded := by
    unfold HasRoom at h
    simp only [List.length_append, List.length_singleton]
    omega

/-- Send without waiting.  A channel whose receiver is gone reports that
before it reports a missing slot. -/
def trySend (c : Chan α) (x : α) : Except TrySendError (Chan α) :=
  if c.closed then .error .closed
  else if h : c.HasRoom then .ok (c.push x h)
  else .error .full

/-- A send whose outcome is ignored. -/
def sendOrDrop (c : Chan α) (x : α) : Chan α :=
  match c.trySend x with
  | .ok c' => c'
  | .error _ => c

/-- Reserve one slot without waiting. -/
def tryReserve (c : Chan α) : Except TrySendError (Chan α) :=
  if c.closed then .error .closed
  else if h : c.HasRoom then
    .ok { c with reserved := c.reserved + 1, bounded := by unfold HasRoom at h; omega }
  else .error .full

/-- Fill a slot reserved earlier. -/
def sendReserved (c : Chan α) (x : α) (h : 0 < c.reserved) : Chan α where
  capacity := c.capacity
  queue := c.queue ++ [x]
  reserved := c.reserved - 1
  closed := c.closed
  bounded := by
    have := c.bounded
    simp only [List.length_append, List.length_singleton]
    omega

/-- Give a reserved slot back. -/
def releaseReserved (c : Chan α) : Chan α :=
  { c with reserved := c.reserved - 1, bounded := by have := c.bounded; omega }

/-- Take the front item. -/
def recv (c : Chan α) : Option (α × Chan α) :=
  match hq : c.queue with
  | [] => none
  | x :: rest =>
      some (x, { c with
        queue := rest
        bounded := by
          have := c.bounded
          rw [hq, List.length_cons] at this
          omega })

/-- The receiver goes away, and with it everything still queued. -/
def closeReceiver (c : Chan α) : Chan α :=
  { c with queue := [], closed := true, bounded := by have := c.bounded; simp; omega }

/-! ## How each operation acts on the queue -/

@[simp] theorem new_queue (n : Nat) : (new n : Chan α).queue = [] := rfl
@[simp] theorem new_reserved (n : Nat) : (new n : Chan α).reserved = 0 := rfl
@[simp] theorem new_closed (n : Nat) : (new n : Chan α).closed = false := rfl

@[simp] theorem push_queue (c : Chan α) (x : α) (h : c.HasRoom) :
    (c.push x h).queue = c.queue ++ [x] := rfl

@[simp] theorem sendReserved_queue (c : Chan α) (x : α) (h : 0 < c.reserved) :
    (c.sendReserved x h).queue = c.queue ++ [x] := rfl

@[simp] theorem releaseReserved_queue (c : Chan α) :
    c.releaseReserved.queue = c.queue := rfl

@[simp] theorem closeReceiver_queue (c : Chan α) : c.closeReceiver.queue = [] := rfl

@[simp] theorem closeReceiver_closed (c : Chan α) :
    c.closeReceiver.closed = true := rfl

/-- A non-waiting send succeeds exactly on a live channel with room. -/
theorem trySend_eq_ok {c c' : Chan α} {x : α} :
    c.trySend x = .ok c' ↔ c.closed = false ∧ ∃ h : c.HasRoom, c' = c.push x h := by
  unfold trySend
  cases hc : c.closed with
  | true => simp
  | false =>
      by_cases hr : c.HasRoom
      · simp [hr, eq_comm]
      · simp [hr]

theorem trySend_queue {c c' : Chan α} {x : α} (h : c.trySend x = .ok c') :
    c'.queue = c.queue ++ [x] := by
  obtain ⟨-, hr, rfl⟩ := trySend_eq_ok.1 h
  rfl

/-- A refused send on a live channel means that no slot was free. -/
theorem trySend_full {c : Chan α} {x : α} (h : c.trySend x = .error .full) :
    ¬ c.HasRoom := by
  intro hr
  unfold trySend at h
  cases hc : c.closed <;> simp [hc, hr] at h

/-- An ignored send leaves the queue as it was or appends the item. -/
theorem sendOrDrop_queue (c : Chan α) (x : α) :
    (c.sendOrDrop x).queue = c.queue ∨ (c.sendOrDrop x).queue = c.queue ++ [x] := by
  unfold sendOrDrop
  cases h : c.trySend x with
  | error e => exact .inl rfl
  | ok c' => exact .inr (trySend_queue h)

/-- A send that finds a free slot is not lost by ignoring its outcome. -/
theorem sendOrDrop_of_room {c : Chan α} (x : α) (hc : c.closed = false) (h : c.HasRoom) :
    (c.sendOrDrop x).queue = c.queue ++ [x] := by
  rw [sendOrDrop, trySend_eq_ok.2 ⟨hc, h, rfl⟩, push_queue]

/-- Only a channel without a receiver refuses a send as closed. -/
theorem trySend_closed {c : Chan α} {x : α} (h : c.trySend x = .error .closed) :
    c.closed = true := by
  unfold trySend at h
  cases hc : c.closed with
  | true => rfl
  | false =>
      simp only [hc, Bool.false_eq_true, if_false] at h
      split at h <;> simp at h

theorem trySend_of_accepts {c : Chan α} (x : α) (h : c.Accepts) :
    ∃ c', c.trySend x = .ok c' := by
  obtain ⟨hc, hr⟩ := h
  exact ⟨c.push x hr, by simp [trySend, hc, hr]⟩

theorem tryReserve_of_accepts {c : Chan α} (h : c.Accepts) : ∃ c', c.tryReserve = .ok c' := by
  obtain ⟨hc, hr⟩ := h
  unfold tryReserve
  rw [if_neg (by simp [hc]), dif_pos hr]
  exact ⟨_, rfl⟩

theorem tryReserve_queue {c c' : Chan α} (h : c.tryReserve = .ok c') :
    c'.queue = c.queue := by
  unfold tryReserve at h
  cases hc : c.closed with
  | true => simp [hc] at h
  | false =>
      by_cases hr : c.HasRoom
      · simp only [hc, Bool.false_eq_true, if_false, hr, dite_true, Except.ok.injEq] at h
        rw [← h]
      · simp [hc, hr] at h

/-- Only a live channel gives slots, and stays live. -/
theorem tryReserve_live {c c' : Chan α} (h : c.tryReserve = .ok c') :
    c.closed = false ∧ c'.closed = false := by
  unfold tryReserve at h
  cases hc : c.closed with
  | true => simp [hc] at h
  | false =>
      by_cases hr : c.HasRoom
      · simp only [hc, Bool.false_eq_true, if_false, hr, dite_true, Except.ok.injEq] at h
        rw [← h]
        exact ⟨rfl, rfl⟩
      · simp [hc, hr] at h

theorem sendOrDrop_closed {c : Chan α} (x : α) : (c.sendOrDrop x).closed = c.closed := by
  unfold sendOrDrop
  split
  · next c' hsend =>
      obtain ⟨-, hr, rfl⟩ := trySend_eq_ok.1 hsend
      rfl
  · rfl

/-- A receive takes the front item and keeps the order of the rest. -/
theorem recv_eq_some {c c' : Chan α} {x : α} (h : c.recv = some (x, c')) :
    c.queue = x :: c'.queue := by
  unfold recv at h
  split at h
  · contradiction
  · next y rest hq =>
      simp only [Option.some.injEq, Prod.mk.injEq] at h
      obtain ⟨rfl, rfl⟩ := h
      exact hq

/-- Receiving does not end a channel. -/
theorem recv_closed {c c' : Chan α} {x : α} (h : c.recv = some (x, c')) :
    c'.closed = c.closed := by
  unfold recv at h
  split at h
  · contradiction
  · simp only [Option.some.injEq, Prod.mk.injEq] at h
    obtain ⟨-, rfl⟩ := h
    rfl

theorem recv_eq_none {c : Chan α} (h : c.recv = none) : c.queue = [] := by
  unfold recv at h
  split at h
  · assumption
  · contradiction

end Chan

/-- What holds of everything in a queue and of the item that is appended holds of
everything in the queue afterwards. -/
theorem forall_mem_snoc {P : α → Prop} {q q' : List α} {x : α} (hq : ∀ y ∈ q, P y) (hx : P x)
    (heq : q' = q ++ [x]) : ∀ y ∈ q', P y := by
  subst heq
  intro y hy
  rcases List.mem_append.1 hy with hin | hin
  · exact hq y hin
  · rw [List.mem_singleton.1 hin]
    exact hx

end KubePortForward.Verified.Channel
