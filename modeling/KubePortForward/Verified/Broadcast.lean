import Mathlib.Data.List.Basic

/-!
# Broadcast channels

A channel that hands every message to every receiver and keeps only the last
`capacity` of them.  The channel is the log of what was sent, a receiver is a
position in it.  A receiver that is too far behind is told that it lagged and
goes on with the oldest message that is kept.

## Main results

* `recv_undelivered` — a message a receiver has still to see stays so until it is
  received or the receiver lags.
-/

namespace KubePortForward.Verified.Broadcast

variable {α : Type}

/-- What a receiver gets. -/
inductive Received (α : Type) where
  | message (x : α)
  | lagged
  deriving DecidableEq, Repr

/-- Receive at position `next`; `none` while there is nothing to receive. -/
def recv (capacity : Nat) (log : List α) (next : Nat) : Option (Received α × Nat) :=
  if next + capacity < log.length then some (.lagged, log.length - capacity)
  else match log[next]? with
  | some x => some (.message x, next + 1)
  | none => none

/-- A message with `P` among the first `upto` is still before the receiver. -/
def Undelivered (P : α → Prop) (log : List α) (next upto : Nat) : Prop :=
  ∃ i x, next ≤ i ∧ i < upto ∧ log[i]? = some x ∧ P x

instance (P : α → Prop) [DecidablePred P] (log : List α) (next upto : Nat) :
    Decidable (Undelivered P log next upto) :=
  decidable_of_iff (∃ i ∈ List.range upto, next ≤ i ∧ ∃ x ∈ log[i]?, P x) (by
    constructor
    · rintro ⟨i, hi, hle, x, hx, hP⟩
      exact ⟨i, x, hle, List.mem_range.1 hi, hx, hP⟩
    · rintro ⟨i, x, hle, hi, hx, hP⟩
      exact ⟨i, List.mem_range.2 hi, hle, x, hx, hP⟩)

variable {P : α → Prop} {capacity : Nat} {log : List α} {next upto : Nat}

theorem recv_cases {r : Received α} {next' : Nat} (h : recv capacity log next = some (r, next')) :
    (r = .lagged ∧ next + capacity < log.length ∧ next' = log.length - capacity) ∨
    (∃ x, r = .message x ∧ log.length ≤ next + capacity ∧ log[next]? = some x ∧
      next' = next + 1) := by
  unfold recv at h
  split at h
  · next hlag =>
      cases h
      exact .inl ⟨rfl, hlag, rfl⟩
  · next hnear =>
      split at h
      · next x hx =>
          cases h
          exact .inr ⟨x, rfl, by omega, hx, rfl⟩
      · contradiction

/-- A receiver never gets ahead of the log. -/
theorem recv_le {r : Received α} {next' : Nat} (h : recv capacity log next = some (r, next')) :
    next' ≤ log.length := by
  obtain ⟨-, -, rfl⟩ | ⟨x, -, -, hx, rfl⟩ := recv_cases h
  · exact Nat.sub_le _ _
  · exact (List.getElem?_eq_some_iff.1 hx).1

theorem Undelivered.of_append (h : Undelivered P log next upto) (more : List α) :
    Undelivered P (log ++ more) next upto := by
  obtain ⟨i, x, hle, hlt, hx, hP⟩ := h
  have hi : i < log.length := (List.getElem?_eq_some_iff.1 hx).1
  exact ⟨i, x, hle, hlt, by rw [List.getElem?_append_left hi]; exact hx, hP⟩

theorem Undelivered.mono (h : Undelivered P log next upto) {more : Nat} (hle : upto ≤ more) :
    Undelivered P log next more := by
  obtain ⟨i, x, hfrom, hlt, hx, hP⟩ := h
  exact ⟨i, x, hfrom, by omega, hx, hP⟩

/-- The message just sent is before every receiver. -/
theorem undelivered_snoc {x : α} (hP : P x) (hle : next ≤ log.length) :
    Undelivered P (log ++ [x]) next (log ++ [x]).length :=
  ⟨log.length, x, hle, by simp, by simp, hP⟩

/-- A receiver that does not lag gets the next message; one with `P` that it has
still to see is that one or stays before it. -/
theorem recv_undelivered {x : α} {next' : Nat}
    (h : recv capacity log next = some (.message x, next'))
    (hU : Undelivered P log next upto) : P x ∨ Undelivered P log next' upto := by
  obtain ⟨heq, -⟩ | ⟨y, heq, -, hy, rfl⟩ := recv_cases h
  · contradiction
  · cases heq
    obtain ⟨i, z, hle, hlt, hz, hP⟩ := hU
    by_cases hi : i = next
    · subst hi
      rw [hy] at hz
      cases hz
      exact .inl hP
    · exact .inr ⟨i, z, by omega, hlt, hz, hP⟩

theorem not_undelivered (h : upto ≤ next) : ¬ Undelivered P log next upto := by
  rintro ⟨i, x, hle, hlt, -, -⟩
  omega

end KubePortForward.Verified.Broadcast
