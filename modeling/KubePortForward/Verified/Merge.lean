import Mathlib.Data.List.Basic
import Mathlib.Logic.Function.Basic

/-!
# Several senders, one queue

Many senders put items into one queue.  The log of the queue names the sender of each
item; what one sender has put in, in its own order, is its share of the log.  When the
items are rendered into something that can be told apart by its sender, the share of a
sender is recovered from the rendered log alone.  Nothing here names a particular
program.

## Main results

* `Merges.send` — one more item from one sender.
* `filter_rendered` — what is recognised as one sender's is its share, rendered.
-/

namespace KubePortForward.Verified.Merge

variable {ι α β : Type}

section

variable [DecidableEq ι]

/-- What sender `i` put into the queue, in order. -/
def share (i : ι) (log : List (ι × α)) : List α :=
  log.filterMap fun x => if x.1 = i then some x.2 else none

/-- The log consists of what each sender has sent. -/
def Merges (log : List (ι × α)) (sent : ι → List α) : Prop := ∀ i, share i log = sent i

@[simp] theorem share_append (i : ι) (log more : List (ι × α)) :
    share i (log ++ more) = share i log ++ share i more := List.filterMap_append

theorem share_self (i : ι) (xs : List α) : share i (xs.map fun x => (i, x)) = xs := by
  induction xs with
  | nil => rfl
  | cons x xs ih =>
      rw [List.map_cons, share, List.filterMap_cons, if_pos rfl]
      exact congrArg (x :: ·) ih

theorem share_other {i j : ι} (h : j ≠ i) (xs : List α) :
    share i (xs.map fun x => (j, x)) = [] := by
  induction xs with
  | nil => rfl
  | cons x xs ih =>
      rw [List.map_cons, share, List.filterMap_cons, if_neg h]
      exact ih

theorem mem_share {i : ι} {x : α} {log : List (ι × α)} (h : (i, x) ∈ log) :
    x ∈ share i log :=
  List.mem_filterMap.mpr ⟨(i, x), h, if_pos rfl⟩

theorem Merges.nil : Merges ([] : List (ι × α)) fun _ => [] := fun _ => rfl

/-- One sender sends more. -/
theorem Merges.send {log : List (ι × α)} {sent sent' : ι → List α} (h : Merges log sent) (i : ι)
    (xs : List α) (hself : sent' i = sent i ++ xs) (hother : ∀ j, j ≠ i → sent' j = sent j) :
    Merges (log ++ xs.map fun x => (i, x)) sent' := by
  intro j
  by_cases hj : j = i
  · subst hj
    rw [share_append, h j, share_self, hself]
  · rw [share_append, h j, share_other (Ne.symm hj), hother j hj, List.append_nil]

end

/-- The log, rendered item by item. -/
def rendered (f : α → List β) (log : List (ι × α)) : List β := log.flatMap fun x => f x.2

@[simp] theorem rendered_append (f : α → List β) (log more : List (ι × α)) :
    rendered f (log ++ more) = rendered f log ++ rendered f more := List.flatMap_append

theorem rendered_map (f : α → List β) (i : ι) (xs : List α) :
    rendered f (xs.map fun x => (i, x)) = xs.flatMap f := by
  rw [rendered, List.flatMap_map]

/-- When what a sender's items are rendered to can be recognised, the recognised part of
the rendered log is the sender's share, rendered. -/
theorem filter_rendered [DecidableEq ι] {f : α → List β} {P : β → Bool} {i : ι} {log : List (ι × α)}
    (h : ∀ x ∈ log, ∀ b ∈ f x.2, P b = decide (x.1 = i)) :
    (rendered f log).filter P = (share i log).flatMap f := by
  induction log with
  | nil => rfl
  | cons x log ih =>
      have hx := h x List.mem_cons_self
      have hrest := ih fun y hy => h y (List.mem_cons_of_mem x hy)
      rw [rendered, List.flatMap_cons, List.filter_append]
      by_cases hi : x.1 = i
      · have hall : (f x.2).filter P = f x.2 := by
          rw [List.filter_eq_self]
          intro b hb
          rw [hx b hb]
          exact decide_eq_true hi
        have hshare : share i (x :: log) = x.2 :: share i log := by
          rw [share, List.filterMap_cons, if_pos hi]
          rfl
        rw [hall, hshare, List.flatMap_cons]
        exact congrArg (f x.2 ++ ·) hrest
      · have hnone : (f x.2).filter P = [] := by
          rw [List.filter_eq_nil_iff]
          intro b hb
          rw [hx b hb]
          simp [hi]
        have hshare : share i (x :: log) = share i log := by
          rw [share, List.filterMap_cons, if_neg hi]
          rfl
        rw [hnone, hshare]
        exact hrest

end KubePortForward.Verified.Merge
