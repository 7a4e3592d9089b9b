import Mathlib.Data.List.Basic

/-!
# A conveyor that may lose only what carries nothing

Items are seen one after the other, travel through queues and are handed on; `load`
says what an item carries, if anything.  On the way an item may be lost, so what is
in flight is a sublist of what was seen after the last item handed on.  As long as
only items without a load are lost, what was handed on and what is in flight make up
all that was seen.  Nothing here names a particular program.

## Main results

* `Conveys.arrive`, `Conveys.lose`, `Conveys.take` — the three moves.
* `Conveys.total` — nothing that carries a load is missing.
* `Conveys.position` — the next item, at its place among the items seen.
-/

namespace KubePortForward.Verified.Conveyor

variable {α β : Type} {load : α → Option β}

/-- `handed` are the loads handed on, `flight` the items on the way, `seen` all items:
the items seen split into those that account for what was handed on and those that
account for what is in flight. -/
def Conveys (load : α → Option β) (handed : List β) (flight seen : List α) : Prop :=
  ∃ past rest, seen = past ++ rest ∧ past.filterMap load = handed ∧ flight.Sublist rest ∧
    flight.filterMap load = rest.filterMap load

/-- Nothing that carries a load was seen yet. -/
theorem Conveys.start {flight seen : List α} (hsub : flight.Sublist seen)
    (hnone : seen.filterMap load = []) : Conveys load [] flight seen := by
  have hflight : flight.filterMap load = [] := by
    have := hsub.filterMap load
    rw [hnone] at this
    exact List.sublist_nil.1 this
  exact ⟨[], seen, rfl, rfl, hsub, hflight.trans hnone.symm⟩

/-- What was handed on and what is in flight make up what was seen. -/
theorem Conveys.total {handed : List β} {flight seen : List α}
    (h : Conveys load handed flight seen) :
    handed ++ flight.filterMap load = seen.filterMap load := by
  obtain ⟨past, rest, rfl, rfl, -, hload⟩ := h
  rw [hload, List.filterMap_append]

/-- An item is seen and joins the flight, or carries nothing and is lost at once. -/
theorem Conveys.arrive {handed : List β} {flight seen joined : List α} {x : α}
    (h : Conveys load handed flight seen)
    (hj : joined = [x] ∨ joined = [] ∧ load x = none) :
    Conveys load handed (flight ++ joined) (seen ++ [x]) := by
  obtain ⟨past, rest, rfl, rfl, hsub, hload⟩ := h
  refine ⟨past, rest ++ [x], by rw [List.append_assoc], rfl, ?_, ?_⟩
  · refine hsub.append ?_
    rcases hj with rfl | ⟨rfl, -⟩
    · exact List.Sublist.refl _
    · exact List.nil_sublist _
  · rw [List.filterMap_append, List.filterMap_append, hload]
    rcases hj with rfl | ⟨rfl, hx⟩
    · rfl
    · simp [hx]

/-- Items that carry nothing are lost. -/
theorem Conveys.lose {handed : List β} {flight flight' seen : List α}
    (h : Conveys load handed flight seen) (hsub : flight'.Sublist flight)
    (hload : flight'.filterMap load = flight.filterMap load) :
    Conveys load handed flight' seen := by
  obtain ⟨past, rest, rfl, rfl, hsub', hload'⟩ := h
  exact ⟨past, rest, rfl, rfl, hsub.trans hsub', hload.trans hload'⟩

/-- The next item in flight stands among the items seen right where everything that
carries a load before it has been handed on. -/
theorem Conveys.position {handed : List β} {flight seen : List α} {x : α}
    (h : Conveys load handed (x :: flight) seen) :
    ∃ before after, seen = before ++ x :: after ∧ before.filterMap load = handed ∧
      flight.Sublist after ∧ flight.filterMap load = after.filterMap load := by
  obtain ⟨past, rest, rfl, rfl, hsub, hload⟩ := h
  obtain ⟨r₁, r₂, rfl, hmem, hsub₂⟩ := List.cons_sublist_iff.1 hsub
  obtain ⟨skipped, later, rfl⟩ := List.append_of_mem hmem
  have hafter : flight.Sublist (later ++ r₂) := hsub₂.trans (List.sublist_append_right _ _)
  -- The loads skipped before the item would be too many.
  have hcount := congrArg List.length hload
  have hle := (hafter.filterMap load).length_le
  rw [List.append_assoc, List.cons_append, List.filterMap_append, List.length_append,
    List.filterMap_cons, List.filterMap_cons] at hcount
  have hskip : (skipped.filterMap load).length = 0 ∧
      (flight.filterMap load).length = ((later ++ r₂).filterMap load).length := by
    cases hx : load x with
    | none =>
        simp only [hx] at hcount
        omega
    | some y =>
        simp only [hx, List.length_cons] at hcount
        omega
  refine ⟨past ++ skipped, later ++ r₂, by simp, ?_, hafter,
    (hafter.filterMap load).eq_of_length hskip.2⟩
  rw [List.filterMap_append, List.length_eq_zero_iff.1 hskip.1, List.append_nil]

/-- The next item is handed on. -/
theorem Conveys.take {handed : List β} {flight seen : List α} {x : α}
    (h : Conveys load handed (x :: flight) seen) :
    Conveys load (handed ++ (load x).toList) flight seen := by
  obtain ⟨before, after, rfl, rfl, hsub, hload⟩ := h.position
  refine ⟨before ++ [x], after, by simp, ?_, hsub, hload⟩
  rw [List.filterMap_append]
  cases hx : load x with
  | none => simp [hx]
  | some y => simp [hx]

end KubePortForward.Verified.Conveyor
