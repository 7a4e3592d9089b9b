import Mathlib.Data.List.Basic

/-!
# What comes before what in a log

A log only grows at its end.  Three things that are said of the order of its events, and
what each of them needs of the next event: that events of one kind are followed by one of
another, that such an event lies between two others, and that some events come before none
of a kind.  Nothing here names a particular program.

## Main results

* `split_append` — where an event of a longer log stands.
* `Followed.append`, `Followed.closed`, `Separated.append`, `Separated.snoc`,
  `Unpreceded.append`, `Unpreceded.snoc` — the log grows.
-/

namespace KubePortForward.Verified.Timeline

variable {ε : Type}

/-- Where an event of a longer log stands. -/
theorem split_append {log more before after : List ε} {e : ε}
    (h : log ++ more = before ++ e :: after) :
    (∃ rest, log = before ++ e :: rest) ∨ ∃ first, before = log ++ first ∧
      more = first ++ e :: after := by
  rcases List.append_eq_append_iff.mp h with ⟨first, hbefore, hmore⟩ | ⟨rest, hlog, hafter⟩
  · exact .inr ⟨first, hbefore, hmore⟩
  · cases rest with
    | nil =>
        rw [List.append_nil] at hlog
        exact .inr ⟨[], by rw [List.append_nil, hlog], hafter.symm⟩
    | cons x rest =>
        cases hafter
        exact .inl ⟨rest, hlog⟩

/-- Every event that `p` is about is followed by one that `q` is about. -/
def Followed (p q : ε → Prop) (log : List ε) : Prop :=
  ∀ front e back, log = front ++ e :: back → p e → ∃ x ∈ back, q x

/-- Between an event of `p` and a later one of `r` there is one of `q`. -/
def Separated (p q r : ε → Prop) (log : List ε) : Prop :=
  ∀ front e between e' after, log = front ++ e :: (between ++ e' :: after) → p e → r e' →
    ∃ x ∈ between, q x

/-- No event of `n` comes before one of `r`. -/
def Unpreceded (n r : ε → Prop) (log : List ε) : Prop :=
  ∀ front e after, log = front ++ e :: after → r e → ∀ x ∈ front, ¬ n x

section

variable {n p q r : ε → Prop} {log more : List ε}

theorem Followed.of_none (h : ∀ e ∈ log, ¬ p e) : Followed p q log := by
  intro front e back hlog hp
  refine absurd hp (h e ?_)
  rw [hlog]
  exact List.mem_append_right _ List.mem_cons_self

theorem Followed.append (h : Followed p q log) (hmore : ∀ e ∈ more, ¬ p e) :
    Followed p q (log ++ more) := by
  intro front e back hlog hp
  rcases split_append hlog with ⟨rest, hold⟩ | ⟨first, -, hnew⟩
  · obtain ⟨x, hx, hq⟩ := h front e rest hold hp
    refine ⟨x, ?_, hq⟩
    -- What follows in the shorter log follows in the longer one.
    have hback : back = rest ++ more := by
      rw [hold, List.append_assoc, List.cons_append] at hlog
      exact (List.cons.inj (List.append_cancel_left hlog)).2.symm
    rw [hback]
    exact List.mem_append_left _ hx
  · refine absurd hp (hmore e ?_)
    rw [hnew]
    exact List.mem_append_right _ List.mem_cons_self

/-- After an event of `q`, every event of `p` that came before is followed by one. -/
theorem Followed.closed (hmore : ∀ e ∈ more, ¬ p e) (hq : ∃ x ∈ more, q x) :
    Followed p q (log ++ more) := by
  intro front e back hlog hp
  obtain ⟨x, hx, hqx⟩ := hq
  rcases split_append hlog with ⟨rest, hold⟩ | ⟨first, -, hnew⟩
  · refine ⟨x, ?_, hqx⟩
    rw [hold, List.append_assoc, List.cons_append] at hlog
    rw [← (List.cons.inj (List.append_cancel_left hlog)).2]
    exact List.mem_append_right _ hx
  · refine absurd hp (hmore e ?_)
    rw [hnew]
    exact List.mem_append_right _ List.mem_cons_self

theorem Separated.append (h : Separated p q r log) (hmore : ∀ e ∈ more, ¬ r e) :
    Separated p q r (log ++ more) := by
  intro front e between e' after hlog hp hr
  have hlog' : log ++ more = (front ++ e :: between) ++ e' :: after := by
    rw [hlog, List.append_assoc, List.cons_append]
  rcases split_append hlog' with ⟨rest, hold⟩ | ⟨first, -, hnew⟩
  · rw [List.append_assoc, List.cons_append] at hold
    exact h front e between e' rest hold hp hr
  · refine absurd hr (hmore e' ?_)
    rw [hnew]
    exact List.mem_append_right _ List.mem_cons_self

/-- One more event may be one of `r` once every event of `p` was followed. -/
theorem Separated.snoc (h : Separated p q r log) (hfollowed : Followed p q log) (e : ε) :
    Separated p q r (log ++ [e]) := by
  intro front e₁ between e' after hlog hp hr
  have hlog' : log ++ [e] = (front ++ e₁ :: between) ++ e' :: after := by
    rw [hlog, List.append_assoc, List.cons_append]
  rcases split_append hlog' with ⟨rest, hold⟩ | ⟨first, hbefore, hnew⟩
  · rw [List.append_assoc, List.cons_append] at hold
    exact h front e₁ between e' rest hold hp hr
  · cases first with
    | nil =>
        rw [List.append_nil] at hbefore
        exact hfollowed front e₁ between hbefore.symm hp
    | cons x first => simp at hnew

theorem Unpreceded.append (h : Unpreceded n r log) (hmore : ∀ e ∈ more, ¬ r e) :
    Unpreceded n r (log ++ more) := by
  intro front e after hlog hr
  rcases split_append hlog with ⟨rest, hold⟩ | ⟨first, -, hnew⟩
  · exact h front e rest hold hr
  · refine absurd hr (hmore e ?_)
    rw [hnew]
    exact List.mem_append_right _ List.mem_cons_self

/-- One more event may be one of `r` while there was none of `n`. -/
theorem Unpreceded.snoc (h : Unpreceded n r log) (hnone : ∀ x ∈ log, ¬ n x) (e : ε) :
    Unpreceded n r (log ++ [e]) := by
  intro front e' after hlog hr
  rcases split_append hlog with ⟨rest, hold⟩ | ⟨first, hbefore, hnew⟩
  · exact h front e' rest hold hr
  · cases first with
    | nil =>
        rw [List.append_nil] at hbefore
        rw [hbefore]
        exact hnone
    | cons x first => simp at hnew

end

end KubePortForward.Verified.Timeline
