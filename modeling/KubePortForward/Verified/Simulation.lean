import KubePortForward.Verified.Transition

/-!
# Reaching a state, and simulation

A detailed system is related to a coarser one by a map on states such that
every step of the first is a step of the second, or leaves its image alone.
What holds in every state that the coarser system reaches then holds of the
image of every state of a detailed run.

## Main results

* `Reaches.of_invariant` — an invariant holds in every reachable state.
* `simulation` — the image of a detailed run is reached by the coarser system.
-/

namespace KubePortForward.Verified.Transition

variable {σ α τ β : Type} {M : System σ α} {ok : σ → α → Prop}

/-- Some run of admitted steps arrives at the state. -/
def System.Reaches (M : System σ α) (ok : σ → α → Prop) (s : σ) : Prop :=
  ∃ as, M.run M.init as = some s ∧ M.Meets ok M.init as

theorem Reaches.init : M.Reaches ok M.init := ⟨[], rfl, trivial⟩

theorem Reaches.of_invariant {I : σ → Prop} {s : σ} (h : M.Reaches ok s)
    (hI : M.Invariant ok I) : I s := by
  obtain ⟨as, hrun, hmeets⟩ := h
  exact hI as s hrun hmeets

theorem run_cons {s t : σ} {a : α} {as : List α} (h : M.step s a = some t) :
    M.run s (a :: as) = M.run t as := by
  rw [System.run, h]

/-- A run ends with its last step. -/
theorem run_snoc {s u : σ} {as : List α} {a : α} (h : M.run s (as ++ [a]) = some u) :
    ∃ t, M.run s as = some t ∧ M.step t a = some u := by
  induction as generalizing s with
  | nil =>
      obtain ⟨t, hstep, hrest⟩ := run_cons_some h
      cases hrest
      exact ⟨s, rfl, hstep⟩
  | cons b as ih =>
      obtain ⟨t, hstep, hrest⟩ := run_cons_some h
      obtain ⟨v, hv, hlast⟩ := ih hrest
      exact ⟨v, (run_cons hstep).trans hv, hlast⟩

/-- A run that is followed by an admitted step meets the condition. -/
theorem Meets.snoc {s t : σ} {as : List α} {a : α} (has : M.run s as = some t)
    (hm : M.Meets ok s as) (ha : ok t a) : M.Meets ok s (as ++ [a]) := by
  induction as generalizing s with
  | nil =>
      cases has
      exact ⟨ha, fun _ _ => trivial⟩
  | cons b as ih =>
      obtain ⟨u, hstep, hrest⟩ := run_cons_some has
      refine ⟨hm.1, fun v hv => ?_⟩
      rw [hstep] at hv
      cases hv
      exact ih hrest (hm.2 u hstep)

theorem Reaches.step {s t : σ} {a : α} (h : M.Reaches ok s) (ha : ok s a)
    (hs : M.step s a = some t) : M.Reaches ok t := by
  obtain ⟨as, hrun, hmeets⟩ := h
  exact ⟨as ++ [a], run_append_some hrun (run_cons hs), Meets.snoc hrun hmeets ha⟩

/-- A run that meets a condition meets every condition that follows from it in the states
that are reached. -/
theorem Reaches.meets {ok' : σ → α → Prop} (h : ∀ s a, M.Reaches ok s → ok s a → ok' s a)
    {s : σ} {as : List α} (hs : M.Reaches ok s) (hm : M.Meets ok s as) : M.Meets ok' s as := by
  induction as generalizing s with
  | nil => trivial
  | cons a as ih =>
      exact ⟨h s a hs hm.1, fun t ht => ih (Reaches.step hs hm.1 ht) (hm.2 t ht)⟩

/-- What holds in a reachable state and is kept by every admitted step holds after an
admitted run from there. -/
theorem Reaches.stable {I : σ → Prop}
    (hstep : ∀ s a s', M.Reaches anyStep s → I s → ok s a → M.step s a = some s' → I s')
    {as : List α} {s t : σ} (hs : M.Reaches anyStep s) (hI : I s) (hrun : M.run s as = some t)
    (hm : M.Meets ok s as) : M.Reaches anyStep t ∧ I t := by
  induction as generalizing s with
  | nil =>
      cases hrun
      exact ⟨hs, hI⟩
  | cons a as ih =>
      obtain ⟨s', ha, hrest⟩ := run_cons_some hrun
      exact ih (Reaches.step hs trivial ha) (hstep s a s' hs hI hm.1 ha) hrest (hm.2 s' ha)

/-- Every step of `M`, from a state in which `J` is known, is an admitted step of
`N` on the images or changes nothing there: so `N` reaches the image of
whatever `M` reaches. -/
theorem simulation {N : System τ β} {okN : τ → β → Prop} {J : σ → Prop} (π : σ → τ)
    (hJ : M.Invariant ok J) (hinit : π M.init = N.init)
    (hstep : ∀ s a s', J s → ok s a → M.step s a = some s' →
      π s' = π s ∨ ∃ b, okN (π s) b ∧ N.step (π s) b = some (π s')) :
    M.Invariant ok (fun s => N.Reaches okN (π s)) := by
  refine Invariant.of_step_using hJ ?_ ?_
  · rw [hinit]
    exact Reaches.init
  · intro s a s' hs hreach hok h
    rcases hstep s a s' hs hok h with hsame | ⟨b, hb, hN⟩
    · rw [hsame]
      exact hreach
    · exact Reaches.step hreach hb hN

end KubePortForward.Verified.Transition
