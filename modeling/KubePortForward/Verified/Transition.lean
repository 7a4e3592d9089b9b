import Mathlib.Data.List.Basic

/-!
# Labelled transition systems with an executable step

A concurrent program is modelled as a partial step function: the label names
which task moves and resolves everything the code leaves to its environment
(what arrives, which write fails, in which order a hash map is walked), and
`step` returns `none` when that task cannot make that move.  Nothing here
names a particular program.

A run is a list of labels, so a concrete interleaving is a closed term that
the kernel evaluates, while a safety theorem quantifies over every list.
Many safety properties hold only while every step meets a side condition on
the state it is taken in; `Meets` carries such a condition along a run.

## Main results

* `Invariant.of_step` — an initial fact kept by every step that meets the
  condition holds after every run whose steps all meet it.
* `Invariant.of_step_using` — the same with an invariant proved earlier
  available at every step, which is how invariants are layered.
* `Invariant.stable` — what is kept by every such step holds from any point of
  a run on at which it holds.
-/

namespace KubePortForward.Verified.Transition

/-- A deterministic step function over labels, and where runs start. -/
structure System (σ α : Type) where
  init : σ
  step : σ → α → Option σ

variable {σ α : Type}

/-- Take the labels in order; `none` as soon as one is not enabled. -/
def System.run (M : System σ α) : σ → List α → Option σ
  | s, [] => some s
  | s, a :: as =>
      match M.step s a with
      | some s' => M.run s' as
      | none => none

/-- Every step of the run is taken in a state that meets `ok`. -/
def System.Meets (M : System σ α) (ok : σ → α → Prop) : σ → List α → Prop
  | _, [] => True
  | s, a :: as => ok s a ∧ ∀ s', M.step s a = some s' → M.Meets ok s' as

/-- Whether every step of the run is taken in a state that meets `ok`. -/
def System.check (M : System σ α) (ok : σ → α → Prop) [∀ s a, Decidable (ok s a)] :
    σ → List α → Bool
  | _, [] => true
  | s, a :: as =>
      decide (ok s a) && match M.step s a with
        | some s' => M.check ok s' as
        | none => true

/-- `I` holds after every run from the start whose steps all meet `ok`. -/
def System.Invariant (M : System σ α) (ok : σ → α → Prop) (I : σ → Prop) : Prop :=
  ∀ as s, M.run M.init as = some s → M.Meets ok M.init as → I s

/-- The condition every step meets. -/
def anyStep : σ → α → Prop := fun _ _ => True

variable {M : System σ α} {ok : σ → α → Prop} {I J : σ → Prop}

theorem run_cons_some {s t : σ} {a : α} {as : List α}
    (h : M.run s (a :: as) = some t) :
    ∃ s', M.step s a = some s' ∧ M.run s' as = some t := by
  simp only [System.run] at h
  cases hs : M.step s a with
  | none => rw [hs] at h; contradiction
  | some s' => rw [hs] at h; exact ⟨s', rfl, h⟩

theorem meets_anyStep (s : σ) (as : List α) : M.Meets anyStep s as := by
  induction as generalizing s with
  | nil => trivial
  | cons a as ih => exact ⟨trivial, fun s' _ => ih s'⟩

/-- A condition on labels alone is met by a run of labels that have it. -/
theorem meets_of_forall_mem {P : α → Prop} {as : List α} (h : ∀ a ∈ as, P a) (s : σ) :
    M.Meets (fun _ a => P a) s as := by
  induction as generalizing s with
  | nil => trivial
  | cons a as ih =>
      refine ⟨h a List.mem_cons_self, fun s' _ => ?_⟩
      exact ih (fun b hb => h b (List.mem_cons_of_mem a hb)) s'

/-- A condition that can be decided is checked by evaluating the run. -/
theorem meets_of_check [∀ s a, Decidable (ok s a)] {s : σ} {as : List α}
    (h : M.check ok s as = true) : M.Meets ok s as := by
  induction as generalizing s with
  | nil => trivial
  | cons a as ih =>
      simp only [System.check, Bool.and_eq_true, decide_eq_true_eq] at h
      refine ⟨h.1, fun s' hs => ih ?_⟩
      rw [hs] at h
      exact h.2

/-- A run that meets a condition meets every weaker one. -/
theorem Meets.mono {ok' : σ → α → Prop} (h : ∀ s a, ok s a → ok' s a)
    {s : σ} {as : List α} (hm : M.Meets ok s as) : M.Meets ok' s as := by
  induction as generalizing s with
  | nil => trivial
  | cons a as ih => exact ⟨h s a hm.1, fun s' hs => ih (hm.2 s' hs)⟩

theorem Meets.and {ok' : σ → α → Prop} {s : σ} {as : List α} (h : M.Meets ok s as)
    (h' : M.Meets ok' s as) : M.Meets (fun s a => ok s a ∧ ok' s a) s as := by
  induction as generalizing s with
  | nil => trivial
  | cons a as ih => exact ⟨⟨h.1, h'.1⟩, fun s' hs => ih (h.2 s' hs) (h'.2 s' hs)⟩

/-- The induction behind every safety proof, with an invariant `J` that is
already known available at each state the run passes through. -/
theorem Invariant.of_step_using (hJ : M.Invariant ok J) (h0 : I M.init)
    (hstep : ∀ s a s', J s → I s → ok s a → M.step s a = some s' → I s') :
    M.Invariant ok I := by
  intro as s hrun hmeets
  -- The list is consumed from the left, so the start state is generalised and
  -- the reachability of the current state is carried as its own prefix run.
  suffices H : ∀ (as : List α) (t : σ), I t →
      (∀ (bs : List α) (u : σ), M.run t bs = some u → M.Meets ok t bs → J u) →
      ∀ s, M.run t as = some s → M.Meets ok t as → I s from
    H as M.init h0 hJ s hrun hmeets
  intro as
  induction as with
  | nil =>
      intro t hI _ s hs _
      simp only [System.run, Option.some.injEq] at hs
      exact hs ▸ hI
  | cons a as ih =>
      intro t hI hJt s hs hm
      obtain ⟨t', hstep', hrest⟩ := run_cons_some hs
      have hJhere : J t := hJt [] t rfl trivial
      refine ih t' (hstep t a t' hJhere hI hm.1 hstep') ?_ s hrest (hm.2 t' hstep')
      intro bs u hbs hmb
      refine hJt (a :: bs) u ?_ ⟨hm.1, fun s' hs' => ?_⟩
      · simp only [System.run, hstep', hbs]
      · rw [hstep'] at hs'
        cases hs'
        exact hmb

/-- What holds at the start and is kept by every admitted step holds after
every admitted run. -/
theorem Invariant.of_step (h0 : I M.init)
    (hstep : ∀ s a s', I s → ok s a → M.step s a = some s' → I s') :
    M.Invariant ok I :=
  Invariant.of_step_using (J := fun _ => True) (fun _ _ _ _ => trivial) h0
    (fun s a s' _ hI ho hs => hstep s a s' hI ho hs)

theorem Invariant.and (hI : M.Invariant ok I) (hJ : M.Invariant ok J) :
    M.Invariant ok (fun s => I s ∧ J s) :=
  fun as s hrun hm => ⟨hI as s hrun hm, hJ as s hrun hm⟩

/-- An invariant under a weak condition is one under every stronger one. -/
theorem Invariant.restrict {ok' : σ → α → Prop} (hI : M.Invariant ok I)
    (h : ∀ s a, ok' s a → ok s a) : M.Invariant ok' I :=
  fun as s hrun hm => hI as s hrun (Meets.mono h hm)

/-- A run of a concatenation goes on where its first part ends. -/
theorem run_append {s t : σ} {as bs : List α} (has : M.run s as = some t) :
    M.run s (as ++ bs) = M.run t bs := by
  induction as generalizing s with
  | nil =>
      cases has
      rfl
  | cons a as ih =>
      obtain ⟨s', hstep, hrest⟩ := run_cons_some has
      show M.run s (a :: (as ++ bs)) = M.run t bs
      rw [System.run, hstep]
      exact ih hrest

theorem run_append_some {s t u : σ} {as bs : List α} (has : M.run s as = some t)
    (hbs : M.run t bs = some u) : M.run s (as ++ bs) = some u := by
  rw [run_append has, hbs]

/-- The first part of a run meets the condition, and so does the rest. -/
theorem Meets.append {s t : σ} {as bs : List α} (h : M.Meets ok s (as ++ bs))
    (has : M.run s as = some t) : M.Meets ok s as ∧ M.Meets ok t bs := by
  induction as generalizing s with
  | nil =>
      cases has
      exact ⟨trivial, h⟩
  | cons a as ih =>
      obtain ⟨s', hstep, hrest⟩ := run_cons_some has
      obtain ⟨hfirst, hlast⟩ := ih (h.2 s' hstep) hrest
      refine ⟨⟨h.1, fun u hu => ?_⟩, hlast⟩
      rw [hstep] at hu
      cases hu
      exact hfirst

/-- A run meets a condition that every step meets in the state it is taken in. -/
theorem meets_of_prefixes {s : σ} {as : List α}
    (h : ∀ bs a t, bs ++ [a] <+: as → M.run s bs = some t → ok t a) : M.Meets ok s as := by
  induction as generalizing s with
  | nil => trivial
  | cons a as ih =>
      refine ⟨h [] a s (by simp) rfl, fun s' hs => ih fun bs b t hbs ht => ?_⟩
      refine h (a :: bs) b t ?_ ?_
      · simpa using hbs
      · rw [System.run, hs]
        exact ht

/-- What holds at some point of a run and is kept by every admitted step holds
from there on.  `J` is known of every state the run passes through. -/
theorem Invariant.stable (hJ : M.Invariant ok J)
    (hstep : ∀ s a s', J s → I s → ok s a → M.step s a = some s' → I s')
    {as bs : List α} {t u : σ} (has : M.run M.init as = some t) (hI : I t)
    (hbs : M.run t bs = some u) (hm : M.Meets ok M.init (as ++ bs)) : I u := by
  induction bs generalizing as t with
  | nil =>
      cases hbs
      exact hI
  | cons b bs ih =>
      obtain ⟨t', ht', hrest⟩ := run_cons_some hbs
      have hsplit : as ++ b :: bs = (as ++ [b]) ++ bs := by simp
      obtain ⟨hfirst, hlast⟩ := Meets.append hm has
      have hone : M.run t [b] = some t' := by
        rw [System.run, ht']
        rfl
      rw [hsplit] at hm
      exact ih (run_append_some has hone)
        (hstep t b t' (hJ as t has hfirst) hI hlast.1 ht') hrest hm

end KubePortForward.Verified.Transition
