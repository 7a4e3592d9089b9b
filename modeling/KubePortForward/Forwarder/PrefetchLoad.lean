import KubePortForward.Forwarder.System
import Mathlib.Algebra.Order.Field.Rat
import Mathlib.Tactic.Linarith

/-!
# The load at which a session is prefetched

`maybe_prefetch` compares the pairs in use with a share of the session's operating
capacity.  The comment above the test has the capacity be the scheduling cap, 384 for six
connections of 64 pairs, but `MuxHandle::operating_capacity` is what a connection has left
below its cap.  The denominator therefore shrinks as the load grows: the test fires from
`t / (1 + t)` of the cap on instead of `t`, and it stops firing at the full load, where
nothing is left.

The source compares in `f32`; here the threshold is an exact rational.

## Main results

* `taskStep_prefetch` — a task at the load test starts a prefetch exactly when it is due.
* `prefetch_threshold_iff` — the test agrees with the share of the cap exactly below the
  full load and outside the band between the two shares, and from a load at which it fires
  on, it fires exactly below the full load.
* `six_connections_misjudged` — the comment's example: a prefetch at 144 pairs of 384, and
  none at 384.
-/

namespace KubePortForward.Forwarder

/-! ## The load of a session -/

namespace Session

/-- The connections that are not closed. -/
def live (x : Session) : List Mux.Member := x.inner.pool.filter fun m => !m.shared.cancelled

/-- The operating limits of the live connections together. -/
def liveLimit (x : Session) : Nat :=
  (x.live.map fun m => (Mux.operatingLimit x.inner.cfg m.shared).toNat).sum

/-- The active pairs of the live connections. -/
def livePairs (x : Session) : Nat := (x.live.map fun m => m.shared.activePairs).sum

/-- The active pairs of the closed connections, which `in_use` counts too. -/
def closedPairs (x : Session) : Nat :=
  ((x.inner.pool.filter fun m => m.shared.cancelled).map fun m => m.shared.activePairs).sum

/-- No live connection is above its operating limit. -/
def WithinLimits (x : Session) : Prop :=
  ∀ m ∈ x.live, m.shared.activePairs ≤ (Mux.operatingLimit x.inner.cfg m.shared).toNat

theorem inUse_eq (x : Session) : x.inUse = x.livePairs + x.closedPairs := by
  unfold inUse Mux.Session.inUse livePairs live closedPairs
  induction x.inner.pool with
  | nil => rfl
  | cons m rest ih =>
      rw [List.map_cons, List.sum_cons, ih]
      cases hm : m.shared.cancelled with
      | true =>
          simp only [List.filter_cons, hm, Bool.not_true, Bool.false_eq_true, if_false, if_true,
            List.map_cons, List.sum_cons]
          omega
      | false =>
          simp only [List.filter_cons, hm, Bool.not_false, Bool.false_eq_true, if_false, if_true,
            List.map_cons, List.sum_cons]
          omega

/-- Within the limits, the operating capacity is what the load leaves of them. -/
theorem operatingCapacity_add (x : Session) (h : x.WithinLimits) :
    x.operatingCapacity + x.livePairs = x.liveLimit := by
  have hlive : x.operatingCapacity = (x.live.map fun m =>
      (Mux.operatingLimit x.inner.cfg m.shared).toNat - m.shared.activePairs).sum := rfl
  rw [hlive, livePairs, liveLimit]
  unfold WithinLimits at h
  generalize x.live = members at h ⊢
  induction members with
  | nil => rfl
  | cons m rest ih =>
      have hm := h m List.mem_cons_self
      have hrest := ih fun m' hm' => h m' (List.mem_cons_of_mem _ hm')
      simp only [List.map_cons, List.sum_cons]
      omega

end Session

/-! ## The test -/

/-- The comparison of `maybe_prefetch` for the threshold `t`, in exact arithmetic. -/
def belowExactly (t : ℚ) (inUse capacity : Nat) : Bool :=
  decide ((inUse : ℚ) < (capacity : ℚ) * t)

/-- The load test of `maybe_prefetch` lets the prefetch proceed. -/
def prefetchDue (belowThreshold : Nat → Nat → Bool) (x : Session) : Bool :=
  x.operatingCapacity != 0 && !belowThreshold x.inUse x.operatingCapacity

/-- A call that is at the load test goes on to start a prefetch if one is due, and is done
otherwise. -/
theorem taskStep_prefetch (cfg : ForwarderConfig) (t : TaskId) (k : Task) (s : State)
    (x : SessionId) (hpc : k.pc = .prefetch x) :
    taskStep cfg t k s .go =
      some (s.setTask t
        (if prefetchDue cfg.belowThreshold (s.sessions x) then
          { k with pc := .acquire (.prefetchStart x) }
        else { k with pc := .leave (.ok x) })) := by
  simp only [taskStep, hpc, prefetchDue]
  by_cases hcap : (s.sessions x).operatingCapacity = 0
  · simp [hcap]
  by_cases hbelow :
      cfg.belowThreshold (s.sessions x).inUse (s.sessions x).operatingCapacity = true
  · simp [hbelow]
  · simp [hcap, hbelow]

/-- Within the limits the test compares the load with the share of what is left. -/
theorem prefetchDue_iff (t : ℚ) (x : Session) (h : x.WithinLimits) :
    prefetchDue (belowExactly t) x = true ↔
      x.livePairs < x.liveLimit ∧
        t * (x.liveLimit - x.livePairs) ≤ (x.livePairs + x.closedPairs : ℚ) := by
  have hcap := x.operatingCapacity_add h
  have hrat : (x.operatingCapacity : ℚ) = x.liveLimit - x.livePairs := by
    rw [← hcap]
    push_cast
    ring
  have hpos : x.operatingCapacity ≠ 0 ↔ x.livePairs < x.liveLimit := by omega
  unfold prefetchDue belowExactly
  rw [Bool.and_eq_true, bne_iff_ne, hpos, Bool.not_eq_true', decide_eq_false_iff_not, not_lt,
    hrat, x.inUse_eq, mul_comm]
  push_cast
  rfl

/-- The test agrees with `t` times the scheduling cap exactly when the load is below the
cap and not in the band where the share of what is left is reached and that of the cap is
not.  From a load at which it fires on, it fires at every load but the full one. -/
theorem prefetch_threshold_iff (t : ℚ) (h0 : 0 ≤ t) (h1 : t ≤ 1) (x : Session)
    (hx : x.WithinLimits) :
    ((prefetchDue (belowExactly t) x = true ↔ t * x.liveLimit ≤ x.livePairs) ↔
      x.livePairs < x.liveLimit ∧
        (t * x.liveLimit ≤ x.livePairs ∨
          (1 + t) * x.livePairs + x.closedPairs < t * x.liveLimit)) ∧
    ∀ y : Session, y.WithinLimits → y.liveLimit = x.liveLimit →
      x.livePairs ≤ y.livePairs → x.closedPairs ≤ y.closedPairs →
      prefetchDue (belowExactly t) x = true →
      (prefetchDue (belowExactly t) y = true ↔ y.livePairs < y.liveLimit) := by
  have hclosed : (0 : ℚ) ≤ x.closedPairs := Nat.cast_nonneg _
  have hpairs : (0 : ℚ) ≤ x.livePairs := Nat.cast_nonneg _
  have hshare : 0 ≤ t * (x.livePairs : ℚ) := mul_nonneg h0 hpairs
  constructor
  · rw [prefetchDue_iff t x hx]
    constructor
    · intro hagree
      have hbelow : x.livePairs < x.liveLimit := by
        by_contra hfull
        -- At the full load the share of the cap is reached, and the test does not fire.
        have hle : (x.liveLimit : ℚ) ≤ x.livePairs := by exact_mod_cast not_lt.1 hfull
        have hreached : t * x.liveLimit ≤ x.livePairs := by
          have : t * (x.liveLimit : ℚ) ≤ 1 * x.liveLimit :=
            mul_le_mul_of_nonneg_right h1 (Nat.cast_nonneg _)
          linarith
        exact hfull (hagree.2 hreached).1
      refine ⟨hbelow, ?_⟩
      by_contra hband
      rw [not_or, not_le, not_lt] at hband
      have hfires : t * (x.liveLimit - x.livePairs) ≤ (x.livePairs + x.closedPairs : ℚ) := by
        linarith [hband.2]
      exact absurd (hagree.1 ⟨hbelow, hfires⟩) (not_le.2 hband.1)
    · rintro ⟨hbelow, hreached | hquiet⟩
      · refine iff_of_true ⟨hbelow, ?_⟩ hreached
        linarith
      · refine iff_of_false (fun hfires => ?_) (fun hreached => ?_)
        · linarith [hfires.2]
        · linarith
  · intro y hy hlimit hmore hclosedMore hdue
    rw [prefetchDue_iff t y hy]
    refine ⟨And.left, fun hbelow => ⟨hbelow, ?_⟩⟩
    have hfires := ((prefetchDue_iff t x hx).1 hdue).2
    have hmore' : (x.livePairs : ℚ) ≤ y.livePairs := by exact_mod_cast hmore
    have hclosed' : (x.closedPairs : ℚ) ≤ y.closedPairs := by exact_mod_cast hclosedMore
    have hstep : t * (x.livePairs : ℚ) ≤ t * y.livePairs :=
      mul_le_mul_of_nonneg_left hmore' h0
    rw [hlimit]
    linarith

/-! ## The comment's example -/

/-- A session over six connections with `n` pairs on each, all with default settings. -/
def evenlyLoaded (n : Nat) : Session :=
  .fromSpdy
    { cfg := .default
      pool := List.replicate 6
        { shared := { Mux.Shared.init .default with activePairs := n }, opened := n, rttNs := 0 }
      next := 0 }
    8080 { name := "web-0", uid := none }

theorem evenlyLoaded_within {n : Nat} (h : n ≤ 64) : (evenlyLoaded n).WithinLimits := by
  intro m hm
  have hmem := List.mem_of_mem_filter hm
  rw [List.eq_of_mem_replicate hmem]
  exact h

/-- With the default threshold a prefetch starts at 144 of 384 pairs, below the 230.4 of
the comment, and at 384 pairs none does. -/
theorem six_connections_misjudged :
    ((evenlyLoaded 24).WithinLimits ∧ (evenlyLoaded 24).liveLimit = 384 ∧
      (evenlyLoaded 24).livePairs = 144 ∧
      ¬ (prefetchDue (belowExactly (3 / 5)) (evenlyLoaded 24) = true ↔
        3 / 5 * ((evenlyLoaded 24).liveLimit : ℚ) ≤ (evenlyLoaded 24).livePairs)) ∧
    ((evenlyLoaded 64).WithinLimits ∧ (evenlyLoaded 64).liveLimit = 384 ∧
      (evenlyLoaded 64).livePairs = 384 ∧
      ¬ (prefetchDue (belowExactly (3 / 5)) (evenlyLoaded 24) = true →
        prefetchDue (belowExactly (3 / 5)) (evenlyLoaded 64) = true)) := by
  refine ⟨⟨evenlyLoaded_within (by decide), by decide +kernel, by decide +kernel,
    by decide +kernel⟩, evenlyLoaded_within (by decide), by decide +kernel, by decide +kernel,
    by decide +kernel⟩

/-- At 40 pairs on every connection both shares are reached, and one more pair on each
changes nothing. -/
theorem prefetch_threshold_240_pairs :
    (prefetchDue (belowExactly (3 / 5)) (evenlyLoaded 40) = true ↔
      3 / 5 * ((evenlyLoaded 40).liveLimit : ℚ) ≤ (evenlyLoaded 40).livePairs) ∧
    (prefetchDue (belowExactly (3 / 5)) (evenlyLoaded 41) = true ↔
      (evenlyLoaded 41).livePairs < (evenlyLoaded 41).liveLimit) := by
  have h := prefetch_threshold_iff (3 / 5) (by norm_num) (by norm_num) (evenlyLoaded 40)
    (evenlyLoaded_within (by decide))
  exact ⟨h.1.2 (by decide +kernel),
    h.2 (evenlyLoaded 41) (evenlyLoaded_within (by decide)) (by decide +kernel)
      (by decide +kernel) (by decide +kernel) (by decide +kernel)⟩

end KubePortForward.Forwarder
