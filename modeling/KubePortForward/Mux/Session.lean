import KubePortForward.Mux.System

/-!
# A session over a pool of connections

`spdy-mux/src/session.rs`.  A session routes every new stream pair to one of
its connections: the cheaper of two picks first, then every member in turn
from a shared counter.  `try_open` treats a closed member and a full one as
"try the next"; any other error ends the whole call, and a member that has
received GOAWAY but is still open answers with such an error.

With no other caller about, `MuxHandle::open_stream_pair` runs from its first
access to its last without interruption.

## Main results

* `openStreamPair_run` — the uninterrupted call is a run of the pair's atomic
  accesses in the connection's transition system.
* `open_serves_healthy_iff` — a session with a healthy member opens the pair
  exactly when, among the members the call visits, one with room comes before
  every open member that has received GOAWAY.
* `fullness_agrees_iff` — `is_full`, `available` and the open path agree
  exactly when a visited member is below its operating limit too and the free
  slots outnumber the pairs on closed and overcommitted members.
-/

namespace KubePortForward.Mux

open KubePortForward.Codec
open KubePortForward.Verified.Transition

/-- The errors that opening a stream pair returns. -/
inductive OpenError where
  | muxClosed
  | capacityExhausted (inUse : Nat) (limit : UInt32)
  deriving DecidableEq, Repr

/-! ## One member -/

/-- `MuxHandle::open_stream_pair` without interruption, for the pair `p`. -/
def openStreamPair (cfg : MuxConfig) (p : Nat) (errorHeaders dataHeaders : Headers)
    (sh : Shared) : Except OpenError Pair × Shared :=
  if sh.cancelled then (.error .muxClosed, sh)
  else if sh.goawayReceived then (.error .muxClosed, sh)
  else
    let prev := sh.activePairs
    let sh := { sh with activePairs := prev + 1 }
    if operatingLimit cfg sh ≤ UInt32.ofNat prev then
      (.error (.capacityExhausted prev (operatingLimit cfg sh)),
        { sh with activePairs := sh.activePairs - 1 })
    else if hardLimit cfg sh ≤ UInt32.ofNat prev then
      (.error (.capacityExhausted prev (hardLimit cfg sh)),
        { sh with activePairs := sh.activePairs - 1 })
    else
      (.ok {
          phase := .unopened
          errorHeaders := errorHeaders
          dataHeaders := dataHeaders
          maxFrameSize := sh.maxFrameSize },
        (sh.updChan ⟨p, .error⟩ fun _ => DataChan.new cfg.streamErrorBuffer).updChan
          ⟨p, .data⟩ fun _ => DataChan.new cfg.streamDataBuffer)

/-- The phase a call leaves its pair in. -/
def openedPhase : Except OpenError Pair → PairPhase
  | .ok pr => pr.phase
  | .error _ => .refused

/-- `Q` holds after the labels are taken from `s`. -/
def Leads (cfg : MuxConfig) (s : MuxState) (as : List Act) (Q : MuxState → Prop) : Prop :=
  ∃ t, (mux cfg).run s as = some t ∧ Q t

theorem Leads.client {cfg : MuxConfig} {p : Nat} {a : ClientAct} {s : MuxState}
    {as : List Act} {sh : Shared} {pr : Pair} {Q : MuxState → Prop}
    (h : clientStep cfg p a s.shared (s.pairs p) = some (sh, pr))
    (hrest : ∀ u : MuxState, u.shared = sh → u.pairs p = pr → Leads cfg u as Q) :
    Leads cfg s (.client p a :: as) Q := by
  simp only [Leads, System.run, mux, step, h, Option.map_some]
  exact hrest _ rfl (by simp)

/-- What a call that was answered with `r` leaves behind. -/
def Answered (p : Nat) (r : Except OpenError Pair × Shared) (t : MuxState) : Prop :=
  t.shared = r.2 ∧ (t.pairs p).phase = openedPhase r.1 ∧ ∀ pr, r.1 = .ok pr → t.pairs p = pr

theorem Answered.refused {p : Nat} {e : OpenError} {sh : Shared} {t : MuxState} {pr : Pair}
    (hsh : t.shared = sh) (hp : t.pairs p = pr) (hphase : pr.phase = .refused) :
    Answered p (.error e, sh) t := by
  refine ⟨hsh, ?_, ?_⟩
  · rw [hp, hphase]
    rfl
  · intro pr' hpr
    cases hpr

/-- The uninterrupted call is what the pair's own steps do when nothing else
runs in between. -/
theorem openStreamPair_run (cfg : MuxConfig) (p : Nat) (eh dh : Headers) (s : MuxState)
    (h : s.pairs p = {}) :
    ∃ n, Leads cfg s
      (.client p (.openBegin eh dh) :: List.replicate n (.client p .openStep))
      (Answered p (openStreamPair cfg p eh dh s.shared)) := by
  unfold openStreamPair
  by_cases hc : s.shared.cancelled = true
  · rw [if_pos hc]
    refine ⟨0, ?_⟩
    apply Leads.client
    · show Pair.openBegin eh dh s.shared (s.pairs p) = _
      rw [h, Pair.openBegin, if_pos rfl, if_pos (.inl hc)]
    intro u hu hp
    exact ⟨u, rfl, Answered.refused hu hp rfl⟩
  by_cases hg : s.shared.goawayReceived = true
  · rw [if_neg hc, if_pos hg]
    refine ⟨0, ?_⟩
    apply Leads.client
    · show Pair.openBegin eh dh s.shared (s.pairs p) = _
      rw [h, Pair.openBegin, if_pos rfl, if_pos (.inr hg)]
    intro u hu hp
    exact ⟨u, rfl, Answered.refused hu hp rfl⟩
  rw [if_neg hc, if_neg hg]
  have hbegin : Pair.openBegin eh dh s.shared (s.pairs p) = some
      ({ s.shared with activePairs := s.shared.activePairs + 1 },
        { phase := .checkOperating s.shared.activePairs,
          errorHeaders := eh, dataHeaders := dh }) := by
    rw [h, Pair.openBegin, if_pos rfl, if_neg (fun hx => hx.elim hc hg)]
  by_cases ho : operatingLimit cfg s.shared ≤ UInt32.ofNat s.shared.activePairs
  · refine ⟨2, Leads.client hbegin fun u hu hp => ?_⟩
    apply Leads.client
    · show Pair.openStep cfg p u.shared (u.pairs p) = _
      rw [hp, hu]
      exact if_pos ho
    intro v hv hp
    apply Leads.client
    · show Pair.openStep cfg p v.shared (v.pairs p) = _
      rw [hp, hv]
      rfl
    intro w hw hp
    have hlimit : (operatingLimit cfg { s.shared with
        activePairs := s.shared.activePairs + 1 } ≤ UInt32.ofNat s.shared.activePairs) := ho
    simp only [if_pos hlimit]
    exact ⟨w, rfl, Answered.refused hw hp rfl⟩
  by_cases hh : hardLimit cfg s.shared ≤ UInt32.ofNat s.shared.activePairs
  all_goals
    refine ⟨3, Leads.client hbegin fun u hu hp => ?_⟩
    apply Leads.client
    · show Pair.openStep cfg p u.shared (u.pairs p) = _
      rw [hp, hu]
      exact if_neg ho
    intro v hv hp
    have hoperating : ¬ (operatingLimit cfg { s.shared with
        activePairs := s.shared.activePairs + 1 } ≤ UInt32.ofNat s.shared.activePairs) := ho
    simp only [if_neg hoperating]
  · apply Leads.client
    · show Pair.openStep cfg p v.shared (v.pairs p) = _
      rw [hp, hv]
      exact if_pos hh
    intro w hw hp
    apply Leads.client
    · show Pair.openStep cfg p w.shared (w.pairs p) = _
      rw [hp, hw]
      rfl
    intro t ht hp
    have hlimit : (hardLimit cfg { s.shared with
        activePairs := s.shared.activePairs + 1 } ≤ UInt32.ofNat s.shared.activePairs) := hh
    simp only [if_pos hlimit]
    exact ⟨t, rfl, Answered.refused ht hp rfl⟩
  · apply Leads.client
    · show Pair.openStep cfg p v.shared (v.pairs p) = _
      rw [hp, hv]
      exact if_neg hh
    intro w hw hp
    apply Leads.client
    · show Pair.openStep cfg p w.shared (w.pairs p) = _
      rw [hp, hw]
      rfl
    intro t ht hp
    have hlimit : ¬ (hardLimit cfg { s.shared with
        activePairs := s.shared.activePairs + 1 } ≤ UInt32.ofNat s.shared.activePairs) := hh
    simp only [if_neg hlimit]
    refine ⟨t, rfl, ht, ?_, ?_⟩
    · rw [hp]
      rfl
    · intro pr hpr
      cases hpr
      exact hp

/-! ## The pool -/

def U64_MAX : Nat := 2 ^ 64 - 1

/-- One connection of the pool: its memory, how many pairs were opened on it,
which names the next one, and its round-trip estimate. -/
structure Member where
  shared : Shared
  opened : Nat
  rttNs : UInt64

/-- `HandleMetrics::record_rtt`: a new peak is adopted, anything else decays. -/
def recordRtt (elapsedNs prev : UInt64) : UInt64 :=
  if prev < elapsedNs then elapsedNs else prev / 10 * 9 + elapsedNs / 10

/-- `Session::handle_cost`, with both operations saturating. -/
def Member.cost (m : Member) : Nat :=
  if m.shared.cancelled then U64_MAX
  else min (m.rttNs.toNat * min (m.shared.activePairs + 1) U64_MAX) U64_MAX

structure Session where
  cfg : MuxConfig
  pool : List Member
  next : UInt64

namespace Session

def setMember (s : Session) (idx : Nat) (m : Member) : Session :=
  { s with pool := s.pool.set idx m }

/-- `self.next.fetch_add(1)`. -/
def bump (s : Session) : Session := { s with next := s.next + 1 }

/-- `handle_cost`; an index is always one of the pool. -/
def handleCost (s : Session) (idx : Nat) : Nat :=
  match s.pool[idx]? with
  | some m => m.cost
  | none => U64_MAX

/-- The indices `pick_two` computes from its seed. -/
def pickTwo (seed : UInt64) (poolSize : Nat) : Nat × Nat :=
  let a := seed.toNat % poolSize
  let b := (seed * 6364136223846793005 + 1).toNat % poolSize
  if a = b then (a, (a + 1) % poolSize) else (a, b)

/-- `try_open`.  `elapsedNs` is what the clock says a successful open took. -/
def tryOpen (s : Session) (idx : Nat) (errorHeaders dataHeaders : Headers)
    (elapsedNs : UInt64) : Except OpenError (Option Pair) × Session :=
  match s.pool[idx]? with
  | none => (.ok none, s)
  | some m =>
      if m.shared.cancelled then (.ok none, s)
      else match openStreamPair s.cfg m.opened errorHeaders dataHeaders m.shared with
      | (.ok pr, sh) =>
          (.ok (some pr), s.setMember idx
            { shared := sh, opened := m.opened + 1, rttNs := recordRtt elapsedNs m.rttNs })
      | (.error (.capacityExhausted _ _), sh) =>
          (.ok none, s.setMember idx { m with shared := sh })
      | (.error e, sh) => (.error e, s.setMember idx { m with shared := sh })

/-- The loop over the two picks. -/
def openPreferred (errorHeaders dataHeaders : Headers) (elapsedNs : UInt64) :
    List Nat → Session → Except OpenError (Option Pair) × Session
  | [], s => (.ok none, s)
  | idx :: rest, s =>
      match s.tryOpen idx errorHeaders dataHeaders elapsedNs with
      | (.ok none, s) => openPreferred errorHeaders dataHeaders elapsedNs rest s
      | r => r

/-- `capacity`: the hard caps of the live members. -/
def capacity (s : Session) : Nat :=
  ((s.pool.filter fun m => !m.shared.cancelled).map
    fun m => (hardLimit s.cfg m.shared).toNat).sum

/-- `in_use`: the pairs of all members, live or not. -/
def inUse (s : Session) : Nat := (s.pool.map fun m => m.shared.activePairs).sum

def available (s : Session) : Nat := s.capacity - s.inUse

def isFull (s : Session) : Bool :=
  s.pool.all fun m =>
    m.shared.cancelled || decide ((hardLimit s.cfg m.shared).toNat ≤ m.shared.activePairs)

/-- The round-robin scan, with `rounds` rounds to go. -/
def scan (errorHeaders dataHeaders : Headers) (elapsedNs : UInt64) :
    Nat → Session → Except OpenError Pair × Session
  | 0, s => (.error (.capacityExhausted s.inUse (UInt32.ofNat s.capacity)), s)
  | rounds + 1, s =>
      let idx := s.next.toNat % s.pool.length
      match s.bump.tryOpen idx errorHeaders dataHeaders elapsedNs with
      | (.ok (some pr), s) => (.ok pr, s)
      | (.ok none, s) => scan errorHeaders dataHeaders elapsedNs rounds s
      | (.error e, s) => (.error e, s)

/-- The two picks, the cheaper one first. -/
def preferred (s : Session) (seed : UInt64) : List Nat :=
  let (a, b) := pickTwo seed s.pool.length
  if s.handleCost a ≤ s.handleCost b then [a, b] else [b, a]

/-- `Session::open_stream_pair`. -/
def openStreamPair (s : Session) (errorHeaders dataHeaders : Headers)
    (elapsedNs : UInt64) : Except OpenError Pair × Session :=
  let poolSize := s.pool.length
  if 2 ≤ poolSize then
    match openPreferred errorHeaders dataHeaders elapsedNs (s.preferred s.next) s.bump with
    | (.ok (some pr), s) => (.ok pr, s)
    | (.error e, s) => (.error e, s)
    | (.ok none, s) => scan errorHeaders dataHeaders elapsedNs poolSize s
  else scan errorHeaders dataHeaders elapsedNs poolSize s

end Session

/-! ## Which members a call visits -/

/-- The member passes every check of the admission as the code computes it,
with the counter cut to 32 bits. -/
def Member.Serves (cfg : MuxConfig) (m : Member) : Prop :=
  m.shared.cancelled = false ∧ m.shared.goawayReceived = false ∧
    UInt32.ofNat m.shared.activePairs < operatingLimit cfg m.shared ∧
    UInt32.ofNat m.shared.activePairs < hardLimit cfg m.shared

/-- GOAWAY was received and the transport is still open. -/
def Member.GoingAway (m : Member) : Prop :=
  m.shared.cancelled = false ∧ m.shared.goawayReceived = true

/-- Not closed, no GOAWAY, and the pairs are below both limits. -/
def Member.Healthy (cfg : MuxConfig) (m : Member) : Prop :=
  m.shared.cancelled = false ∧ m.shared.goawayReceived = false ∧
    m.shared.activePairs < (operatingLimit cfg m.shared).toNat ∧
    m.shared.activePairs < (hardLimit cfg m.shared).toNat

namespace Session

def ServesAt (s : Session) (idx : Nat) : Prop :=
  ∃ m, s.pool[idx]? = some m ∧ m.Serves s.cfg

def GoingAwayAt (s : Session) (idx : Nat) : Prop :=
  ∃ m, s.pool[idx]? = some m ∧ m.GoingAway

/-- The indices the scan computes from the counter, which wraps. -/
def scanned (poolSize : Nat) : Nat → UInt64 → List Nat
  | 0, _ => []
  | rounds + 1, counter =>
      counter.toNat % poolSize :: scanned poolSize rounds (counter + 1)

/-- The members a call visits, in order: the two picks of a pool with several
members, the cheaper first, then as many consecutive values of the counter as
the pool has members. -/
def visits (s : Session) : List Nat :=
  if 2 ≤ s.pool.length then
    s.preferred s.next ++ scanned s.pool.length s.pool.length (s.next + 1)
  else scanned s.pool.length s.pool.length s.next

end Session

/-- Some element with `P` comes before every element with `Q`. -/
def ComesFirst (P Q : Nat → Prop) (l : List Nat) : Prop :=
  ∃ pre i post, l = pre ++ i :: post ∧ P i ∧ ∀ j ∈ pre, ¬ Q j

theorem not_comesFirst_nil (P Q : Nat → Prop) : ¬ ComesFirst P Q [] := by
  rintro ⟨pre, i, post, h, -⟩
  simp at h

theorem comesFirst_cons {P Q : Nat → Prop} {i : Nat} {l : List Nat} :
    ComesFirst P Q (i :: l) ↔ P i ∨ (¬ Q i ∧ ComesFirst P Q l) := by
  constructor
  · rintro ⟨pre, j, post, h, hj, hpre⟩
    cases pre with
    | nil =>
        cases h
        exact .inl hj
    | cons k pre =>
        cases h
        exact .inr ⟨hpre i (by simp), pre, j, post, rfl, hj,
          fun x hx => hpre x (List.mem_cons_of_mem i hx)⟩
  · rintro (hi | ⟨hi, pre, j, post, rfl, hj, hpre⟩)
    · exact ⟨[], i, l, rfl, hi, by simp⟩
    · refine ⟨i :: pre, j, post, rfl, hj, fun x hx => ?_⟩
      rcases List.mem_cons.mp hx with rfl | hx
      · exact hi
      · exact hpre x hx

/-! ## What one visit does -/

theorem openStreamPair_serves {cfg : MuxConfig} (p : Nat) (eh dh : Headers) {m : Member}
    (h : m.Serves cfg) : ∃ pr sh, openStreamPair cfg p eh dh m.shared = (.ok pr, sh) := by
  obtain ⟨hc, hg, ho, hh⟩ := h
  have ho' : ¬ operatingLimit cfg { m.shared with activePairs := m.shared.activePairs + 1 } ≤
      UInt32.ofNat m.shared.activePairs := UInt32.not_le.mpr ho
  have hh' : ¬ hardLimit cfg { m.shared with activePairs := m.shared.activePairs + 1 } ≤
      UInt32.ofNat m.shared.activePairs := UInt32.not_le.mpr hh
  unfold openStreamPair
  rw [if_neg (by simp [hc]), if_neg (by simp [hg])]
  simp only [if_neg ho', if_neg hh']
  exact ⟨_, _, rfl⟩

theorem openStreamPair_goingAway (cfg : MuxConfig) (p : Nat) (eh dh : Headers) {m : Member}
    (h : m.GoingAway) :
    openStreamPair cfg p eh dh m.shared = (.error .muxClosed, m.shared) := by
  simp [openStreamPair, h.1, h.2]

/-- A member that is at a limit is left as it was. -/
theorem openStreamPair_full {cfg : MuxConfig} (p : Nat) (eh dh : Headers) {m : Member}
    (hc : m.shared.cancelled = false) (hg : m.shared.goawayReceived = false)
    (h : ¬ m.Serves cfg) :
    ∃ inUse limit, openStreamPair cfg p eh dh m.shared =
      (.error (.capacityExhausted inUse limit), m.shared) := by
  unfold openStreamPair
  rw [if_neg (by simp [hc]), if_neg (by simp [hg])]
  by_cases ho : operatingLimit cfg { m.shared with activePairs := m.shared.activePairs + 1 } ≤
      UInt32.ofNat m.shared.activePairs
  · simp only [if_pos ho]
    exact ⟨_, _, rfl⟩
  · have hh : hardLimit cfg { m.shared with activePairs := m.shared.activePairs + 1 } ≤
        UInt32.ofNat m.shared.activePairs := by
      apply UInt32.not_lt.mp
      intro hlt
      exact h ⟨hc, hg, UInt32.not_le.mp ho, hlt⟩
    simp only [if_neg ho, if_pos hh]
    exact ⟨_, _, rfl⟩

namespace Session

variable {s : Session} {idx : Nat} (eh dh : Headers) (elapsed : UInt64)

theorem setMember_self {m : Member} (h : s.pool[idx]? = some m) : s.setMember idx m = s := by
  have hset : s.pool.set idx m = s.pool := by
    apply List.ext_getElem?
    intro k
    rw [List.getElem?_set]
    split
    · next hk =>
        subst hk
        rw [h, if_pos (List.getElem?_eq_some_iff.mp h).1]
    · rfl
  simp [setMember, hset]

theorem tryOpen_serves (h : s.ServesAt idx) :
    ∃ pr s', s.tryOpen idx eh dh elapsed = (.ok (some pr), s') := by
  obtain ⟨m, hm, hserves⟩ := h
  obtain ⟨pr, sh, hopen⟩ := openStreamPair_serves m.opened eh dh hserves
  simp [tryOpen, hm, hserves.1, hopen]

theorem tryOpen_goingAway (h : s.GoingAwayAt idx) :
    ∃ e, s.tryOpen idx eh dh elapsed = (.error e, s) := by
  obtain ⟨m, hm, haway⟩ := h
  refine ⟨.muxClosed, ?_⟩
  simp only [tryOpen, hm, haway.1, openStreamPair_goingAway s.cfg m.opened eh dh haway,
    Bool.false_eq_true, if_false]
  exact congrArg (Prod.mk _) (setMember_self hm)

theorem tryOpen_skips (hserves : ¬ s.ServesAt idx) (haway : ¬ s.GoingAwayAt idx) :
    s.tryOpen idx eh dh elapsed = (.ok none, s) := by
  cases hm : s.pool[idx]? with
  | none => simp [tryOpen, hm]
  | some m =>
      by_cases hc : m.shared.cancelled = true
      · simp [tryOpen, hm, hc]
      · have hc' : m.shared.cancelled = false := by simpa using hc
        have hg : m.shared.goawayReceived = false := by
          by_contra hg
          exact haway ⟨m, hm, hc', by simpa using hg⟩
        have hnot : ¬ m.Serves s.cfg := fun hx => hserves ⟨m, hm, hx⟩
        obtain ⟨inUse, limit, hopen⟩ := openStreamPair_full m.opened eh dh hc' hg hnot
        simp only [tryOpen, hm, hc', hopen, Bool.false_eq_true, if_false]
        exact congrArg (Prod.mk _) (setMember_self hm)

/-! ## The loops -/

/-- The picks either serve, or end the call, or are both passed over. -/
theorem openPreferred_cases (l : List Nat) (s : Session) :
    (ComesFirst s.ServesAt s.GoingAwayAt l ∧
      ∃ pr s', openPreferred eh dh elapsed l s = (.ok (some pr), s')) ∨
    ((∀ l', ¬ ComesFirst s.ServesAt s.GoingAwayAt (l ++ l')) ∧
      ∃ e, openPreferred eh dh elapsed l s = (.error e, s)) ∨
    ((∀ l', ComesFirst s.ServesAt s.GoingAwayAt (l ++ l') ↔
        ComesFirst s.ServesAt s.GoingAwayAt l') ∧
      openPreferred eh dh elapsed l s = (.ok none, s)) := by
  induction l with
  | nil => exact .inr (.inr ⟨fun l' => Iff.rfl, rfl⟩)
  | cons idx l ih =>
      by_cases hserves : s.ServesAt idx
      · obtain ⟨pr, s', hopen⟩ := tryOpen_serves eh dh elapsed hserves
        exact .inl ⟨comesFirst_cons.mpr (.inl hserves), pr, s', by
          simp only [openPreferred]; rw [hopen]⟩
      by_cases haway : s.GoingAwayAt idx
      · obtain ⟨e, hopen⟩ := tryOpen_goingAway eh dh elapsed haway
        refine .inr (.inl ⟨fun l' hx => ?_, e, by simp only [openPreferred]; rw [hopen]⟩)
        rcases comesFirst_cons.mp hx with hx | hx
        · exact hserves hx
        · exact hx.1 haway
      have hskip := tryOpen_skips eh dh elapsed hserves haway
      have hcons : ∀ l', ComesFirst s.ServesAt s.GoingAwayAt (idx :: l') ↔
          ComesFirst s.ServesAt s.GoingAwayAt l' := by
        intro l'
        rw [comesFirst_cons]
        simp [hserves, haway]
      have hopen : openPreferred eh dh elapsed (idx :: l) s =
          openPreferred eh dh elapsed l s := by
        simp only [openPreferred]; rw [hskip]
      rw [hopen]
      simpa only [List.cons_append, hcons] using ih

/-- The scan succeeds when the counter reaches a member with room before one
that is going away. -/
theorem scan_ok_iff (rounds : Nat) (s : Session) :
    (∃ pr, (scan eh dh elapsed rounds s).1 = .ok pr) ↔
      ComesFirst s.ServesAt s.GoingAwayAt (scanned s.pool.length rounds s.next) := by
  induction rounds generalizing s with
  | zero => simp [scan, scanned, not_comesFirst_nil]
  | succ rounds ih =>
      rw [scanned, comesFirst_cons]
      by_cases hserves : s.bump.ServesAt (s.next.toNat % s.pool.length)
      · obtain ⟨pr, s', hopen⟩ := tryOpen_serves eh dh elapsed hserves
        constructor
        · intro _
          exact .inl hserves
        · intro _
          exact ⟨pr, by simp only [scan]; rw [hopen]⟩
      by_cases haway : s.bump.GoingAwayAt (s.next.toNat % s.pool.length)
      · obtain ⟨e, hopen⟩ := tryOpen_goingAway eh dh elapsed haway
        constructor
        · rintro ⟨pr, hpr⟩
          simp only [scan] at hpr
          rw [hopen] at hpr
          cases hpr
        · rintro (hx | hx)
          · exact absurd hx hserves
          · exact absurd haway hx.1
      have hskip := tryOpen_skips eh dh elapsed hserves haway
      have hscan : scan eh dh elapsed (rounds + 1) s = scan eh dh elapsed rounds s.bump := by
        simp only [scan]; rw [hskip]
      rw [hscan, ih s.bump]
      constructor
      · intro hx
        exact .inr ⟨haway, hx⟩
      · rintro (hx | hx)
        · exact absurd hx hserves
        · exact hx.2

/-- The call succeeds exactly when a visited member with room comes before
every visited one that is going away. -/
theorem openStreamPair_ok_iff (s : Session) :
    (∃ pr, (s.openStreamPair eh dh elapsed).1 = .ok pr) ↔
      ComesFirst s.ServesAt s.GoingAwayAt s.visits := by
  unfold openStreamPair visits
  by_cases hsize : 2 ≤ s.pool.length
  · simp only [if_pos hsize]
    rcases openPreferred_cases eh dh elapsed (s.preferred s.next) s.bump with
      ⟨hfirst, pr, s', hopen⟩ | ⟨hnever, e, hopen⟩ | ⟨hrest, hopen⟩
    · rw [hopen]
      refine ⟨fun _ => ?_, fun _ => ⟨pr, rfl⟩⟩
      obtain ⟨pre, i, post, h, hi, hpre⟩ := hfirst
      refine ⟨pre, i, post ++ scanned s.pool.length s.pool.length (s.next + 1), ?_, hi, hpre⟩
      rw [h]
      simp
    · rw [hopen]
      constructor
      · rintro ⟨pr, hpr⟩
        cases hpr
      · intro hx
        exact absurd hx (hnever _)
    · rw [hopen]
      rw [scan_ok_iff]
      exact (hrest _).symm
  · simp only [if_neg hsize]
    exact scan_ok_iff eh dh elapsed _ s

end Session

theorem Member.Healthy.serves {cfg : MuxConfig} {m : Member} (h : m.Healthy cfg) :
    m.Serves cfg := by
  obtain ⟨hc, hg, ho, hh⟩ := h
  have hlt : m.shared.activePairs < 2 ^ 32 :=
    lt_trans ho (operatingLimit cfg m.shared).toNat_lt
  have heq : (UInt32.ofNat m.shared.activePairs).toNat = m.shared.activePairs :=
    UInt32.toNat_ofNat_of_lt' hlt
  refine ⟨hc, hg, ?_, ?_⟩
  · rw [UInt32.lt_iff_toNat_lt, heq]
    exact ho
  · rw [UInt32.lt_iff_toNat_lt, heq]
    exact hh

/-- A session that has a healthy member opens a new pair exactly when, in the
order in which the call visits the members, one with room comes before every
open member that has received GOAWAY. -/
theorem open_serves_healthy_iff (s : Session) (eh dh : Headers) (elapsed : UInt64) :
    ((∃ m ∈ s.pool, m.Healthy s.cfg) → ∃ pr, (s.openStreamPair eh dh elapsed).1 = .ok pr) ↔
      ((∀ m ∈ s.pool, ¬ m.Healthy s.cfg) ∨
        ComesFirst s.ServesAt s.GoingAwayAt s.visits) := by
  rw [Session.openStreamPair_ok_iff]
  constructor
  · intro h
    by_cases hm : ∃ m ∈ s.pool, m.Healthy s.cfg
    · exact .inr (h hm)
    · refine .inl fun m hmem hx => hm ⟨m, hmem, hx⟩
  · rintro (h | h) ⟨m, hmem, hx⟩
    · exact absurd hx (h m hmem)
    · exact h

/-- A fresh connection as a member of a pool. -/
def Member.fresh (cfg : MuxConfig) : Member :=
  { shared := Shared.init cfg, opened := 0, rttNs := 1000000 }

/-- Two idle members, the first of which has received GOAWAY. -/
def halfGone : Session where
  cfg := MuxConfig.default
  pool :=
    [{ Member.fresh MuxConfig.default with
        shared := { Shared.init MuxConfig.default with goawayReceived := true } },
      Member.fresh MuxConfig.default]
  next := 0

/-- A member that is going away ends the call although another one is idle. -/
theorem goaway_member_ends_open :
    ¬ ∀ (s : Session) (eh dh : Headers) (elapsed : UInt64),
      (∃ m ∈ s.pool, m.Healthy s.cfg) →
        ∃ pr, (s.openStreamPair eh dh elapsed).1 = .ok pr := by
  intro h
  have hhealthy : ∃ m ∈ halfGone.pool, m.Healthy halfGone.cfg :=
    ⟨Member.fresh MuxConfig.default, by simp [halfGone], by decide, by decide, by decide,
      by decide⟩
  have hclosed : (halfGone.openStreamPair [] [] 0).1 = .error .muxClosed := rfl
  obtain ⟨pr, hpr⟩ := h halfGone [] [] 0 hhealthy
  rw [hclosed] at hpr
  cases hpr

/-! ## Fullness -/

namespace Session

/-- No attempt to open a pair is in progress, so every counter is the number
of pairs granted and not yet dropped, which the local limits bound. -/
def Quiescent (s : Session) : Prop :=
  ∀ m ∈ s.pool, m.shared.activePairs ≤ s.cfg.operatingMaxStreams.toNat ∧
    m.shared.activePairs ≤ s.cfg.maxConcurrentStreams.toNat

/-- Slots below the hard limits of the live members. -/
def freeSlots (s : Session) : Nat :=
  (s.pool.map fun m =>
    if m.shared.cancelled then 0
    else (hardLimit s.cfg m.shared).toNat - m.shared.activePairs).sum

/-- Pairs held on closed members, and pairs of live members above a hard limit
that was lowered under them. -/
def strandedPairs (s : Session) : Nat :=
  (s.pool.map fun m =>
    if m.shared.cancelled then m.shared.activePairs
    else m.shared.activePairs - (hardLimit s.cfg m.shared).toNat).sum

theorem capacity_add_strandedPairs (s : Session) :
    s.capacity + s.strandedPairs = s.inUse + s.freeSlots := by
  unfold capacity strandedPairs inUse freeSlots
  generalize s.pool = pool
  induction pool with
  | nil => rfl
  | cons m pool ih =>
      cases hc : m.shared.cancelled with
      | true =>
          simp only [List.filter_cons, List.map_cons, List.sum_cons, hc, Bool.not_true,
            Bool.false_eq_true, if_false, if_true]
          omega
      | false =>
          simp only [List.filter_cons, List.map_cons, List.sum_cons, hc, Bool.not_false,
            Bool.false_eq_true, if_false, if_true]
          have hmember : ∀ limit active : Nat,
              limit + (active - limit) = active + (limit - active) := by omega
          have := hmember (hardLimit s.cfg m.shared).toNat m.shared.activePairs
          omega

theorem available_pos_iff (s : Session) : 0 < s.available ↔ s.strandedPairs < s.freeSlots := by
  have h := s.capacity_add_strandedPairs
  unfold available
  omega

/-- A live member is below its hard limit. -/
def HasRoom (s : Session) : Prop :=
  ∃ m ∈ s.pool, m.shared.cancelled = false ∧
    m.shared.activePairs < (hardLimit s.cfg m.shared).toNat

theorem isFull_eq_false_iff (s : Session) : s.isFull = false ↔ s.HasRoom := by
  simp [isFull, HasRoom]

theorem hasRoom_of_available (s : Session) (h : s.strandedPairs < s.freeSlots) :
    s.HasRoom := by
  by_contra hnone
  have hzero : s.freeSlots = 0 := by
    unfold freeSlots
    rw [List.sum_eq_zero_iff_forall_eq_nat]
    intro x hx
    obtain ⟨m, hm, rfl⟩ := List.mem_map.mp hx
    split
    · rfl
    · next hc =>
        by_contra hpos
        exact hnone ⟨m, hm, by simpa using hc,
          Nat.lt_of_sub_pos (Nat.pos_of_ne_zero hpos)⟩
  omega

/-- A visited member that is healthy. -/
def VisitsHealthy (s : Session) : Prop :=
  ∃ idx ∈ s.visits, ∃ m, s.pool[idx]? = some m ∧ m.Healthy s.cfg

end Session

/-- A counter within 32 bits is not cut, so the code's admission is the plain one. -/
theorem Member.Serves.healthy {cfg : MuxConfig} {m : Member} (h : m.Serves cfg)
    (hlt : m.shared.activePairs < 2 ^ 32) : m.Healthy cfg := by
  obtain ⟨hc, hg, ho, hh⟩ := h
  have heq : (UInt32.ofNat m.shared.activePairs).toNat = m.shared.activePairs :=
    UInt32.toNat_ofNat_of_lt' hlt
  rw [UInt32.lt_iff_toNat_lt, heq] at ho hh
  exact ⟨hc, hg, ho, hh⟩

theorem Session.open_ok_iff_of_quiescent (s : Session) (eh dh : Headers) (elapsed : UInt64)
    (hq : s.Quiescent) (hg : ∀ m ∈ s.pool, ¬ m.GoingAway) :
    (∃ pr, (s.openStreamPair eh dh elapsed).1 = .ok pr) ↔ s.VisitsHealthy := by
  rw [Session.openStreamPair_ok_iff]
  constructor
  · rintro ⟨pre, i, post, hvisits, ⟨m, hm, hserves⟩, -⟩
    have hlt : m.shared.activePairs < 2 ^ 32 :=
      lt_of_le_of_lt (hq m (List.mem_of_getElem? hm)).1 (UInt32.toNat_lt _)
    exact ⟨i, by rw [hvisits]; simp, m, hm, hserves.healthy hlt⟩
  · rintro ⟨i, hi, m, hm, hhealthy⟩
    obtain ⟨pre, post, hvisits⟩ := List.append_of_mem hi
    refine ⟨pre, i, post, hvisits, ⟨m, hm, hhealthy.serves⟩, ?_⟩
    rintro j - ⟨m', hm', haway⟩
    exact hg m' (List.mem_of_getElem? hm') haway

theorem Session.hasRoom_of_visitsHealthy {s : Session} (h : s.VisitsHealthy) :
    s.HasRoom := by
  obtain ⟨i, -, m, hm, hhealthy⟩ := h
  exact ⟨m, List.mem_of_getElem? hm, hhealthy.1, hhealthy.2.2.2⟩

/-- In a quiescent session without GOAWAY, `is_full`, `available` and the open
path agree exactly when no live member is below its hard limit, or a visited
member is below its operating limit too and the free slots outnumber the
stranded pairs. -/
theorem fullness_agrees_iff (s : Session) (eh dh : Headers) (elapsed : UInt64)
    (hq : s.Quiescent) (hg : ∀ m ∈ s.pool, ¬ m.GoingAway) :
    ((s.isFull = false ↔ ∃ pr, (s.openStreamPair eh dh elapsed).1 = .ok pr) ∧
        (0 < s.available ↔ s.isFull = false)) ↔
      (¬ s.HasRoom ∨ (s.VisitsHealthy ∧ s.strandedPairs < s.freeSlots)) := by
  rw [s.open_ok_iff_of_quiescent eh dh elapsed hq hg, s.isFull_eq_false_iff,
    s.available_pos_iff]
  constructor
  · rintro ⟨hopen, havail⟩
    by_cases hroom : s.HasRoom
    · exact .inr ⟨hopen.mp hroom, havail.mpr hroom⟩
    · exact .inl hroom
  · rintro (hfull | ⟨hvisit, hfree⟩)
    · refine ⟨⟨fun h => absurd h hfull, fun h => absurd (Session.hasRoom_of_visitsHealthy h) hfull⟩,
        ⟨fun h => absurd (s.hasRoom_of_available h) hfull, fun h => absurd h hfull⟩⟩
    · have hroom := s.hasRoom_of_available hfree
      exact ⟨⟨fun _ => hvisit, fun _ => hroom⟩, ⟨fun _ => hroom, fun _ => hfree⟩⟩

/-- A session of one member that carries `n` pairs. -/
def carrying (n : Nat) : Session where
  cfg := MuxConfig.default
  pool := [{ Member.fresh MuxConfig.default with
    shared := { Shared.init MuxConfig.default with activePairs := n } }]
  next := 0

theorem carrying_quiescent (n : Nat) (h : n ≤ 64) : (carrying n).Quiescent := by
  intro m hm
  simp only [carrying, List.mem_singleton] at hm
  subst hm
  exact ⟨h, Nat.le_trans h (show 64 ≤ 100 by decide)⟩

theorem carrying_noGoAway (n : Nat) : ∀ m ∈ (carrying n).pool, ¬ m.GoingAway := by
  intro m hm haway
  simp only [carrying, List.mem_singleton] at hm
  subst hm
  exact Bool.false_ne_true haway.2

theorem fullness_agrees_carrying :
    ((carrying 63).isFull = false ↔
        ∃ pr, ((carrying 63).openStreamPair [] [] 0).1 = .ok pr) ∧
      (0 < (carrying 63).available ↔ (carrying 63).isFull = false) := by
  apply (fullness_agrees_iff (carrying 63) [] [] 0 (carrying_quiescent 63 (by decide))
    (carrying_noGoAway 63)).mpr
  refine .inr ⟨⟨0, by decide, _, rfl, by decide, by decide, by decide, by decide⟩, by decide⟩

/-- At the operating limit the session still says it is not full. -/
theorem not_full_refuses_open :
    ¬ ∀ (s : Session) (eh dh : Headers) (elapsed : UInt64),
      s.Quiescent → (∀ m ∈ s.pool, ¬ m.GoingAway) →
        ((s.isFull = false ↔ ∃ pr, (s.openStreamPair eh dh elapsed).1 = .ok pr) ∧
          (0 < s.available ↔ s.isFull = false)) := by
  intro h
  have hagree := h (carrying 64) [] [] 0 (carrying_quiescent 64 (by decide))
    (carrying_noGoAway 64)
  have hnotFull : (carrying 64).isFull = false := by decide
  have hrefused : ((carrying 64).openStreamPair [] [] 0).1 =
      .error (.capacityExhausted 64 100) := rfl
  obtain ⟨pr, hpr⟩ := hagree.1.mp hnotFull
  rw [hrefused] at hpr
  cases hpr

end KubePortForward.Mux
