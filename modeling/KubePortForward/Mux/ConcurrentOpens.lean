import KubePortForward.Mux.Footprint
import KubePortForward.Mux.Session

/-!
# Concurrent calls of `Session::open_stream_pair`

`Session` runs a call by itself; here any number of calls run at once over the members of
one pool, each cut at its accesses to shared memory: the increments of the counter, the
closed flags, and the attempt on a member, which is the `openBegin` and the `openStep`s
of the pair it would open.  Members close, streams are dropped and SETTINGS change a
member's limit at any time.  No member has received GOAWAY, or a call that reaches one ends
with another error.

The scan takes its indices from a counter that all calls share, two picks included, so
one call's increments need not be consecutive and its scan can come back to a member
before it has seen every other.

## Main results

* `CallOk` — what a call that goes on knows about the members it has left behind.
* `exhaustion_is_real` — a call whose increments follow each other in the ring reports
  exhaustion only if every member was closed or at its limit while it ran.
* `free_member_missed` — two calls of which one misses a member that is free throughout.
-/

namespace KubePortForward.Mux

open KubePortForward.Codec
open KubePortForward.Verified.Transition

/-- What a call returned. -/
inductive OpenReturn where
  | opened
  | muxClosed
  | capacityExhausted
  deriving DecidableEq, Repr

/-- What a call does when the member at hand is unavailable: the rest of its picks, then
the rounds of its scan. -/
inductive OpenRest where
  | preferred (rest : List Nat)
  | scan (rounds : Nat)
  deriving DecidableEq, Repr

/-- The access that a call makes next. -/
inductive OpenPc where
  | idle
  | pick
  | prefer (a b : Nat)
  | scan (rounds : Nat)
  | check (idx : Nat) (rest : OpenRest)
  | attempt (idx : Nat) (rest : OpenRest) (pr : Pair)
  | returned (r : OpenReturn)

/-- The call has begun and has not returned. -/
def OpenPc.running : OpenPc → Bool
  | .idle => false
  | .returned _ => false
  | _ => true

/-- Where the call goes on. -/
def OpenRest.pc (size : Nat) : OpenRest → OpenPc
  | .preferred [] => .scan size
  | .preferred (idx :: rest) => .check idx (.preferred rest)
  | .scan rounds => .scan rounds

/-- One call, with the value of the counter at its last increment for the scan and the
members that were closed or at their limit at some moment since it began. -/
structure OpenCall where
  pc : OpenPc := .idle
  last : Option UInt64 := none
  unavailable : Nat → Bool := fun _ => false

structure PoolState where
  next : UInt64
  members : Nat → Shared
  calls : Nat → OpenCall := fun _ => {}

inductive PoolAct where
  | start (c : Nat)
  | prefer (c : Nat) (swap : Bool)
  | step (c : Nat)
  | close (i : Nat)
  | release (i : Nat)
  | limit (i : Nat) (m : UInt32)
  deriving DecidableEq, Repr

/-- The member is closed or at one of its limits. -/
def Shared.unavailable (cfg : MuxConfig) (sh : Shared) : Bool :=
  sh.cancelled || decide ((operatingLimit cfg sh).toNat ≤ sh.activePairs) ||
    decide ((hardLimit cfg sh).toNat ≤ sh.activePairs)

/-- Every call under way takes note of the members that are unavailable now. -/
def PoolState.observe (cfg : MuxConfig) (s : PoolState) : PoolState :=
  { s with calls := fun c =>
      if (s.calls c).pc.running then
        { s.calls c with unavailable := fun i =>
            (s.calls c).unavailable i || (s.members i).unavailable cfg }
      else s.calls c }

def PoolState.setPc (s : PoolState) (c : Nat) (pc : OpenPc) : PoolState :=
  { s with calls := Function.update s.calls c { s.calls c with pc := pc } }

def PoolState.setMember (s : PoolState) (i : Nat) (sh : Shared) : PoolState :=
  { s with members := Function.update s.members i sh }

/-- The attempt on a member: `MuxHandle::open_stream_pair`.  A refusal for want of room is
"try the next", any other one ends the call. -/
def PoolState.attempt (cfg : MuxConfig) (size c idx : Nat) (rest : OpenRest) (pr : Pair)
    (s : PoolState) : Option PoolState :=
  match pr.phase with
  | .absent =>
      match pr.openBegin [] [] (s.members idx) with
      | none => none
      | some (sh, pr') =>
          if pr'.phase = .refused then some (s.setPc c (.returned .muxClosed))
          else some ((s.setMember idx sh).setPc c (.attempt idx rest pr'))
  | _ =>
      match pr.openStep cfg c (s.members idx) with
      | none => none
      | some (sh, pr') =>
          let s := s.setMember idx sh
          match pr'.phase with
          | .refused => some (s.setPc c (rest.pc size))
          | .unopened => some (s.setPc c (.returned .opened))
          | _ => some (s.setPc c (.attempt idx rest pr'))

/-- The next access of a call. -/
def PoolState.step (cfg : MuxConfig) (size c : Nat) (s : PoolState) : Option PoolState :=
  match (s.calls c).pc with
  | .pick =>
      match Session.pickTwo s.next size with
      | (a, b) => some ({ s with next := s.next + 1 }.setPc c (.prefer a b))
  | .scan 0 => some (s.setPc c (.returned .capacityExhausted))
  | .scan (rounds + 1) =>
      some { s with
        next := s.next + 1
        calls := Function.update s.calls c { s.calls c with
          pc := .check (s.next.toNat % size) (.scan rounds)
          last := some s.next } }
  | .check idx rest =>
      if (s.members idx).cancelled then some (s.setPc c (rest.pc size))
      else some (s.setPc c (.attempt idx rest {}))
  | .attempt idx rest pr => s.attempt cfg size c idx rest pr
  | _ => none

def poolStep (cfg : MuxConfig) (size : Nat) (s : PoolState) (a : PoolAct) : Option PoolState :=
  (match a with
  | .start c =>
      match (s.calls c).pc with
      | .idle => some (s.setPc c (if 2 ≤ size then .pick else .scan size))
      | _ => none
  -- Which of the two picks costs less depends on measured times, so the label says it.
  | .prefer c swap =>
      match (s.calls c).pc with
      | .prefer a b =>
          some (s.setPc c ((OpenRest.preferred (if swap then [b, a] else [a, b])).pc size))
      | _ => none
  | .step c => s.step cfg size c
  | .close i => some (s.setMember i { s.members i with cancelled := true })
  | .release i =>
      if 0 < (s.members i).activePairs then
        some (s.setMember i { s.members i with activePairs := (s.members i).activePairs - 1 })
      else none
  | .limit i m => some (s.setMember i { s.members i with peerMaxConcurrent := m })).map
    (PoolState.observe cfg)

/-- A session over `size` members, with its counter at `next`. -/
def pooled (cfg : MuxConfig) (size : Nat) (next : UInt64) (members : Nat → Shared) :
    System PoolState PoolAct where
  init := { next := next, members := members }
  step := poolStep cfg size

/-! ## A scan in ring order -/

/-- The attempt has incremented the member's counter and not compared it with both limits. -/
def PairPhase.comparing : PairPhase → Bool
  | .checkOperating _ => true
  | .checkHard _ => true
  | _ => false

/-- For call `c` of a pool that its two picks do not exhaust: each increment for its scan
finds the counter at the index after that of the one before.  No limit changes while the
call's attempt on the member compares with it. -/
def InRing (size c : Nat) (s : PoolState) : PoolAct → Prop
  | .step c' => c' = c → size ≠ 2 →
      match (s.calls c).pc, (s.calls c).last with
      | .scan (_ + 1), some v => s.next.toNat % size = (v.toNat + 1) % size
      | _, _ => True
  | .limit i _ =>
      match (s.calls c).pc with
      | .attempt idx _ pr => idx = i → pr.phase.comparing = false
      | _ => True
  | _ => True

instance (size c : Nat) (s : PoolState) (a : PoolAct) : Decidable (InRing size c s a) := by
  unfold InRing
  (repeat' split) <;> infer_instance

/-- After `k` increments of a scan in ring order: they went on from `b`, and the first
`done` members they led to were unavailable. -/
def Ring (size k done : Nat) (call : OpenCall) : Prop :=
  (k = 0 ∧ call.last = none) ∨
    ∃ b v, 0 < k ∧ call.last = some v ∧ v.toNat % size = (b + (k - 1)) % size ∧
      ∀ j, j < done → call.unavailable ((b + j) % size) = true

/-- Before the next round of the scan. -/
def ScanOk (size rounds : Nat) (call : OpenCall) : Prop :=
  (size = 2 → ∀ i < 2, call.unavailable i = true) ∧
    (size ≠ 2 → rounds ≤ size ∧ Ring size (size - rounds) (size - rounds) call)

/-- While the call is at member `idx`, with this to do if it is unavailable. -/
def VisitOk (size idx : Nat) (call : OpenCall) : OpenRest → Prop
  | .preferred rest => call.last = none ∧
      (size = 2 → ∀ i < 2, call.unavailable i = true ∨ i = idx ∨ i ∈ rest)
  | .scan rounds => (size = 2 → ∀ i < 2, call.unavailable i = true) ∧
      (size ≠ 2 → rounds < size ∧ (∃ v, call.last = some v ∧ idx = v.toNat % size) ∧
        Ring size (size - rounds) (size - rounds - 1) call)

/-- What a call knows about the members it has left behind. -/
def CallAt (size : Nat) (call : OpenCall) : Prop :=
  match call.pc with
  | .idle => call.last = none
  | .pick => call.last = none
  | .prefer a b => call.last = none ∧ (size = 2 → ∀ i < 2, i = a ∨ i = b)
  | .scan rounds => ScanOk size rounds call
  | .check idx rest => VisitOk size idx call rest
  | .attempt idx rest _ => VisitOk size idx call rest
  | .returned .capacityExhausted => ∀ i < size, call.unavailable i = true
  | .returned _ => True

/-- If the comparison that is to come refuses the attempt, the member was unavailable. -/
def Compared (cfg : MuxConfig) (sh : Shared) (found : Bool) : PairPhase → Prop
  | .checkOperating prev =>
      operatingLimit cfg sh ≤ UInt32.ofNat prev ∨ hardLimit cfg sh ≤ UInt32.ofNat prev →
        found = true
  | .checkHard prev => hardLimit cfg sh ≤ UInt32.ofNat prev → found = true
  | .undo => found = true
  | _ => True

structure CallOk (cfg : MuxConfig) (size : Nat) (members : Nat → Shared) (call : OpenCall) :
    Prop where
  observed : call.pc.running = true →
    ∀ i, (members i).unavailable cfg = true → call.unavailable i = true
  compared : ∀ idx rest pr, call.pc = .attempt idx rest pr →
    Compared cfg (members idx) (call.unavailable idx) pr.phase
  left : CallAt size call

/-! ## What a call knows stays known -/

theorem Ring.mono {size k done : Nat} {call : OpenCall} (h : Ring size k done call)
    {u : Nat → Bool} (hu : ∀ i, call.unavailable i = true → u i = true) :
    Ring size k done { call with unavailable := u } := by
  rcases h with hzero | ⟨b, v, hk, hlast, hv, hfound⟩
  · exact .inl hzero
  · exact .inr ⟨b, v, hk, hlast, hv, fun j hj => hu _ (hfound j hj)⟩

theorem VisitOk.mono {size idx : Nat} {call : OpenCall} {rest : OpenRest}
    (h : VisitOk size idx call rest) {u : Nat → Bool}
    (hu : ∀ i, call.unavailable i = true → u i = true) :
    VisitOk size idx { call with unavailable := u } rest := by
  cases rest with
  | preferred l =>
      exact ⟨h.1, fun htwo i hi => (h.2 htwo i hi).imp_left (hu i)⟩
  | scan rounds =>
      refine ⟨fun htwo i hi => hu i (h.1 htwo i hi), fun hne => ?_⟩
      obtain ⟨hlt, hlast, hring⟩ := h.2 hne
      exact ⟨hlt, hlast, hring.mono hu⟩

theorem CallAt.mono {size : Nat} {call : OpenCall} (h : CallAt size call) {u : Nat → Bool}
    (hu : ∀ i, call.unavailable i = true → u i = true) :
    CallAt size { call with unavailable := u } := by
  unfold CallAt at h ⊢
  simp only
  split at h
  · exact h
  · exact h
  · exact h
  · refine ⟨fun htwo i hi => hu i (h.1 htwo i hi), fun hne => ?_⟩
    exact ⟨(h.2 hne).1, (h.2 hne).2.mono hu⟩
  · exact VisitOk.mono h hu
  · exact VisitOk.mono h hu
  · exact fun i hi => hu i (h i hi)
  · trivial

theorem Compared.mono {cfg : MuxConfig} {sh sh' : Shared} {found found' : Bool}
    {phase : PairPhase} (h : Compared cfg sh found phase)
    (hlimit : phase.comparing = true → sh'.peerMaxConcurrent = sh.peerMaxConcurrent)
    (hfound : found = true → found' = true) : Compared cfg sh' found' phase := by
  cases phase with
  | checkOperating prev =>
      intro hrefuse
      refine hfound (h ?_)
      simpa only [operatingLimit, hardLimit, limitWith, hlimit rfl] using hrefuse
  | checkHard prev =>
      intro hrefuse
      refine hfound (h ?_)
      simpa only [hardLimit, limitWith, hlimit rfl] using hrefuse
  | undo => exact hfound h
  | _ => trivial

/-- The moment after a step is one of the moments of the call. -/
theorem CallOk.of_observe {cfg : MuxConfig} {size c : Nat} {s : PoolState}
    (hcompared : ∀ idx rest pr, (s.calls c).pc = .attempt idx rest pr →
      Compared cfg (s.members idx) ((s.calls c).unavailable idx) pr.phase)
    (hleft : CallAt size (s.calls c)) :
    CallOk cfg size (s.observe cfg).members ((s.observe cfg).calls c) := by
  simp only [PoolState.observe]
  split
  · refine ⟨fun _ i hi => ?_, fun idx rest pr hpc => ?_, hleft.mono ?_⟩
    · simp only at hi ⊢
      simp [hi]
    · exact (hcompared idx rest pr hpc).mono (fun _ => rfl) (by simp +contextual)
    · simp +contextual
  · next hstop => exact ⟨fun hrun => absurd hrun hstop, hcompared, hleft⟩

/-! ## One round -/

/-- A member that was unavailable is left behind. -/
theorem VisitOk.leave {size idx : Nat} {call : OpenCall} {rest : OpenRest}
    (h : VisitOk size idx call rest) (hfound : call.unavailable idx = true) :
    CallAt size { call with pc := rest.pc size } := by
  cases rest with
  | preferred l =>
      have hleft : size = 2 → ∀ i < 2, call.unavailable i = true ∨ i ∈ l := by
        intro htwo i hi
        rcases h.2 htwo i hi with hold | rfl | hin
        · exact .inl hold
        · exact .inl hfound
        · exact .inr hin
      cases l with
      | nil =>
          refine ⟨fun htwo i hi => (hleft htwo i hi).resolve_right (by simp), fun _ => ?_⟩
          exact ⟨Nat.le_refl size, .inl ⟨Nat.sub_self size, h.1⟩⟩
      | cons j l => exact ⟨h.1, fun htwo i hi => by simpa using hleft htwo i hi⟩
  | scan rounds =>
      refine ⟨h.1, fun hne => ?_⟩
      obtain ⟨hlt, ⟨v, hlast, rfl⟩, hring⟩ := h.2 hne
      refine ⟨Nat.le_of_lt hlt, ?_⟩
      rcases hring with ⟨hzero, -⟩ | ⟨b, v', hk, hlast', hv, hdone⟩
      · omega
      · rw [hlast] at hlast'
        cases hlast'
        refine .inr ⟨b, v, hk, hlast, hv, fun j hj => ?_⟩
        by_cases hend : j = size - rounds - 1
        · subst hend
          rw [← hv]
          exact hfound
        · exact hdone j (by omega)

/-- An increment for the scan leads to the next member of the ring. -/
theorem ScanOk.visit {size rounds : Nat} {call : OpenCall} {next : UInt64}
    (h : ScanOk size (rounds + 1) call)
    (hnext : size ≠ 2 → ∀ v ∈ call.last, next.toNat % size = (v.toNat + 1) % size) :
    VisitOk size (next.toNat % size) { call with last := some next } (.scan rounds) := by
  refine ⟨h.1, fun hne => ?_⟩
  obtain ⟨hle, hring⟩ := h.2 hne
  refine ⟨by omega, ⟨next, rfl, rfl⟩, .inr ?_⟩
  rcases hring with ⟨hzero, -⟩ | ⟨b, v, hk, hlast, hv, hdone⟩
  · refine ⟨next.toNat, next, by omega, rfl, ?_, fun j hj => by omega⟩
    rw [show size - rounds - 1 = 0 by omega, Nat.add_zero]
  · refine ⟨b, next, by omega, rfl, ?_, fun j hj => hdone j (by omega)⟩
    have hstep : b + (size - rounds - 1) = b + (size - (rounds + 1) - 1) + 1 := by omega
    rw [hnext hne v hlast, hstep, Nat.add_mod, hv, ← Nat.add_mod]

/-- Every member is somewhere in the ring. -/
theorem exists_ring_index {size i : Nat} (hi : i < size) (b : Nat) :
    ∃ j, j < size ∧ (b + j) % size = i := by
  have hb : b % size < size := Nat.mod_lt b (by omega)
  by_cases hle : b % size ≤ i
  · refine ⟨i - b % size, by omega, ?_⟩
    rw [← Nat.mod_add_mod, show b % size + (i - b % size) = i by omega, Nat.mod_eq_of_lt hi]
  · refine ⟨i + size - b % size, by omega, ?_⟩
    rw [← Nat.mod_add_mod, show b % size + (i + size - b % size) = i + size by omega,
      Nat.add_mod_right, Nat.mod_eq_of_lt hi]

/-- A scan that is through has left every member behind. -/
theorem ScanOk.all {size : Nat} {call : OpenCall} (h : ScanOk size 0 call) :
    ∀ i < size, call.unavailable i = true := by
  intro i hi
  by_cases htwo : size = 2
  · exact h.1 htwo i (htwo ▸ hi)
  · obtain ⟨-, hring⟩ := h.2 htwo
    rcases hring with ⟨hzero, -⟩ | ⟨b, v, -, -, -, hdone⟩
    · omega
    · obtain ⟨j, hj, rfl⟩ := exists_ring_index hi b
      exact hdone j (by omega)

/-- The two picks of a pool of two are its members. -/
theorem pickTwo_covers (seed : UInt64) {i : Nat} (hi : i < 2) :
    i = (Session.pickTwo seed 2).1 ∨ i = (Session.pickTwo seed 2).2 := by
  unfold Session.pickTwo
  simp only
  split
  · simp only
    omega
  · simp only
    omega

/-! ## One step -/

section

variable {cfg : MuxConfig} {size c : Nat} {s s' : PoolState}

/-- The comparison of the count an attempt found with the limits is one with the state in
which it found it. -/
theorem compared_of_begin {call : OpenCall} {idx : Nat} {members : Nat → Shared}
    (hok : CallOk cfg size members call) (hrun : call.pc.running = true) :
    Compared cfg (members idx) (call.unavailable idx)
      (.checkOperating (members idx).activePairs) := by
  intro hrefuse
  refine hok.observed hrun idx ?_
  have hcast : (UInt32.ofNat (members idx).activePairs).toNat ≤ (members idx).activePairs := by
    rw [UInt32.toNat_ofNat']
    exact Nat.mod_le _ _
  simp only [Shared.unavailable, Bool.or_eq_true, decide_eq_true_eq]
  rcases hrefuse with hlimit | hlimit
  · exact .inl (.inr (Nat.le_trans (UInt32.le_iff_toNat_le.1 hlimit) hcast))
  · exact .inr (Nat.le_trans (UInt32.le_iff_toNat_le.1 hlimit) hcast)

/-- What is known of call `c` before the moment itself is taken note of. -/
def PoolState.Knows (cfg : MuxConfig) (size c : Nat) (s : PoolState) : Prop :=
  (∀ idx rest pr, (s.calls c).pc = .attempt idx rest pr →
    Compared cfg (s.members idx) ((s.calls c).unavailable idx) pr.phase) ∧
  CallAt size (s.calls c)

/-- The call goes on outside an attempt. -/
theorem knows_setPc {pc : OpenPc} (hpc : ∀ idx rest pr, pc ≠ .attempt idx rest pr)
    (hleft : CallAt size { s.calls c with pc := pc }) : (s.setPc c pc).Knows cfg size c := by
  refine ⟨fun idx rest pr h => ?_, ?_⟩
  · simp only [PoolState.setPc, Function.update_self] at h
    exact absurd h (hpc idx rest pr)
  · simpa only [PoolState.setPc, Function.update_self] using hleft

theorem knows_rest {rest : OpenRest} (hleft : CallAt size { s.calls c with pc := rest.pc size }) :
    (s.setPc c (rest.pc size)).Knows cfg size c := by
  refine knows_setPc ?_ hleft
  cases rest with
  | preferred l => cases l <;> simp [OpenRest.pc]
  | scan rounds => simp [OpenRest.pc]

theorem knows_attempt {idx : Nat} {rest : OpenRest} {pr : Pair}
    (hvisit : VisitOk size idx (s.calls c) rest)
    (hcompared : Compared cfg (s.members idx) ((s.calls c).unavailable idx) pr.phase) :
    (s.setPc c (.attempt idx rest pr)).Knows cfg size c := by
  refine ⟨fun idx' rest' pr' h => ?_, ?_⟩
  · simp only [PoolState.setPc, Function.update_self] at h ⊢
    cases h
    exact hcompared
  · simp only [PoolState.setPc, Function.update_self]
    show VisitOk size idx { s.calls c with pc := .attempt idx rest pr } rest
    cases rest <;> exact hvisit

/-- The attempt on a member, one access at a time. -/
theorem knows_of_attempt {idx : Nat} {rest : OpenRest} {pr : Pair}
    (hok : CallOk cfg size s.members (s.calls c)) (hpc : (s.calls c).pc = .attempt idx rest pr)
    (hs : s.attempt cfg size c idx rest pr = some s') : s'.Knows cfg size c := by
  have hvisit : VisitOk size idx (s.calls c) rest := by
    have hleft := hok.left
    rw [CallAt, hpc] at hleft
    exact hleft
  have hcompared := hok.compared idx rest pr hpc
  unfold PoolState.attempt at hs
  split at hs
  · next hphase =>
      simp only [Pair.openBegin, hphase, if_true] at hs
      split at hs
      · contradiction
      · next sh pr' hbegin =>
          split at hbegin
          · cases hbegin
            simp only [if_true] at hs
            cases hs
            exact knows_setPc (by simp) trivial
          · cases hbegin
            simp only [reduceCtorEq, if_false] at hs
            cases hs
            refine knows_attempt hvisit ?_
            have hbegan : Compared cfg (s.members idx) ((s.calls c).unavailable idx)
                (.checkOperating (s.members idx).activePairs) :=
              compared_of_begin hok (by rw [hpc]; rfl)
            simp only [PoolState.setMember, Function.update_self]
            exact hbegan.mono (fun _ => rfl) id
  · cases hphase : pr.phase with
    | checkOperating prev =>
        rw [hphase] at hcompared
        simp only [Pair.openStep, hphase] at hs
        by_cases hlimit : operatingLimit cfg (s.members idx) ≤ UInt32.ofNat prev
        · simp only [if_pos hlimit] at hs
          cases hs
          exact knows_attempt hvisit (hcompared (.inl hlimit))
        · simp only [if_neg hlimit] at hs
          cases hs
          refine knows_attempt hvisit fun hhard => ?_
          simp only [PoolState.setMember, Function.update_self] at hhard
          exact hcompared (.inr hhard)
    | checkHard prev =>
        rw [hphase] at hcompared
        simp only [Pair.openStep, hphase] at hs
        by_cases hlimit : hardLimit cfg (s.members idx) ≤ UInt32.ofNat prev
        · simp only [if_pos hlimit] at hs
          cases hs
          exact knows_attempt hvisit (hcompared hlimit)
        · simp only [if_neg hlimit] at hs
          cases hs
          exact knows_attempt hvisit trivial
    | undo =>
        rw [hphase] at hcompared
        simp only [Pair.openStep, hphase] at hs
        cases hs
        exact knows_rest (hvisit.leave hcompared)
    | granting =>
        simp only [Pair.openStep, hphase] at hs
        cases hs
        exact knows_setPc (by simp) trivial
    | _ => simp [Pair.openStep, hphase] at hs

theorem knows_of_step (hok : CallOk cfg size s.members (s.calls c))
    (hring : InRing size c s (.step c)) (hs : s.step cfg size c = some s') :
    s'.Knows cfg size c := by
  have hleft := hok.left
  unfold CallAt at hleft
  cases hpc : (s.calls c).pc with
  | pick =>
      simp only [PoolState.step, hpc] at hs
      cases hs
      rw [hpc] at hleft
      refine knows_setPc (by simp) ⟨hleft, ?_⟩
      rintro rfl i hi
      exact pickTwo_covers s.next hi
  | scan rounds =>
      rw [hpc] at hleft
      cases rounds with
      | zero =>
          simp only [PoolState.step, hpc] at hs
          cases hs
          exact knows_setPc (by simp) (ScanOk.all hleft)
      | succ rounds =>
          simp only [PoolState.step, hpc] at hs
          cases hs
          refine ⟨fun idx rest pr h => ?_, ?_⟩
          · simp only [Function.update_self] at h
            contradiction
          · simp only [Function.update_self]
            refine ScanOk.visit hleft fun hne v hlast => ?_
            have hnext := hring rfl hne
            rwa [hpc, hlast] at hnext
  | check idx rest =>
      rw [hpc] at hleft
      simp only [PoolState.step, hpc] at hs
      split at hs
      · next hclosed =>
          cases hs
          refine knows_rest (VisitOk.leave hleft ?_)
          refine hok.observed (by rw [hpc]; rfl) idx ?_
          simp [Shared.unavailable, hclosed]
      · cases hs
        exact knows_attempt hleft trivial
  | attempt idx rest pr =>
      simp only [PoolState.step, hpc] at hs
      exact knows_of_attempt hok hpc hs
  | _ => simp [PoolState.step, hpc] at hs

/-- What one task does leaves the calls of the others and the limits of the members. -/
def Elsewhere (c : Nat) (s s' : PoolState) : Prop :=
  s'.calls c = s.calls c ∧
    ∀ i, (s'.members i).peerMaxConcurrent = (s.members i).peerMaxConcurrent

theorem Elsewhere.setPc {c' : Nat} (hne : c ≠ c') (pc : OpenPc) (h : Elsewhere c s s') :
    Elsewhere c s (s'.setPc c' pc) := by
  refine ⟨?_, h.2⟩
  simp only [PoolState.setPc, Function.update_of_ne hne]
  exact h.1

theorem elsewhere_setMember {i : Nat} {sh : Shared}
    (hlimit : sh.peerMaxConcurrent = (s.members i).peerMaxConcurrent) :
    Elsewhere c s (s.setMember i sh) := by
  refine ⟨rfl, fun j => ?_⟩
  by_cases hj : j = i
  · subst hj
    simp only [PoolState.setMember, Function.update_self]
    exact hlimit
  · simp only [PoolState.setMember, Function.update_of_ne hj]

theorem attempt_elsewhere {c' idx : Nat} {rest : OpenRest} {pr : Pair} (hne : c ≠ c')
    (hs : s.attempt cfg size c' idx rest pr = some s') : Elsewhere c s s' := by
  have hsame : Elsewhere c s s := ⟨rfl, fun _ => rfl⟩
  unfold PoolState.attempt at hs
  split at hs
  · split at hs
    · contradiction
    · next sh pr' hbegin =>
        have hfoot : ClientFootprint (s.members idx) sh := client_footprint
          (show clientStep cfg c' (.openBegin [] []) (s.members idx) pr = some (sh, pr') from hbegin)
        split at hs
        · cases hs
          exact hsame.setPc hne _
        · cases hs
          exact (elsewhere_setMember hfoot.peerMaxConcurrent).setPc hne _
  · split at hs
    · contradiction
    · next sh pr' hstep =>
        have hfoot : ClientFootprint (s.members idx) sh := client_footprint
          (show clientStep cfg c' .openStep (s.members idx) pr = some (sh, pr') from hstep)
        simp only at hs
        split at hs <;> cases hs <;>
          exact (elsewhere_setMember hfoot.peerMaxConcurrent).setPc hne _

theorem step_elsewhere {c' : Nat} (hne : c ≠ c') (hs : s.step cfg size c' = some s') :
    Elsewhere c s s' := by
  have hsame : Elsewhere c s s := ⟨rfl, fun _ => rfl⟩
  unfold PoolState.step at hs
  split at hs
  · cases hs
    exact Elsewhere.setPc hne _ ⟨rfl, fun _ => rfl⟩
  · cases hs
    exact hsame.setPc hne _
  · cases hs
    exact ⟨by simp only [Function.update_of_ne hne], fun _ => rfl⟩
  · split at hs <;> cases hs <;> exact hsame.setPc hne _
  · exact attempt_elsewhere hne hs
  · contradiction

theorem knows_elsewhere (hok : CallOk cfg size s.members (s.calls c))
    (h : Elsewhere c s s') : s'.Knows cfg size c := by
  refine ⟨fun idx rest pr hpc => ?_, ?_⟩
  · rw [h.1] at hpc ⊢
    exact (hok.compared idx rest pr hpc).mono (fun _ => h.2 idx) id
  · rw [h.1]
    exact hok.left

theorem poolStep_ok {a : PoolAct} (hok : CallOk cfg size s.members (s.calls c))
    (hring : InRing size c s a) (hs : poolStep cfg size s a = some s') :
    CallOk cfg size s'.members (s'.calls c) := by
  obtain ⟨t, ht, rfl⟩ := Option.map_eq_some_iff.1 hs
  suffices hknows : t.Knows cfg size c from CallOk.of_observe hknows.1 hknows.2
  have hsame : Elsewhere c s s := ⟨rfl, fun _ => rfl⟩
  cases a with
  | start c' =>
      simp only at ht
      split at ht
      · next hidle =>
          cases ht
          by_cases hc : c = c'
          · subst hc
            have hlast := hok.left
            simp only [CallAt, hidle] at hlast
            split
            · exact knows_setPc (by simp) hlast
            · refine knows_setPc (by simp) ⟨by omega, fun _ => ⟨Nat.le_refl size, ?_⟩⟩
              exact .inl ⟨Nat.sub_self size, hlast⟩
          · exact knows_elsewhere hok (hsame.setPc hc _)
      · contradiction
  | prefer c' swap =>
      simp only at ht
      split at ht
      · next a b hpc =>
          cases ht
          by_cases hc : c = c'
          · subst hc
            have hleft := hok.left
            simp only [CallAt, hpc] at hleft
            refine knows_rest ?_
            cases swap with
            | false =>
                exact ⟨hleft.1, fun htwo i hi => .inr (by simpa using hleft.2 htwo i hi)⟩
            | true =>
                exact ⟨hleft.1, fun htwo i hi => .inr (by simpa using (hleft.2 htwo i hi).symm)⟩
          · exact knows_elsewhere hok (hsame.setPc hc _)
      · contradiction
  | step c' =>
      by_cases hc : c = c'
      · subst hc
        exact knows_of_step hok hring ht
      · exact knows_elsewhere hok (step_elsewhere hc ht)
  | close i =>
      cases ht
      exact knows_elsewhere hok (elsewhere_setMember rfl)
  | release i =>
      simp only at ht
      split at ht
      · cases ht
        exact knows_elsewhere hok (elsewhere_setMember rfl)
      · contradiction
  | limit i m =>
      cases ht
      refine ⟨fun idx rest pr hpc => ?_, hok.left⟩
      refine (hok.compared idx rest pr hpc).mono (fun hcomparing => ?_) id
      by_cases hi : idx = i
      · subst hi
        simp only [InRing, show (s.calls c).pc = .attempt idx rest pr from hpc] at hring
        rw [hring trivial] at hcomparing
        contradiction
      · simp only [PoolState.setMember, Function.update_of_ne hi]

end

theorem callOk_invariant (cfg : MuxConfig) (size : Nat) (next : UInt64)
    (members : Nat → Shared) (c : Nat) :
    (pooled cfg size next members).Invariant (InRing size c) fun s =>
      CallOk cfg size s.members (s.calls c) := by
  refine Invariant.of_step ⟨by simp [pooled, OpenPc.running], by simp [pooled], rfl⟩ ?_
  intro s a s' hok hring hs
  exact poolStep_ok hok hring hs

/-- Whatever the other calls do, a call whose scan goes round the ring reports that the
capacity is exhausted only if every member of the pool was closed or at its limit at some
moment of the call. -/
theorem exhaustion_is_real (cfg : MuxConfig) (size : Nat) (next : UInt64)
    (members : Nat → Shared) (c : Nat) {as : List PoolAct} {s : PoolState}
    (hrun : (pooled cfg size next members).run (pooled cfg size next members).init as = some s)
    (hring : (pooled cfg size next members).Meets (InRing size c)
      (pooled cfg size next members).init as)
    (hexhausted : (s.calls c).pc = .returned .capacityExhausted) :
    ∀ i < size, (s.calls c).unavailable i = true := by
  have hleft := (callOk_invariant cfg size next members c as s hrun hring).left
  rw [CallAt, hexhausted] at hleft
  exact hleft

/-- The call has given up. -/
def OpenPc.exhausted : OpenPc → Bool
  | .returned .capacityExhausted => true
  | _ => false

theorem pc_of_exhausted {pc : OpenPc} (h : pc.exhausted = true) :
    pc = .returned .capacityExhausted := by
  unfold OpenPc.exhausted at h
  split at h
  · rfl
  · contradiction

/-- Two members are closed and the third is at its operating limit. -/
def noneFree (i : Nat) : Shared :=
  { Shared.init .default with cancelled := decide (i < 2), activePairs := 64 }

/-- Call 1 makes its picks, then call 0 goes through the pool, and call 1 goes on. -/
def unhurriedActs : List PoolAct :=
  [PoolAct.start 1, .step 1, .start 0, .step 0, .prefer 0 true] ++
    List.replicate 15 (PoolAct.step 0) ++ [PoolAct.prefer 1 false, .step 1]

theorem exhaustion_is_real_unhurried :
    ∃ s, (pooled .default 3 0 noneFree).run (pooled .default 3 0 noneFree).init
        unhurriedActs = some s ∧
      (s.calls 0).pc = .returned .capacityExhausted ∧
      ∀ i < 3, (s.calls 0).unavailable i = true := by
  have hchecked : ((pooled .default 3 0 noneFree).run (pooled .default 3 0 noneFree).init
      unhurriedActs).map (fun s => (s.calls 0).pc.exhausted) = some true := by decide +kernel
  obtain ⟨s, hrun, hs⟩ := Option.map_eq_some_iff.1 hchecked
  refine ⟨s, hrun, pc_of_exhausted hs, ?_⟩
  exact exhaustion_is_real .default 3 0 noneFree 0 hrun (meets_of_check (by decide +kernel))
    (pc_of_exhausted hs)

/-- Two members are closed and the third is free. -/
def oneFree (i : Nat) : Shared := { Shared.init .default with cancelled := decide (i < 2) }

/-- The picks of call 0 are the closed members; between the first and the second round of
its scan call 1 makes its picks. -/
def hurriedActs : List PoolAct :=
  [PoolAct.start 0, .step 0, .prefer 0 false] ++ List.replicate 4 (PoolAct.step 0) ++
    [PoolAct.start 1, .step 1] ++ List.replicate 5 (PoolAct.step 0)

/-- The counter value that would have led call 0 to the free member went to call 1. -/
theorem free_member_missed :
    (∀ i < 3, (oneFree i).goawayReceived = false) ∧
    ∃ s, (pooled .default 3 0 oneFree).run (pooled .default 3 0 oneFree).init
        hurriedActs = some s ∧
      (s.calls 0).pc = .returned .capacityExhausted ∧
      ¬ ∀ i < 3, (s.calls 0).unavailable i = true := by
  have hchecked : ((pooled .default 3 0 oneFree).run (pooled .default 3 0 oneFree).init
      hurriedActs).map (fun s => ((s.calls 0).pc.exhausted, (s.calls 0).unavailable 2)) =
      some (true, false) := by decide +kernel
  obtain ⟨s, hrun, hs⟩ := Option.map_eq_some_iff.1 hchecked
  rw [Prod.mk.injEq] at hs
  refine ⟨fun _ _ => rfl, s, hrun, pc_of_exhausted hs.1, fun hall => ?_⟩
  have hfree := hall 2 (by decide)
  rw [hs.2] at hfree
  contradiction

end KubePortForward.Mux
