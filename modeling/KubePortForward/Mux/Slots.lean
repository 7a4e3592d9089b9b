import KubePortForward.Verified.Counting
import KubePortForward.Mux.OwnerRefinement

/-!
# The session slots of a connection

`active_pairs` is incremented by every attempt to open a stream pair, before the
limits are read, and given back by the attempt that is refused, by the release
guard of a stream that was never opened, or by the stream guard of one that
was.  What the counter counts is read off the phases of the pairs.

`open_stream_pair` compares the limits with `prev as u32`.  The accounting holds
anyway; the limits are only respected while the cast is exact.

## Main results

* `slots_invariant` — the counter counts the slots that are held, and the pairs
  within the limits are at most as many as the limits say.
* `slots_accounted` — the same for streams and halves that are used and dropped
  in any order, with every slot released once.
* `slots_overcommitted` — attempts in progress that make the cast wrap around
  have two pairs granted where one is allowed.
-/

namespace KubePortForward.Mux

open KubePortForward.Codec
open KubePortForward.Verified.Channel
open KubePortForward.Verified.Counting
open KubePortForward.Verified.Transition

/-! ## Who holds a slot -/

namespace PairPhase

/-- The pair is granted and has not given its slot back.  `StreamGuard::drop` still
returns a permit after that. -/
def live : PairPhase → Bool
  | .unopened => true
  | .realizing => true
  | .opened => true
  | .broken => true
  | .dropping pc => decide (pc ≠ .releaseCtrlData)
  | _ => false

/-- The attempt is between its increment and its grant or decrement. -/
def attempting : PairPhase → Bool
  | .checkOperating _ => true
  | .checkHard _ => true
  | .undo => true
  | .granting => true
  | _ => false

/-- The pair is granted, or its attempt has found fewer than `limit` slots held. -/
def within (limit : Nat) : PairPhase → Bool
  | .checkOperating prev => decide (prev < limit)
  | .checkHard prev => decide (prev < limit)
  | .granting => true
  | phase => phase.live

end PairPhase

/-- The number of pairs the configuration admits. -/
def slotLimit (cfg : MuxConfig) : Nat :=
  min cfg.operatingMaxStreams.toNat cfg.maxConcurrentStreams.toNat

/-- Where the phase of a pair can go in one step of its owner, and what becomes
of the counter. -/
inductive SlotMove (cfg : MuxConfig) (a : ClientAct) (sh : Shared) :
    PairPhase → PairPhase → Nat → Prop
  | keep (phase : PairPhase) : SlotMove cfg a sh phase phase sh.activePairs
  | refuse : SlotMove cfg a sh .absent .refused sh.activePairs
  | reserve (hact : ∃ eh dh, a = .openBegin eh dh) :
      SlotMove cfg a sh .absent (.checkOperating sh.activePairs) (sh.activePairs + 1)
  | exceed (phase : PairPhase)
      (hphase : (∃ prev, phase = .checkOperating prev) ∨ ∃ prev, phase = .checkHard prev) :
      SlotMove cfg a sh phase .undo sh.activePairs
  | pass (prev : Nat) (hlimit : UInt32.ofNat prev < operatingLimit cfg sh) :
      SlotMove cfg a sh (.checkOperating prev) (.checkHard prev) sh.activePairs
  | allow (prev : Nat) (hlimit : UInt32.ofNat prev < hardLimit cfg sh) :
      SlotMove cfg a sh (.checkHard prev) .granting sh.activePairs
  | undo : SlotMove cfg a sh .undo .refused (sh.activePairs - 1)
  | grant : SlotMove cfg a sh .granting .unopened sh.activePairs
  | move (phase phase' : PairPhase) (hlive : phase.live = true) (hlive' : phase'.live = true) :
      SlotMove cfg a sh phase phase' sh.activePairs
  | release (phase phase' : PairPhase) (hlive : phase.live = true)
      (hgone : phase' = .dropped ∨ phase' = .dropping .releaseCtrlData) :
      SlotMove cfg a sh phase phase' (sh.activePairs - 1)
  | finish : SlotMove cfg a sh (.dropping .releaseCtrlData) .dropped sh.activePairs

section

variable {cfg : MuxConfig} {p : Nat} {a : ClientAct} {sh sh' : Shared} {pr pr' : Pair}

/-- Reading, writing and shutting down leave the slot alone. -/
theorem client_keeps_slot (hopen : ∀ eh dh, a ≠ .openBegin eh dh) (hstep : a ≠ .openStep)
    (hrest : a ≠ .dropRest) (hdrop : a ≠ .dropStep)
    (h : clientStep cfg p a sh pr = some (sh', pr')) :
    pr'.phase = pr.phase ∧ sh'.activePairs = sh.activePairs := by
  cases a <;>
    simp only [clientStep, Pair.read, Pair.fillBuf, Pair.consume, Pair.writeBegin,
      Pair.writeReserve, Pair.writePick, Pair.writeRecheck, Pair.writeDebit,
      Pair.writeSend, Pair.shutdown, Pair.dropReceiver] at h <;>
    (repeat' split at h) <;>
    first
    | contradiction
    | exact absurd rfl (hopen _ _)
    | simp only [Option.some.injEq, Prod.mk.injEq] at h
      grind [Shared.updChan, Shared.updWindow]

/-- The slot of a pair over one step of its owner. -/
theorem client_slotMove (h : clientStep cfg p a sh pr = some (sh', pr')) :
    SlotMove cfg a sh pr.phase pr'.phase sh'.activePairs := by
  have hkeep : (pr'.phase = pr.phase ∧ sh'.activePairs = sh.activePairs) →
      SlotMove cfg a sh pr.phase pr'.phase sh'.activePairs := by
    rintro ⟨hphase, hactive⟩
    rw [hphase, hactive]
    exact .keep _
  cases a with
  | openBegin eh dh =>
      simp only [clientStep, Pair.openBegin] at h
      split at h
      · next hphase =>
          rw [hphase]
          split at h <;> cases h
          · exact .refuse
          · exact .reserve ⟨eh, dh, rfl⟩
      · contradiction
  | openStep =>
      simp only [clientStep, Pair.openStep] at h
      split at h
      · next prev hphase =>
          rw [hphase]
          split at h <;> cases h
          · exact .exceed _ (.inl ⟨prev, rfl⟩)
          · next hlimit => exact .pass prev (UInt32.not_le.1 hlimit)
      · next prev hphase =>
          rw [hphase]
          split at h <;> cases h
          · exact .exceed _ (.inr ⟨prev, rfl⟩)
          · next hlimit => exact .allow prev (UInt32.not_le.1 hlimit)
      · next hphase =>
          rw [hphase]
          cases h
          exact .undo
      · next hphase =>
          rw [hphase]
          cases h
          exact .grant
      · contradiction
  | dropRest =>
      simp only [clientStep, Pair.dropRest] at h
      split at h
      · split at h
        · next hphase =>
            rw [hphase]
            cases h
            exact .release _ _ rfl (.inl rfl)
        · next hphase =>
            rw [hphase]
            cases h
            exact .release _ _ rfl (.inl rfl)
        · next hphase =>
            rw [hphase]
            split at h <;> cases h <;> exact .move _ _ rfl rfl
        · contradiction
      · contradiction
  | dropStep =>
      simp only [clientStep, Pair.dropStep] at h
      split at h
      · next hphase =>
          rw [hphase]
          cases h
          exact .move _ _ rfl rfl
      · next hphase =>
          rw [hphase]
          split at h
          · cases h
            exact .move _ _ rfl rfl
          · split at h <;> cases h
            exact .move _ _ rfl rfl
      · next hphase =>
          rw [hphase]
          obtain ⟨sh₁, hclose, heq⟩ := Option.map_eq_some_iff.1 h
          cases heq
          unfold Shared.sendReservedClose at hclose
          split at hclose <;> cases hclose
          exact .move _ _ rfl rfl
      · next hphase =>
          rw [hphase]
          obtain ⟨sh₁, hclose, heq⟩ := Option.map_eq_some_iff.1 h
          cases heq
          unfold Shared.sendReservedClose at hclose
          split at hclose <;> cases hclose
          exact .move _ _ rfl rfl
      · next hphase =>
          rw [hphase]
          cases h
          exact .release _ _ rfl (.inr rfl)
      · next hphase =>
          rw [hphase]
          split at h <;> cases h <;> exact .finish
      · contradiction
  | _ => exact hkeep (client_keeps_slot (by simp) (by simp) (by simp) (by simp) h)

end

/-! ## One step -/

/-- A slot is held for the pair. -/
def PairPhase.holdsSlot (phase : PairPhase) : Bool := phase.live || phase.attempting

theorem PairPhase.within_of_live {phase : PairPhase} {limit : Nat}
    (h : phase.live = true) : phase.within limit = true := by
  cases phase <;> first | contradiction | exact h

theorem PairPhase.holdsSlot_of_within {phase : PairPhase} {limit : Nat}
    (h : phase.within limit = true) : phase.holdsSlot = true := by
  cases phase with
  | dropping pc =>
      simp only [holdsSlot, Bool.or_eq_true]
      exact .inl h
  | _ => first | rfl | contradiction

structure Slots (cfg : MuxConfig) (s : MuxState) : Prop where
  held : HasCount (fun pr : Pair => pr.phase.holdsSlot = true) s.pairs s.shared.activePairs
  limit : ∃ n, HasCount (fun pr : Pair => pr.phase.within (slotLimit cfg) = true) s.pairs n ∧
    n ≤ slotLimit cfg
  /-- The count that an attempt compares fits the cast. -/
  fits : ∀ p prev, (s.pairs p).phase = .checkOperating prev ∨
    (s.pairs p).phase = .checkHard prev → prev < 2 ^ 32
  passed : ∀ p prev, (s.pairs p).phase = .checkHard prev →
    prev < cfg.operatingMaxStreams.toNat

theorem limitWith_le (localMax : UInt32) (sh : Shared) : limitWith localMax sh ≤ localMax := by
  unfold limitWith
  split
  · rw [UInt32.le_iff_toNat_le, UInt32.toNat_min]
    exact Nat.min_le_left _ _
  · exact UInt32.le_refl _

/-- A check that is passed with an exact cast is a check of the count. -/
theorem lt_of_cast_lt {localMax : UInt32} {sh : Shared} {prev : Nat} (hfits : prev < 2 ^ 32)
    (hlimit : UInt32.ofNat prev < limitWith localMax sh) : prev < localMax.toNat := by
  have hcast : (UInt32.ofNat prev).toNat = prev := by
    rw [UInt32.toNat_ofNat', Nat.mod_eq_of_lt hfits]
  have hlt := UInt32.lt_iff_toNat_lt.1 hlimit
  have hle := UInt32.le_iff_toNat_le.1 (limitWith_le localMax sh)
  rw [hcast] at hlt
  exact Nat.lt_of_lt_of_le hlt hle

section

variable {cfg : MuxConfig} {a : ClientAct} {sh : Shared} {phase phase' : PairPhase} {n : Nat}

/-- The counter follows the slot of the pair. -/
theorem SlotMove.count (hmove : SlotMove cfg a sh phase phase' n)
    (hpos : phase.holdsSlot = true → 0 < sh.activePairs) :
    n + (if phase.holdsSlot = true then 1 else 0) =
      sh.activePairs + (if phase'.holdsSlot = true then 1 else 0) := by
  cases hmove with
  | keep => rfl
  | refuse => rfl
  | reserve hact => rfl
  | exceed phase hphase =>
      rcases hphase with ⟨prev, rfl⟩ | ⟨prev, rfl⟩
      · rfl
      · rfl
  | pass prev hlimit => rfl
  | allow prev hlimit => rfl
  | undo =>
      have hone := hpos rfl
      show sh.activePairs - 1 + 1 = sh.activePairs + 0
      omega
  | grant => rfl
  | move phase phase' hlive hlive' => simp [PairPhase.holdsSlot, hlive, hlive']
  | release phase phase' hlive hgone =>
      have hholds : phase.holdsSlot = true := by simp [PairPhase.holdsSlot, hlive]
      have hnone : ¬ phase'.holdsSlot = true := by
        rcases hgone with rfl | rfl
        · simp [PairPhase.holdsSlot, PairPhase.live, PairPhase.attempting]
        · simp [PairPhase.holdsSlot, PairPhase.live, PairPhase.attempting]
      have hone := hpos hholds
      rw [if_pos hholds, if_neg hnone]
      omega
  | finish => rfl

/-- A pair comes within the limit only by an attempt that finds it not reached. -/
theorem SlotMove.within (hmove : SlotMove cfg a sh phase phase' n)
    (hfits : ∀ prev, phase = .checkOperating prev ∨ phase = .checkHard prev → prev < 2 ^ 32)
    (hpassed : ∀ prev, phase = .checkHard prev → prev < cfg.operatingMaxStreams.toNat)
    (hwithin : phase'.within (slotLimit cfg) = true) :
    phase.within (slotLimit cfg) = true ∨
      phase = .absent ∧ n = sh.activePairs + 1 ∧ sh.activePairs < slotLimit cfg := by
  cases hmove with
  | keep => exact .inl hwithin
  | refuse => contradiction
  | reserve hact => exact .inr ⟨rfl, rfl, of_decide_eq_true hwithin⟩
  | exceed phase hphase => contradiction
  | pass prev hlimit => exact .inl hwithin
  | allow prev hlimit =>
      left
      have hhard := lt_of_cast_lt (hfits prev (.inr rfl)) hlimit
      have hop := hpassed prev rfl
      exact decide_eq_true (lt_min hop hhard)
  | undo => contradiction
  | grant => exact .inl rfl
  | move phase phase' hlive hlive' => exact .inl (PairPhase.within_of_live hlive)
  | release phase phase' hlive hgone =>
      rcases hgone with rfl | rfl
      · contradiction
      · contradiction
  | finish => contradiction

/-- What an attempt compares was read under the condition. -/
theorem SlotMove.fits (hmove : SlotMove cfg a sh phase phase' n)
    (hok : (∃ eh dh, a = .openBegin eh dh) → sh.activePairs < 2 ^ 32)
    (hfits : ∀ prev, phase = .checkOperating prev ∨ phase = .checkHard prev → prev < 2 ^ 32)
    (hpassed : ∀ prev, phase = .checkHard prev → prev < cfg.operatingMaxStreams.toNat)
    (prev : Nat) :
    (phase' = .checkOperating prev ∨ phase' = .checkHard prev → prev < 2 ^ 32) ∧
      (phase' = .checkHard prev → prev < cfg.operatingMaxStreams.toNat) := by
  cases hmove with
  | keep => exact ⟨hfits prev, hpassed prev⟩
  | reserve hact =>
      refine ⟨?_, by simp⟩
      rintro (heq | heq)
      · cases heq
        exact hok hact
      · contradiction
  | pass prev' hlimit =>
      have hlt := hfits prev' (.inl rfl)
      refine ⟨?_, ?_⟩
      · rintro (heq | heq)
        · contradiction
        · cases heq
          exact hlt
      · intro heq
        cases heq
        exact lt_of_cast_lt hlt hlimit
  | move phase phase' hlive hlive' =>
      constructor
      · rintro (rfl | rfl)
        · contradiction
        · contradiction
      · rintro rfl
        contradiction
  | release phase phase' hlive hgone => rcases hgone with rfl | rfl <;> simp
  | _ => simp

end

section

variable {cfg : MuxConfig} {s : MuxState} {p : Nat} {a : ClientAct} {sh : Shared} {pr : Pair}

/-- The pairs within a limit stay that few when one comes within it only while fewer slots
than the limit are held. -/
theorem within_moved {limit : Nat}
    (hheld : HasCount (fun pr : Pair => pr.phase.holdsSlot = true) s.pairs s.shared.activePairs)
    (hlimit : ∃ n, HasCount (fun pr : Pair => pr.phase.within limit = true) s.pairs n ∧
      n ≤ limit)
    (hwithin : pr.phase.within limit = true →
      (s.pairs p).phase.within limit = true ∨ s.shared.activePairs < limit) :
    ∃ n, HasCount (fun pr : Pair => pr.phase.within limit = true)
      (Function.update s.pairs p pr) n ∧ n ≤ limit := by
  obtain ⟨n, hn, hle⟩ := hlimit
  by_cases hin : pr.phase.within limit = true → (s.pairs p).phase.within limit = true
  · -- Nobody comes within the limit, so there are at most as many as before.
    have hsub : ∀ q, (Function.update s.pairs p pr q).phase.within limit = true →
        (s.pairs q).phase.within limit = true := by
      intro q hq
      by_cases heq : q = p
      · subst heq
        rw [Function.update_self] at hq
        exact hin hq
      · rw [Function.update_of_ne heq] at hq
        exact hq
    obtain ⟨m, hm, hmn⟩ := hn.exists_le (g := Function.update s.pairs p pr)
      (R := fun pr : Pair => pr.phase.within limit = true) hsub
    exact ⟨m, hm, Nat.le_trans hmn hle⟩
  · obtain ⟨hnow, hout⟩ := Classical.not_imp.1 hin
    have hlt := (hwithin hnow).resolve_left hout
    have hbelow : n ≤ s.shared.activePairs := by
      obtain ⟨m, hm, hmle⟩ := hheld.exists_le (R := fun pr : Pair =>
        pr.phase.within limit = true) fun q hq => PairPhase.holdsSlot_of_within hq
      rw [hn.unique hm]
      exact hmle
    refine ⟨n + 1, hn.update ?_, by omega⟩
    rw [if_neg hout, if_pos hnow]

/-- The slots over one step of the owner of a pair. -/
theorem Slots.moved (hS : Slots cfg s) (z : Option Realize)
    (hmove : SlotMove cfg a s.shared (s.pairs p).phase pr.phase sh.activePairs)
    (hok : (∃ eh dh, a = .openBegin eh dh) → s.shared.activePairs < 2 ^ 32) :
    Slots cfg { s with
      shared := sh, pairs := Function.update s.pairs p pr, realizing := z } := by
  have hfits := hS.fits p
  have hpassed := hS.passed p
  have hheld : HasCount (fun pr : Pair => pr.phase.holdsSlot = true)
      (Function.update s.pairs p pr) sh.activePairs :=
    hS.held.update (hmove.count fun hholds => hS.held.pos hholds)
  refine ⟨hheld, ?_, fun q prev => ?_, fun q prev => ?_⟩
  · refine within_moved hS.held hS.limit fun hwithin => ?_
    exact (hmove.within hfits hpassed hwithin).imp_right fun habsent => habsent.2.2
  · by_cases hq : q = p
    · subst hq
      simp only [Function.update_self]
      exact (hmove.fits hok hfits hpassed prev).1
    · simp only [Function.update_of_ne hq]
      exact hS.fits q prev
  · by_cases hq : q = p
    · subst hq
      simp only [Function.update_self]
      exact (hmove.fits hok hfits hpassed prev).2
    · simp only [Function.update_of_ne hq]
      exact hS.passed q prev

end

/-! ## Every run -/

/-- `prev as u32` loses nothing in an attempt that begins now. -/
def CastExact (s : MuxState) : Act → Prop
  | .client _ (.openBegin _ _) => s.shared.activePairs < 2 ^ 32
  | _ => True

theorem slots_init (cfg : MuxConfig) : Slots cfg (mux cfg).init where
  held := .zero fun _ => Bool.false_ne_true
  limit := ⟨0, .zero fun _ => Bool.false_ne_true, Nat.zero_le _⟩
  fits := fun _ _ h => by rcases h with h | h <;> contradiction
  passed := fun _ _ h => by contradiction

/-- What leaves the pairs and the counter alone leaves the slots alone. -/
theorem Slots.congr {cfg : MuxConfig} {s s' : MuxState} (hS : Slots cfg s)
    (hpairs : s'.pairs = s.pairs)
    (hactive : s'.shared.activePairs = s.shared.activePairs) : Slots cfg s' := by
  refine ⟨?_, ?_, ?_, ?_⟩
  · rw [hpairs, hactive]
    exact hS.held
  · rw [hpairs]
    exact hS.limit
  · rw [hpairs]
    exact hS.fits
  · rw [hpairs]
    exact hS.passed

/-- A part of a realization moves a pair from one live phase to another. -/
theorem Slots.realizes {cfg : MuxConfig} {s : MuxState} {p : Nat} {sh : Shared} {pr : Pair}
    (hS : Slots cfg s) (z : Option Realize) (hactive : sh.activePairs = s.shared.activePairs)
    (hlive : (s.pairs p).phase.live = true) (hlive' : pr.phase.live = true) :
    Slots cfg { s with
      shared := sh, pairs := Function.update s.pairs p pr, realizing := z } := by
  refine hS.moved (a := .openStep) z ?_ (by rintro ⟨eh, dh, hact⟩; contradiction)
  rw [hactive]
  exact .move _ _ hlive hlive'

theorem step_slots {cfg : MuxConfig} {s s' : MuxState} {a : Act} (hO : Ownership s)
    (hS : Slots cfg s) (hok : CastExact s a) (h : step cfg s a = some s') : Slots cfg s' := by
  obtain ⟨p, c, sh, pr, rfl, hc, rfl⟩ | ⟨p, sh, pr, z, rfl, hnone, hphase, hb, rfl⟩ |
    ⟨z, sh, pr, z', rfl, hz, hr, rfl⟩ | ⟨c, sh, r, rfl, hr, rfl⟩ |
    ⟨w, order, k, sh, rfl, hw, rfl⟩ | ⟨c, sh, wr, rfl, hw, rfl⟩ | ⟨rfl, rfl⟩ := step_cases h
  · refine hS.moved s.realizing (client_slotMove hc) ?_
    rintro ⟨eh, dh, rfl⟩
    exact hok
  · refine hS.realizes z (realizeBegin_footprint hb).activePairs (by rw [hphase]; rfl) ?_
    rcases (realizeBegin_pair hb).2 with ⟨rfl, -⟩ | ⟨y, -, rfl⟩
    · rfl
    · rfl
  · have hphase := (hO.realizing z hz).1
    refine hS.realizes z' (realizeStep_footprint hr).activePairs (by rw [hphase]; rfl) ?_
    rcases realizeStep_pair hr with ⟨rfl, -⟩ | ⟨rfl, -⟩ | ⟨rfl, -⟩
    · rw [hphase]
      rfl
    · rfl
    · rfl
  · exact hS.congr rfl (reader_footprint hr).activePairs
  · exact hS.congr rfl (workerMove_of_step hw).footprint.activePairs
  · exact hS.congr rfl (writer_footprint hw).activePairs
  · exact hS.congr rfl rfl

theorem slots_invariant (cfg : MuxConfig) : (mux cfg).Invariant CastExact (Slots cfg) :=
  Invariant.of_step_using (Invariant.restrict (ownership_invariant cfg) fun _ _ _ => trivial)
    (slots_init cfg) fun _ _ _ hO hS hok h => step_slots hO hS hok h

/-! ## Streams and their halves -/

/-- `prev as u32` loses nothing in a call of `open_stream_pair` that begins now. -/
def OpenCastExact (s : OwnedState) : OwnedAct → Prop
  | .owner _ (.openBegin _ _) => s.mux.shared.activePairs < 2 ^ 32
  | _ => True

instance (s : OwnedState) (a : OwnedAct) : Decidable (OpenCastExact s a) :=
  match a with
  | .owner _ (.openBegin _ _) => inferInstanceAs (Decidable (_ < _))
  | .owner _ .openStep => .isTrue trivial
  | .owner _ .split => .isTrue trivial
  | .owner _ (.call _ _) => .isTrue trivial
  | .owner _ (.proceed _) => .isTrue trivial
  | .owner _ .permit => .isTrue trivial
  | .owner _ (.drop _) => .isTrue trivial
  | .owner _ (.dropNext _) => .isTrue trivial
  | .ensure _ _ => .isTrue trivial
  | .realizeStep => .isTrue trivial
  | .env _ => .isTrue trivial

/-- The stream has been granted, and its slot has not been released. -/
def Owner.HoldsSlot (o : Owner) : Prop := o.state ≠ .none ∧ o.released = 0

/-- The guards hold a slot as long as the phases say so. -/
theorem OwnerInv.holdsSlot_iff {o : Owner} {pr : Pair} (hI : OwnerInv o pr) :
    o.HoldsSlot ↔ pr.phase.live = true := by
  have hstate := hI.state
  rw [Owner.HoldsSlot, hI.released]
  cases hs : o.state with
  | none =>
      rw [hs] at hstate
      cases hphase : pr.phase <;> rw [hphase] at hstate <;>
        first | contradiction | simp [PairPhase.live]
  | unopened pendingTx g =>
      rw [hs] at hstate
      cases pendingTx with
      | true =>
          rw [hstate.2]
          simp [PairPhase.live, PairPhase.releases]
      | false =>
          rcases hstate.2 with hphase | hphase
          · rw [hphase]
            simp [PairPhase.live, PairPhase.releases]
          · rw [hphase]
            simp [PairPhase.live, PairPhase.releases]
  | opened =>
      rw [hs] at hstate
      rw [show pr.phase = .opened from hstate]
      simp [PairPhase.live, PairPhase.releases]
  | closing =>
      rw [hs] at hstate
      obtain ⟨pc, hphase⟩ := hstate
      rw [hphase]
      cases pc <;> simp [PairPhase.live, PairPhase.releases]
  | gone =>
      rw [hs] at hstate
      rw [show pr.phase = .dropped from hstate]
      simp [PairPhase.live, PairPhase.releases]

/-- The slot of a stream is released at most once, not while the stream is there,
and once when it is gone. -/
theorem OwnerInv.released_once {o : Owner} {pr : Pair} (hI : OwnerInv o pr) :
    o.released ≤ 1 ∧ (o.state.alive = true → o.released = 0) ∧
      (o.state = .gone → o.released = 1) := by
  rw [hI.released]
  have hstate := hI.state
  refine ⟨?_, fun halive => ?_, fun hgone => ?_⟩
  · unfold PairPhase.releases
    split <;> omega
  · cases hs : o.state with
    | unopened pendingTx g =>
        rw [hs] at hstate
        cases pendingTx with
        | true =>
            rw [hstate.2]
            rfl
        | false =>
            rcases hstate.2 with hphase | hphase
            · rw [hphase]
              rfl
            · rw [hphase]
              rfl
    | opened =>
        rw [hs] at hstate
        rw [show pr.phase = .opened from hstate]
        rfl
    | _ =>
        rw [hs] at halive
        contradiction
  · rw [hgone] at hstate
    rw [show pr.phase = .dropped from hstate]
    rfl

/-- The connection underneath the streams meets the condition. -/
theorem owned_reaches_exact (cfg : MuxConfig) :
    (owned cfg).Invariant OpenCastExact fun s => (mux cfg).Reaches CastExact s.mux := by
  refine simulation OwnedState.mux
    (Invariant.restrict (owned_invariant cfg) fun _ _ _ => trivial) rfl ?_
  intro s a s' hI hok hs
  rcases ownedStep_mux hI hs with hsame | ⟨b, hb, hbegin⟩
  · exact .inl hsame
  · refine .inr ⟨b, ?_, hb⟩
    cases b with
    | client p c =>
        cases c with
        | openBegin eh dh =>
            rw [hbegin p eh dh rfl] at hok
            exact hok
        | _ => trivial
    | _ => trivial

/-- The accounting of the slots in one state: the counter is the number of streams
that hold a slot plus the number of attempts under way, whoever gives a slot
back finds the counter above zero, every stream releases its slot once, and
no more streams than the limits allow hold one. -/
structure SlotsAccounted (cfg : MuxConfig) (s : OwnedState) : Prop where
  counted : ∃ granted attempts,
    HasCount Owner.HoldsSlot s.owners granted ∧
    HasCount (fun pr : Pair => pr.phase.attempting = true) s.mux.pairs attempts ∧
    s.mux.shared.activePairs = granted + attempts
  positive : ∀ p, (s.owners p).HoldsSlot ∨ (s.mux.pairs p).phase.attempting = true →
    0 < s.mux.shared.activePairs
  once : ∀ p, (s.owners p).released ≤ 1 ∧
    ((s.owners p).state.alive = true → (s.owners p).released = 0) ∧
    ((s.owners p).state = .gone → (s.owners p).released = 1)
  limited : ∀ granted, HasCount Owner.HoldsSlot s.owners granted →
    granted ≤ min cfg.operatingMaxStreams.toNat cfg.maxConcurrentStreams.toNat

/-- The slots are accounted for in every run in which each attempt begins with a
count that fits the cast. -/
theorem slots_accounted (cfg : MuxConfig) (as : List OwnedAct) (s : OwnedState)
    (hrun : (owned cfg).run (owned cfg).init as = some s)
    (hexact : (owned cfg).Meets OpenCastExact (owned cfg).init as) : SlotsAccounted cfg s := by
  have hI := owned_invariant cfg as s hrun (meets_anyStep _ _)
  have hS := Reaches.of_invariant (owned_reaches_exact cfg as s hrun hexact) (slots_invariant cfg)
  obtain ⟨granted, hgranted, -⟩ := hS.held.exists_le (g := s.mux.pairs)
    (R := fun pr : Pair => pr.phase.live = true) fun p hp => by simp [PairPhase.holdsSlot, hp]
  obtain ⟨attempts, hattempts, -⟩ := hS.held.exists_le (g := s.mux.pairs)
    (R := fun pr : Pair => pr.phase.attempting = true) fun p hp => by
      simp [PairPhase.holdsSlot, hp]
  have howners : HasCount Owner.HoldsSlot s.owners granted :=
    hgranted.congr fun p => (hI.owners p).holdsSlot_iff
  refine ⟨⟨granted, attempts, howners, hattempts, ?_⟩, fun p hp => ?_,
    fun p => (hI.owners p).released_once, fun n hn => ?_⟩
  · have hdisjoint : ∀ p, (s.mux.pairs p).phase.live = true →
        ¬ (s.mux.pairs p).phase.attempting = true := by
      intro p hlive
      cases hphase : (s.mux.pairs p).phase <;> rw [hphase] at hlive <;>
        first | contradiction | simp [PairPhase.attempting]
    refine hS.held.unique ((hgranted.add hattempts hdisjoint).congr fun p => ?_)
    simp [PairPhase.holdsSlot]
  · refine hS.held.pos (i := p) ?_
    rcases hp with hholds | hattempting
    · simp [PairPhase.holdsSlot, (hI.owners p).holdsSlot_iff.1 hholds]
    · simp [PairPhase.holdsSlot, hattempting]
  · obtain ⟨m, hm, hmle⟩ := hS.limit
    obtain ⟨k, hk, hkm⟩ := hm.exists_le (g := s.owners) (R := Owner.HoldsSlot)
      fun p hp => PairPhase.within_of_live ((hI.owners p).holdsSlot_iff.1 hp)
    rw [hn.unique hk]
    exact Nat.le_trans hkm hmle

/-- Pair 0 is granted and dropped again without having been opened. -/
def dropUnopenedActs : List OwnedAct :=
  [OwnedAct.owner 0 (.openBegin [] [])] ++ List.replicate 3 (OwnedAct.owner 0 .openStep) ++
    [OwnedAct.owner 0 (.drop .stream)] ++ List.replicate 3 (OwnedAct.owner 0 (.dropNext .stream))

theorem slots_accounted_unopened :
    ∃ s, (owned MuxConfig.default).run (owned MuxConfig.default).init dropUnopenedActs = some s ∧
      s.mux.shared.activePairs = 0 ∧ (s.owners 0).released = 1 ∧
      SlotsAccounted MuxConfig.default s := by
  have hlast : ((owned MuxConfig.default).run (owned MuxConfig.default).init
      dropUnopenedActs).map (fun s => (s.mux.shared.activePairs, (s.owners 0).released)) =
      some (0, 1) := by decide +kernel
  obtain ⟨s, hrun, hobs⟩ := Option.map_eq_some_iff.1 hlast
  simp only [Prod.mk.injEq] at hobs
  refine ⟨s, hrun, hobs.1, hobs.2, ?_⟩
  exact slots_accounted _ _ s hrun (meets_of_check (by decide +kernel))

/-! ## A cast that wraps around -/

/-- `n` attempts have incremented the counter. -/
def attempts (n : Nat) : List OwnedAct :=
  (List.range n).map fun p => .owner p (.openBegin [] [])

structure Attempted (n : Nat) (s : OwnedState) : Prop where
  active : s.mux.shared.activePairs = n
  cancelled : s.mux.shared.cancelled = false
  goawayReceived : s.mux.shared.goawayReceived = false
  unlimited : s.mux.shared.peerMaxConcurrent = 0
  checking : ∀ p, p < n → (s.mux.pairs p).phase = .checkOperating p
  absent : ∀ p, n ≤ p → (s.mux.pairs p).phase = .absent

theorem run_attempts (cfg : MuxConfig) (n : Nat) :
    ∃ s, (owned cfg).run (owned cfg).init (attempts n) = some s ∧ Attempted n s := by
  induction n with
  | zero => exact ⟨_, rfl, rfl, rfl, rfl, rfl, fun p hp => absurd hp (by omega), fun p _ => rfl⟩
  | succ n ih =>
      obtain ⟨s, hrun, hA⟩ := ih
      have hsplit : attempts (n + 1) = attempts n ++ [.owner n (.openBegin [] [])] := by
        simp [attempts, List.range_succ]
      obtain ⟨t, ht, hT⟩ : ∃ t, ownedStep cfg s (.owner n (.openBegin [] [])) = some t ∧
          Attempted (n + 1) t := by
        refine ⟨s.put n { s.mux.shared with activePairs := s.mux.shared.activePairs + 1 }
          { s.mux.pairs n with
            phase := .checkOperating s.mux.shared.activePairs
            errorHeaders := []
            dataHeaders := [] } s.mux.realizing (s.owners n), ?_, ?_⟩
        · simp [ownedStep, Owner.step, clientStep, Pair.openBegin, hA.absent n (Nat.le_refl n),
            hA.cancelled, hA.goawayReceived]
        · refine ⟨congrArg (· + 1) hA.active, hA.cancelled, hA.goawayReceived, hA.unlimited,
            fun p hp => ?_, fun p hp => ?_⟩
          · by_cases heq : p = n
            · subst heq
              simp [OwnedState.put, hA.active]
            · simpa [OwnedState.put, heq] using hA.checking p (by omega)
          · have heq : p ≠ n := by omega
            simpa [OwnedState.put, heq] using hA.absent p (by omega)
      refine ⟨t, ?_, hT⟩
      rw [hsplit]
      exact run_append_some hrun (run_cons (M := owned cfg) ht)

/-- An attempt whose cast passes both checks is granted. -/
theorem run_grant (cfg : MuxConfig) {s : OwnedState} {p prev : Nat}
    (hphase : (s.mux.pairs p).phase = .checkOperating prev)
    (hoperating : UInt32.ofNat prev < operatingLimit cfg s.mux.shared)
    (hhard : UInt32.ofNat prev < hardLimit cfg s.mux.shared) :
    ∃ t, (owned cfg).run s (List.replicate 3 (.owner p .openStep)) = some t ∧
      (t.owners p).HoldsSlot ∧ t.mux.shared.peerMaxConcurrent = s.mux.shared.peerMaxConcurrent ∧
      ∀ q, q ≠ p → t.mux.pairs q = s.mux.pairs q ∧ t.owners q = s.owners q := by
  have hpass : (owned cfg).step s (.owner p .openStep) = some (s.put p s.mux.shared
      { s.mux.pairs p with phase := .checkHard prev } s.mux.realizing (s.owners p)) := by
    simp [owned, ownedStep, Owner.step, clientStep, Pair.openStep, hphase, UInt32.not_le.2 hoperating]
  generalize hs₁ : s.put p s.mux.shared { s.mux.pairs p with phase := .checkHard prev }
    s.mux.realizing (s.owners p) = s₁ at hpass
  have hphase₁ : (s₁.mux.pairs p).phase = .checkHard prev := by
    rw [← hs₁]
    simp [OwnedState.put]
  have hshared₁ : s₁.mux.shared = s.mux.shared := by
    rw [← hs₁]
    rfl
  have hallow : (owned cfg).step s₁ (.owner p .openStep) = some (s₁.put p s₁.mux.shared
      { s₁.mux.pairs p with phase := .granting } s₁.mux.realizing (s₁.owners p)) := by
    rw [← hshared₁] at hhard
    simp [owned, ownedStep, Owner.step, clientStep, Pair.openStep, hphase₁, UInt32.not_le.2 hhard]
  generalize hs₂ : s₁.put p s₁.mux.shared { s₁.mux.pairs p with phase := .granting }
    s₁.mux.realizing (s₁.owners p) = s₂ at hallow
  have hphase₂ : (s₂.mux.pairs p).phase = .granting := by
    rw [← hs₂]
    simp [OwnedState.put]
  have hgrant : ∃ t, (owned cfg).step s₂ (.owner p .openStep) = some t ∧
      (t.owners p).HoldsSlot ∧
      t.mux.shared.peerMaxConcurrent = s₂.mux.shared.peerMaxConcurrent ∧
      ∀ q, q ≠ p → t.mux.pairs q = s₂.mux.pairs q ∧ t.owners q = s₂.owners q := by
    simp only [owned, ownedStep, Owner.step, clientStep, Pair.openStep, hphase₂, if_true,
      Option.map_some, Option.some.injEq, exists_eq_left']
    refine ⟨?_, rfl, fun q hq => ?_⟩
    · simp [OwnedState.put, Owner.HoldsSlot, Owner.granted]
    · simp [OwnedState.put, hq]
  obtain ⟨t, ht, hholds, hpeer, hother⟩ := hgrant
  refine ⟨t, ?_, hholds, ?_, fun q hq => ?_⟩
  · have hthree : List.replicate 3 (OwnedAct.owner p .openStep) =
        [.owner p .openStep, .owner p .openStep, .owner p .openStep] := rfl
    rw [hthree, run_cons hpass, run_cons hallow, run_cons ht]
    rfl
  · rw [hpeer, ← hs₂, ← hshared₁]
    rfl
  · obtain ⟨hpair, howner⟩ := hother q hq
    rw [hpair, howner, ← hs₂, ← hs₁]
    simp [OwnedState.put, hq]

/-- One pair is admitted. -/
def oneSlot : MuxConfig :=
  { MuxConfig.default with operatingMaxStreams := 1, maxConcurrentStreams := 1 }

/-- After `n + 1` attempts, where `n` casts to 0, pairs 0 and `n` are granted. -/
theorem two_granted {n : Nat} (hpos : n ≠ 0) (hwraps : UInt32.ofNat n = 0) :
    ∃ s, (owned oneSlot).run (owned oneSlot).init
        (attempts (n + 1) ++ (List.replicate 3 (.owner 0 .openStep) ++
          List.replicate 3 (.owner n .openStep))) = some s ∧
      (s.owners 0).HoldsSlot ∧ (s.owners n).HoldsSlot := by
  obtain ⟨r, hr, hA⟩ := run_attempts oneSlot (n + 1)
  have hlimit : ∀ {sh : Shared} {localMax : UInt32}, sh.peerMaxConcurrent = 0 →
      limitWith localMax sh = localMax := by
    intro sh localMax hpeer
    simp [limitWith, hpeer]
  obtain ⟨s, hs, hholds, hpeer, hother⟩ := run_grant oneSlot
    (hA.checking 0 (by omega))
    (by rw [operatingLimit, hlimit hA.unlimited]; decide)
    (by rw [hardLimit, hlimit hA.unlimited]; decide)
  have hunlimited : s.mux.shared.peerMaxConcurrent = 0 := hpeer.trans hA.unlimited
  obtain ⟨t, ht, hholds', -, hother'⟩ := run_grant oneSlot
    (show (s.mux.pairs n).phase = .checkOperating n by
      rw [(hother n hpos).1]
      exact hA.checking n (by omega))
    (by rw [operatingLimit, hlimit hunlimited, hwraps]; decide)
    (by rw [hardLimit, hlimit hunlimited, hwraps]; decide)
  refine ⟨t, run_append_some hr (run_append_some hs ht), ?_, hholds'⟩
  rw [(hother' 0 (Ne.symm hpos)).2]
  exact hholds

/-- With one slot and 2^32 + 1 attempts between their increment and their checks,
the first and the last are both granted. -/
theorem slots_overcommitted :
    ¬ ∀ (cfg : MuxConfig) (as : List OwnedAct) (s : OwnedState),
      (owned cfg).run (owned cfg).init as = some s → SlotsAccounted cfg s := by
  intro hall
  obtain ⟨s, hrun, hfirst, hlast⟩ := two_granted (n := 2 ^ 32) (by decide) (by decide)
  have hS := hall _ _ s hrun
  obtain ⟨granted, -, hgranted, -⟩ := hS.counted
  have htwo := hgranted.two_le (by decide) hfirst hlast
  have hone := hS.limited granted hgranted
  have hmin : min oneSlot.operatingMaxStreams.toNat oneSlot.maxConcurrentStreams.toNat = 1 := by
    decide
  rw [hmin] at hone
  omega

end KubePortForward.Mux
