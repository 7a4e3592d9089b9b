import KubePortForward.Verified.Recording
import KubePortForward.Mux.Slots

/-!
# The peer's stream limit and the pairs reserved before it

`open_stream_pair` compares the number of slots in use with the peer's limit;
`realize_stream_pair`, which puts the pair on the wire, does not.  A SETTINGS frame that
lowers the limit below what is reserved already is therefore not honoured by the
reservations that are realized after it.

## Main results

* `peerSlots_invariant` — the pairs within the peer's limit are at most that many, if they
  are each time a limit is stored.
* `stream_limit_honoured` — so the pairs on the wire are, whenever one is opened.
* `reserved_pairs_exceed` — two pairs reserved before the limit becomes one are both opened.
-/

namespace KubePortForward.Mux

open KubePortForward.Codec
open KubePortForward.Verified.Channel
open KubePortForward.Verified.Counting
open KubePortForward.Verified.Transition

/-- The limit of the last SETTINGS with one that the reader has processed. -/
def logConcurrent (s : MuxState) (a : Act) (stored : Option UInt32) : Option UInt32 :=
  match a with
  | .reader .step =>
      match s.reader.pc with
      | .settingsConcurrent (some m) _ => some m
      | _ => stored
  | _ => stored

/-- The connection, and the limit its peer asked for last. -/
def admitting (cfg : MuxConfig) : System (MuxState × Option UInt32) Act :=
  (mux cfg).recording none logConcurrent

/-- The open of the pair was enqueued and its slot is not given back yet.  While an open is
being enqueued the pair that is being realized is the one it belongs to. -/
def PairPhase.onWire : PairPhase → Bool
  | .realizing => true
  | .opened => true
  | .dropping pc => decide (pc ≠ .releaseCtrlData)
  | _ => false

/-- When a limit is stored, it admits the pairs that are reserved and the attempts that
would still pass it; and no attempt begins with a count that the cast would cut. -/
def ReservedFit (s : MuxState) : Act → Prop
  | .client _ (.openBegin _ _) => s.shared.activePairs < 2 ^ 32
  | .reader .step => ∀ m mf, s.reader.pc = .settingsConcurrent (some m) mf → 0 < m →
      ∀ n, HasCount (fun pr : Pair => pr.phase.within m.toNat = true) s.pairs n → n ≤ m.toNat
  | _ => True

/-- The pairs that are granted or may still be are within the peer's limit. -/
def PeerSlots (s : MuxState) : Prop :=
  0 < s.shared.peerMaxConcurrent →
    ∃ n, HasCount (fun pr : Pair => pr.phase.within s.shared.peerMaxConcurrent.toNat = true)
      s.pairs n ∧ n ≤ s.shared.peerMaxConcurrent.toNat

theorem reservedFit_castExact {s : MuxState} {a : Act} (h : ReservedFit s a) : CastExact s a := by
  cases a with
  | client p c =>
      cases c with
      | openBegin eh dh => exact h
      | _ => trivial
  | _ => trivial

/-- A check that is passed with an exact cast is a check against the peer's limit. -/
theorem lt_peer_of_cast_lt {localMax : UInt32} {sh : Shared} {prev : Nat}
    (hfits : prev < 2 ^ 32) (hpeer : 0 < sh.peerMaxConcurrent)
    (hlimit : UInt32.ofNat prev < limitWith localMax sh) :
    prev < sh.peerMaxConcurrent.toNat := by
  have hcast : (UInt32.ofNat prev).toNat = prev := by
    rw [UInt32.toNat_ofNat', Nat.mod_eq_of_lt hfits]
  rw [limitWith, if_pos hpeer, UInt32.lt_iff_toNat_lt, UInt32.toNat_min, hcast] at hlimit
  exact Nat.lt_of_lt_of_le hlimit (Nat.min_le_right _ _)

/-- A pair comes within the peer's limit only by an attempt that finds it not reached. -/
theorem SlotMove.within_peer {cfg : MuxConfig} {a : ClientAct} {sh : Shared}
    {phase phase' : PairPhase} {n : Nat} (hmove : SlotMove cfg a sh phase phase' n)
    (hfits : ∀ prev, phase = .checkOperating prev ∨ phase = .checkHard prev → prev < 2 ^ 32)
    (hpeer : 0 < sh.peerMaxConcurrent)
    (hwithin : phase'.within sh.peerMaxConcurrent.toNat = true) :
    phase.within sh.peerMaxConcurrent.toNat = true ∨
      sh.activePairs < sh.peerMaxConcurrent.toNat := by
  cases hmove with
  | keep => exact .inl hwithin
  | refuse => contradiction
  | reserve hact => exact .inr (of_decide_eq_true hwithin)
  | exceed phase hphase => contradiction
  | pass prev hlimit => exact .inl hwithin
  | allow prev hlimit =>
      exact .inl (decide_eq_true (lt_peer_of_cast_lt (hfits prev (.inr rfl)) hpeer hlimit))
  | undo => contradiction
  | grant => exact .inl rfl
  | move phase phase' hlive hlive' => exact .inl (PairPhase.within_of_live hlive)
  | release phase phase' hlive hgone =>
      rcases hgone with rfl | rfl
      · contradiction
      · contradiction
  | finish => contradiction

/-- Only a SETTINGS frame with a limit changes the limit. -/
theorem reader_peer {cfg : MuxConfig} {c : ReaderAct} {sh sh' : Shared} {r r' : Reader}
    (h : readerStep cfg c sh r = some (sh', r')) :
    (sh'.peerMaxConcurrent = sh.peerMaxConcurrent ∧
      (c = .step → ∀ m mf, r.pc ≠ .settingsConcurrent (some m) mf)) ∨
    ∃ m mf, c = .step ∧ r.pc = .settingsConcurrent (some m) mf ∧ sh'.peerMaxConcurrent = m := by
  cases c with
  | receive frame =>
      refine .inl ⟨?_, by simp⟩
      simp only [readerStep, Reader.receive] at h
      split at h
      · cases frame <;> simp only [routeFrame, creditSession] at h <;>
          (repeat' split at h) <;> cases h <;> rfl
      · contradiction
  | step =>
      simp only [readerStep, Reader.step] at h
      cases hpc : r.pc with
      | settingsConcurrent maxConcurrent maxFrame =>
          simp only [hpc] at h
          cases h
          cases maxConcurrent with
          | none => exact .inl ⟨rfl, by simp⟩
          | some m => exact .inr ⟨m, maxFrame, rfl, rfl, rfl⟩
      | _ =>
          refine .inl ⟨?_, by simp⟩
          simp only [hpc] at h
          (repeat' split at h) <;> cases h <;> rfl
  | _ =>
      refine .inl ⟨?_, by simp⟩
      simp only [readerStep, Reader.rejectTooLarge, Reader.receiveWsPing, Reader.message,
        Reader.idleProbe, Reader.exit] at h
      (repeat' split at h) <;> cases h
      all_goals rfl

section

variable {cfg : MuxConfig} {s s' : MuxState} {a : Act}

/-- A step that keeps the limit and moves one pair between live phases. -/
theorem PeerSlots.realizes {sh : Shared} {p : Nat} {pr : Pair} {z : Option Realize}
    (hP : PeerSlots s) (hS : Slots cfg s)
    (hpeer : sh.peerMaxConcurrent = s.shared.peerMaxConcurrent)
    (hlive : (s.pairs p).phase.live = true) :
    PeerSlots { s with
      shared := sh, pairs := Function.update s.pairs p pr, realizing := z } := by
  unfold PeerSlots
  rw [hpeer]
  exact fun hpos => within_moved hS.held (hP hpos) fun _ => .inl (PairPhase.within_of_live hlive)

theorem step_peerSlots (hO : Ownership s) (hS : Slots cfg s) (hP : PeerSlots s)
    (hok : ReservedFit s a) (h : step cfg s a = some s') : PeerSlots s' := by
  obtain ⟨p, c, sh, pr, rfl, hc, rfl⟩ | ⟨p, sh, pr, z, rfl, hnone, hphase, hb, rfl⟩ |
    ⟨z, sh, pr, z', rfl, hz, hr, rfl⟩ | ⟨c, sh, r, rfl, hr, rfl⟩ |
    ⟨w, order, k, sh, rfl, hw, rfl⟩ | ⟨c, sh, wr, rfl, hw, rfl⟩ | ⟨rfl, rfl⟩ := step_cases h
  · unfold PeerSlots
    rw [(client_footprint hc).peerMaxConcurrent]
    exact fun hpos => within_moved hS.held (hP hpos)
      ((client_slotMove hc).within_peer (hS.fits p) hpos)
  · exact hP.realizes hS (realizeBegin_footprint hb).peerMaxConcurrent (by rw [hphase]; rfl)
  · exact hP.realizes hS (realizeStep_footprint hr).peerMaxConcurrent
      (by rw [(hO.realizing z hz).1]; rfl)
  · rcases reader_peer hr with ⟨hsame, -⟩ | ⟨m, mf, rfl, hpc, hstored⟩
    · unfold PeerSlots
      rw [hsame]
      exact hP
    · unfold PeerSlots
      rw [hstored]
      intro hpos
      obtain ⟨n, hn, -⟩ := hS.held.exists_le (g := s.pairs)
        (R := fun pr : Pair => pr.phase.within m.toNat = true)
        fun q hq => PairPhase.holdsSlot_of_within hq
      exact ⟨n, hn, hok m mf hpc hpos n hn⟩
  · unfold PeerSlots
    rw [(workerMove_of_step hw).footprint.peerMaxConcurrent]
    exact hP
  · unfold PeerSlots
    rw [(writer_footprint hw).peerMaxConcurrent]
    exact hP
  · exact hP

end

theorem peerSlots_invariant (cfg : MuxConfig) : (mux cfg).Invariant ReservedFit PeerSlots := by
  have hslots : (mux cfg).Invariant ReservedFit (Slots cfg) :=
    Invariant.restrict (slots_invariant cfg) fun _ _ => reservedFit_castExact
  have howner : (mux cfg).Invariant ReservedFit Ownership :=
    Invariant.restrict (ownership_invariant cfg) fun _ _ _ => trivial
  refine Invariant.of_step_using (Invariant.and howner hslots) (fun hpos => absurd hpos ?_)
    fun _ _ _ hJ hP hok h => step_peerSlots hJ.1 hJ.2 hP hok h
  exact (by decide : ¬ (0 : UInt32) < 0)

/-- The log follows the limit that reservations are compared with. -/
theorem step_peer {cfg : MuxConfig} {s s' : MuxState} {a : Act} (h : step cfg s a = some s')
    (stored : Option UInt32) :
    (s'.shared.peerMaxConcurrent = s.shared.peerMaxConcurrent ∧
      logConcurrent s a stored = stored) ∨
    ∃ m, s'.shared.peerMaxConcurrent = m ∧ logConcurrent s a stored = some m := by
  obtain ⟨p, c, sh, pr, rfl, hc, rfl⟩ | ⟨p, sh, pr, z, rfl, hnone, hphase, hb, rfl⟩ |
    ⟨z, sh, pr, z', rfl, hz, hr, rfl⟩ | ⟨c, sh, r, rfl, hr, rfl⟩ |
    ⟨w, order, k, sh, rfl, hw, rfl⟩ | ⟨c, sh, wr, rfl, hw, rfl⟩ | ⟨rfl, rfl⟩ := step_cases h
  · exact .inl ⟨(client_footprint hc).peerMaxConcurrent, rfl⟩
  · exact .inl ⟨(realizeBegin_footprint hb).peerMaxConcurrent, rfl⟩
  · exact .inl ⟨(realizeStep_footprint hr).peerMaxConcurrent, rfl⟩
  · rcases reader_peer hr with ⟨hsame, hother⟩ | ⟨m, mf, rfl, hpc, hstored⟩
    · refine .inl ⟨hsame, ?_⟩
      unfold logConcurrent
      split
      · next hact =>
          cases hact
          split
          · next m mf hpc => exact absurd hpc (hother rfl m mf)
          · rfl
      · rfl
    · exact .inr ⟨m, hstored, by simp [logConcurrent, hpc]⟩
  · exact .inl ⟨(workerMove_of_step hw).footprint.peerMaxConcurrent, rfl⟩
  · exact .inl ⟨(writer_footprint hw).peerMaxConcurrent, rfl⟩
  · exact .inl ⟨rfl, rfl⟩

theorem stored_invariant (cfg : MuxConfig) :
    (admitting cfg).Invariant anyStep fun x =>
      ∀ m ∈ x.2, x.1.shared.peerMaxConcurrent = m := by
  refine Invariant.of_step (by simp [admitting, System.recording]) fun x a y hx _ hstep => ?_
  obtain ⟨h, hlog⟩ := recording_step hstep
  rw [hlog]
  rcases step_peer h x.2 with ⟨hsame, hkeep⟩ | ⟨m, hstored, hm⟩
  · rw [hkeep, hsame]
    exact hx
  · rw [hm, hstored]
    intro m' hm'
    exact Option.some.inj hm'

theorem PairPhase.within_of_onWire {phase : PairPhase} {limit : Nat}
    (h : phase.onWire = true) : phase.within limit = true := by
  cases phase <;> first | contradiction | rfl | exact h

theorem PairPhase.holdsSlot_of_onWire {phase : PairPhase} (h : phase.onWire = true) :
    phase.holdsSlot = true :=
  holdsSlot_of_within (within_of_onWire h : phase.within 0 = true)

/-- In every run in which each limit, when it is stored, admits what is reserved by then:
whenever a realization enqueues the open of its pair, the pairs then on the wire are at
most as many as the last SETTINGS with a positive limit says. -/
theorem stream_limit_honoured (cfg : MuxConfig) (as : List Act)
    (x : MuxState × Option UInt32)
    (hrun : (admitting cfg).run (admitting cfg).init as = some x)
    (hfit : (admitting cfg).Meets (fun x a => ReservedFit x.1 a) (admitting cfg).init as) :
    ∀ y z, (admitting cfg).step x .realizeStep = some y →
      x.1.realizing = some z → z.pc = .enqueueOpen →
      y.1.realizing = some { z with pc := .reserveCtrlError } →
      ∀ m ∈ y.2, 0 < m →
      ∀ n, HasCount (fun pr : Pair => pr.phase.onWire = true) y.1.pairs n → n ≤ m.toNat := by
  intro y z hstep _ _ _ m hm hpos n hn
  have hlast : (admitting cfg).run (admitting cfg).init (as ++ [.realizeStep]) = some y :=
    run_append_some hrun (run_cons hstep)
  have hmeets : (admitting cfg).Meets (fun x a => ReservedFit x.1 a) (admitting cfg).init
      (as ++ [.realizeStep]) := Meets.snoc hrun hfit trivial
  have hpeer : y.1.shared.peerMaxConcurrent = m :=
    stored_invariant cfg _ y hlast (meets_anyStep _ _) m hm
  have hslots : PeerSlots y.1 :=
    Invariant.recording (peerSlots_invariant cfg) none logConcurrent _ y hlast hmeets
  unfold PeerSlots at hslots
  rw [hpeer] at hslots
  obtain ⟨k, hk, hle⟩ := hslots hpos
  obtain ⟨j, hj, hjk⟩ := hk.exists_le (g := y.1.pairs)
    (R := fun pr : Pair => pr.phase.onWire = true) fun p hp => PairPhase.within_of_onWire hp
  rw [hn.unique hj]
  exact Nat.le_trans hjk hle

/-! ## Two reservations -/

instance (s : MuxState) (a : Act) : Decidable (CastExact s a) := by
  unfold CastExact
  split <;> infer_instance

/-- When a limit is stored, the counter of slots is within it. -/
def ActiveFit (x : MuxState × Option UInt32) : Act → Prop
  | .client _ (.openBegin _ _) => x.1.shared.activePairs < 2 ^ 32
  | .reader .step =>
      match x.1.reader.pc with
      | .settingsConcurrent (some m) _ => x.1.shared.activePairs ≤ m.toNat
      | _ => True
  | _ => True

instance (x : MuxState × Option UInt32) (a : Act) : Decidable (ActiveFit x a) := by
  unfold ActiveFit
  induction a using Act.casesOn with
  | client p c => induction c using ClientAct.casesOn <;> infer_instance
  | reader r =>
      induction r using ReaderAct.casesOn with
      | step =>
          generalize x.1.reader.pc = pc
          induction pc using ReaderPc.casesOn with
          | settingsConcurrent m rest => induction m using Option.casesOn <;> infer_instance
          | _ => infer_instance
      | _ => infer_instance
  | _ => infer_instance

theorem activeFit_castExact {x : MuxState × Option UInt32} {a : Act} (h : ActiveFit x a) :
    CastExact x.1 a := by
  cases a with
  | client p c =>
      cases c with
      | openBegin eh dh => exact h
      | _ => trivial
  | _ => trivial

/-- What is reserved is counted, so it is enough that the counter is within each limit. -/
theorem meets_of_active (cfg : MuxConfig) {as : List Act}
    (h : (admitting cfg).Meets ActiveFit (admitting cfg).init as) :
    (admitting cfg).Meets (fun x a => ReservedFit x.1 a) (admitting cfg).init as := by
  have hslots : (admitting cfg).Invariant ActiveFit fun x => Slots cfg x.1 :=
    Invariant.restrict (Invariant.recording (slots_invariant cfg) none logConcurrent)
      fun _ _ => activeFit_castExact
  refine Reaches.meets (fun x a hx hok => ?_) Reaches.init h
  have hheld := (Reaches.of_invariant hx hslots).held
  unfold ReservedFit
  split
  · exact hok
  · intro m mf hpc _ n hn
    simp only [ActiveFit, hpc] at hok
    obtain ⟨k, hk, hle⟩ := hheld.exists_le (g := x.1.pairs)
      (R := fun pr : Pair => pr.phase.within m.toNat = true)
      fun q hq => PairPhase.holdsSlot_of_within hq
    rw [hn.unique hk]
    exact Nat.le_trans hle hok
  · trivial

/-- The reader handles a SETTINGS frame with this limit. -/
def concurrentActs (m : UInt32) : List Act :=
  [.reader (.receive (.settings none (some m) none)), .reader .step, .reader .step]

/-- The realization of pair `p`, up to the enqueue of its open. -/
def beforeEnqueueActs (p : Nat) : List Act := .realizeBegin p :: List.replicate 4 .realizeStep

/-- The limit becomes two, two pairs are reserved, and the second is about to follow the
first onto the wire. -/
def admittedActs : List Act :=
  concurrentActs 2 ++ openActs 0 ++ openActs 1 ++ realizeActs 0 ++ beforeEnqueueActs 1

theorem stream_limit_honoured_admitted :
    ∃ x y, (admitting MuxConfig.default).run (admitting MuxConfig.default).init
        admittedActs = some x ∧
      (admitting MuxConfig.default).step x .realizeStep = some y ∧
      (y.1.pairs 0).phase = .opened ∧ y.2 = some 2 ∧
      ∀ n, HasCount (fun pr : Pair => pr.phase.onWire = true) y.1.pairs n → n ≤ 2 := by
  have hchecked : ((admitting MuxConfig.default).run (admitting MuxConfig.default).init
      admittedActs).map (fun x => (x.1.realizing,
        ((admitting MuxConfig.default).step x .realizeStep).map (fun y =>
          (y.1.realizing, (y.1.pairs 0).phase, y.2)))) =
      some (some ⟨1, 5, 7, .enqueueOpen⟩,
        some (some ⟨1, 5, 7, .reserveCtrlError⟩, .opened, some 2)) := by decide +kernel
  obtain ⟨x, hrun, hx⟩ := Option.map_eq_some_iff.1 hchecked
  rw [Prod.mk.injEq] at hx
  obtain ⟨y, hstep, hy⟩ := Option.map_eq_some_iff.1 hx.2
  simp only [Prod.mk.injEq] at hy
  refine ⟨x, y, hrun, hstep, hy.2.1, hy.2.2, fun n hn => ?_⟩
  exact stream_limit_honoured MuxConfig.default admittedActs x hrun
    (meets_of_active _ (meets_of_check (by decide +kernel))) y ⟨1, 5, 7, .enqueueOpen⟩ hstep
    hx.1 rfl hy.1 2 (by rw [hy.2.2]; rfl) (by decide) n hn

/-- Two pairs are reserved, the limit becomes one, and both are put on the wire. -/
def overReservedActs : List Act :=
  openActs 0 ++ openActs 1 ++ concurrentActs 1 ++ realizeActs 0 ++ beforeEnqueueActs 1

/-- The second open is enqueued while the first pair is open. -/
theorem reserved_pairs_exceed :
    ∃ x y z n, (admitting MuxConfig.default).run (admitting MuxConfig.default).init
        overReservedActs = some x ∧
      (admitting MuxConfig.default).step x .realizeStep = some y ∧
      x.1.realizing = some z ∧ z.pc = .enqueueOpen ∧
      y.1.realizing = some { z with pc := .reserveCtrlError } ∧ y.2 = some 1 ∧
      HasCount (fun pr : Pair => pr.phase.onWire = true) y.1.pairs n ∧ ¬ n ≤ 1 := by
  have hchecked : ((admitting MuxConfig.default).run (admitting MuxConfig.default).init
      overReservedActs).map (fun x => (x.1.realizing,
        ((admitting MuxConfig.default).step x .realizeStep).map (fun y =>
          (y.1.realizing, ((y.1.pairs 0).phase.onWire && (y.1.pairs 1).phase.onWire), y.2)))) =
      some (some ⟨1, 5, 7, .enqueueOpen⟩,
        some (some ⟨1, 5, 7, .reserveCtrlError⟩, true, some 1)) := by decide +kernel
  obtain ⟨x, hrun, hx⟩ := Option.map_eq_some_iff.1 hchecked
  rw [Prod.mk.injEq] at hx
  obtain ⟨y, hstep, hy⟩ := Option.map_eq_some_iff.1 hx.2
  simp only [Prod.mk.injEq, Bool.and_eq_true] at hy
  obtain ⟨hz, ⟨hfirst, hsecond⟩, hstored⟩ := hy
  have hlast : (admitting MuxConfig.default).run (admitting MuxConfig.default).init
      (overReservedActs ++ [.realizeStep]) = some y := run_append_some hrun (run_cons hstep)
  have hslots : Slots MuxConfig.default y.1 :=
    slots_invariant MuxConfig.default _ y.1 (run_recording hlast)
      (meets_of_check (by decide +kernel))
  obtain ⟨n, hn, -⟩ := hslots.held.exists_le (g := y.1.pairs)
    (R := fun pr : Pair => pr.phase.onWire = true) fun p hp =>
      PairPhase.holdsSlot_of_onWire hp
  have htwo : 2 ≤ n := hn.two_le (i := 0) (j := 1) (by decide) hfirst hsecond
  exact ⟨x, y, _, n, hrun, hstep, hx.1, rfl, hz, hstored, hn, by omega⟩

end KubePortForward.Mux
