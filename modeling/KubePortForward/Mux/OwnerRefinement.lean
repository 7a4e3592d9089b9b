import KubePortForward.Mux.OwnerInvariant

/-!
# Streams refine the pairs of the connection

Every step of a caller is a step of the owner of a pair in `Mux.System`, or
changes nothing there, and the guards release a slot when the phases of the
pair say so.  What holds of every reachable state of the multiplexed connection
thus holds while callers use, split and drop their streams.

## Main results

* `owned_invariant` — open states, guards and phases agree in every run, and the
  connection underneath is in a reachable state.
* `ownedStep_mux` — a step of a caller is a step of the connection, or none.
-/

namespace KubePortForward.Mux

open KubePortForward.Codec
open KubePortForward.Verified.Channel
open KubePortForward.Verified.Transition

/-! ## Who holds a receiver -/

/-- The holder still has the receiver. -/
def CallPc.keeps (h : Holder) (kind : HalfKind) : CallPc → Bool
  | .absent => false
  | .closing => false
  | .dropping todo => decide (kind ∈ todo)
  | _ => decide (kind ∈ h.receivers)

def Owner.Keeps (o : Owner) (kind : HalfKind) : Prop :=
  ∃ h, (o.calls h).keeps h kind = true

section

variable {o o' : Owner} {pr pr' : Pair} {h : Holder} {c : CallPc} {kind : HalfKind}
variable {cfg : MuxConfig} {p : Nat} {sh sh' : Shared} {sent : List MuxCommand}

theorem Owner.Keeps.setCall (hkeeps : o.Keeps kind)
    (hsame : (o.calls h).keeps h kind = true → c.keeps h kind = true) :
    (o.setCall h c).Keeps kind := by
  obtain ⟨i, hi⟩ := hkeeps
  refine ⟨i, ?_⟩
  by_cases heq : i = h
  · subst heq
    rw [setCall_self]
    exact hsame hi
  · rw [setCall_other heq]
    exact hi

/-- A receiver is kept until it is dropped. -/
theorem OwnerMove.keeps (hmove : OwnerMove p sh pr o pr' o' sent) (hkeeps : o.Keeps kind) :
    o'.Keeps kind ∨ (sh.chans ⟨p, kind⟩).chan.closed = true := by
  cases hmove with
  | attempt pr' hfrom hto hwrite hshut => exact .inl hkeeps
  | grant pr' hfrom hto hwrite hshut =>
      refine .inl ⟨.stream, ?_⟩
      cases kind <;> rfl
  | split hcall =>
      left
      cases kind with
      | data => exact ⟨.data, rfl⟩
      | error => exact ⟨.error, rfl⟩
  | begins h op hcall hopens => exact .inl (hkeeps.setCall (h := h) (by rw [hcall]; exact id))
  | emptyWrite h hcall => exact .inl hkeeps
  | quiet pr' hsame => exact .inl hkeeps
  | ends pr' h op hcall hsame => exact .inl (hkeeps.setCall (by rw [hcall]; exact id))
  | writeBegins h buf hcall hmutex hidle hshut =>
      exact .inl (hkeeps.setCall (h := h) (by rw [hcall]; exact id))
  | writesOn pr' h buf hcall hsame hbusy hfrom => exact .inl hkeeps
  | writeEnds pr' h buf hcall hsame hidle =>
      exact .inl (hkeeps.setCall (h := h) (c := .idle) (by rw [hcall]; exact id))
  | writeSent pr' h buf payload hcall hwrite hsame hidle =>
      exact .inl (hkeeps.setCall (h := h) (c := .idle) (by rw [hcall]; exact id))
  | reserves pr' h hcall hmutex hsame =>
      exact .inl (hkeeps.setCall (h := h) (by rw [hcall]; exact id))
  | shuts pr' h hcall hpr hidle hshut =>
      exact .inl (hkeeps.setCall (h := h) (c := .idle) (by rw [hcall]; exact id))
  | drops h hcall => exact .inl (hkeeps.setCall (by rw [hcall]; exact id))
  | dropsReceiver h kind' todo hcall hclosed =>
      by_cases hkind : kind = kind'
      · subst hkind
        exact .inr hclosed
      · left
        apply hkeeps.setCall
        rw [hcall]
        simp [CallPc.keeps, hkind]
  | dropsRef h hcall hrefs =>
      exact .inl (hkeeps.setCall (h := h) (by rw [hcall]; simp [CallPc.keeps]))
  | dropsUnopened h pendingTx g hcall hrefs hstate =>
      exact .inl (hkeeps.setCall (h := h) (by rw [hcall]; simp [CallPc.keeps]))
  | dropsOpened pr' h hcall hrefs hstate hpr =>
      exact .inl (hkeeps.setCall (h := h) (by rw [hcall]; simp [CallPc.keeps]))
  | closes h pc pc' hcall hphase hpc hreleases => exact .inl hkeeps
  | closed h hcall hphase =>
      exact .inl (hkeeps.setCall (h := h) (by rw [hcall]; simp [CallPc.keeps]))

/-- A stream that is granted has both receivers. -/
theorem OwnerMove.born (kind : HalfKind) (hmove : OwnerMove p sh pr o pr' o' sent) (hI : OwnerInv o pr)
    (hnone : o.state = .none) : o'.state = .none ∨ o'.Keeps kind := by
  have habsent : ∀ h, o.calls h = .absent := by
    intro h
    by_contra hpresent
    by_cases hclosing : o.calls h = .closing
    · have hok := hI.calls h
      rw [hclosing] at hok
      rw [show o.state = .closing from hok] at hnone
      contradiction
    · have halive := (hI.calls h).alive hpresent hclosing
      rw [hnone] at halive
      contradiction
  cases hmove with
  | attempt pr' hfrom hto hwrite hshut => exact .inl hnone
  | grant pr' hfrom hto hwrite hshut =>
      refine .inr ⟨.stream, ?_⟩
      cases kind <;> rfl
  | quiet pr' hsame => exact .inl hnone
  | _ => simp_all

/-! ## Opening the stream -/

/-- What was logged does not matter to the calls. -/
theorem OwnerInv.log {issued : List MuxCommand} (hI : OwnerInv o pr) :
    OwnerInv { o with issued := issued } pr :=
  ⟨hI.state, hI.calls, hI.access, hI.closing, hI.refs, hI.whole, hI.released⟩

/-- The call for which the pair is being realized. -/
theorem OwnerInv.realizing_call (hI : OwnerInv o pr) (hphase : pr.phase = .realizing) :
    ∃ h op, o.mutex = some h ∧ o.calls h = .realizing op ∧ pr.write = .idle ∧
      o.state = .unopened false (some .new) := by
  have hstate : o.state = .unopened false (some .new) := by
    have hagrees := hI.state
    rw [hphase] at hagrees
    cases hs : o.state with
    | unopened pendingTx g =>
        rw [hs] at hagrees
        cases pendingTx with
        | true => simp [OpenState.Agrees] at hagrees
        | false =>
            rw [hagrees.1]
    | _ =>
        rw [hs] at hagrees
        simp [OpenState.Agrees, PairPhase.ungranted] at hagrees
  cases hm : o.mutex with
  | none => exact absurd hphase (hI.free hm).2
  | some h =>
      have haccess := hI.accesses hm
      cases hc : o.calls h with
      | realizing op =>
          rw [hc] at haccess
          exact ⟨h, op, rfl, hc, haccess.2, hstate⟩
      | _ =>
          rw [hc] at haccess
          simp_all [CallPc.Accesses]

/-- The disarmed guard releases nothing. -/
theorem Owner.realized_eq (sh : Shared) {op : Op} (hmutex : o.mutex = some h)
    (hcall : o.calls h = .realizing op) (hstate : o.state = .unopened false (some .new)) :
    o.realized true sh =
        (sh, { o.setCall h (.body op) with state := .opened, mutex := none }) ∧
      o.realized false sh = (sh, o.leave h) := by
  unfold Owner.realized Owner.finishOpen
  simp only [hmutex, hcall, hstate]
  exact ⟨rfl, rfl⟩

/-- The pair is open, and the call goes on. -/
theorem OwnerInv.finishOpen {op : Op} (hI : OwnerInv o pr) (hmutex : o.mutex = some h)
    (hcall : o.calls h = .realizing op) (hidle : pr.write = .idle)
    (hstate : o.state = .unopened false (some .new)) (hphase : pr.phase = .realizing) :
    OwnerInv { o.setCall h (.body op) with state := .opened, mutex := none }
      { pr with phase := .opened } := by
  have hfrom : o.calls h ≠ .absent := by simp [hcall]
  refine ⟨rfl, ?_, .of_none rfl ⟨hidle, by simp⟩, by simp, ?_, hI.whole.setCall hfrom, ?_⟩
  · refine forall_setCall (Q := fun c i => c.Ok .opened none i) rfl fun i hi => ?_
    have hok := (hI.calls i).other (m := none) hi (.inr hmutex)
    rw [hstate] at hok
    cases hc : o.calls i <;> rw [hc] at hok <;> simp_all [CallPc.Ok, OpenState.alive]
  · show o.refs = (o.setCall h (.body op)).holders
    rw [holders_setCall hfrom (by simp)]
    exact hI.refs
  · show o.released = 0
    rw [hI.released, hphase]
    rfl

/-- The senders are taken and the realization has begun, or failed at once. -/
theorem OwnerInv.realizes {g : Option PairReleaseGuard} {op : Op} {z : Option Realize}
    (hI : OwnerInv o pr) (hmutex : o.mutex = none) (hcall : o.calls h = .ensuring op)
    (hstate : o.state = .unopened true g)
    (hpr : (pr' = { pr with phase := .broken } ∧ z = none) ∨
      ∃ y, z = some y ∧ pr' = { pr with
        phase := .realizing, errorId := y.errorId, dataId := y.dataId }) :
    OwnerInv (o.realizes g h op z) pr' := by
  have hfrom : o.calls h ≠ .absent := by simp [hcall]
  have hagrees := hI.state
  rw [hstate] at hagrees
  obtain ⟨hguard, hphase⟩ := hagrees
  have hidle := (hI.free hmutex).1
  have hzero : o.released = 0 := by
    rw [hI.released, hphase]
    rfl
  have hother : ∀ i, i ≠ h → ∀ m, (o.calls i).Ok (.unopened false g) m i := by
    intro i hi m
    have hok := (hI.calls i).other (m := m) hi (.inl hmutex)
    rw [hstate] at hok
    cases hc : o.calls i <;> rw [hc] at hok <;> simp_all [CallPc.Ok, OpenState.alive]
  rcases hpr with ⟨rfl, rfl⟩ | ⟨y, rfl, rfl⟩
  · refine ⟨⟨hguard, .inr rfl⟩, ?_, .of_none hmutex ⟨hidle, by simp⟩, by simp [Owner.realizes],
      ?_, hI.whole.setCall hfrom, hzero⟩
    · exact forall_setCall (c := .idle) (Q := fun c i => c.Ok (.unopened false g) o.mutex i) rfl
        fun i hi => hother i hi _
    · show o.refs = (o.setCall h .idle).holders
      rw [holders_setCall hfrom (by simp)]
      exact hI.refs
  · refine ⟨⟨hguard, .inl rfl⟩, ?_, .of_some (h := h) rfl ?_, by simp [Owner.realizes], ?_,
      hI.whole.setCall hfrom, hzero⟩
    · exact forall_setCall (c := .realizing op)
        (Q := fun c i => c.Ok (.unopened false g) (some h) i) ⟨rfl, rfl⟩
        fun i hi => hother i hi _
    · show ((o.setCall h (.realizing op)).calls h).Accesses _
      rw [setCall_self]
      exact ⟨rfl, hidle⟩
    · show o.refs = (o.setCall h (.realizing op)).holders
      rw [holders_setCall hfrom (by simp)]
      exact hI.refs

/-- The call finds the stream open, or used up. -/
theorem OwnerInv.ensured {op : Op} (hI : OwnerInv o pr) (hcall : o.calls h = .ensuring op)
    (hstate : o.state = .opened) : OwnerInv (o.setCall h (.body op)) pr := by
  have hfrom : o.calls h ≠ .absent := by simp [hcall]
  refine ⟨hI.state, ?_, ?_, hI.closing, ?_, hI.whole.setCall hfrom, hI.released⟩
  · exact forall_setCall (Q := fun c i => c.Ok o.state o.mutex i) hstate fun i _ => hI.calls i
  · cases hm : o.mutex with
    | none => exact .of_none hm (hI.free hm)
    | some i =>
        have haccess := hI.accesses hm
        have hi : i ≠ h := by
          rintro rfl
          rw [hcall] at haccess
          exact haccess
        refine .of_some hm ?_
        rw [setCall_other hi]
        exact haccess
  · show o.refs = (o.setCall h (.body op)).holders
    rw [holders_setCall hfrom (by simp)]
    exact hI.refs

/-! ## The steps of the system -/

/-- The last drop of a stream that was not opened is the drop the phases
prescribe. -/
theorem dropUnopened_client (cfg : MuxConfig) (o' : Owner) {pendingTx : Bool} {g : Option PairReleaseGuard}
    (hI : OwnerInv o pr) (hstate : o.state = .unopened pendingTx g) (hmutex : o.mutex = none)
    (hclosed : ∀ kind, (sh.chans ⟨p, kind⟩).chan.closed = true) :
    clientStep cfg p .dropRest sh pr =
      some ((Owner.dropUnopened p pendingTx g sh pr o').1,
        (Owner.dropUnopened p pendingTx g sh pr o').2.1) := by
  obtain ⟨hidle, hnot⟩ := hI.free hmutex
  have hagrees := hI.state
  rw [hstate] at hagrees
  simp only [clientStep, Pair.dropRest]
  rw [if_pos ⟨hclosed .data, hclosed .error, hidle⟩]
  cases pendingTx with
  | true =>
      obtain ⟨rfl, hphase⟩ := hagrees
      rw [hphase]
      rfl
  | false =>
      obtain ⟨rfl, hphase⟩ := hagrees
      rw [hphase.resolve_left hnot]
      rfl

/-- A step of an owner is a step of the pair, or none. -/
theorem ownerStep_client {a : OwnerAct} (hI : OwnerInv o pr)
    (hclosed : ∀ kind, o.state ≠ .none → ¬ o.Keeps kind →
      (sh.chans ⟨p, kind⟩).chan.closed = true)
    (hs : o.step cfg p a sh pr = some (sh', pr', o')) :
    (sh' = sh ∧ pr' = pr) ∨ ∃ c, clientStep cfg p c sh pr = some (sh', pr') ∧
      ∀ eh dh, c = .openBegin eh dh → a = .openBegin eh dh := by
  have hmap : ∀ {c : ClientAct} {f : Shared × Pair → Shared × Pair × Owner},
      (∀ x, (f x).1 = x.1 ∧ (f x).2.1 = x.2) →
      (clientStep cfg p c sh pr).map f = some (sh', pr', o') →
      clientStep cfg p c sh pr = some (sh', pr') := by
    intro c f hf hsome
    obtain ⟨x, hx, heq⟩ := Option.map_eq_some_iff.1 hsome
    obtain ⟨h₁, h₂⟩ := hf x
    rw [heq] at h₁ h₂
    rw [hx, Option.some.injEq]
    exact Prod.ext h₁.symm h₂.symm
  cases a with
  | openBegin eh dh =>
      refine .inr ⟨_, hmap (fun _ => ⟨rfl, rfl⟩) hs, fun eh' dh' heq => ?_⟩
      cases heq
      rfl
  | openStep => exact .inr ⟨_, hmap (fun _ => ⟨rfl, rfl⟩) hs, by simp⟩
  | split =>
      simp only [Owner.step] at hs
      split at hs <;> cases hs
      exact .inl ⟨rfl, rfl⟩
  | call h op =>
      simp only [Owner.step, Owner.call] at hs
      (repeat' split at hs) <;> cases hs <;>
        first
        | exact .inl ⟨rfl, rfl⟩
        | exact .inr ⟨_, by assumption, by simp⟩
  | proceed h =>
      simp only [Owner.step, Owner.proceed] at hs
      split at hs
      · split at hs <;> cases hs
        · next hc => exact .inr ⟨_, hc, by simp⟩
        · exact .inl ⟨rfl, rfl⟩
      · split at hs <;> cases hs
        · next hc => exact .inr ⟨_, hc, by simp⟩
        · exact .inl ⟨rfl, rfl⟩
      · split at hs
        · split at hs <;> cases hs
          · next hc => exact .inr ⟨_, hc, by simp⟩
          · exact .inl ⟨rfl, rfl⟩
        · contradiction
      · refine .inr ⟨_, hmap (fun _ => ⟨rfl, rfl⟩) hs, ?_⟩
        unfold Owner.nextWrite
        (repeat' split) <;> simp
      · split at hs
        · split at hs
          · cases hs
            exact .inl ⟨rfl, rfl⟩
          · split at hs
            · cases hs
              exact .inl ⟨rfl, rfl⟩
            · split at hs <;> cases hs
              · next hc => exact .inr ⟨_, hc, by simp⟩
              · exact .inl ⟨rfl, rfl⟩
        · contradiction
      · exact .inr ⟨_, hmap (fun _ => ⟨rfl, rfl⟩) hs, by simp⟩
      · contradiction
  | permit =>
      simp only [Owner.step] at hs
      split at hs
      · exact .inr ⟨_, hmap (fun _ => ⟨rfl, rfl⟩) hs, by simp⟩
      · contradiction
  | drop h =>
      simp only [Owner.step] at hs
      split at hs <;> cases hs
      exact .inl ⟨rfl, rfl⟩
  | dropNext h =>
      simp only [Owner.step, Owner.dropNext] at hs
      split at hs
      · exact .inr ⟨_, hmap (fun _ => ⟨rfl, rfl⟩) hs, by simp⟩
      · next hcall =>
          split at hs
          · next hrefs =>
              split at hs
              · next pendingTx g hstate =>
                  have hfrom : o.calls h ≠ .absent := by simp [hcall]
                  have hmutex := hI.unaccessed hrefs hfrom (by simp [hcall, CallPc.Accesses])
                  have hunkept : ∀ kind, ¬ o.Keeps kind := by
                    rintro kind ⟨i, hi⟩
                    by_cases heq : i = h
                    · rw [heq, hcall] at hi
                      simp [CallPc.keeps] at hi
                    · rw [hI.alone hrefs hfrom heq] at hi
                      contradiction
                  have hdrop := dropUnopened_client cfg { o.setCall h .absent with refs := 0 }
                    hI hstate hmutex
                    fun kind => hclosed kind (by simp [hstate]) (hunkept kind)
                  rw [Option.some.inj hs] at hdrop
                  exact .inr ⟨_, hdrop, by simp⟩
              · exact .inr ⟨_, hmap (fun _ => ⟨rfl, rfl⟩) hs, by simp⟩
              · contradiction
          · cases hs
            exact .inl ⟨rfl, rfl⟩
      · exact .inr ⟨_, hmap (fun _ => ⟨rfl, rfl⟩) hs, by simp⟩
      · contradiction

end

/-- Every step is a step of an owner, a part of opening a stream, or a move of
the connection. -/
theorem ownedStep_cases {cfg : MuxConfig} {s s' : OwnedState} {a : OwnedAct}
    (hs : ownedStep cfg s a = some s') :
    (∃ p c sh pr o, a = .owner p c ∧
      (s.owners p).step cfg p c s.mux.shared (s.mux.pairs p) = some (sh, pr, o) ∧
      s' = s.put p sh pr s.mux.realizing o) ∨
    (∃ p h op, (s.owners p).calls h = .ensuring op ∧ (s.owners p).mutex = none ∧
      (s.owners p).state = .opened ∧
      s' = s.put p s.mux.shared (s.mux.pairs p) s.mux.realizing
        ((s.owners p).setCall h (.body op))) ∨
    (∃ p h op g sh pr z, a = .ensure p h ∧ (s.owners p).calls h = .ensuring op ∧
      (s.owners p).mutex = none ∧ (s.owners p).state = .unopened true g ∧
      s.mux.realizing = none ∧ realizeBegin p s.mux.shared (s.mux.pairs p) = (sh, pr, z) ∧
      s' = s.put p sh pr z ((s.owners p).realizes g h op z)) ∨
    (∃ p h op g, (s.owners p).calls h = .ensuring op ∧ (s.owners p).mutex = none ∧
      (s.owners p).state = .unopened false g ∧
      s' = s.put p s.mux.shared (s.mux.pairs p) s.mux.realizing
        ((s.owners p).setCall h .idle)) ∨
    (∃ z sh pr z', a = .realizeStep ∧ s.mux.realizing = some z ∧
      z.step s.mux.shared (s.mux.pairs z.pair) = (sh, pr, some z') ∧
      s' = s.put z.pair sh pr (some z') (s.owners z.pair)) ∨
    (∃ z sh pr sh' o, a = .realizeStep ∧ s.mux.realizing = some z ∧
      z.step s.mux.shared (s.mux.pairs z.pair) = (sh, pr, none) ∧
      (s.owners z.pair).realized (decide (pr.phase = .opened)) sh = (sh', o) ∧
      s' = s.put z.pair sh' pr none o) ∨
    (∃ b m, a = .env b ∧ b.isEnv = true ∧ step cfg s.mux b = some m ∧
      s' = { s with mux := m }) := by
  cases a with
  | owner p c =>
      obtain ⟨⟨sh, pr, o⟩, hstep, rfl⟩ := Option.map_eq_some_iff.1 hs
      exact .inl ⟨p, c, sh, pr, o, rfl, hstep, rfl⟩
  | ensure p h =>
      simp only [ownedStep, ensureStep] at hs
      split at hs
      · next op hcall =>
          split at hs
          · next hmutex =>
              split at hs
              · next hstate =>
                  cases hs
                  exact .inr (.inl ⟨p, h, op, hcall, hmutex, hstate, rfl⟩)
              · next g hstate =>
                  split at hs
                  · next hfree =>
                      cases hs
                      exact .inr (.inr (.inl ⟨p, h, op, g, _, _, _, rfl, hcall, hmutex, hstate,
                        hfree, rfl, rfl⟩))
                  · contradiction
              · next g hstate =>
                  cases hs
                  exact .inr (.inr (.inr (.inl ⟨p, h, op, g, hcall, hmutex, hstate, rfl⟩)))
              · contradiction
          · contradiction
      · contradiction
  | realizeStep =>
      simp only [ownedStep] at hs
      split at hs
      · contradiction
      · next z hz =>
          split at hs
          · next sh pr z' hstep =>
              cases hs
              exact .inr (.inr (.inr (.inr (.inl ⟨z, sh, pr, z', rfl, hz, hstep, rfl⟩))))
          · next sh pr hstep =>
              cases hs
              exact .inr (.inr (.inr (.inr (.inr (.inl ⟨z, sh, pr, _, _, rfl, hz, hstep, rfl,
                rfl⟩)))))
  | env b =>
      simp only [ownedStep] at hs
      split at hs
      · next henv =>
          obtain ⟨m, hm, rfl⟩ := Option.map_eq_some_iff.1 hs
          exact .inr (.inr (.inr (.inr (.inr (.inr ⟨b, m, rfl, henv, hm, rfl⟩)))))
      · contradiction

/-! ## The refinement -/

structure Owned (cfg : MuxConfig) (s : OwnedState) : Prop where
  reach : (mux cfg).Reaches anyStep s.mux
  owners : ∀ p, OwnerInv (s.owners p) (s.mux.pairs p)
  /-- A receiver that nobody holds is closed. -/
  receivers : ∀ p kind, (s.owners p).state ≠ .none → ¬ (s.owners p).Keeps kind →
    (s.mux.shared.chans ⟨p, kind⟩).chan.closed = true

theorem owned_init (cfg : MuxConfig) : Owned cfg (owned cfg).init where
  reach := Reaches.init
  owners := fun _ => ownerInv_init
  receivers := fun _ _ h => absurd rfl h

theorem put_mux_same (s : OwnedState) (p : Nat) (o : Owner) :
    (s.put p s.mux.shared (s.mux.pairs p) s.mux.realizing o).mux = s.mux := by
  simp [OwnedState.put]

/-- Each step is a step of the connection, or none. -/
theorem ownedStep_mux {cfg : MuxConfig} {s s' : OwnedState} {a : OwnedAct} (hI : Owned cfg s)
    (hs : ownedStep cfg s a = some s') :
    s'.mux = s.mux ∨ ∃ b, step cfg s.mux b = some s'.mux ∧
      ∀ p eh dh, b = .client p (.openBegin eh dh) → a = .owner p (.openBegin eh dh) := by
  obtain ⟨p, c, sh, pr, o, rfl, hstep, rfl⟩ | ⟨p, h, op, hcall, hmutex, hstate, rfl⟩ |
    ⟨p, h, op, g, sh, pr, z, -, hcall, hmutex, hstate, hfree, hb, rfl⟩ |
    ⟨p, h, op, g, hcall, hmutex, hstate, rfl⟩ | ⟨z, sh, pr, z', -, hz, hstep, rfl⟩ |
    ⟨z, sh, pr, sh', o, -, hz, hstep, hrealized, rfl⟩ | ⟨b, m, rfl, henv, hm, rfl⟩ :=
    ownedStep_cases hs
  · rcases ownerStep_client (hI.owners p) (hI.receivers p) hstep with ⟨rfl, rfl⟩ | ⟨c', hc, hbegin⟩
    · exact .inl (put_mux_same s p o)
    · refine .inr ⟨.client p c', ?_, fun q eh dh heq => ?_⟩
      · simp [step, hc, OwnedState.put]
      · cases heq
        rw [hbegin eh dh rfl]
  · exact .inl (put_mux_same s p _)
  · have hphase : (s.mux.pairs p).phase = .unopened := by
      have hagrees := (hI.owners p).state
      rw [hstate] at hagrees
      exact hagrees.2
    refine .inr ⟨.realizeBegin p, ?_, by simp⟩
    simp [step, hfree, hphase, hb, OwnedState.put]
  · exact .inl (put_mux_same s p _)
  · refine .inr ⟨.realizeStep, ?_, by simp⟩
    simp [step, hz, hstep, OwnedState.put]
  · have hO := Reaches.of_invariant hI.reach (ownership_invariant cfg)
    obtain ⟨h, op, hmutex, hcall, -, hstate⟩ :=
      (hI.owners z.pair).realizing_call (hO.realizing z hz).1
    have hsame : sh' = sh := by
      obtain ⟨hopen, hbroken⟩ := Owner.realized_eq sh hmutex hcall hstate
      cases hd : decide (pr.phase = .opened) with
      | true =>
          rw [hd, hopen] at hrealized
          exact (Prod.mk.inj hrealized).1.symm
      | false =>
          rw [hd, hbroken] at hrealized
          exact (Prod.mk.inj hrealized).1.symm
    subst hsame
    refine .inr ⟨.realizeStep, ?_, by simp⟩
    simp [step, hz, hstep, OwnedState.put]
  · refine .inr ⟨b, hm, fun p eh dh heq => ?_⟩
    rw [heq] at henv
    contradiction

/-- The tasks of the connection leave the pairs and the realization alone. -/
theorem step_env_pairs {cfg : MuxConfig} {m m' : MuxState} {b : Act} (henv : b.isEnv = true)
    (h : step cfg m b = some m') : m'.pairs = m.pairs ∧ m'.realizing = m.realizing := by
  obtain ⟨p, c, sh, pr, rfl, -, -⟩ | ⟨p, sh, pr, z, rfl, -, -, -, -⟩ |
    ⟨z, sh, pr, z', rfl, -, -, -⟩ | ⟨c, sh, r, rfl, -, rfl⟩ | ⟨w, order, k, sh, rfl, -, rfl⟩ |
    ⟨c, sh, wr, rfl, -, rfl⟩ | ⟨rfl, rfl⟩ := step_cases h
  · contradiction
  · contradiction
  · contradiction
  · exact ⟨rfl, rfl⟩
  · exact ⟨rfl, rfl⟩
  · exact ⟨rfl, rfl⟩
  · exact ⟨rfl, rfl⟩

/-- A closed receiver stays closed. -/
theorem step_closed {cfg : MuxConfig} {s s' : MuxState} {a : Act} (hR : Registrations s)
    (h : step cfg s a = some s') (r : ChanRef)
    (hphase : (s.pairs r.pair).phase ≠ .granting)
    (hclosed : (s.shared.chans r).chan.closed = true) :
    (s'.shared.chans r).chan.closed = true := by
  have hunread : ∀ pr : Pair, pr.canRead (s.shared.chans r) ≠ true := by
    intro pr
    simp [Pair.canRead, hclosed]
  rcases step_half hR h r with ⟨added, hgrow, -⟩ | hmove
  · rw [hgrow.closed]
    exact hclosed
  · generalize s'.shared.chans r = c, (s'.pairs r.pair).half r.half = x at hmove ⊢
    cases hmove with
    | keep hgrow hhalf =>
        rw [hgrow.closed]
        exact hclosed
    | read n bytes hn hcan hread => exact absurd hcan (hunread _)
    | fill fuel hcan => exact absurd hcan (hunread _)
    | consume amt hcan => exact absurd hcan (hunread _)
    | drop => rfl
    | create n hgranting => exact absurd hgranting hphase

/-- What one step does to the owners and their receivers. -/
theorem step_owned {cfg : MuxConfig} {s s' : OwnedState} {a : OwnedAct} (hI : Owned cfg s)
    (hs : ownedStep cfg s a = some s') : Owned cfg s' := by
  have hmux := ownedStep_mux hI hs
  have hR := Reaches.of_invariant hI.reach (registrations_invariant cfg)
  have hO := Reaches.of_invariant hI.reach (ownership_invariant cfg)
  have hreach : (mux cfg).Reaches anyStep s'.mux := by
    rcases hmux with hsame | ⟨b, hb, -⟩
    · rw [hsame]
      exact hI.reach
    · exact Reaches.step hI.reach trivial hb
  have hstays : ∀ p kind, (s.owners p).state ≠ .none → ¬ (s.owners p).Keeps kind →
      (s'.mux.shared.chans ⟨p, kind⟩).chan.closed = true := by
    intro p kind hstate hkeeps
    have hclosed := hI.receivers p kind hstate hkeeps
    rcases hmux with hsame | ⟨b, hb, -⟩
    · rw [hsame]
      exact hclosed
    · refine step_closed hR hb ⟨p, kind⟩ (fun hgranting => ?_) hclosed
      exact hstate ((hI.owners p).unborn (by rw [hgranting]; rfl)).1
  have hput : ∀ {p : Nat} {sh : Shared} {pr : Pair} {z : Option Realize} {o : Owner},
      s' = s.put p sh pr z o → OwnerInv o pr →
      (∀ kind, o.state ≠ .none → ¬ o.Keeps kind →
        (s'.mux.shared.chans ⟨p, kind⟩).chan.closed = true) → Owned cfg s' := by
    intro p sh pr z o heq hinv hrecv
    refine ⟨hreach, fun q => ?_, fun q kind => ?_⟩
    · subst heq
      by_cases hq : q = p
      · subst hq
        simpa [OwnedState.put] using hinv.log
      · simpa [OwnedState.put, hq] using hI.owners q
    · by_cases hq : q = p
      · subst hq
        rw [heq]
        simp only [OwnedState.put, Function.update_self]
        rw [heq] at hrecv
        exact hrecv kind
      · have hsame : s'.owners q = s.owners q := by
          rw [heq]
          simp [OwnedState.put, hq]
        rw [hsame]
        exact hstays q kind
  -- The calls that open the stream keep their receivers.
  have hensure : ∀ {p : Nat} {h : Holder} {op : Op} {c : CallPc} {o : Owner} {kind : HalfKind},
      (s.owners p).calls h = .ensuring op → o.calls = ((s.owners p).setCall h c).calls →
      c.keeps h kind = decide (kind ∈ h.receivers) → (s.owners p).state ≠ .none →
      ¬ o.Keeps kind → (s'.mux.shared.chans ⟨p, kind⟩).chan.closed = true := by
    intro p h op c o kind hcall hcalls hc hstate hunkept
    refine hstays p kind hstate fun hkeeps => hunkept ?_
    have hnew : ((s.owners p).setCall h c).Keeps kind :=
      hkeeps.setCall (by rw [hcall, hc]; exact id)
    obtain ⟨i, hi⟩ := hnew
    exact ⟨i, by rw [hcalls]; exact hi⟩
  obtain ⟨p, c, sh, pr, o, rfl, hstep, hs'⟩ | ⟨p, h, op, hcall, hmutex, hstate, hs'⟩ |
    ⟨p, h, op, g, sh, pr, z, -, hcall, hmutex, hstate, hfree, hb, hs'⟩ |
    ⟨p, h, op, g, hcall, hmutex, hstate, hs'⟩ | ⟨z, sh, pr, z', -, hz, hstep, hs'⟩ |
    ⟨z, sh, pr, sh', o, -, hz, hstep, hrealized, hs'⟩ | ⟨b, m, rfl, henv, hm, hs'⟩ :=
    ownedStep_cases hs
  · have hown := hI.owners p
    obtain ⟨sent, hmove, -⟩ := ownerMove_of_step (fun hm => (hown.free hm).1) hstep
    refine hput hs' (hmove.ownerInv hown) fun kind hstate hunkept => ?_
    have hsh : s'.mux.shared = sh := by
      rw [hs']
      rfl
    by_cases hnone : (s.owners p).state = .none
    · rcases hmove.born kind hown hnone with hstill | hkept
      · exact absurd hstill hstate
      · exact absurd hkept hunkept
    · by_cases hkept : (s.owners p).Keeps kind
      · rw [hsh]
        exact (hmove.keeps hkept).resolve_left hunkept
      · exact hstays p kind hnone hkept
  · exact hput hs' ((hI.owners p).ensured hcall hstate) fun kind _ hunkept =>
      hensure hcall rfl rfl (by simp [hstate]) hunkept
  · refine hput hs' ((hI.owners p).realizes hmutex hcall hstate (realizeBegin_pair hb).2)
      fun kind _ hunkept => ?_
    cases z with
    | none => exact hensure (c := .idle) hcall rfl rfl (by simp [hstate]) hunkept
    | some y => exact hensure (c := .realizing op) hcall rfl rfl (by simp [hstate]) hunkept
  · refine hput hs' ?_ fun kind _ hunkept => hensure hcall rfl rfl (by simp [hstate]) hunkept
    exact (hI.owners p).goto (by simp [hcall]) (by simp [hcall, CallPc.Accesses]) rfl
  · have hpair : pr = s.mux.pairs z.pair := by
      rcases realizeStep_pair hstep with ⟨hsame, -⟩ | ⟨-, hnone⟩ | ⟨-, hnone, -⟩
      · exact hsame
      · contradiction
      · contradiction
    subst hpair
    exact hput hs' (hI.owners z.pair) fun kind hstate hunkept => hstays z.pair kind hstate hunkept
  · have hown := hI.owners z.pair
    have hphase := (hO.realizing z hz).1
    obtain ⟨h, op, hmutex, hcall, hidle, hstate⟩ := hown.realizing_call hphase
    obtain ⟨hopen, hbroken⟩ := Owner.realized_eq sh hmutex hcall hstate
    have hkeeps : ∀ {o' : Owner} {c : CallPc} {kind : HalfKind},
        o'.calls = ((s.owners z.pair).setCall h c).calls →
        c.keeps h kind = decide (kind ∈ h.receivers) → ¬ o'.Keeps kind →
        (s'.mux.shared.chans ⟨z.pair, kind⟩).chan.closed = true := by
      intro o' c kind hcalls hc hunkept
      refine hstays z.pair kind (by simp [hstate]) fun hkept => hunkept ?_
      obtain ⟨i, hi⟩ : ((s.owners z.pair).setCall h c).Keeps kind :=
        hkept.setCall (by rw [hcall, hc]; exact id)
      exact ⟨i, by rw [hcalls]; exact hi⟩
    rcases realizeStep_pair hstep with ⟨-, y, hnone⟩ | ⟨rfl, -⟩ | ⟨rfl, -, -⟩
    · contradiction
    · rw [show decide ((PairPhase.broken) = .opened) = false from rfl, hbroken] at hrealized
      obtain ⟨rfl, rfl⟩ := Prod.mk.inj hrealized
      refine hput hs' (hown.leave hmutex ?_ hidle (by simp) (by rw [hphase]; rfl))
        fun kind _ hunkept => hkeeps (c := .idle) rfl rfl hunkept
      rw [hstate]
      exact ⟨rfl, .inr rfl⟩
    · rw [show decide ((PairPhase.opened) = .opened) = true from rfl, hopen] at hrealized
      obtain ⟨rfl, rfl⟩ := Prod.mk.inj hrealized
      exact hput hs' (hown.finishOpen hmutex hcall hidle hstate hphase)
        fun kind _ hunkept => hkeeps (c := .body op) rfl rfl hunkept
  · subst hs'
    refine ⟨hreach, fun q => ?_, fun q kind => hstays q kind⟩
    have hpairs : m.pairs = s.mux.pairs := (step_env_pairs henv hm).1
    rw [hpairs]
    exact hI.owners q

theorem owned_invariant (cfg : MuxConfig) : (owned cfg).Invariant anyStep (Owned cfg) :=
  Invariant.of_step (owned_init cfg) fun _ _ _ hI _ h => step_owned hI h

end KubePortForward.Mux
