import KubePortForward.Forwarder.Pool
import KubePortForward.Mux.Outbound

/-!
# Request ids

`kube-portforward/src/session.rs`: every stream pair of a session is opened with the port of
the session and a request id of its own, by which the kubelet finds the two streams of one
connection.  The ids come from one counter; the pairs are opened by any number of calls at
once, on any members of the session's pool, and realized whenever their holders like.

A call tries members until one grants it a pair.  Which ones, and when it gives up, is left
to the label here; an attempt on one is the `openBegin` and the `openStep`s of the pair.
Everything else that happens on a member is what its own transition system allows.

## Main results

* `member_keeps` — a pair that was granted keeps its headers.
* `stamped_invariant` — no two pairs are opened by the same call.
* `request_ids_pair_streams` — what the kubelet can rely on, on all the wires together.
-/

namespace KubePortForward.Forwarder

open KubePortForward.Codec
open KubePortForward.Mux
open KubePortForward.Verified.Transition

/-- `portforward_headers` of a session for `port` whose counter stands at `requestId`. -/
def headersAt (port : UInt16) (requestId : UInt32) : Headers × Headers :=
  Session.portforwardHeaders { Session.absent with port := port, nextRequestId := requestId }

/-- Where a call of `open_new_stream` stands.  The number of the call is history. -/
inductive OpenCall where
  | idle
  | opening (nth : Nat) (requestId : UInt32)
  | attempting (nth : Nat) (requestId : UInt32) (member pair : Nat)
  deriving DecidableEq, Repr

/-- A session with the members of its pool.  `taken` and `stamps` are history: how many
calls have taken a request id, and for which of them a pair was attempted. -/
structure StreamsState where
  members : Nat → OwnedState
  nextRequestId : UInt32 := 0
  calls : Nat → OpenCall := fun _ => .idle
  taken : Nat := 0
  stamps : Nat → Nat → Nat := fun _ _ => 0

/-- `open_stream_pair` of a member is called by a session's calls only. -/
def opensPair : OwnedAct → Bool
  | .owner _ (.openBegin _ _) => true
  | .owner _ .openStep => true
  | _ => false

inductive StreamsAct where
  | openNewStream (t : Nat)
  | attempt (t i p : Nat)
  | attemptStep (t : Nat)
  | giveUp (t : Nat)
  | member (i : Nat) (a : OwnedAct)
  deriving DecidableEq, Repr

namespace StreamsState

def setMember (s : StreamsState) (i : Nat) (m : OwnedState) : StreamsState :=
  { s with members := Function.update s.members i m }

def setCall (s : StreamsState) (t : Nat) (c : OpenCall) : StreamsState :=
  { s with calls := Function.update s.calls t c }

def pair (s : StreamsState) (i p : Nat) : Pair := (s.members i).mux.pairs p

def wire (s : StreamsState) (i : Nat) : List Outgoing := (s.members i).mux.writer.wire

end StreamsState

/-- What a call does after an access to the pair it attempts: it returns the pair, tries
another member, or goes on. -/
def OpenCall.after (phase : PairPhase) (nth : Nat) (requestId : UInt32) (i p : Nat) : OpenCall :=
  match phase with
  | .unopened => .idle
  | .refused => .opening nth requestId
  | _ => .attempting nth requestId i p

def streamsStep (cfg : MuxConfig) (port : UInt16) (s : StreamsState) :
    StreamsAct → Option StreamsState
  | .openNewStream t =>
      if s.calls t = .idle then
        some { s.setCall t (.opening s.taken s.nextRequestId) with
          nextRequestId := s.nextRequestId + 1, taken := s.taken + 1 }
      else none
  | .attempt t i p =>
      match s.calls t with
      | .opening nth requestId =>
          let (eh, dh) := headersAt port requestId
          (ownedStep cfg (s.members i) (.owner p (.openBegin eh dh))).map fun m =>
            { (s.setMember i m).setCall t (.after (m.mux.pairs p).phase nth requestId i p) with
              stamps := Function.update s.stamps i (Function.update (s.stamps i) p nth) }
      | _ => none
  | .attemptStep t =>
      match s.calls t with
      | .attempting nth requestId i p =>
          (ownedStep cfg (s.members i) (.owner p .openStep)).map fun m =>
            (s.setMember i m).setCall t (.after (m.mux.pairs p).phase nth requestId i p)
      | _ => none
  | .giveUp t =>
      match s.calls t with
      | .opening _ _ => some (s.setCall t .idle)
      | _ => none
  | .member i a =>
      if opensPair a then none else (ownedStep cfg (s.members i) a).map fun m => s.setMember i m

/-- A session and its calls of `open_new_stream`. -/
def streams (cfg : MuxConfig) (port : UInt16) : System StreamsState StreamsAct where
  init := { members := fun _ => (owned cfg).init }
  step := streamsStep cfg port

/-! ## What a member does to its pairs -/

/-- Before the grant a pair has no holder, so nothing is called on it. -/
theorem ownerStep_ungranted {cfg : MuxConfig} {p : Nat} {a : OwnerAct} {sh : Shared} {pr : Pair}
    {o : Owner} (hI : OwnerInv o pr) (hphase : pr.phase.ungranted = true)
    (hopens : opensPair (.owner p a) = false) : o.step cfg p a sh pr = none := by
  have hnone := (hI.unborn hphase).1
  have habsent : ∀ h, o.calls h = .absent := by
    intro h
    by_contra hpresent
    have hok := hI.calls h
    by_cases hclosing : o.calls h = .closing
    · rw [hclosing, hnone] at hok
      cases hok
    · have halive := hok.alive hpresent hclosing
      rw [hnone] at halive
      cases halive
  cases a with
  | openBegin eh dh => cases hopens
  | openStep => cases hopens
  | split => simp [Owner.step, habsent]
  | call h op => simp [Owner.step, habsent]
  | proceed h => simp [Owner.step, Owner.proceed, habsent]
  | permit => simp [Owner.step, hnone]
  | drop h => simp [Owner.step, habsent]
  | dropNext h => simp [Owner.step, Owner.dropNext, habsent]

/-- A pair that was granted stays so and keeps its headers. -/
structure KeepsHeaders (pr pr' : Pair) : Prop where
  granted : pr'.phase.ungranted = false
  errorHeaders : pr'.errorHeaders = pr.errorHeaders
  dataHeaders : pr'.dataHeaders = pr.dataHeaders

theorem KeepsHeaders.of_same {pr pr' : Pair} (h : pr.Same pr') (hphase : pr.phase.ungranted = false) :
    KeepsHeaders pr pr' :=
  ⟨by rw [h.phase]; exact hphase, h.errorHeaders, h.dataHeaders⟩

theorem ownerMove_kept {p : Nat} {sh : Shared} {pr pr' : Pair} {o o' : Owner}
    {sent : List MuxCommand} (hmove : OwnerMove p sh pr o pr' o' sent) (hI : OwnerInv o pr)
    (hphase : pr.phase.ungranted = false) : KeepsHeaders pr pr' := by
  have hself : KeepsHeaders pr pr := ⟨hphase, rfl, rfl⟩
  have hwriting : ∀ {pr' : Pair}, pr.Same { pr' with write := pr.write } → KeepsHeaders pr pr' :=
    fun hsame => ⟨by rw [← hphase]; exact congrArg _ hsame.phase, hsame.errorHeaders,
      hsame.dataHeaders⟩
  cases hmove with
  | attempt pr' hfrom hto hwrite hshut =>
      rw [hphase] at hfrom
      contradiction
  | grant pr' hfrom hto hwrite hshut =>
      rw [hfrom] at hphase
      contradiction
  | split h => exact hself
  | begins h op hcall hopens => exact hself
  | emptyWrite h hcall => exact hself
  | quiet pr' hsame => exact .of_same hsame hphase
  | ends pr' h op hcall hsame => exact .of_same hsame hphase
  | writeBegins h buf hcall hmutex hidle hshut => exact ⟨hphase, rfl, rfl⟩
  | writesOn pr' h buf hcall hsame hbusy hfrom => exact hwriting hsame
  | writeEnds pr' h buf hcall hsame hidle => exact hwriting hsame
  | writeSent pr' h buf payload hcall hwrite hsame hidle => exact hwriting hsame
  | reserves pr' h hcall hmutex hsame => exact .of_same hsame hphase
  | shuts pr' h hcall hpr hidle hshut =>
      rw [hpr]
      exact ⟨hphase, rfl, rfl⟩
  | drops h hcall => exact hself
  | dropsReceiver h kind todo hcall hclosed => exact hself
  | dropsRef h hcall hrefs => exact hself
  | dropsUnopened h pendingTx g hcall hrefs hstate => exact ⟨rfl, rfl, rfl⟩
  | dropsOpened pr' h hcall hrefs hstate hpr =>
      have hagrees := hI.state
      rw [hstate] at hagrees
      rw [(hpr hagrees).2]
      exact ⟨rfl, rfl, rfl⟩
  | closes h pc pc' hcall hpcs hpc hreleases => exact ⟨rfl, rfl, rfl⟩
  | closed h hcall hpcs => exact ⟨rfl, rfl, rfl⟩

/-- Apart from the calls of `open_stream_pair`, a member leaves a pair that was not granted
alone, and keeps the headers of one that was. -/
theorem member_keeps {cfg : MuxConfig} {m m' : OwnedState} {a : OwnedAct} (hI : Mux.Owned cfg m)
    (hopens : opensPair a = false) (hstep : ownedStep cfg m a = some m') (p : Nat) :
    ((m.mux.pairs p).phase.ungranted = true → m'.mux.pairs p = m.mux.pairs p) ∧
      ((m.mux.pairs p).phase.ungranted = false → KeepsHeaders (m.mux.pairs p) (m'.mux.pairs p)) := by
  have hO := Reaches.of_invariant hI.reach (ownership_invariant cfg)
  have hsame : ∀ {pr : Pair}, pr = m.mux.pairs p →
      ((m.mux.pairs p).phase.ungranted = true → pr = m.mux.pairs p) ∧
        ((m.mux.pairs p).phase.ungranted = false → KeepsHeaders (m.mux.pairs p) pr) := by
    rintro pr rfl
    exact ⟨fun _ => rfl, fun hphase => ⟨hphase, rfl, rfl⟩⟩
  have hput : ∀ {q : Nat} {sh : Shared} {pr : Pair} {z : Option Realize} {o : Owner},
      m' = m.put q sh pr z o →
      ((m.mux.pairs q).phase.ungranted = true → pr = m.mux.pairs q) →
      ((m.mux.pairs q).phase.ungranted = false → KeepsHeaders (m.mux.pairs q) pr) →
      ((m.mux.pairs p).phase.ungranted = true → m'.mux.pairs p = m.mux.pairs p) ∧
        ((m.mux.pairs p).phase.ungranted = false →
          KeepsHeaders (m.mux.pairs p) (m'.mux.pairs p)) := by
    intro q sh pr z o heq hun hkept
    by_cases hq : p = q
    · subst hq
      have hpr : m'.mux.pairs p = pr := by
        rw [heq]
        exact Function.update_self ..
      rw [hpr]
      exact ⟨hun, hkept⟩
    · refine hsame ?_
      rw [heq]
      exact Function.update_of_ne hq ..
  obtain ⟨q, c, sh, pr, o, rfl, howner, hm'⟩ | ⟨q, h, op, -, -, -, hm'⟩ |
    ⟨q, h, op, g, sh, pr, z, -, -, -, hstate, -, hb, hm'⟩ | ⟨q, h, op, g, -, -, -, hm'⟩ |
    ⟨z, sh, pr, z', -, hz, hr, hm'⟩ | ⟨z, sh, pr, sh', o, -, hz, hr, -, hm'⟩ |
    ⟨b, n, rfl, henv, hn, hm'⟩ := ownedStep_cases hstep
  · have hown := hI.owners q
    obtain ⟨sent, hmove, -⟩ := ownerMove_of_step (fun hmutex => (hown.free hmutex).1) howner
    refine hput hm' (fun hun => ?_) fun hgranted => ownerMove_kept hmove hown hgranted
    rw [ownerStep_ungranted hown hun hopens] at howner
    cases howner
  · exact hput hm' (fun _ => rfl) fun hgranted => ⟨hgranted, rfl, rfl⟩
  · have hagrees := (hI.owners q).state
    rw [hstate] at hagrees
    refine hput hm' (fun hun => ?_) fun _ => ?_
    · rw [hagrees.2] at hun
      cases hun
    · rcases (realizeBegin_pair hb).2 with ⟨rfl, -⟩ | ⟨y, -, rfl⟩ <;> exact ⟨rfl, rfl, rfl⟩
  · exact hput hm' (fun _ => rfl) fun hgranted => ⟨hgranted, rfl, rfl⟩
  · have hrealizing := (hO.realizing z hz).1
    refine hput hm' (fun hun => ?_) fun hgranted => ?_
    · rw [hrealizing] at hun
      cases hun
    · rcases realizeStep_pair hr with ⟨rfl, -⟩ | ⟨rfl, -⟩ | ⟨rfl, -⟩
      · exact ⟨hgranted, rfl, rfl⟩
      · exact ⟨rfl, rfl, rfl⟩
      · exact ⟨rfl, rfl, rfl⟩
  · have hrealizing := (hO.realizing z hz).1
    refine hput hm' (fun hun => ?_) fun hgranted => ?_
    · rw [hrealizing] at hun
      cases hun
    · rcases realizeStep_pair hr with ⟨rfl, -⟩ | ⟨rfl, -⟩ | ⟨rfl, -⟩
      · exact ⟨hgranted, rfl, rfl⟩
      · exact ⟨rfl, rfl, rfl⟩
      · exact ⟨rfl, rfl, rfl⟩
  · refine hsame ?_
    rw [hm']
    exact congrFun (step_env_pairs henv hn).1 p

/-- An attempt begins on a pair that is not in use: it is refused at once, or the headers
are noted. -/
theorem openBegin_pairs {cfg : MuxConfig} {m m' : OwnedState} {p : Nat} {eh dh : Headers}
    (h : ownedStep cfg m (.owner p (.openBegin eh dh)) = some m') :
    (m.mux.pairs p).phase = .absent ∧ (∀ q, q ≠ p → m'.mux.pairs q = m.mux.pairs q) ∧
      ((m'.mux.pairs p).phase = .refused ∨
        (∃ prev, (m'.mux.pairs p).phase = .checkOperating prev) ∧
          (m'.mux.pairs p).errorHeaders = eh ∧ (m'.mux.pairs p).dataHeaders = dh) := by
  simp only [ownedStep, Owner.step, clientStep, Pair.openBegin, Option.map_map,
    Option.map_eq_some_iff, Prod.exists, Function.comp] at h
  obtain ⟨sh, pr, hopen, rfl⟩ := h
  have hother : ∀ q, q ≠ p → (m.put p sh pr m.mux.realizing (m.owners p)).mux.pairs q =
      m.mux.pairs q := fun q hq => Function.update_of_ne hq ..
  have hself : (m.put p sh pr m.mux.realizing (m.owners p)).mux.pairs p = pr :=
    Function.update_self ..
  split at hopen
  · next hphase =>
      refine ⟨hphase, hother, ?_⟩
      rw [hself]
      split at hopen
      · cases hopen
        exact .inl rfl
      · cases hopen
        exact .inr ⟨⟨_, rfl⟩, rfl, rfl⟩
  · cases hopen

/-- An attempt goes on: it is granted, refused, or still under way. -/
theorem openStep_pairs {cfg : MuxConfig} {m m' : OwnedState} {p : Nat}
    (h : ownedStep cfg m (.owner p .openStep) = some m') :
    (m'.mux.pairs p).errorHeaders = (m.mux.pairs p).errorHeaders ∧
      (m'.mux.pairs p).dataHeaders = (m.mux.pairs p).dataHeaders ∧
      (∀ q, q ≠ p → m'.mux.pairs q = m.mux.pairs q) ∧
      ((m'.mux.pairs p).phase = .unopened ∨ (m'.mux.pairs p).phase = .refused ∨
        (m'.mux.pairs p).phase.ungranted = true ∧ (m'.mux.pairs p).phase ≠ .absent ∧
          (m'.mux.pairs p).phase ≠ .refused) := by
  simp only [ownedStep, Owner.step, clientStep, Option.map_map, Option.map_eq_some_iff,
    Prod.exists, Function.comp] at h
  obtain ⟨sh, pr, hopen, rfl⟩ := h
  generalize (if (m.mux.pairs p).phase = .granting then Owner.granted else m.owners p) = o
  have hother : ∀ q, q ≠ p → (m.put p sh pr m.mux.realizing o).mux.pairs q = m.mux.pairs q :=
    fun q hq => Function.update_of_ne hq ..
  have hself : (m.put p sh pr m.mux.realizing o).mux.pairs p = pr := Function.update_self ..
  rw [hself]
  unfold Pair.openStep at hopen
  split at hopen
  · split at hopen <;> cases hopen <;> exact ⟨rfl, rfl, hother, .inr (.inr ⟨rfl, by simp, by simp⟩)⟩
  · split at hopen <;> cases hopen <;> exact ⟨rfl, rfl, hother, .inr (.inr ⟨rfl, by simp, by simp⟩)⟩
  · cases hopen
    exact ⟨rfl, rfl, hother, .inr (.inl rfl)⟩
  · cases hopen
    exact ⟨rfl, rfl, hother, .inl rfl⟩
  · cases hopen

/-! ## Which call a pair was opened for -/

def OpenCall.stamp : OpenCall → Option Nat
  | .idle => none
  | .opening nth _ => some nth
  | .attempting nth _ _ _ => some nth

def OpenCall.requestId : OpenCall → Option UInt32
  | .idle => none
  | .opening _ requestId => some requestId
  | .attempting _ requestId _ _ => some requestId

/-- The headers of a pair are those of the call it was attempted for. -/
def StreamsState.Carries (port : UInt16) (s : StreamsState) (i p : Nat) : Prop :=
  ((s.pair i p).errorHeaders, (s.pair i p).dataHeaders) =
    headersAt port (UInt32.ofNat (s.stamps i p))

structure Stamped (cfg : MuxConfig) (port : UInt16) (s : StreamsState) : Prop where
  reach : ∀ i, (owned cfg).Reaches anyStep (s.members i)
  count : s.nextRequestId = UInt32.ofNat s.taken
  below : ∀ t n, (s.calls t).stamp = some n →
    n < s.taken ∧ (s.calls t).requestId = some (UInt32.ofNat n)
  /-- Two calls are never the same one. -/
  own : ∀ t u n, (s.calls t).stamp = some n → (s.calls u).stamp = some n → t = u
  attempt : ∀ t n k i p, s.calls t = .attempting n k i p →
    (s.pair i p).phase.ungranted = true ∧ (s.pair i p).phase ≠ .absent ∧ s.Carries port i p ∧
      s.stamps i p = n
  granted : ∀ i p, (s.pair i p).phase.ungranted = false →
    s.stamps i p < s.taken ∧ s.Carries port i p ∧ ∀ t, (s.calls t).stamp ≠ some (s.stamps i p)
  once : ∀ i p j q, (s.pair i p).phase.ungranted = false →
    (s.pair j q).phase.ungranted = false → s.stamps i p = s.stamps j q → i = j ∧ p = q

theorem stamped_init (cfg : MuxConfig) (port : UInt16) :
    Stamped cfg port (streams cfg port).init where
  reach := fun _ => Reaches.init
  count := rfl
  below := fun _ _ h => by cases h
  own := fun _ _ _ h => by cases h
  attempt := fun _ _ _ _ _ h => by cases h
  granted := fun _ _ h => by cases h
  once := fun _ _ _ _ h => by cases h

section

variable {cfg : MuxConfig} {port : UInt16} {s : StreamsState}

theorem calls_setCall (s : StreamsState) (t u : Nat) (c : OpenCall) :
    (s.setCall t c).calls u = if u = t then c else s.calls u := by
  by_cases hu : u = t
  · rw [hu, if_pos rfl]
    exact Function.update_self ..
  · rw [if_neg hu]
    exact Function.update_of_ne hu ..

theorem pair_setMember (s : StreamsState) (i j q : Nat) (m : OwnedState) :
    (s.setMember i m).pair j q = if j = i then m.mux.pairs q else s.pair j q := by
  by_cases hj : j = i
  · show (Function.update s.members i m j).mux.pairs q = _
    rw [hj, Function.update_self, if_pos rfl]
  · show (Function.update s.members i m j).mux.pairs q = _
    rw [Function.update_of_ne hj, if_neg hj]
    rfl

theorem reach_setMember (hI : Stamped cfg port s) {i : Nat} {m : OwnedState} {a : OwnedAct}
    (hstep : ownedStep cfg (s.members i) a = some m) (j : Nat) :
    (owned cfg).Reaches anyStep ((s.setMember i m).members j) := by
  by_cases hj : j = i
  · subst hj
    have hself : (s.setMember j m).members j = m := Function.update_self ..
    rw [hself]
    exact Reaches.step (hI.reach j) trivial hstep
  · have hother : (s.setMember i m).members j = s.members j := Function.update_of_ne hj ..
    rw [hother]
    exact hI.reach j

theorem Stamped.openNewStream (hI : Stamped cfg port s) (t : Nat) :
    Stamped cfg port { s.setCall t (.opening s.taken s.nextRequestId) with
      nextRequestId := s.nextRequestId + 1, taken := s.taken + 1 } := by
  -- The number that is taken is nobody's yet.
  have hnew : ∀ u, (s.calls u).stamp ≠ some s.taken :=
    fun u hu => Nat.lt_irrefl _ (hI.below u _ hu).1
  have hcalls : ∀ u, ((s.setCall t (.opening s.taken s.nextRequestId)).calls u).stamp =
      if u = t then some s.taken else (s.calls u).stamp := by
    intro u
    rw [calls_setCall]
    split <;> rfl
  refine ⟨hI.reach, ?_, ?_, ?_, ?_, ?_, hI.once⟩
  · show s.nextRequestId + 1 = UInt32.ofNat (s.taken + 1)
    rw [hI.count, UInt32.ofNat_add]
    rfl
  · intro u n hn
    rw [hcalls] at hn
    split at hn
    · next hu =>
        cases hn
        refine ⟨Nat.lt_succ_self _, ?_⟩
        show ((s.setCall t _).calls u).requestId = _
        rw [calls_setCall, if_pos hu, ← hI.count]
        rfl
    · next hu =>
        obtain ⟨hlt, hid⟩ := hI.below u n hn
        refine ⟨Nat.lt_succ_of_lt hlt, ?_⟩
        show ((s.setCall t _).calls u).requestId = _
        rw [calls_setCall, if_neg hu]
        exact hid
  · intro u v n hu hv
    rw [hcalls] at hu hv
    split at hu
    · next hut =>
        cases hu
        split at hv
        · next hvt => rw [hut, hvt]
        · exact absurd hv (hnew v)
    · split at hv
      · cases hv
        exact absurd hu (hnew u)
      · exact hI.own u v n hu hv
  · intro u n k i p hu
    have hu : (s.setCall t (.opening s.taken s.nextRequestId)).calls u =
        .attempting n k i p := hu
    rw [calls_setCall] at hu
    split at hu
    · cases hu
    · exact hI.attempt u n k i p hu
  · intro i p hphase
    obtain ⟨hlt, hcarries, hfree⟩ := hI.granted i p hphase
    refine ⟨Nat.lt_succ_of_lt hlt, hcarries, fun u hu => ?_⟩
    rw [hcalls] at hu
    split at hu
    · exact absurd (Option.some.inj hu).symm (Nat.ne_of_lt hlt)
    · exact hfree u hu

theorem Stamped.giveUp (hI : Stamped cfg port s) (t : Nat) :
    Stamped cfg port (s.setCall t .idle) := by
  have hstamp : ∀ u m, ((s.setCall t .idle).calls u).stamp = some m →
      (s.calls u).stamp = some m ∧ (s.setCall t .idle).calls u = s.calls u := by
    intro u m hm
    rw [calls_setCall] at hm ⊢
    split at hm
    · cases hm
    · next hu =>
        rw [if_neg hu]
        exact ⟨hm, rfl⟩
  refine ⟨hI.reach, hI.count, ?_, ?_, ?_, ?_, hI.once⟩
  · intro u m hm
    obtain ⟨hold, hsame⟩ := hstamp u m hm
    rw [hsame]
    exact hI.below u m hold
  · exact fun u v m hu hv => hI.own u v m (hstamp u m hu).1 (hstamp v m hv).1
  · intro u m k' i p hu
    refine hI.attempt u m k' i p ?_
    rw [← (hstamp u m (by rw [hu]; rfl)).2]
    exact hu
  · intro i p hphase
    obtain ⟨hlt, hcarries, hfree⟩ := hI.granted i p hphase
    exact ⟨hlt, hcarries, fun u hu => hfree u (hstamp u _ hu).1⟩

theorem Stamped.member {i : Nat} {m : OwnedState} {a : OwnedAct} (hI : Stamped cfg port s)
    (hopens : opensPair a = false) (hstep : ownedStep cfg (s.members i) a = some m) :
    Stamped cfg port (s.setMember i m) := by
  have howned := Reaches.of_invariant (hI.reach i) (Mux.owned_invariant cfg)
  have hun : ∀ j q, (s.pair j q).phase.ungranted = true →
      (s.setMember i m).pair j q = s.pair j q := by
    intro j q hphase
    rw [pair_setMember]
    split
    · next hj =>
        subst hj
        exact (member_keeps howned hopens hstep q).1 hphase
    · rfl
  have hkept : ∀ j q, (s.pair j q).phase.ungranted = false →
      KeepsHeaders (s.pair j q) ((s.setMember i m).pair j q) := by
    intro j q hphase
    rw [pair_setMember]
    split
    · next hj =>
        subst hj
        exact (member_keeps howned hopens hstep q).2 hphase
    · exact ⟨hphase, rfl, rfl⟩
  have hback : ∀ j q, ((s.setMember i m).pair j q).phase.ungranted = false →
      (s.pair j q).phase.ungranted = false := by
    intro j q hphase
    cases hold : (s.pair j q).phase.ungranted with
    | false => rfl
    | true =>
        rw [hun j q hold, hold] at hphase
        cases hphase
  refine ⟨reach_setMember hI hstep, hI.count, hI.below, hI.own, ?_, ?_, ?_⟩
  · intro t n k j q hcall
    have hold := hI.attempt t n k j q hcall
    unfold StreamsState.Carries at hold ⊢
    rw [hun j q hold.1]
    exact hold
  · intro j q hphase
    have hgranted := hback j q hphase
    obtain ⟨hlt, hcarries, hfree⟩ := hI.granted j q hgranted
    have hheaders := hkept j q hgranted
    refine ⟨hlt, ?_, hfree⟩
    unfold StreamsState.Carries at hcarries ⊢
    rw [hheaders.errorHeaders, hheaders.dataHeaders]
    exact hcarries
  · exact fun j q j' q' h h' => hI.once j q j' q' (hback j q h) (hback j' q' h')

/-- What has become of a pair after an access by the call that attempts it. -/
def Attempted (pr : Pair) : Prop :=
  pr.phase = .unopened ∨ pr.phase = .refused ∨
    pr.phase.ungranted = true ∧ pr.phase ≠ .absent ∧ pr.phase ≠ .refused

theorem after_cases {pr : Pair} (h : Attempted pr) (n : Nat) (k : UInt32) (i p : Nat) :
    (pr.phase = .unopened ∧ OpenCall.after pr.phase n k i p = .idle) ∨
      (pr.phase = .refused ∧ OpenCall.after pr.phase n k i p = .opening n k) ∨
      (pr.phase.ungranted = true ∧ pr.phase ≠ .absent ∧
        OpenCall.after pr.phase n k i p = .attempting n k i p) := by
  rcases h with h | h | ⟨hun, habsent, hrefused⟩
  · exact .inl ⟨h, by rw [h]; rfl⟩
  · exact .inr (.inl ⟨h, by rw [h]; rfl⟩)
  · refine .inr (.inr ⟨hun, habsent, ?_⟩)
    unfold OpenCall.after
    split
    · next h =>
        rw [h] at hun
        cases hun
    · next h => exact absurd h hrefused
    · rfl

/-- A call that has taken the number `n` has a turn at the pair `p` of member `i`, which no
other call attempts. -/
structure Turn (cfg : MuxConfig) (port : UInt16) (s s' : StreamsState) (t n : Nat) (k : UInt32)
    (i p : Nat) : Prop where
  stamp : (s.calls t).stamp = some n
  requestId : (s.calls t).requestId = some k
  alone : ∀ u x y, s.calls u = .attempting x y i p → u = t
  reach : ∀ j, (owned cfg).Reaches anyStep (s'.members j)
  nextRequestId : s'.nextRequestId = s.nextRequestId
  taken : s'.taken = s.taken
  calls : ∀ u, u ≠ t → s'.calls u = s.calls u
  others : ∀ j q, ¬(j = i ∧ q = p) → s'.pair j q = s.pair j q ∧ s'.stamps j q = s.stamps j q
  stamped : s'.stamps i p = n
  /-- It is granted the pair, is refused it, or goes on attempting it. -/
  now : (s'.calls t = .idle ∧ s'.Carries port i p) ∨
    (s'.calls t = .opening n k ∧ (s'.pair i p).phase.ungranted = true) ∨
    (s'.calls t = .attempting n k i p ∧ (s'.pair i p).phase.ungranted = true ∧
      (s'.pair i p).phase ≠ .absent ∧ s'.Carries port i p)

namespace Turn

variable {s' : StreamsState} {t n i p : Nat} {k : UInt32}

theorem stamp_self (h : Turn cfg port s s' t n k i p) : (s'.calls t).stamp = none ∨
    (s'.calls t).stamp = some n ∧ (s'.calls t).requestId = some k := by
  rcases h.now with ⟨hcall, -⟩ | ⟨hcall, -⟩ | ⟨hcall, -⟩ <;> rw [hcall]
  · exact .inl rfl
  · exact .inr ⟨rfl, rfl⟩
  · exact .inr ⟨rfl, rfl⟩

/-- No call has a number it did not have before. -/
theorem stamp_old (h : Turn cfg port s s' t n k i p) {u x : Nat}
    (hx : (s'.calls u).stamp = some x) : (s.calls u).stamp = some x := by
  by_cases hu : u = t
  · subst hu
    rcases h.stamp_self with hself | ⟨hself, -⟩
    · rw [hself] at hx
      cases hx
    · rw [h.stamp, ← hself, hx]
  · rw [h.calls u hu] at hx
    exact hx

theorem carries_other (h : Turn cfg port s s' t n k i p) {j q : Nat} (hne : ¬(j = i ∧ q = p))
    (hc : s.Carries port j q) : s'.Carries port j q := by
  unfold StreamsState.Carries at hc ⊢
  rw [(h.others j q hne).1, (h.others j q hne).2]
  exact hc

/-- A pair that is granted now was granted before to another call, or is granted to this
one, which then is done with its number. -/
theorem granted_cases (h : Turn cfg port s s' t n k i p) (hI : Stamped cfg port s) {j q : Nat}
    (hgranted : (s'.pair j q).phase.ungranted = false) :
    (j = i ∧ q = p ∧ s'.calls t = .idle ∧ s'.Carries port i p) ∨
      (¬(j = i ∧ q = p) ∧ (s.pair j q).phase.ungranted = false ∧
        s'.stamps j q = s.stamps j q ∧ s.stamps j q ≠ n) := by
  by_cases hne : j = i ∧ q = p
  · obtain ⟨rfl, rfl⟩ := hne
    rcases h.now with ⟨hcall, hc⟩ | ⟨-, hun⟩ | ⟨-, hun, -⟩
    · exact .inl ⟨rfl, rfl, hcall, hc⟩
    · rw [hun] at hgranted
      cases hgranted
    · rw [hun] at hgranted
      cases hgranted
  · obtain ⟨hpair, hstamps⟩ := h.others j q hne
    rw [hpair] at hgranted
    refine .inr ⟨hne, hgranted, hstamps, fun heq => ?_⟩
    have hnone := (hI.granted j q hgranted).2.2 t
    rw [heq] at hnone
    exact hnone h.stamp

theorem below (h : Turn cfg port s s' t n k i p) (hI : Stamped cfg port s) (u x : Nat)
    (hx : (s'.calls u).stamp = some x) :
    x < s'.taken ∧ (s'.calls u).requestId = some (UInt32.ofNat x) := by
  have hbelow := hI.below u x (h.stamp_old hx)
  refine ⟨h.taken ▸ hbelow.1, ?_⟩
  by_cases hu : u = t
  · subst hu
    rcases h.stamp_self with hself | ⟨-, hself⟩
    · rw [hself] at hx
      cases hx
    · rw [hself, ← h.requestId]
      exact hbelow.2
  · rw [h.calls u hu]
    exact hbelow.2

theorem attempt (h : Turn cfg port s s' t n k i p) (hI : Stamped cfg port s) (u x : Nat)
    (y : UInt32) (j q : Nat) (hu : s'.calls u = .attempting x y j q) :
    (s'.pair j q).phase.ungranted = true ∧ (s'.pair j q).phase ≠ .absent ∧ s'.Carries port j q ∧
      s'.stamps j q = x := by
  by_cases hut : u = t
  · subst hut
    rcases h.now with ⟨hcall, -⟩ | ⟨hcall, -⟩ | ⟨hcall, hun, habsent, hc⟩ <;> rw [hcall] at hu <;>
      cases hu
    exact ⟨hun, habsent, hc, h.stamped⟩
  · rw [h.calls u hut] at hu
    have hne : ¬(j = i ∧ q = p) := by
      rintro ⟨rfl, rfl⟩
      exact hut (h.alone u x y hu)
    obtain ⟨hun, habsent, hc, hst⟩ := hI.attempt u x y j q hu
    obtain ⟨hpair, hstamps⟩ := h.others j q hne
    rw [hpair, hstamps]
    exact ⟨hun, habsent, h.carries_other hne hc, hst⟩

theorem granted (h : Turn cfg port s s' t n k i p) (hI : Stamped cfg port s) (j q : Nat)
    (hgranted : (s'.pair j q).phase.ungranted = false) :
    s'.stamps j q < s'.taken ∧ s'.Carries port j q ∧
      ∀ u, (s'.calls u).stamp ≠ some (s'.stamps j q) := by
  rw [h.taken]
  rcases h.granted_cases hI hgranted with ⟨rfl, rfl, hidle, hc⟩ | ⟨hne, hold, hst, -⟩
  · rw [h.stamped]
    refine ⟨(hI.below t n h.stamp).1, hc, fun u hu => ?_⟩
    have hut := hI.own u t n (h.stamp_old hu) h.stamp
    rw [hut, hidle] at hu
    cases hu
  · obtain ⟨hbelow, hc, hfree⟩ := hI.granted j q hold
    rw [hst]
    exact ⟨hbelow, h.carries_other hne hc, fun u hu => hfree u (h.stamp_old hu)⟩

theorem once (h : Turn cfg port s s' t n k i p) (hI : Stamped cfg port s) (j q j' q' : Nat)
    (hj : (s'.pair j q).phase.ungranted = false) (hj' : (s'.pair j' q').phase.ungranted = false)
    (heq : s'.stamps j q = s'.stamps j' q') : j = j' ∧ q = q' := by
  rcases h.granted_cases hI hj with ⟨rfl, rfl, -⟩ | ⟨-, hold, hst, hn⟩
  · rcases h.granted_cases hI hj' with ⟨rfl, rfl, -⟩ | ⟨-, -, hst', hn'⟩
    · exact ⟨rfl, rfl⟩
    · rw [h.stamped, hst'] at heq
      exact absurd heq.symm hn'
  · rcases h.granted_cases hI hj' with ⟨rfl, rfl, -⟩ | ⟨-, hold', hst', -⟩
    · rw [h.stamped, hst] at heq
      exact absurd heq hn
    · rw [hst, hst'] at heq
      exact hI.once j q j' q' hold hold' heq

theorem keeps (h : Turn cfg port s s' t n k i p) (hI : Stamped cfg port s) :
    Stamped cfg port s' where
  reach := h.reach
  count := by rw [h.nextRequestId, h.taken]; exact hI.count
  below := h.below hI
  own := fun u v x hu hv => hI.own u v x (h.stamp_old hu) (h.stamp_old hv)
  attempt := h.attempt hI
  granted := h.granted hI
  once := h.once hI

end Turn

theorem turn_of_step {t n i p : Nat} {k : UInt32} {m : OwnedState} {a : OwnedAct}
    (hI : Stamped cfg port s) (hstamp : (s.calls t).stamp = some n)
    (hid : (s.calls t).requestId = some k)
    (halone : ∀ u x y, s.calls u = .attempting x y i p → u = t)
    (hstep : ownedStep cfg (s.members i) a = some m)
    (hother : ∀ q, q ≠ p → m.mux.pairs q = s.pair i q) (hnow : Attempted (m.mux.pairs p))
    (hheaders : (m.mux.pairs p).phase ≠ .refused →
      ((m.mux.pairs p).errorHeaders, (m.mux.pairs p).dataHeaders) = headersAt port k) :
    Turn cfg port s { (s.setMember i m).setCall t (.after (m.mux.pairs p).phase n k i p) with
        stamps := Function.update s.stamps i (Function.update (s.stamps i) p n) } t n k i p := by
  generalize hs' : ({ (s.setMember i m).setCall t (.after (m.mux.pairs p).phase n k i p) with
    stamps := Function.update s.stamps i (Function.update (s.stamps i) p n) } : StreamsState) = s'
  have hself : s'.pair i p = m.mux.pairs p := by
    rw [← hs']
    show (s.setMember i m).pair i p = _
    rw [pair_setMember, if_pos rfl]
  have hstamps : ∀ j q, s'.stamps j q = if j = i ∧ q = p then n else s.stamps j q := by
    intro j q
    rw [← hs']
    show Function.update s.stamps i (Function.update (s.stamps i) p n) j q = _
    simp only [Function.update_apply]
    grind
  have hcalls : ∀ u, s'.calls u =
      if u = t then .after (m.mux.pairs p).phase n k i p else s.calls u := by
    intro u
    rw [← hs', ← calls_setCall]
    rfl
  have hcarries : (m.mux.pairs p).phase ≠ .refused → s'.Carries port i p := by
    intro hne
    have hk := (hI.below t n hstamp).2
    rw [hid] at hk
    unfold StreamsState.Carries
    rw [hself, hstamps, if_pos ⟨rfl, rfl⟩, ← Option.some.inj hk]
    exact hheaders hne
  refine ⟨hstamp, hid, halone, ?_, by rw [← hs']; rfl, by rw [← hs']; rfl, ?_, ?_, ?_, ?_⟩
  · intro j
    rw [← hs']
    exact reach_setMember hI hstep j
  · intro u hu
    rw [hcalls, if_neg hu]
  · intro j q hne
    refine ⟨?_, by rw [hstamps, if_neg hne]⟩
    rw [← hs']
    show (s.setMember i m).pair j q = _
    rw [pair_setMember]
    split
    · next hj => rw [hother q fun hq => hne ⟨hj, hq⟩, hj]
    · rfl
  · rw [hstamps, if_pos ⟨rfl, rfl⟩]
  · rw [hcalls, if_pos rfl, hself]
    rcases after_cases hnow n k i p with ⟨hphase, h⟩ | ⟨hphase, h⟩ | ⟨hun, habsent, h⟩
    · exact .inl ⟨h, hcarries (by rw [hphase]; simp)⟩
    · exact .inr (.inl ⟨h, by rw [hphase]; rfl⟩)
    · refine .inr (.inr ⟨h, hun, habsent, hcarries fun hrefused => ?_⟩)
      rw [hrefused] at h
      cases h

theorem streamsStep_stamped {s' : StreamsState} {a : StreamsAct} (hI : Stamped cfg port s)
    (h : streamsStep cfg port s a = some s') : Stamped cfg port s' := by
  cases a with
  | openNewStream t =>
      simp only [streamsStep] at h
      split at h
      · cases h
        exact hI.openNewStream t
      · cases h
  | attempt t i p =>
      simp only [streamsStep] at h
      split at h
      · next n k hcall =>
          obtain ⟨m, hstep, rfl⟩ := Option.map_eq_some_iff.mp h
          obtain ⟨habsent, hother, hnow⟩ := openBegin_pairs hstep
          refine (turn_of_step hI (by rw [hcall]; rfl) (by rw [hcall]; rfl) ?_ hstep hother ?_ ?_).keeps
            hI
          · exact fun u x y hu => absurd habsent (hI.attempt u x y i p hu).2.1
          · rcases hnow with hrefused | ⟨⟨prev, hphase⟩, -⟩
            · exact .inr (.inl hrefused)
            · refine .inr (.inr ?_)
              rw [hphase]
              simp [PairPhase.ungranted]
          · rcases hnow with hrefused | ⟨-, heh, hdh⟩
            · exact fun hne => absurd hrefused hne
            · rw [heh, hdh]
              exact fun _ => rfl
      · cases h
  | attemptStep t =>
      simp only [streamsStep] at h
      split at h
      · next n k i p hcall =>
          obtain ⟨m, hstep, rfl⟩ := Option.map_eq_some_iff.mp h
          obtain ⟨heh, hdh, hother, hnow⟩ := openStep_pairs hstep
          obtain ⟨-, -, hcarries, hst⟩ := hI.attempt t n k i p hcall
          have hk := (hI.below t n (by rw [hcall]; rfl)).2
          rw [hcall] at hk
          have hturn := turn_of_step hI (by rw [hcall]; rfl) (by rw [hcall]; rfl) ?_ hstep hother
            hnow ?_
          · rw [← hst, Function.update_eq_self, Function.update_eq_self] at hturn
            rw [hst] at hturn
            exact hturn.keeps hI
          · intro u x y hu
            have hx := (hI.attempt u x y i p hu).2.2.2
            rw [hst] at hx
            exact hI.own u t n (by rw [hu, ← hx]; rfl) (by rw [hcall]; rfl)
          · intro _
            rw [heh, hdh, Option.some.inj hk, ← hst]
            exact hcarries
      · cases h
  | giveUp t =>
      simp only [streamsStep] at h
      split at h
      · cases h
        exact hI.giveUp t
      · cases h
  | member i a =>
      simp only [streamsStep] at h
      split at h
      · cases h
      · next hopens =>
          obtain ⟨m, hstep, rfl⟩ := Option.map_eq_some_iff.mp h
          exact hI.member (Bool.eq_false_of_not_eq_true hopens) hstep

end

theorem stamped_invariant (cfg : MuxConfig) (port : UInt16) :
    (streams cfg port).Invariant anyStep (Stamped cfg port) :=
  Invariant.of_step (stamped_init cfg port) fun _ _ _ hI _ h => streamsStep_stamped hI h

/-! ## On the wires -/

theorem headersAt_requestid {port : UInt16} {a b : Nat} {r : String} (ha : a < 2 ^ 32)
    (hb : b < 2 ^ 32)
    (hra : ("requestid", r) ∈ (headersAt port (UInt32.ofNat a)).1 ∨
      ("requestid", r) ∈ (headersAt port (UInt32.ofNat a)).2)
    (hrb : ("requestid", r) ∈ (headersAt port (UInt32.ofNat b)).1 ∨
      ("requestid", r) ∈ (headersAt port (UInt32.ofNat b)).2) : a = b := by
  have hid : ∀ {n : Nat}, n < 2 ^ 32 → ("requestid", r) ∈ (headersAt port (UInt32.ofNat n)).1 ∨
      ("requestid", r) ∈ (headersAt port (UInt32.ofNat n)).2 → r = Nat.repr n := by
    intro n hn hr
    have hn : (UInt32.ofNat n).toNat = n := UInt32.toNat_ofNat_of_lt' hn
    have hstring : toString (UInt32.ofNat n) = Nat.repr n := by
      show Nat.repr (UInt32.ofNat n).toNat = _
      rw [hn]
    rw [← hstring]
    rcases hr with hr | hr <;> simpa [headersAt, Session.portforwardHeaders] using hr
  have heq : Nat.repr a = Nat.repr b := (hid ha hra).symm.trans (hid hb hrb)
  have hdigits := congrArg String.toList heq
  rw [Nat.toList_repr, Nat.toList_repr] at hdigits
  rw [← Nat.ofDigitChars_ten_toDigits (n := a), hdigits, Nat.ofDigitChars_ten_toDigits]

/-- A SYN_STREAM on the wire of a member is one of a granted pair, with the headers of the
call that the pair was granted to. -/
theorem syn_stamped {cfg : MuxConfig} {port : UInt16} {s : StreamsState}
    (hI : Stamped cfg port s) {i : Nat} {id : StreamId} {headers : Headers} {fin : Bool}
    (hsyn : .synStream id headers fin ∈ s.wire i) :
    ∃ p, (s.pair i p).phase.ungranted = false ∧ id.toNat / 4 = (s.pair i p).errorId.toNat / 4 ∧
      ((id.toNat % 4 = 1 ∧ headers = (headersAt port (UInt32.ofNat (s.stamps i p))).1) ∨
        (id.toNat % 4 = 3 ∧ headers = (headersAt port (UInt32.ofNat (s.stamps i p))).2 ∧
          .synStream (id - 2) (headersAt port (UInt32.ofNat (s.stamps i p))).1 false ∈
            s.wire i)) := by
  obtain ⟨as, hrun, -⟩ := hI.reach i
  obtain ⟨p, hne, hgranted, hcases⟩ := syn_of_pair hrun hsyn
  have howned := Reaches.of_invariant (hI.reach i) (Mux.owned_invariant cfg)
  obtain ⟨hmod, hdata, -⟩ :=
    (Reaches.of_invariant howned.reach (ownership_invariant cfg)).ids p hne
  have hcarries := (hI.granted i p hgranted).2.1
  unfold StreamsState.Carries at hcarries
  refine ⟨p, hgranted, ?_, ?_⟩
  · show id.toNat / 4 = ((s.members i).mux.pairs p).errorId.toNat / 4
    rcases hcases with ⟨rfl, -⟩ | ⟨rfl, -⟩ <;> omega
  · rw [← hcarries]
    rcases hcases with ⟨rfl, hheaders⟩ | ⟨rfl, hheaders, hbehind⟩
    · exact .inl ⟨hmod, hheaders⟩
    · refine .inr ⟨by omega, hheaders, ?_⟩
      have herror : ((s.members i).mux.pairs p).dataId - 2 = ((s.members i).mux.pairs p).errorId := by
        refine UInt32.toNat.inj ?_
        have hle : (2 : UInt32) ≤ ((s.members i).mux.pairs p).dataId := by
          rw [UInt32.le_iff_toNat_le]
          simp
          omega
        rw [UInt32.toNat_sub_of_le _ _ hle]
        simp
        omega
      rw [herror]
      exact hbehind

/-- In every run of the calls of a session, on the wires of all its members together: a
SYN_STREAM carries the port of the session and the request id of one call, a data stream
opens behind the error stream of its pair, with the same request id, and while fewer than
2^32 ids were taken, streams with the same request id are the two of one pair. -/
theorem request_ids_pair_streams (cfg : MuxConfig) (port : UInt16) (as : List StreamsAct)
    (s : StreamsState) (hrun : (streams cfg port).run (streams cfg port).init as = some s) :
    (∀ i id headers fin, .synStream id headers fin ∈ s.wire i → ∃ n, n < s.taken ∧
      ((id.toNat % 4 = 1 ∧ headers = (headersAt port (UInt32.ofNat n)).1) ∨
        (id.toNat % 4 = 3 ∧ headers = (headersAt port (UInt32.ofNat n)).2 ∧
          .synStream (id - 2) (headersAt port (UInt32.ofNat n)).1 false ∈ s.wire i))) ∧
      (s.taken ≤ 2 ^ 32 → ∀ i j id id' headers headers' fin fin' r,
        .synStream id headers fin ∈ s.wire i → .synStream id' headers' fin' ∈ s.wire j →
        ("requestid", r) ∈ headers → ("requestid", r) ∈ headers' →
        i = j ∧ id.toNat / 4 = id'.toNat / 4) := by
  have hI := stamped_invariant cfg port as s hrun (meets_anyStep _ _)
  refine ⟨?_, ?_⟩
  · intro i id headers fin hsyn
    obtain ⟨p, hgranted, -, hheaders⟩ := syn_stamped hI hsyn
    exact ⟨s.stamps i p, (hI.granted i p hgranted).1, hheaders⟩
  · intro hfew i j id id' headers headers' fin fin' r hsyn hsyn' hr hr'
    obtain ⟨p, hgranted, hid, hheaders⟩ := syn_stamped hI hsyn
    obtain ⟨q, hgranted', hid', hheaders'⟩ := syn_stamped hI hsyn'
    have hcarried : ∀ {n : Nat} {id : StreamId} {hs : Headers} {P : Prop}, ("requestid", r) ∈ hs →
        ((id.toNat % 4 = 1 ∧ hs = (headersAt port (UInt32.ofNat n)).1) ∨
          (id.toNat % 4 = 3 ∧ hs = (headersAt port (UInt32.ofNat n)).2 ∧ P)) →
        ("requestid", r) ∈ (headersAt port (UInt32.ofNat n)).1 ∨
          ("requestid", r) ∈ (headersAt port (UInt32.ofNat n)).2 := by
      rintro n id hs P hr (⟨-, rfl⟩ | ⟨-, rfl, -⟩)
      · exact .inl hr
      · exact .inr hr
    have hstamps : s.stamps i p = s.stamps j q :=
      headersAt_requestid (Nat.lt_of_lt_of_le (hI.granted i p hgranted).1 hfew)
        (Nat.lt_of_lt_of_le (hI.granted j q hgranted').1 hfew) (hcarried hr hheaders)
        (hcarried hr' hheaders')
    obtain ⟨rfl, rfl⟩ := hI.once i p j q hgranted hgranted' hstamps
    exact ⟨rfl, hid.trans hid'.symm⟩

/-- The pair 0 of a member is used for the first time, and the writer opens its streams. -/
def realizedActs (i : Nat) : List StreamsAct :=
  ([OwnedAct.owner 0 .split, .owner 0 (.call .error (.read 4)), .ensure 0 .error] ++
    List.replicate 9 OwnedAct.realizeStep ++
    [OwnedAct.env (.writer (.emit true)), .env (.writer (.flush true)),
      .env (.writer (.emit true)), .env (.writer (.flush true))] ++
    List.replicate 5 (OwnedAct.env (.writer .step)) ++
    List.replicate 2 (OwnedAct.env (.writer (.emit true)))).map (StreamsAct.member i)

/-- Two calls at once; the second is on member 0 before the first is on member 1. -/
def twoCallsActs : List StreamsAct :=
  [StreamsAct.openNewStream 0, .openNewStream 1, .attempt 1 0 0, .attempt 0 1 0, .attemptStep 0,
    .attemptStep 1, .attemptStep 1, .attemptStep 0, .attemptStep 1, .attemptStep 0] ++
    realizedActs 1 ++ realizedActs 0

theorem request_ids_two_calls :
    ∃ s, (streams MuxConfig.default 80).run (streams MuxConfig.default 80).init twoCallsActs =
        some s ∧
      .synStream 3 (headersAt 80 1).2 false ∈ s.wire 0 ∧
      .synStream 3 (headersAt 80 0).2 false ∈ s.wire 1 ∧
      ∀ j id headers fin, .synStream id headers fin ∈ s.wire j → ("requestid", "1") ∈ headers →
        j = 0 ∧ id.toNat / 4 = 0 := by
  have hobs : ((streams MuxConfig.default 80).run (streams MuxConfig.default 80).init
      twoCallsActs).map (fun s =>
        (decide (.synStream 3 (headersAt 80 1).2 false ∈ s.wire 0),
          decide (.synStream 3 (headersAt 80 0).2 false ∈ s.wire 1), s.taken)) =
      some (true, true, 2) := by decide +kernel
  obtain ⟨s, hrun, hs⟩ := Option.map_eq_some_iff.mp hobs
  simp only [Prod.mk.injEq, decide_eq_true_eq] at hs
  obtain ⟨hfirst, hsecond, htaken⟩ := hs
  refine ⟨s, hrun, hfirst, hsecond, fun j id headers fin hsyn hr => ?_⟩
  have hfew : s.taken ≤ 2 ^ 32 := by omega
  obtain ⟨hmember, hid⟩ := (request_ids_pair_streams _ _ _ s hrun).2 hfew _ _ _ _ _ _ _ _ "1" hsyn
    hfirst hr (by decide)
  exact ⟨hmember, hid⟩

end KubePortForward.Forwarder
