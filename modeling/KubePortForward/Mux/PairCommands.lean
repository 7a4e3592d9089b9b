import KubePortForward.Mux.OwnerRefinement

/-!
# The commands of one stream pair

Whatever the callers of a stream, or of its two halves, do, the pair puts on the
data command channel either nothing, or its open command, then raw DATA frames,
then at most one empty DATA+FIN.  The state that the open command has been sent
in is spread over three places: the open state of the stream, the realization
under way, and the phase of the pair.

## Main results

* `OwnerMove.commands` — what one step of a caller appends keeps the shape.
* `pairCommands_invariant` — the shape holds for every pair in every run.
* `pair_commands` — the shape, what opens the stream, and that the payloads are
  the prefixes that writes reported as accepted.
-/

namespace KubePortForward.Mux

open KubePortForward.Codec
open KubePortForward.Verified.Channel
open KubePortForward.Verified.Transition

/-! ## The shape -/

/-- The command that opens both streams of the pair. -/
def Pair.openCommand (pr : Pair) : MuxCommand :=
  .openStreamPair pr.errorId pr.dataId pr.errorHeaders pr.dataHeaders

/-- The command for the payload of one write. -/
def Pair.dataCommand (pr : Pair) (payload : Bytes) : MuxCommand :=
  .sendRawFrame (rawDataFrame pr.dataId payload)

/-- The empty DATA+FIN of a stream that was shut down. -/
def Pair.finCommands (pr : Pair) : List MuxCommand :=
  if pr.gracefulShutdown then [.sendData pr.dataId [] true] else []

/-- One open command, the payloads of the writes, and the FIN. -/
def Pair.Issues (pr : Pair) (accepted : List Bytes) (issued : List MuxCommand) : Prop :=
  ∃ payloads : List Bytes,
    issued = pr.openCommand :: (payloads.map pr.dataCommand ++ pr.finCommands) ∧
      payloads.flatten = accepted.flatten

namespace OpenState

/-- Nobody has tried to open the stream. -/
def untried : OpenState → Bool
  | .none => true
  | .unopened pendingTx _ => pendingTx
  | _ => false

/-- The stream is not open yet. -/
def early : OpenState → Bool
  | .none => true
  | .unopened _ _ => true
  | _ => false

end OpenState

structure Commands (o : Owner) (pr : Pair) : Prop where
  shape : o.issued ≠ [] → pr.Issues o.accepted o.issued
  unwritten : o.issued = [] → o.accepted.flatten = []
  unshut : o.issued = [] → pr.gracefulShutdown = false
  untried : o.state.untried = true → o.issued = []
  early : o.state.early = true → pr.gracefulShutdown = false
  /-- A write that is under way began before any shutdown. -/
  writing : pr.write ≠ .idle → pr.gracefulShutdown = false
  opened : o.state = .opened → o.issued ≠ []

/-- The call has opened the stream, or is about to. -/
def CallPc.opening : CallPc → Bool
  | .ensuring _ => true
  | .realizing _ => true
  | .body _ => true
  | .writing _ => true
  | .finishing => true
  | _ => false

structure Owner.Touched (o : Owner) : Prop where
  calls : ∀ h, (o.calls h).opening = true → o.touched = true
  issued : o.issued ≠ [] → o.touched = true

/-! ## One step of a caller -/

section

variable {o o' : Owner} {pr pr' : Pair} {h : Holder} {c : CallPc}
variable {p : Nat} {sh : Shared} {sent : List MuxCommand}

/-- The phase and the write under way have no part in the commands. -/
theorem Pair.Same.commands {phase : PairPhase} {write : WritePc}
    (hsame : pr.Same { pr' with phase := phase, write := write }) :
    pr.Same { pr' with phase := pr.phase, write := pr.write } :=
  ⟨Eq.refl _, Eq.refl _, hsame.gracefulShutdown, hsame.errorId, hsame.dataId,
    hsame.errorHeaders, hsame.dataHeaders⟩

/-- A pair that has not sent anything. -/
theorem Commands.of_nothing (hissued : o.issued = []) (haccepted : o.accepted.flatten = [])
    (hstate : o.state ≠ .opened) (hshut : pr.gracefulShutdown = false) : Commands o pr where
  shape := fun hne => absurd hissued hne
  unwritten := fun _ => haccepted
  unshut := fun _ => hshut
  untried := fun _ => hissued
  early := fun _ => hshut
  writing := fun _ => hshut
  opened := fun hopened => absurd hopened hstate

/-- The shape only depends on the ids, the headers and the shutdown. -/
theorem Commands.frame (hC : Commands o pr)
    (hsame : pr.Same { pr' with phase := pr.phase, write := pr.write })
    (hissued : o'.issued = o.issued) (haccepted : o'.accepted.flatten = o.accepted.flatten)
    (hstate : o'.state = o.state ∨ o'.state = .closing ∨ o'.state = .gone)
    (hwriting : pr'.write ≠ .idle → pr.gracefulShutdown = false) : Commands o' pr' := by
  have hshut : pr'.gracefulShutdown = pr.gracefulShutdown := hsame.gracefulShutdown
  have hdata : pr'.dataId = pr.dataId := hsame.dataId
  have hopen : pr'.openCommand = pr.openCommand := by
    have herror : pr'.errorId = pr.errorId := hsame.errorId
    have heh : pr'.errorHeaders = pr.errorHeaders := hsame.errorHeaders
    have hdh : pr'.dataHeaders = pr.dataHeaders := hsame.dataHeaders
    rw [Pair.openCommand, Pair.openCommand, herror, hdata, heh, hdh]
  refine ⟨fun hne => ?_, fun hnil => ?_, fun hnil => ?_, fun huntried => ?_, fun hearly => ?_, ?_,
    fun hop => ?_⟩
  · rw [hissued] at hne ⊢
    obtain ⟨payloads, hlist, hflat⟩ := hC.shape hne
    refine ⟨payloads, ?_, hflat.trans haccepted.symm⟩
    have hraw : pr'.dataCommand = pr.dataCommand := by
      funext payload
      rw [Pair.dataCommand, Pair.dataCommand, hdata]
    rw [hlist, hopen, hraw, Pair.finCommands, Pair.finCommands, hshut, hdata]
  · rw [haccepted]
    exact hC.unwritten (hissued ▸ hnil)
  · rw [hshut]
    exact hC.unshut (hissued ▸ hnil)
  · rw [hissued]
    rcases hstate with heq | heq | heq
    · exact hC.untried (heq ▸ huntried)
    · rw [heq] at huntried
      contradiction
    · rw [heq] at huntried
      contradiction
  · rw [hshut]
    rcases hstate with heq | heq | heq
    · exact hC.early (heq ▸ hearly)
    · rw [heq] at hearly
      contradiction
    · rw [heq] at hearly
      contradiction
  · rw [hshut]
    exact hwriting
  · rw [hissued]
    rcases hstate with heq | heq | heq
    · exact hC.opened (heq ▸ hop)
    · rw [heq] at hop
      contradiction
    · rw [heq] at hop
      contradiction

/-- The frame of a write goes behind the earlier ones. -/
theorem Commands.sends (hC : Commands o pr) (payload : Bytes) (hopened : o.state = .opened)
    (hbusy : pr.write ≠ .idle) :
    pr.Issues (o.accepted ++ [payload]) (o.issued ++ [pr.dataCommand payload]) := by
  obtain ⟨payloads, hlist, hflat⟩ := hC.shape (hC.opened hopened)
  refine ⟨payloads ++ [payload], ?_, by simp [hflat]⟩
  have hfin : pr.finCommands = [] := by simp [Pair.finCommands, hC.writing hbusy]
  rw [hlist, hfin]
  simp

/-- The FIN goes behind everything. -/
theorem Commands.finishes (hC : Commands o pr) (hopened : o.state = .opened)
    (hshut : pr.gracefulShutdown = false) :
    Pair.Issues { pr with gracefulShutdown := true, cmdPermit := false } o.accepted
      (o.issued ++ [.sendData pr.dataId [] true]) := by
  obtain ⟨payloads, hlist, hflat⟩ := hC.shape (hC.opened hopened)
  refine ⟨payloads, ?_, hflat⟩
  have hfin : pr.finCommands = [] := by simp [Pair.finCommands, hshut]
  rw [hlist, hfin]
  simp [Pair.finCommands, Pair.openCommand, Pair.dataCommand]

/-- What one step of a caller appends keeps the shape. -/
theorem OwnerMove.commands (hmove : OwnerMove p sh pr o pr' o' sent) (hI : OwnerInv o pr)
    (hC : Commands o pr) : Commands { o' with issued := o'.issued ++ sent } pr' := by
  have hframe : ∀ {o' : Owner} {pr' : Pair},
      pr.Same { pr' with phase := pr.phase, write := pr.write } → o'.issued = o.issued →
      o'.accepted.flatten = o.accepted.flatten →
      o'.state = o.state ∨ o'.state = .closing ∨ o'.state = .gone →
      (pr'.write ≠ .idle → pr.gracefulShutdown = false) →
      Commands { o' with issued := o'.issued ++ [] } pr' :=
    fun hsame hissued haccepted hstate hwriting =>
      hC.frame hsame (by simpa using hissued) haccepted hstate hwriting
  cases hmove with
  | attempt pr' hfrom hto hwrite hshut =>
      have hnone := (hI.unborn hfrom).1
      have hissued := hC.untried (by rw [hnone]; rfl)
      refine .of_nothing (by simpa using hissued) (hC.unwritten hissued) ?_ ?_
      · show o.state ≠ .opened
        simp [hnone]
      · rw [hshut]
        exact hC.early (by rw [hnone]; rfl)
  | grant pr' hfrom hto hwrite hshut =>
      refine .of_nothing rfl rfl (by simp [Owner.granted]) ?_
      have hnone := (hI.unborn (by rw [hfrom]; rfl)).1
      rw [hshut]
      exact hC.early (by rw [hnone]; rfl)
  | split hcall => exact hframe .rfl rfl rfl (.inl rfl) hC.writing
  | begins h op hcall hopens => exact hframe .rfl rfl rfl (.inl rfl) hC.writing
  | emptyWrite h hcall => exact hframe .rfl rfl (by simp) (.inl rfl) hC.writing
  | quiet pr' hsame =>
      refine hframe hsame.commands rfl rfl (.inl rfl) ?_
      rw [hsame.write]
      exact hC.writing
  | ends pr' h op hcall hsame =>
      refine hframe hsame.commands rfl rfl (.inl rfl) ?_
      rw [hsame.write]
      exact hC.writing
  | writeBegins h buf hcall hmutex hidle hshut =>
      exact hframe .rfl rfl rfl (.inl rfl) fun _ => hshut
  | writesOn pr' h buf hcall hsame hbusy hfrom =>
      refine hframe hsame.commands rfl rfl (.inl rfl) fun _ => hC.writing fun hidle => ?_
      have hok := hI.calls h
      rw [hcall] at hok
      have haccess := hI.accesses hok.2
      rw [hcall] at haccess
      have hwrite := haccess.2
      rw [hidle] at hwrite
      exact hwrite
  | writeEnds pr' h buf hcall hsame hidle =>
      exact hframe hsame.commands rfl rfl (.inl rfl) fun hne => absurd hidle hne
  | writeSent pr' h buf payload hcall hwrite hsame hidle =>
      have hok := hI.calls h
      rw [hcall] at hok
      have haccess := hI.accesses hok.2
      rw [hcall] at haccess
      have htaken : payload = buf.take payload.length := by
        have hfrom := haccess.2
        rw [hwrite] at hfrom
        exact hfrom
      have hbusy : pr.write ≠ .idle := by simp [hwrite]
      have hlog : Commands { o.leave h with
          accepted := o.accepted ++ [buf.take payload.length]
          issued := o.issued ++ [pr.dataCommand payload] } pr := by
        have hissues := hC.sends payload hok.1 hbusy
        rw [htaken] at hissues
        refine ⟨fun _ => ?_, by simp, by simp, fun huntried => ?_, hC.early, hC.writing, by simp⟩
        · rw [← htaken] at hissues ⊢
          exact hissues
        · rw [show (o.leave h).state = .opened from hok.1] at huntried
          contradiction
      exact hlog.frame hsame.commands rfl rfl (.inl rfl) fun hne => absurd hidle hne
  | reserves pr' h hcall hmutex hsame =>
      refine hframe hsame.commands rfl rfl (.inl rfl) ?_
      rw [hsame.write]
      exact hC.writing
  | shuts pr' h hcall hpr hidle hshut =>
      subst hpr
      have hok := hI.calls h
      rw [hcall] at hok
      refine ⟨fun _ => hC.finishes hok.1 hshut, by simp, by simp, fun huntried => ?_,
        fun hearly => ?_, fun hne => absurd hidle hne, by simp⟩
      · rw [show (o.leave h).state = .opened from hok.1] at huntried
        contradiction
      · rw [show (o.leave h).state = .opened from hok.1] at hearly
        contradiction
  | drops h hcall => exact hframe .rfl rfl rfl (.inl rfl) hC.writing
  | dropsReceiver h kind todo hcall hclosed => exact hframe .rfl rfl rfl (.inl rfl) hC.writing
  | dropsRef h hcall hrefs => exact hframe .rfl rfl rfl (.inl rfl) hC.writing
  | dropsUnopened h pendingTx g hcall hrefs hstate =>
      exact hframe .rfl rfl rfl (.inr (.inr rfl)) hC.writing
  | dropsOpened pr' h hcall hrefs hstate hpr =>
      have hphase : pr.phase = .opened := by
        have hagrees := hI.state
        rw [hstate] at hagrees
        exact hagrees
      obtain ⟨hidle, rfl⟩ := hpr hphase
      exact hframe ⟨rfl, rfl, rfl, rfl, rfl, rfl, rfl⟩ rfl rfl (.inr (.inl rfl)) hC.writing
  | closes h pc pc' hcall hphase hpc hreleases =>
      exact hframe .rfl rfl rfl (.inl rfl) hC.writing
  | closed h hcall hphase => exact hframe .rfl rfl rfl (.inr (.inr rfl)) hC.writing

/-- A call that goes on, or ends, was touched before. -/
theorem Owner.Touched.setCall (hT : o.Touched)
    (hfrom : c.opening = true → (o.calls h).opening = true) (i : Holder)
    (hi : ((o.setCall h c).calls i).opening = true) : o.touched = true := by
  by_cases heq : i = h
  · subst heq
    rw [setCall_self] at hi
    exact hT.calls i (hfrom hi)
  · rw [setCall_other heq] at hi
    exact hT.calls i hi

/-- Nothing is sent by a stream on which nothing was called. -/
theorem OwnerMove.touched (hmove : OwnerMove p sh pr o pr' o' sent) (hT : o.Touched) :
    Owner.Touched { o' with issued := o'.issued ++ sent } := by
  have hsilent : ∀ {o' : Owner},
      (∀ i, (o'.calls i).opening = true → o.touched = true) → o'.issued = o.issued →
      o'.touched = o.touched → Owner.Touched { o' with issued := o'.issued ++ [] } := by
    intro o' hcalls hissued htouched
    refine ⟨fun i hi => htouched.trans (hcalls i hi), fun hne => htouched.trans (hT.issued ?_)⟩
    simpa [hissued] using hne
  have hends : ∀ {o' : Owner} {h : Holder} {c : CallPc}, o'.calls = (o.setCall h c).calls →
      (c.opening = true → (o.calls h).opening = true) → o'.issued = o.issued →
      o'.touched = o.touched → Owner.Touched { o' with issued := o'.issued ++ [] } := by
    intro o' h c hcalls hfrom
    refine hsilent fun i hi => hT.setCall hfrom i ?_
    rw [hcalls] at hi
    exact hi
  cases hmove with
  | attempt pr' hfrom hto hwrite hshut => exact hsilent hT.calls rfl rfl
  | grant pr' hfrom hto hwrite hshut =>
      refine ⟨fun i hi => ?_, fun hne => absurd rfl hne⟩
      cases i <;> contradiction
  | split hcall =>
      refine hsilent (fun i hi => ?_) rfl rfl
      cases i <;> contradiction
  | begins h op hcall hopens => exact ⟨fun _ _ => rfl, fun _ => rfl⟩
  | emptyWrite h hcall => exact hsilent hT.calls rfl rfl
  | quiet pr' hsame => exact hsilent hT.calls rfl rfl
  | ends pr' h op hcall hsame => exact hends rfl (fun hc => by contradiction) rfl rfl
  | writeBegins h buf hcall hmutex hidle hshut =>
      exact hends (h := h) rfl (fun _ => by rw [hcall]; rfl) rfl rfl
  | writesOn pr' h buf hcall hsame hbusy hfrom => exact hsilent hT.calls rfl rfl
  | writeEnds pr' h buf hcall hsame hidle =>
      exact hends (h := h) (c := .idle) rfl (fun hc => by contradiction) rfl rfl
  | writeSent pr' h buf payload hcall hwrite hsame hidle =>
      have htouched := hT.calls h (by rw [hcall]; rfl)
      exact ⟨fun _ _ => htouched, fun _ => htouched⟩
  | reserves pr' h hcall hmutex hsame =>
      exact hends (h := h) rfl (fun _ => by rw [hcall]; rfl) rfl rfl
  | shuts pr' h hcall hpr hidle hshut =>
      have htouched := hT.calls h (by rw [hcall]; rfl)
      exact ⟨fun _ _ => htouched, fun _ => htouched⟩
  | drops h hcall => exact hends rfl (fun hc => by contradiction) rfl rfl
  | dropsReceiver h kind todo hcall hclosed => exact hends rfl (fun hc => by contradiction) rfl rfl
  | dropsRef h hcall hrefs => exact hends (h := h) rfl (fun hc => by contradiction) rfl rfl
  | dropsUnopened h pendingTx g hcall hrefs hstate =>
      exact hends (h := h) rfl (fun hc => by contradiction) rfl rfl
  | dropsOpened pr' h hcall hrefs hstate hpr =>
      exact hends (h := h) rfl (fun hc => by contradiction) rfl rfl
  | closes h pc pc' hcall hphase hpc hreleases => exact hsilent hT.calls rfl rfl
  | closed h hcall hphase => exact hends (h := h) rfl (fun hc => by contradiction) rfl rfl

/-- While the pair is being realized its callers send nothing. -/
theorem OwnerMove.silent (hmove : OwnerMove p sh pr o pr' o' sent) (hI : OwnerInv o pr)
    (hphase : pr.phase = .realizing) : o'.issued = o.issued ∧ sent = [] := by
  have hunopened : o.state ≠ .opened := by
    obtain ⟨-, -, -, -, -, hstate⟩ := hI.realizing_call hphase
    simp [hstate]
  cases hmove with
  | grant pr' hfrom hto hwrite hshut =>
      rw [hphase] at hfrom
      contradiction
  | writeSent pr' h buf payload hcall hwrite hsame hidle =>
      have hok := hI.calls h
      rw [hcall] at hok
      exact absurd hok.1 hunopened
  | shuts pr' h hcall hpr hidle hshut =>
      have hok := hI.calls h
      rw [hcall] at hok
      exact absurd hok.1 hunopened
  | _ => exact ⟨rfl, rfl⟩

end

/-! ## The realization -/

/-- The open command has been enqueued. -/
def RealizePc.afterOpen : RealizePc → Bool
  | .reserveCtrlError => true
  | .reserveCtrlData => true
  | .reserveCloseError => true
  | .reserveCloseData => true
  | _ => false

/-- Only the enqueueing step goes from before to after. -/
theorem realizeStep_pc {z y : Realize} {sh sh' : Shared} {pr pr' : Pair}
    (h : z.step sh pr = (sh', pr', some y)) :
    y.pair = z.pair ∧ (y.pc.beforeOpen = true → z.pc.beforeOpen = true ∧ z.pc ≠ .enqueueOpen) ∧
      (y.pc.afterOpen = true → z.pc.afterOpen = true ∨ z.pc = .enqueueOpen ∧
        sh'.cmd.queue = sh.cmd.queue ++
          [.openStreamPair z.errorId z.dataId pr.errorHeaders pr.dataHeaders]) := by
  unfold Realize.step at h
  cases hz : z.pc <;> simp only [hz] at h <;> (repeat' split at h) <;>
    cases h <;> simp_all [RealizePc.beforeOpen, RealizePc.afterOpen]
  next hsent => exact Chan.trySend_queue hsent

theorem realizeBegin_pc {p : Nat} {sh sh' : Shared} {pr pr' : Pair} {y : Realize}
    (h : realizeBegin p sh pr = (sh', pr', some y)) :
    y.pair = p ∧ y.pc = .loadErrorWindow := by
  simp only [realizeBegin] at h
  (repeat' split at h) <;> cases h
  exact ⟨rfl, rfl⟩

/-- The open command is enqueued for the call that waits for it. -/
theorem Commands.enqueued {o : Owner} {pr : Pair} (hC : Commands o pr)
    (hearly : o.state.early = true) (huntried : o.state.untried = false)
    (hissued : o.issued = []) :
    Commands { o with issued := o.issued ++ [pr.openCommand] } pr where
  shape := by
    intro _
    refine ⟨[], ?_, (hC.unwritten hissued).symm⟩
    simp [hissued, Pair.finCommands, hC.early hearly]
  unwritten := by simp
  unshut := by simp
  untried := by
    intro htried
    rw [show o.state.untried = true from htried] at huntried
    contradiction
  early := hC.early
  writing := hC.writing
  opened := by simp

/-! ## Every run -/

structure PairCommands (s : OwnedState) : Prop where
  commands : ∀ p, Commands (s.owners p) (s.mux.pairs p)
  touched : ∀ p, (s.owners p).Touched
  before : ∀ z, s.mux.realizing = some z → z.pc.beforeOpen = true →
    (s.owners z.pair).issued = []
  after : ∀ z, s.mux.realizing = some z → z.pc.afterOpen = true →
    (s.owners z.pair).issued ≠ []

theorem pairCommands_init (cfg : MuxConfig) : PairCommands (owned cfg).init where
  commands := fun _ => .of_nothing rfl rfl (by simp [owned]) rfl
  touched := fun _ => ⟨fun _ h => by contradiction, fun h => absurd rfl h⟩
  before := fun _ h => by contradiction
  after := fun _ h => by contradiction

theorem appended_append {α : Type} (before sent : List α) :
    appended before (before ++ sent) = sent := by
  simp [appended]

section

variable {cfg : MuxConfig} {s : OwnedState} {p : Nat} {sh : Shared} {pr : Pair}
variable {z : Option Realize} {o : Owner}

/-- One owner has moved; the realization that is under way knows what it has
sent. -/
theorem PairCommands.put (hP : PairCommands s) (sent : List MuxCommand)
    (hqueue : sh.cmd.queue = s.mux.shared.cmd.queue ++ sent)
    (hcommands : Commands { o with issued := o.issued ++ sent } pr)
    (htouched : Owner.Touched { o with issued := o.issued ++ sent })
    (hbefore : ∀ y, z = some y → y.pc.beforeOpen = true →
      if y.pair = p then o.issued ++ sent = [] else (s.owners y.pair).issued = [])
    (hafter : ∀ y, z = some y → y.pc.afterOpen = true →
      if y.pair = p then o.issued ++ sent ≠ [] else (s.owners y.pair).issued ≠ []) :
    PairCommands (s.put p sh pr z o) := by
  have happended : appended s.mux.shared.cmd.queue sh.cmd.queue = sent := by
    rw [hqueue, appended_append]
  refine ⟨fun q => ?_, fun q => ?_, fun y hy hpc => ?_, fun y hy hpc => ?_⟩
  · by_cases hq : q = p
    · subst hq
      simpa only [OwnedState.put, Function.update_self, happended] using hcommands
    · simpa only [OwnedState.put, Function.update_of_ne hq] using hP.commands q
  · by_cases hq : q = p
    · subst hq
      simpa only [OwnedState.put, Function.update_self, happended] using htouched
    · simpa only [OwnedState.put, Function.update_of_ne hq] using hP.touched q
  · have hissued := hbefore y hy hpc
    by_cases hq : y.pair = p
    · rw [if_pos hq] at hissued
      simpa only [OwnedState.put, hq, Function.update_self, happended] using hissued
    · rw [if_neg hq] at hissued
      simpa only [OwnedState.put, Function.update_of_ne hq] using hissued
  · have hissued := hafter y hy hpc
    by_cases hq : y.pair = p
    · rw [if_pos hq] at hissued
      simpa only [OwnedState.put, hq, Function.update_self, happended] using hissued
    · rw [if_neg hq] at hissued
      simpa only [OwnedState.put, Function.update_of_ne hq] using hissued

/-- A step that sends nothing and leaves the realization alone. -/
theorem PairCommands.put_silent (hP : PairCommands s)
    (hqueue : sh.cmd.queue = s.mux.shared.cmd.queue) (hissued : o.issued = (s.owners p).issued)
    (hcommands : Commands o pr) (htouched : o.Touched) :
    PairCommands (s.put p sh pr s.mux.realizing o) := by
  refine hP.put [] (by simpa using hqueue) (by simpa using hcommands)
    (by simpa using htouched) (fun y hy hpc => ?_) fun y hy hpc => ?_
  · have hnil := hP.before y hy hpc
    by_cases hq : y.pair = p
    · rw [if_pos hq, List.append_nil, hissued, ← hq]
      exact hnil
    · rw [if_neg hq]
      exact hnil
  · have hne := hP.after y hy hpc
    by_cases hq : y.pair = p
    · rw [if_pos hq, List.append_nil, hissued, ← hq]
      exact hne
    · rw [if_neg hq]
      exact hne

end

/-- A realization that goes on: it sends the open command once. -/
theorem PairCommands.realizes {cfg : MuxConfig} {s : OwnedState} {z y : Realize} {sh : Shared}
    {pr : Pair} (hP : PairCommands s) (hI : Owned cfg s) (hz : s.mux.realizing = some z)
    (hstep : z.step s.mux.shared (s.mux.pairs z.pair) = (sh, pr, some y)) :
    PairCommands (s.put z.pair sh pr (some y) (s.owners z.pair)) := by
  have hO := Reaches.of_invariant hI.reach (ownership_invariant cfg)
  obtain ⟨hphase, herror, hdata⟩ := hO.realizing z hz
  obtain ⟨h, op, -, hcall, -, hstate⟩ := (hI.owners z.pair).realizing_call hphase
  have hC := hP.commands z.pair
  have hT := hP.touched z.pair
  obtain ⟨hpair, hbefore, hafter⟩ := realizeStep_pc hstep
  obtain rfl : pr = s.mux.pairs z.pair := by
    rcases realizeStep_pair hstep with ⟨hsame, -⟩ | ⟨-, hnone⟩ | ⟨-, hnone, -⟩
    · exact hsame
    · contradiction
    · contradiction
  obtain ⟨-, hcmd | ⟨hpc, hy, -, hcmd⟩⟩ := realizeStep_writer hstep
  · refine hP.put [] (by rw [hcmd, List.append_nil]) (by simpa using hC)
      (by simpa using hT) (fun y' hy' hpc => ?_) fun y' hy' hpc => ?_
    · cases hy'
      rw [if_pos hpair, List.append_nil]
      exact hP.before z hz (hbefore hpc).1
    · cases hy'
      rw [if_pos hpair, List.append_nil]
      rcases hafter hpc with hz' | ⟨-, hq⟩
      · exact hP.after z hz hz'
      · rw [hcmd] at hq
        simp at hq
  · have hissued := hP.before z hz (by rw [hpc]; rfl)
    have hopen : MuxCommand.openStreamPair z.errorId z.dataId (s.mux.pairs z.pair).errorHeaders
        (s.mux.pairs z.pair).dataHeaders = (s.mux.pairs z.pair).openCommand := by
      rw [Pair.openCommand, herror, hdata]
    have htouched := hT.calls h (by rw [hcall]; rfl)
    rw [hopen] at hcmd
    refine hP.put _ hcmd (hC.enqueued (by rw [hstate]; rfl) (by rw [hstate]; rfl) hissued)
      ⟨fun _ _ => htouched, fun _ => htouched⟩ (fun y' hy' hpc' => ?_) fun y' hy' hpc' => ?_
    · cases hy'
      exact absurd hpc (hbefore hpc').2
    · cases hy'
      rw [if_pos hpair]
      simp

/-- A realization that returns sends nothing more. -/
theorem PairCommands.realized {cfg : MuxConfig} {s : OwnedState} {z : Realize}
    {sh sh' : Shared} {pr : Pair} {o : Owner} (hP : PairCommands s) (hI : Owned cfg s)
    (hz : s.mux.realizing = some z)
    (hstep : z.step s.mux.shared (s.mux.pairs z.pair) = (sh, pr, none))
    (hrealized : (s.owners z.pair).realized (decide (pr.phase = .opened)) sh = (sh', o)) :
    PairCommands (s.put z.pair sh' pr none o) := by
  have hO := Reaches.of_invariant hI.reach (ownership_invariant cfg)
  obtain ⟨h, op, hmutex, hcall, -, hstate⟩ :=
    (hI.owners z.pair).realizing_call (hO.realizing z hz).1
  have hC := hP.commands z.pair
  have hT := hP.touched z.pair
  obtain ⟨hopen, hbroken⟩ := Owner.realized_eq sh hmutex hcall hstate
  have hcmd : sh.cmd = s.mux.shared.cmd := by
    obtain ⟨-, hcmd | ⟨-, hnone, -⟩⟩ := realizeStep_writer hstep
    · exact hcmd
    · contradiction
  have hshut := hC.early (by rw [hstate]; rfl)
  rcases realizeStep_pair hstep with ⟨-, y, hnone⟩ | ⟨rfl, -⟩ | ⟨rfl, -, hpc⟩
  · contradiction
  · rw [show decide ((PairPhase.broken) = .opened) = false from rfl, hbroken] at hrealized
    obtain ⟨rfl, rfl⟩ := Prod.mk.inj hrealized
    refine hP.put [] (by rw [hcmd, List.append_nil]) ?_ ?_ (by simp) (by simp)
    · rw [List.append_nil]
      exact hC.frame .rfl rfl rfl (.inl rfl) hC.writing
    · rw [List.append_nil]
      exact ⟨hT.setCall (h := h) (c := .idle) (fun hc => by contradiction), hT.issued⟩
  · rw [show decide ((PairPhase.opened) = .opened) = true from rfl, hopen] at hrealized
    obtain ⟨rfl, rfl⟩ := Prod.mk.inj hrealized
    have hissued := hP.after z hz (by rw [hpc]; rfl)
    refine hP.put [] (by rw [hcmd, List.append_nil]) ?_ ?_ (by simp) (by simp)
    · rw [List.append_nil]
      exact ⟨hC.shape, hC.unwritten, fun _ => hshut, fun htried => by contradiction,
        fun _ => hshut, fun _ => hshut, fun _ => hissued⟩
    · rw [List.append_nil]
      exact ⟨hT.setCall (h := h) (c := .body op) (fun _ => by rw [hcall]; rfl), hT.issued⟩

/-- The senders are taken: still nothing was sent. -/
theorem PairCommands.begins {s : OwnedState} {p : Nat} {h : Holder} {op : Op}
    {g : Option PairReleaseGuard} {sh : Shared} {pr : Pair} {z : Option Realize}
    (hP : PairCommands s) (hcall : (s.owners p).calls h = .ensuring op)
    (hstate : (s.owners p).state = .unopened true g)
    (hb : realizeBegin p s.mux.shared (s.mux.pairs p) = (sh, pr, z)) :
    PairCommands (s.put p sh pr z ((s.owners p).realizes g h op z)) := by
  have hC := hP.commands p
  have hT := hP.touched p
  have hissued := hC.untried (by rw [hstate]; rfl)
  have hshut : pr.gracefulShutdown = false := by
    have hsame : pr.gracefulShutdown = (s.mux.pairs p).gracefulShutdown := by
      rcases (realizeBegin_pair hb).2 with ⟨rfl, -⟩ | ⟨y, -, rfl⟩
      · rfl
      · rfl
    rw [hsame]
    exact hC.early (by rw [hstate]; rfl)
  have htouched := hT.calls h (by rw [hcall]; rfl)
  have ho : ((s.owners p).realizes g h op z).issued = [] ∧
      ((s.owners p).realizes g h op z).accepted = (s.owners p).accepted ∧
      ((s.owners p).realizes g h op z).state ≠ .opened ∧
      ((s.owners p).realizes g h op z).touched = true := by
    cases z with
    | none => exact ⟨hissued, rfl, by simp [Owner.realizes], htouched⟩
    | some y => exact ⟨hissued, rfl, by simp [Owner.realizes], htouched⟩
  obtain ⟨hnil, haccepted, hopened, htouch⟩ := ho
  refine hP.put [] (by rw [(realizeBegin_writer hb).1, List.append_nil]) ?_
    ⟨fun _ _ => htouch, fun _ => htouch⟩ (fun y hy hpc => ?_) fun y hy hpc => ?_
  · rw [List.append_nil]
    refine .of_nothing hnil ?_ hopened hshut
    show ((s.owners p).realizes g h op z).accepted.flatten = []
    rw [haccepted]
    exact hC.unwritten hissued
  · subst hy
    rw [if_pos (realizeBegin_pc hb).1, hnil]
    rfl
  · subst hy
    rw [(realizeBegin_pc hb).2] at hpc
    contradiction

/-- What one step of anybody does to the commands of the pairs. -/
theorem step_pairCommands {cfg : MuxConfig} {s s' : OwnedState} {a : OwnedAct}
    (hI : Owned cfg s) (hP : PairCommands s) (hs : ownedStep cfg s a = some s') :
    PairCommands s' := by
  have hO := Reaches.of_invariant hI.reach (ownership_invariant cfg)
  obtain ⟨p, c, sh, pr, o, rfl, hstep, rfl⟩ | ⟨p, h, op, hcall, hmutex, hstate, rfl⟩ |
    ⟨p, h, op, g, sh, pr, z, -, hcall, hmutex, hstate, hfree, hb, rfl⟩ |
    ⟨p, h, op, g, hcall, hmutex, hstate, rfl⟩ | ⟨z, sh, pr, z', -, hz, hstep, rfl⟩ |
    ⟨z, sh, pr, sh', o, -, hz, hstep, hrealized, rfl⟩ | ⟨b, m, rfl, henv, hm, rfl⟩ :=
    ownedStep_cases hs
  · have hown := hI.owners p
    obtain ⟨sent, hmove, hqueue⟩ := ownerMove_of_step (fun hm => (hown.free hm).1) hstep
    have hsilent : ∀ y, s.mux.realizing = some y → y.pair = p →
        o.issued ++ sent = (s.owners y.pair).issued := by
      intro y hy hq
      have hphase := (hO.realizing y hy).1
      rw [hq] at hphase
      obtain ⟨hissued, hsent⟩ := hmove.silent hown hphase
      rw [hissued, hsent, List.append_nil, hq]
    refine hP.put sent hqueue (hmove.commands hown (hP.commands p)) (hmove.touched (hP.touched p))
      (fun y hy hpc => ?_) fun y hy hpc => ?_
    · split
      · next hq =>
          rw [hsilent y hy hq]
          exact hP.before y hy hpc
      · exact hP.before y hy hpc
    · split
      · next hq =>
          rw [hsilent y hy hq]
          exact hP.after y hy hpc
      · exact hP.after y hy hpc
  · have hC := hP.commands p
    have hT := hP.touched p
    exact hP.put_silent rfl rfl (hC.frame .rfl rfl rfl (.inl rfl) hC.writing)
      ⟨hT.setCall (fun _ => by rw [hcall]; rfl), hT.issued⟩
  · exact hP.begins hcall hstate hb
  · have hC := hP.commands p
    have hT := hP.touched p
    exact hP.put_silent rfl rfl (hC.frame .rfl rfl rfl (.inl rfl) hC.writing)
      ⟨hT.setCall (fun hc => by contradiction), hT.issued⟩
  · exact hP.realizes hI hz hstep
  · exact hP.realized hI hz hstep hrealized
  · obtain ⟨hpairs, hrealizing⟩ := step_env_pairs henv hm
    refine ⟨fun q => ?_, hP.touched, fun z hz => ?_, fun z hz => ?_⟩
    · show Commands (s.owners q) (m.pairs q)
      rw [hpairs]
      exact hP.commands q
    · exact hP.before z (hrealizing ▸ hz)
    · exact hP.after z (hrealizing ▸ hz)

theorem pairCommands_invariant (cfg : MuxConfig) :
    (owned cfg).Invariant anyStep PairCommands :=
  Invariant.of_step_using (owned_invariant cfg) (pairCommands_init cfg)
    fun _ _ _ hI hP _ h => step_pairCommands hI hP h

/-! ## What opens a stream -/

theorem accept_touched (pr : Pair) (buf : Bytes) (o : Owner) :
    (o.accept pr buf).touched = o.touched := by
  unfold Owner.accept
  split <;> rfl

/-- Only a call that opens the stream touches it. -/
theorem ownerStep_touched {cfg : MuxConfig} {p : Nat} {c : OwnerAct} {sh sh' : Shared}
    {pr pr' : Pair} {o o' : Owner} (hs : o.step cfg p c sh pr = some (sh', pr', o'))
    (htouched : o'.touched = true) :
    o.touched = true ∨ ∃ h op, c = .call h op ∧ op.opens = true := by
  by_cases hcall : ∃ h op, c = .call h op ∧ op.opens = true
  · exact .inr hcall
  · left
    cases c with
    | openBegin eh dh =>
        obtain ⟨x, -, heq⟩ := Option.map_eq_some_iff.1 hs
        cases heq
        exact htouched
    | openStep =>
        obtain ⟨x, -, heq⟩ := Option.map_eq_some_iff.1 hs
        cases heq
        split at htouched
        · contradiction
        · exact htouched
    | split =>
        simp only [Owner.step] at hs
        split at hs <;> cases hs
        exact htouched
    | call h op =>
        have hnot : op.opens = false := by
          by_contra hopens
          exact hcall ⟨h, op, rfl, by simpa using hopens⟩
        simp only [Owner.step, Owner.call, hnot] at hs
        (repeat' split at hs) <;> cases hs <;> first | contradiction | exact htouched
    | proceed h =>
        simp only [Owner.step, Owner.proceed] at hs
        (repeat' split at hs) <;> first
          | contradiction
          | (cases hs; exact htouched)
          | (obtain ⟨x, -, heq⟩ := Option.map_eq_some_iff.1 hs
             cases heq
             first
             | exact htouched
             | (split at htouched
                · rw [← accept_touched pr _ o]
                  exact htouched
                · exact htouched))
    | permit =>
        simp only [Owner.step] at hs
        split at hs
        · obtain ⟨x, -, heq⟩ := Option.map_eq_some_iff.1 hs
          cases heq
          exact htouched
        · contradiction
    | drop h =>
        simp only [Owner.step] at hs
        split at hs <;> cases hs
        exact htouched
    | dropNext h =>
        simp only [Owner.step, Owner.dropNext] at hs
        (repeat' split at hs) <;> first
          | contradiction
          | (cases hs; exact htouched)
          | (obtain ⟨x, -, heq⟩ := Option.map_eq_some_iff.1 hs
             cases heq
             first | exact htouched | (split at htouched <;> exact htouched))

theorem ownedStep_touched {cfg : MuxConfig} {s s' : OwnedState} {a : OwnedAct} (hI : Owned cfg s)
    (hs : ownedStep cfg s a = some s') {q : Nat} (htouched : (s'.owners q).touched = true) :
    (s.owners q).touched = true ∨ ∃ h op, a = .owner q (.call h op) ∧ op.opens = true := by
  have hput : ∀ {p : Nat} {sh : Shared} {pr : Pair} {z : Option Realize} {o : Owner},
      s' = s.put p sh pr z o →
      (q = p → o.touched = true → (s.owners q).touched = true ∨
        ∃ h op, a = .owner q (.call h op) ∧ op.opens = true) →
      (s.owners q).touched = true ∨ ∃ h op, a = .owner q (.call h op) ∧ op.opens = true := by
    intro p sh pr z o heq hmoved
    rw [heq] at htouched
    by_cases hq : q = p
    · subst hq
      simp only [OwnedState.put, Function.update_self] at htouched
      exact hmoved rfl htouched
    · simp only [OwnedState.put, Function.update_of_ne hq] at htouched
      exact .inl htouched
  obtain ⟨p, c, sh, pr, o, rfl, hstep, hs'⟩ | ⟨p, h, op, hcall, hmutex, hstate, hs'⟩ |
    ⟨p, h, op, g, sh, pr, z, -, hcall, hmutex, hstate, hfree, hb, hs'⟩ |
    ⟨p, h, op, g, hcall, hmutex, hstate, hs'⟩ | ⟨z, sh, pr, z', -, hz, hstep, hs'⟩ |
    ⟨z, sh, pr, sh', o, -, hz, hstep, hrealized, hs'⟩ | ⟨b, m, rfl, henv, hm, hs'⟩ :=
    ownedStep_cases hs
  · refine hput hs' fun hq ho => ?_
    subst hq
    rcases ownerStep_touched hstep ho with hold | ⟨h, op, rfl, hopens⟩
    · exact .inl hold
    · exact .inr ⟨h, op, rfl, hopens⟩
  · exact hput hs' fun hq ho => .inl (hq ▸ ho)
  · refine hput hs' fun hq ho => .inl ?_
    subst hq
    cases z with
    | none => exact ho
    | some y => exact ho
  · exact hput hs' fun hq ho => .inl (hq ▸ ho)
  · exact hput hs' fun hq ho => .inl (hq ▸ ho)
  · refine hput hs' fun hq ho => .inl ?_
    subst hq
    have hO := Reaches.of_invariant hI.reach (ownership_invariant cfg)
    obtain ⟨h, op, hmutex, hcall, -, hstate⟩ :=
      (hI.owners z.pair).realizing_call (hO.realizing z hz).1
    obtain ⟨hopen, hbroken⟩ := Owner.realized_eq sh hmutex hcall hstate
    cases hd : decide (pr.phase = .opened) with
    | true =>
        rw [hd, hopen] at hrealized
        rw [← (Prod.mk.inj hrealized).2] at ho
        exact ho
    | false =>
        rw [hd, hbroken] at hrealized
        rw [← (Prod.mk.inj hrealized).2] at ho
        exact ho
  · subst hs'
    exact .inl htouched

/-- A stream that was touched has seen a call that opens it. -/
theorem run_touched {cfg : MuxConfig} {as : List OwnedAct} {s : OwnedState}
    (hrun : (owned cfg).run (owned cfg).init as = some s) {p : Nat}
    (htouched : (s.owners p).touched = true) :
    ∃ h op, OwnedAct.owner p (.call h op) ∈ as ∧ op.opens = true := by
  -- The run is taken apart from its end, where the state is known.
  induction as using List.reverseRecOn generalizing s with
  | nil =>
      cases hrun
      contradiction
  | append_singleton as a ih =>
      obtain ⟨t, hfirst, hlast⟩ := run_snoc hrun
      have hI := owned_invariant cfg as t hfirst (meets_anyStep _ _)
      rcases ownedStep_touched hI hlast htouched with hold | ⟨h, op, rfl, hopens⟩
      · obtain ⟨h, op, hmem, hopens⟩ := ih hfirst hold
        exact ⟨h, op, List.mem_append_left _ hmem, hopens⟩
      · exact ⟨h, op, by simp, hopens⟩

/-! ## The commands of a pair -/

/-- In every run, whatever is called on the stream or on its halves and in
whichever order: a pair has sent nothing, or its open command, the payloads of
its writes and at most one FIN; nothing before a call that opens the stream; and
just the bytes that its writes have accepted. -/
theorem pair_commands (cfg : MuxConfig) (as : List OwnedAct) (s : OwnedState)
    (hrun : (owned cfg).run (owned cfg).init as = some s) (p : Nat) :
    ((s.owners p).issued = [] ∨ ∃ (payloads : List Bytes) (fin : Bool),
      (s.owners p).issued =
        .openStreamPair (s.mux.pairs p).errorId (s.mux.pairs p).dataId
          (s.mux.pairs p).errorHeaders (s.mux.pairs p).dataHeaders ::
        (payloads.map (fun payload =>
            MuxCommand.sendRawFrame (rawDataFrame (s.mux.pairs p).dataId payload)) ++
          if fin then [.sendData (s.mux.pairs p).dataId [] true] else []) ∧
      payloads.flatten = (s.owners p).accepted.flatten) ∧
    ((s.owners p).issued = [] → (s.owners p).accepted.flatten = []) ∧
    ((s.owners p).issued ≠ [] →
      ∃ h op, OwnedAct.owner p (.call h op) ∈ as ∧ op.opens = true) := by
  have hP := pairCommands_invariant cfg as s hrun (meets_anyStep _ _)
  refine ⟨?_, (hP.commands p).unwritten, fun hne => run_touched hrun ((hP.touched p).issued hne)⟩
  by_cases hnil : (s.owners p).issued = []
  · exact .inl hnil
  · obtain ⟨payloads, hlist, hflat⟩ := (hP.commands p).shape hnil
    exact .inr ⟨payloads, (s.mux.pairs p).gracefulShutdown, hlist, hflat⟩

/-- The halves of a split stream: a read on the error half opens the stream, the
write and the shutdown of the data half wait for it, and both are dropped. -/
def splitActs : List OwnedAct :=
  [OwnedAct.owner 0 (.openBegin [] [])] ++ List.replicate 3 (OwnedAct.owner 0 .openStep) ++
    [OwnedAct.owner 0 .split, .owner 0 (.call .data (.write [104, 105])),
      .owner 0 (.call .error (.read 4)), .ensure 0 .error] ++
    List.replicate 9 OwnedAct.realizeStep ++
    [OwnedAct.ensure 0 .data, .owner 0 (.proceed .data), .owner 0 (.proceed .data),
      .owner 0 (.proceed .error), .owner 0 (.proceed .data), .owner 0 (.proceed .data),
      .owner 0 (.proceed .data), .owner 0 (.call .data .shutdown), .ensure 0 .data,
      .owner 0 (.proceed .data), .owner 0 (.proceed .data), .owner 0 (.drop .error),
      .owner 0 (.dropNext .error), .owner 0 (.dropNext .error), .owner 0 (.drop .data)] ++
    List.replicate 8 (OwnedAct.owner 0 (.dropNext .data))

theorem pair_commands_split :
    ∃ s, (owned MuxConfig.default).run (owned MuxConfig.default).init splitActs = some s ∧
      (s.owners 0).issued = [.openStreamPair 1 3 [] [],
        .sendRawFrame (rawDataFrame 3 [104, 105]), .sendData 3 [] true] ∧
      (s.owners 0).accepted = [[104, 105]] ∧
      ∃ h op, OwnedAct.owner 0 (.call h op) ∈ splitActs ∧ op.opens = true := by
  have hsent : ((owned MuxConfig.default).run (owned MuxConfig.default).init splitActs).map
      (fun s => ((s.owners 0).issued, (s.owners 0).accepted)) =
      some ([.openStreamPair 1 3 [] [], .sendRawFrame (rawDataFrame 3 [104, 105]),
        .sendData 3 [] true], [[104, 105]]) := by decide +kernel
  obtain ⟨s, hrun, hobs⟩ := Option.map_eq_some_iff.1 hsent
  simp only [Prod.mk.injEq] at hobs
  refine ⟨s, hrun, hobs.1, hobs.2, ?_⟩
  exact (pair_commands _ _ s hrun 0).2.2 (by simp [hobs.1])

end KubePortForward.Mux
