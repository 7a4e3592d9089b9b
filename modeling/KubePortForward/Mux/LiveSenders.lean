import KubePortForward.Mux.Inbound

/-!
# Who holds a sender

The sender of an inbound channel is created with its pair, kept by the owner until
the pair is realized, moved into the registration and from there into the worker's
entry.  Whoever holds it, it is alive, and nobody else can drop it.

## Main results

* `client_txAlive`, `realizeStep_chans`, `WorkerMove.txAlive` — which move drops what.
* `liveSenders_invariant` — a sender that is held somewhere is alive.
-/

namespace KubePortForward.Mux

open KubePortForward.Codec
open KubePortForward.Verified.Channel
open KubePortForward.Verified.Transition

/-! ## Which move drops a sender -/

theorem pollReadChannel_txAlive (c : DataChan) (h : ReadHalf) (n : Nat) :
    (pollReadChannel c h n).2.1.txAlive = c.txAlive := by
  unfold pollReadChannel
  (repeat' split) <;> rfl

theorem pollFillBufChannel_txAlive (fuel : Nat) (c : DataChan) (h : ReadHalf) :
    (pollFillBufChannel fuel c h).2.1.txAlive = c.txAlive := by
  induction fuel generalizing c h with
  | zero => rfl
  | succ fuel ih =>
      rw [pollFillBufChannel]
      (repeat' split) <;> first
        | rfl
        | rw [ih]

/-- An owner creates its senders and drops them with a pair it never opened. -/
theorem client_txAlive {cfg : MuxConfig} {p : Nat} {a : ClientAct} {sh sh' : Shared}
    {pr pr' : Pair} (h : clientStep cfg p a sh pr = some (sh', pr')) (kind : HalfKind) :
    ((sh'.chans ⟨p, kind⟩).txAlive = (sh.chans ⟨p, kind⟩).txAlive ∧
        (pr'.phase = .unopened → pr.phase = .unopened)) ∨
      (pr.phase = .granting ∧ (sh'.chans ⟨p, kind⟩).txAlive = true) ∨
      (pr.phase = .unopened ∧ pr'.phase = .dropped) := by
  cases a with
  | read kind' n =>
      simp only [clientStep, Pair.read] at h
      split at h
      · split at h
        · next bytes c hh hread =>
            have htx := pollReadChannel_txAlive (sh.chans ⟨p, kind'⟩) (pr.half kind') n
            rw [hread] at htx
            cases h
            refine .inl ⟨?_, by simp⟩
            by_cases hk : kind = kind'
            · subst hk
              simpa [Shared.updChan] using htx
            · simp [Shared.updChan, hk]
        · contradiction
      · contradiction
  | fillBuf =>
      simp only [clientStep, Pair.fillBuf] at h
      split at h
      · cases h
        refine .inl ⟨?_, by simp⟩
        cases kind with
        | data => simp [Shared.updChan, pollFillBufChannel_txAlive]
        | error => simp [Shared.updChan]
      · contradiction
  | dropReceiver kind' =>
      simp only [clientStep, Pair.dropReceiver] at h
      split at h
      · cases h
        refine .inl ⟨?_, id⟩
        by_cases hk : kind = kind'
        · subst hk
          simp [Shared.updChan]
        · simp [Shared.updChan, hk]
      · contradiction
  | openStep =>
      simp only [clientStep, Pair.openStep] at h
      split at h
      · split at h <;> cases h <;> exact .inl ⟨rfl, by simp⟩
      · split at h <;> cases h <;> exact .inl ⟨rfl, by simp⟩
      · cases h
        exact .inl ⟨rfl, by simp⟩
      · next hphase =>
          cases h
          refine .inr (.inl ⟨hphase, ?_⟩)
          cases kind <;> simp [Shared.updChan, DataChan.new]
      · contradiction
  | dropRest =>
      simp only [clientStep, Pair.dropRest] at h
      split at h
      · split at h
        · next hphase =>
            cases h
            exact .inr (.inr ⟨hphase, rfl⟩)
        · cases h
          exact .inl ⟨rfl, by simp⟩
        · cases h
          refine .inl ⟨?_, by simp⟩
          split <;> rfl
        · contradiction
      · contradiction
  | dropStep =>
      simp only [clientStep, Pair.dropStep] at h
      (repeat' split at h) <;> first
        | contradiction
        | cases h
          exact .inl ⟨rfl, by simp⟩
        | obtain ⟨sh₁, hsend, heq⟩ := Option.map_eq_some_iff.1 h
          cases heq
          exact .inl ⟨by rw [sendReservedClose_chans hsend], by simp⟩
  | _ =>
      simp only [clientStep, Pair.openBegin, Pair.consume, Pair.writeBegin, Pair.writeReserve,
        Pair.writePick, Pair.writeRecheck, Pair.writeDebit, Pair.writeSend,
        Pair.shutdown] at h
      (repeat' split at h) <;> first
        | contradiction
        | cases h
          exact .inl ⟨rfl, by simp⟩

/-- A realization drops a sender when it cannot register it. -/
theorem realizeStep_chans {z : Realize} {sh sh' : Shared} {pr pr' : Pair}
    {z' : Option Realize} (h : z.step sh pr = (sh', pr', z')) :
    sh'.chans = sh.chans ∨
    (z.pc = .registerError ∧ z' = none ∧ sh'.reg = sh.reg ∧
      ∀ r : ChanRef, r.pair ≠ z.pair → sh'.chans r = sh.chans r) ∨
    (z.pc = .registerData ∧ z' = some { z with pc := .cleanupErrorOnly } ∧
      sh'.reg = sh.reg ∧ ∀ r : ChanRef, r ≠ ⟨z.pair, .data⟩ → sh'.chans r = sh.chans r) := by
  unfold Realize.step at h
  cases hz : z.pc with
  | registerError =>
      simp only [hz, Shared.sendOpen] at h
      split at h
      · next hsend =>
          cases h
          split at hsend <;> cases hsend
          exact .inl rfl
      · cases h
        refine .inr (.inl ⟨rfl, rfl, rfl, fun r hr => ?_⟩)
        have hne : ∀ kind, r ≠ ⟨z.pair, kind⟩ := fun kind heq => hr (by rw [heq])
        rw [Shared.dropPairTx, dropTx_chans_ne (hne _), dropTx_chans_ne (hne _)]
  | registerData =>
      simp only [hz, Shared.sendOpen] at h
      split at h
      · next hsend =>
          cases h
          split at hsend <;> cases hsend
          exact .inl rfl
      · cases h
        exact .inr (.inr ⟨rfl, rfl, rfl, fun r hr => dropTx_chans_ne hr⟩)
  | cleanupErrorOnly =>
      simp only [hz] at h
      cases h
      exact .inl (sendCloseOrDrop_chans _ _)
  | cleanupError held =>
      simp only [hz] at h
      cases h
      exact .inl (sendCloseOrDrop_chans _ _)
  | cleanupData held =>
      simp only [hz] at h
      cases h
      exact .inl (by rw [releaseHeld_chans, sendCloseOrDrop_chans])
  | _ =>
      simp only [hz] at h
      (repeat' split at h) <;> cases h <;> exact .inl rfl

theorem mem_queuedSenders {q : List StreamRegistration} {r : ChanRef} :
    r ∈ queuedSenders q ↔ ∃ id, .openStream id r ∈ q := by
  constructor
  · intro h
    obtain ⟨reg, hmem, hr⟩ := List.mem_filterMap.1 h
    cases reg with
    | openStream id r' =>
        simp only [Option.some.injEq] at hr
        exact ⟨id, hr ▸ hmem⟩
    | _ => contradiction
  · rintro ⟨id, hmem⟩
    exact List.mem_filterMap.2 ⟨_, hmem, rfl⟩

/-- A worker's move that leaves every sender to a channel where it is keeps it alive. -/
theorem WorkerMove.txAlive {cfg : MuxConfig} {order : List StreamId} {w : Shard}
    {k k' : Worker} {sh sh' : Shared} (h : WorkerMove cfg order w k sh k' sh')
    (hqueued : ∀ i r, .openStream i r ∈ (sh.reg w).queue → k.sender i = none)
    (hclosing : ∀ i r, .openStream i r ∉ (sh.closeReg w).queue) {r : ChanRef}
    (hkept : ∀ i, k.sender i = some r → k'.sender i = some r)
    (hexit : k.pc = .exiting → ∀ i, .openStream i r ∉ (sh.reg w).queue) :
    (sh'.chans r).txAlive = (sh.chans r).txAlive := by
  cases h with
  | @takeClose reg c _ _ pc hpc hfrom hrecv happly =>
      have hmem : reg ∈ (sh.closeReg w).queue := by simp [Chan.recv_eq_some hrecv]
      have happ := applyRegistration_sender happly fun i r' heq =>
        absurd (heq ▸ hmem) (hclosing i r')
      rw [happ.chans r hkept]
      rfl
  | @takeReg reg c _ _ pc hpc hfrom hrecv happly =>
      have hmem : reg ∈ (sh.reg w).queue := by simp [Chan.recv_eq_some hrecv]
      have happ := applyRegistration_sender happly fun i r' heq => hqueued i r' (heq ▸ hmem)
      rw [happ.chans r hkept]
      rfl
  | @takeFrame f c hpc hrecv =>
      by_cases hhit : ∃ i, workerKey f = some i ∧ k.sender i = some r
      · obtain ⟨i, hkey, hs⟩ := hhit
        obtain ⟨added, -, -, ⟨-, -, htx⟩ | ⟨hgone, -⟩⟩ := dispatch_sender
          cfg.initialWindowSize (sh.setFrames w c) (k := { k with pc := .drainClose }) hs hkey
        · exact htx
        · rw [hkept i hs] at hgone
          contradiction
      · rw [(dispatch_other cfg.initialWindowSize f { k with pc := .drainClose }
          (sh.setFrames w c)).2 r fun i hi hs => hhit ⟨i, hi, hs⟩]
        rfl
  | move pc hfrom hto => rfl
  | shutdown hpc =>
      rw [(closeAll_chans k sh r).1 fun i hs => ?_]
      have := hkept i hs
      simp [Worker.sender] at this
  | exit hpc =>
      have hnot : r ∉ queuedSenders (sh.reg w).queue := by
        intro hin
        obtain ⟨i, hi⟩ := mem_queuedSenders.1 hin
        exact hexit hpc i hi
      show ((List.foldl Shared.dropTx sh _).chans r).txAlive = _
      rw [(foldl_dropTx_chans _ sh r).1 hnot]

/-! ## The invariant -/

/-- The realization still holds the sender of that half. -/
def RealizePc.holdsSender (pc : RealizePc) : HalfKind → Bool
  | .error => !pc.errorRegistered
  | .data => !pc.dataRegistered && !decide (pc = .cleanupErrorOnly)

/-- A sender is alive while the owner holds it, while the realization holds it and
while it is registered. -/
structure LiveSenders (s : MuxState) : Prop where
  unopened : ∀ r : ChanRef, (s.pairs r.pair).phase = .unopened → (s.shared.chans r).txAlive = true
  realizing : ∀ z kind, s.realizing = some z → z.pc.holdsSender kind = true →
    (s.shared.chans ⟨z.pair, kind⟩).txAlive = true
  registered : ∀ id r, Registered s id r → (s.shared.chans r).txAlive = true

theorem liveSenders_init (cfg : MuxConfig) : LiveSenders (MuxState.init cfg) := by
  constructor <;> simp [MuxState.init, Shared.init, Worker.init, Registered, Worker.sender]

theorem Registrations.of_registered {s : MuxState} (hR : Registrations s) {id : StreamId}
    {r : ChanRef} (h : Registered s id r) : id ∈ s.shared.history.openLog := by
  rcases h with hs | hq
  · exact (hR.known _ _ (Worker.knows_of_sender hs)).2
  · exact (hR.queued _ _ (mem_openIds.2 ⟨r, hq⟩)).2.1

/-- A sender that leads to a channel is registered under the id of its half. -/
theorem Senders.entry {s : MuxState} (hS : Senders s) (hR : Registrations s) {w : Shard}
    {i id : StreamId} {r : ChanRef} (hs : (s.workers w).sender i = some r)
    (hn : (s.pairs r.pair).idOf r.half = id) : i = id ∧ w = shardOf id := by
  obtain rfl : i = id := (hS.entries w i r hs).2.symm.trans hn
  exact ⟨rfl, (hR.known w i (Worker.knows_of_sender hs)).1.symm⟩

theorem Senders.queuedOpen {s : MuxState} (hS : Senders s) (hR : Registrations s) {w : Shard}
    {i id : StreamId} {r : ChanRef} (hq : .openStream i r ∈ (s.shared.reg w).queue)
    (hn : (s.pairs r.pair).idOf r.half = id) : i = id ∧ w = shardOf id := by
  obtain rfl : i = id := (hS.queued w i r hq).2.symm.trans hn
  exact ⟨rfl, (hR.queued w i (mem_openIds.2 ⟨r, hq⟩)).1.symm⟩

/-- A worker does not touch the sender of a channel that is not registered. -/
theorem worker_txAlive_unregistered {cfg : MuxConfig} {s : MuxState} {w : Shard}
    {order : List StreamId} {k : Worker} {sh : Shared} (hR : Registrations s) (hS : Senders s)
    (hmove : WorkerMove cfg order w (s.workers w) s.shared k sh) {r : ChanRef}
    (hnot : ∀ id, (s.pairs r.pair).errorId ≠ 0 → (s.pairs r.pair).idOf r.half = id →
      id ∉ s.shared.history.openLog) :
    (sh.chans r).txAlive = (s.shared.chans r).txAlive := by
  refine hmove.txAlive (fun _ _ => hR.queued_sender) (hR.not_closing w) (fun i hs => ?_)
    fun _ i hq => ?_
  · have hname := hS.entries w i r hs
    exact absurd (hR.known w i (Worker.knows_of_sender hs)).2 (hnot i hname.1 hname.2)
  · have hname := hS.queued w i r hq
    exact absurd (hR.queued w i (mem_openIds.2 ⟨r, hq⟩)).2.1 (hnot i hname.1 hname.2)

/-- A worker keeps the sender of a stream that is registered afterwards. -/
theorem worker_txAlive_registered {cfg : MuxConfig} {s : MuxState} {w : Shard}
    {order : List StreamId} {k : Worker} {sh : Shared} (hR : Registrations s) (hS : Senders s)
    (hmove : WorkerMove cfg order w (s.workers w) s.shared k sh) {id : StreamId} {r : ChanRef}
    (hn : Names s r id)
    (hafter : Registered { s with
      shared := sh, workers := Function.update s.workers w k } id r) :
    (sh.chans r).txAlive = (s.shared.chans r).txAlive := by
  refine hmove.txAlive (fun _ _ => hR.queued_sender) (hR.not_closing w) (fun i hs => ?_)
    fun hpc i hq => ?_
  · obtain ⟨rfl, rfl⟩ := hS.entry hR hs hn.2
    simp only [Registered, Function.update_self] at hafter
    rcases hafter with hs' | hq
    · exact hs'
    · rw [hR.queued_sender (hmove.regs.regs_subset _ _ hq)] at hs
      contradiction
  · obtain ⟨rfl, rfl⟩ := hS.queuedOpen hR hq hn.2
    simp only [Registered, Function.update_self] at hafter
    cases hmove with
    | exit hpc' =>
        rcases hafter with hs | hq'
        · exact hR.gone _ (by rw [hpc]; rfl) i (Worker.knows_of_sender hs)
        · simp [dropReceivers, Shared.setFrames, Shared.setReg, Shared.setCloseReg] at hq'
    | takeClose pc hpc' hfrom hrecv happly => simp [hpc] at hfrom
    | takeReg pc hpc' hfrom hrecv happly => simp [hpc] at hfrom
    | takeFrame hpc' hrecv => simp [hpc] at hpc'
    | move pc hfrom hto => exact hfrom.1 hpc
    | shutdown hpc' => simp [hpc] at hpc'

theorem realizeStep_holds {z y : Realize} {sh sh' : Shared} {pr pr' : Pair}
    (h : z.step sh pr = (sh', pr', some y)) (kind : HalfKind)
    (hy : y.pc.holdsSender kind = true) : y.pair = z.pair ∧ z.pc.holdsSender kind = true := by
  unfold Realize.step at h
  cases hz : z.pc <;> simp only [hz] at h <;> (repeat' split at h) <;> cases h <;>
    cases kind <;> first
      | exact ⟨rfl, rfl⟩
      | contradiction

/-- A realization registers senders that are alive and drops those it cannot
register. -/
theorem LiveSenders.realize {s : MuxState} {z : Realize} {sh : Shared} {pr : Pair}
    {z' : Option Realize} (hW : Ownership s) (hR : Registrations s) (hS : Senders s)
    (hI : LiveSenders s) (hz : s.realizing = some z)
    (hr : z.step s.shared (s.pairs z.pair) = (sh, pr, z')) :
    LiveSenders { s with
      shared := sh, pairs := Function.update s.pairs z.pair pr, realizing := z' } := by
  obtain ⟨hphase, herr, hdata⟩ := hW.realizing z hz
  obtain ⟨hperr, hpdata⟩ := hW.progress z hz
  -- What is registered already is not what the realization drops.
  have hold : ∀ {id r}, Registered s id r → sh.chans r = s.shared.chans r := by
    intro id r hreg
    have hname := hS.registered hreg
    have hlog := hR.of_registered hreg
    rcases realizeStep_chans hr with heq | ⟨hpc, -, -, hother⟩ | ⟨hpc, -, -, hother⟩
    · rw [heq]
    · refine hother r fun hp => ?_
      rw [← hname.2, hp] at hlog
      cases hk : r.half with
      | error =>
          rw [hk, Pair.idOf, herr] at hlog
          simpa [hpc, RealizePc.errorRegistered] using hperr.1 hlog
      | data =>
          rw [hk, Pair.idOf, hdata] at hlog
          simpa [hpc, RealizePc.dataRegistered] using hpdata.1 hlog
    · refine hother r ?_
      rintro rfl
      rw [← hname.2, Pair.idOf, hdata] at hlog
      simpa [hpc, RealizePc.dataRegistered] using hpdata.1 hlog
  refine ⟨fun r hr' => ?_, fun y kind hy hholds => ?_, fun id r hreg => ?_⟩
  · have hp : r.pair ≠ z.pair := by
      intro hp
      rw [hp] at hr'
      simp only [Function.update_self] at hr'
      rcases realizeStep_pair hr with ⟨rfl, -⟩ | ⟨rfl, -⟩ | ⟨rfl, -, -⟩
      · rw [hphase] at hr'
        contradiction
      · contradiction
      · contradiction
    simp only [Function.update_of_ne hp] at hr'
    have hsame : sh.chans r = s.shared.chans r := by
      rcases realizeStep_chans hr with heq | ⟨-, -, -, hother⟩ | ⟨-, -, -, hother⟩
      · rw [heq]
      · exact hother r hp
      · exact hother r fun heq => hp (by rw [heq])
    rw [hsame]
    exact hI.unopened r hr'
  · simp only at hy
    subst hy
    obtain ⟨hpair, hz'⟩ := realizeStep_holds hr kind hholds
    rw [hpair]
    rcases realizeStep_chans hr with heq | ⟨-, hnone, -⟩ | ⟨-, hclean, -⟩
    · rw [heq]
      exact hI.realizing z kind hz hz'
    · contradiction
    · cases hclean
      cases kind <;> contradiction
  · rcases hreg with hs | hq
    · rw [hold (.inl hs)]
      exact hI.registered id r (.inl hs)
    · rcases realizeStep_reg hr with ⟨hsame, -⟩ | ⟨hpc, hnext, -, hopen, -⟩ |
        ⟨hpc, hnext, -, hopen, -⟩
      · simp only [hsame] at hq
        rw [hold (.inr hq)]
        exact hI.registered id r (.inr hq)
      · rcases hopen.mem hq with hq | ⟨rfl, rfl⟩
        · rw [hold (.inr hq)]
          exact hI.registered id r (.inr hq)
        · rcases realizeStep_chans hr with heq | ⟨-, hnone, -⟩ | ⟨hpc', -⟩
          · rw [heq]
            exact hI.realizing z .error hz (by rw [hpc]; rfl)
          · rw [hnext] at hnone
            contradiction
          · rw [hpc] at hpc'
            contradiction
      · rcases hopen.mem hq with hq | ⟨rfl, rfl⟩
        · rw [hold (.inr hq)]
          exact hI.registered id r (.inr hq)
        · rcases realizeStep_chans hr with heq | ⟨hpc', -⟩ | ⟨-, hclean, -⟩
          · rw [heq]
            exact hI.realizing z .data hz (by rw [hpc]; rfl)
          · rw [hpc] at hpc'
            contradiction
          · rw [hnext] at hclean
            simp at hclean

theorem step_liveSenders {cfg : MuxConfig} {s s' : MuxState} {a : Act} (hW : Ownership s)
    (hR : Registrations s) (hS : Senders s) (hI : LiveSenders s)
    (h : step cfg s a = some s') : LiveSenders s' := by
  have hback : a ≠ .realizeStep → ∀ {id r}, Registered s' id r → Registered s id r :=
    fun hne _ _ hreg => (step_registered hW hR h hreg).resolve_right fun hnew => hne hnew.1
  obtain ⟨p, c, sh, pr, rfl, hc, rfl⟩ | ⟨p, sh, pr, z, rfl, hfree, hphase, hb, rfl⟩ |
    ⟨z, sh, pr, z', rfl, hz, hr, rfl⟩ | ⟨c, sh, rd, rfl, hr, rfl⟩ |
    ⟨w, order, k, sh, rfl, hw, rfl⟩ | ⟨c, sh, wr, rfl, hw, rfl⟩ | ⟨rfl, rfl⟩ := step_cases h
  · -- The senders of another pair are out of the owner's reach.
    have hkept : ∀ r : ChanRef, (s.pairs r.pair).phase ≠ .granting →
        (s.pairs r.pair).phase ≠ .unopened →
        (sh.chans r).txAlive = (s.shared.chans r).txAlive := by
      intro r hgrant hunop
      by_cases hp : r.pair = p
      · subst hp
        rcases client_txAlive hc r.half with ⟨htx, -⟩ | ⟨hg, -⟩ | ⟨hu, -⟩
        · exact htx
        · exact absurd hg hgrant
        · exact absurd hu hunop
      · rw [client_chans_other hc hp]
    refine ⟨fun r hr => ?_, fun z kind hz hholds => ?_, fun id r hreg => ?_⟩
    · by_cases hp : r.pair = p
      · subst hp
        simp only [Function.update_self] at hr
        rcases client_txAlive hc r.half with ⟨htx, hph⟩ | ⟨-, htx⟩ | ⟨-, hph⟩
        · exact htx.trans (hI.unopened r (hph hr))
        · exact htx
        · rw [hph] at hr
          contradiction
      · simp only [Function.update_of_ne hp] at hr
        rw [client_chans_other hc hp]
        exact hI.unopened r hr
    · have hph := (hW.realizing z hz).1
      rw [hkept ⟨z.pair, kind⟩ (by simp [hph]) (by simp [hph])]
      exact hI.realizing z kind hz hholds
    · have hold := hback (by simp) hreg
      have hne := (hS.registered hold).1
      rw [hkept r (fun hg => hne (hW.fresh _ (by rw [hg]; rfl)))
        fun hu => hne (hW.fresh _ (by rw [hu]; rfl))]
      exact hI.registered id r hold
  · have hzero := hW.fresh p (by rw [hphase]; rfl)
    have hother : ∀ r : ChanRef, r.pair ≠ p → sh.chans r = s.shared.chans r := by
      intro r hr
      have hne : ∀ kind, r ≠ ⟨p, kind⟩ := fun kind heq => hr (by rw [heq])
      simp only [realizeBegin] at hb
      (repeat' split at hb) <;> cases hb <;>
        simp [Shared.dropPairTx, Shared.sendControl, dropTx_chans_ne (hne _)]
    refine ⟨fun r hr => ?_, fun y kind hy hholds => ?_, fun id r hreg => ?_⟩
    · have hp : r.pair ≠ p := by
        rintro rfl
        simp only [Function.update_self] at hr
        rcases (realizeBegin_pair hb).2 with ⟨heq, -⟩ | ⟨y, -, heq⟩ <;> rw [heq] at hr <;>
          contradiction
      simp only [Function.update_of_ne hp] at hr
      rw [hother r hp]
      exact hI.unopened r hr
    · simp only [realizeBegin] at hb
      (repeat' split at hb) <;> cases hb
      · contradiction
      · contradiction
      · cases hy
        exact hI.unopened ⟨p, kind⟩ hphase
    · have hold := hback (by simp) hreg
      rw [hother r fun hp => (hS.registered hold).1 (by rw [hp, hzero])]
      exact hI.registered id r hold
  · exact hI.realize hW hR hS hz hr
  · have hchans := (reader_footprint hr).chans
    exact ⟨fun r hr => by rw [hchans]; exact hI.unopened r hr,
      fun z kind hz hh => by rw [hchans]; exact hI.realizing z kind hz hh,
      fun id r hreg => by rw [hchans]; exact hI.registered id r (hback (by simp) hreg)⟩
  · have hmove := workerMove_of_step hw
    refine ⟨fun r hr => ?_, fun z kind hz hholds => ?_, fun id r hreg => ?_⟩
    · have hzero := hW.fresh r.pair (by rw [show (s.pairs r.pair).phase = .unopened from hr]; rfl)
      rw [worker_txAlive_unregistered hR hS hmove fun _ hne _ => absurd hzero hne]
      exact hI.unopened r hr
    · obtain ⟨-, herr, hdata⟩ := hW.realizing z hz
      obtain ⟨hperr, hpdata⟩ := hW.progress z hz
      rw [worker_txAlive_unregistered hR hS hmove fun id _ hid hin => ?_]
      · exact hI.realizing z kind hz hholds
      · subst hid
        cases kind with
        | error =>
            rw [Pair.idOf, herr] at hin
            simp [RealizePc.holdsSender, hperr.1 hin] at hholds
        | data =>
            rw [Pair.idOf, hdata] at hin
            simp [RealizePc.holdsSender, hpdata.1 hin] at hholds
    · have hold := hback (by simp) hreg
      rw [worker_txAlive_registered hR hS hmove (hS.registered hold) hreg]
      exact hI.registered id r hold
  · have hchans := (writer_footprint hw).chans
    exact ⟨fun r hr => by rw [hchans]; exact hI.unopened r hr,
      fun z kind hz hh => by rw [hchans]; exact hI.realizing z kind hz hh,
      fun id r hreg => by rw [hchans]; exact hI.registered id r (hback (by simp) hreg)⟩
  · exact ⟨hI.unopened, hI.realizing, fun id r hreg => hI.registered id r hreg⟩

theorem liveSenders_invariant (cfg : MuxConfig) : (mux cfg).Invariant anyStep LiveSenders :=
  Invariant.of_step_using
    (Invariant.and (ownership_invariant cfg)
      (Invariant.and (registrations_invariant cfg) (senders_invariant cfg)))
    (liveSenders_init cfg) fun _ _ _ hJ hI _ h => step_liveSenders hJ.1 hJ.2.1 hJ.2.2 hI h

end KubePortForward.Mux
