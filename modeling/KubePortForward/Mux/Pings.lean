import KubePortForward.Mux.System

/-!
# PING frames

The first PING that the reader receives is taken for the answer to the client's own
first PING, whatever its id: it signals the waiter of the handshake and nothing else.
From then on a PING with an even id is the peer's and is echoed, and a PING with an odd
id is the answer to a keepalive.

`receipts` lists what a run received, with what the reader sent back for it.

## Main results

* `receipt_settled` — once the waiter is gone every PING is handled by its parity.
* `pings_handled_iff` — every PING is handled as it should be exactly when the first
  one carries the id of the client's own.
* `first_ping_swallowed` — a peer that sends a PING of its own first gets no answer.
-/

namespace KubePortForward.Mux

open KubePortForward.Codec
open KubePortForward.Verified.Channel
open KubePortForward.Verified.Transition

/-- The id of a PING command. -/
def MuxCommand.ping? : MuxCommand → Option UInt32
  | .encodePing id => some id
  | _ => none

/-- The ids of the PING commands that were appended to a queue. -/
def addedPings (before after : List MuxCommand) : List UInt32 :=
  (after.drop before.length).filterMap MuxCommand.ping?

/-- A frame that was received, the PINGs sent back for it, and whether it signalled the
waiter of the handshake. -/
structure Receipt where
  frame : Frame
  answers : List UInt32
  signals : Bool
  deriving DecidableEq, Repr

/-- What one step received. -/
def receipt (s : MuxState) (a : Act) (s' : MuxState) : List Receipt :=
  match a with
  | .reader (.receive frame) =>
      [{ frame := frame
         answers := addedPings s.shared.control.queue s'.shared.control.queue
         signals := s.reader.waitingPingReady && !s'.reader.waitingPingReady }]
  | _ => []

/-- What a run received. -/
def receipts (cfg : MuxConfig) : MuxState → List Act → List Receipt
  | _, [] => []
  | s, a :: as =>
      match step cfg s a with
      | some s' => receipt s a s' ++ receipts cfg s' as
      | none => []

/-- A PING of the peer is answered once, any other not at all, and only the id of the
client's first PING signals the waiter; nothing else is answered with a PING. -/
def Receipt.Proper (r : Receipt) : Prop :=
  match r.frame with
  | .ping id => r.answers = (if id % 2 = 0 then [id] else []) ∧ (r.signals = true → id = 1)
  | _ => r.answers = [] ∧ r.signals = false

/-- A PING finds a free slot in the control channel. -/
def ControlFree (s : MuxState) : Act → Prop
  | .reader (.receive (.ping _)) => s.shared.control.Accepts
  | _ => True

instance (s : MuxState) (a : Act) : Decidable (ControlFree s a) := by
  unfold ControlFree
  split <;> infer_instance

/-- The PING that a step receives. -/
def Act.ping? : Act → Option UInt32
  | .reader (.receive (.ping id)) => some id
  | _ => none

/-! ## One step -/

variable {cfg : MuxConfig} {s s' : MuxState} {a : Act}

theorem addedPings_self (q : List MuxCommand) : addedPings q q = [] := by
  simp [addedPings]

theorem addedPings_snoc (q : List MuxCommand) (c : MuxCommand) :
    addedPings q (q ++ [c]) = c.ping?.toList := by
  cases h : c.ping? <;> simp [addedPings, h]

/-- A command that is no PING adds none. -/
theorem addedPings_sendControl (sh : Shared) {c : MuxCommand} (h : c.ping? = none) :
    addedPings sh.control.queue (sh.sendControl c).control.queue = [] := by
  rcases Chan.sendOrDrop_queue sh.control c with hq | hq
  · rw [Shared.sendControl, hq, addedPings_self]
  · rw [Shared.sendControl, hq, addedPings_snoc, h]
    rfl

/-- Only a PING ends the wait for one. -/
theorem readerStep_waiting {c : ReaderAct} {sh sh' : Shared} {r r' : Reader}
    (hping : ∀ id, c ≠ .receive (.ping id)) (h : readerStep cfg c sh r = some (sh', r')) :
    r'.waitingPingReady = r.waitingPingReady := by
  cases c with
  | receive frame =>
      simp only [readerStep, Reader.receive] at h
      split at h
      · cases frame with
        | ping id => exact absurd rfl (hping id)
        | settings initial maxConcurrent maxFrame =>
            cases initial <;> simp only [routeFrame] at h <;> (try split at h) <;> cases h <;> rfl
        | _ =>
            simp only [routeFrame, creditSession] at h
            (repeat' split at h) <;> cases h <;> rfl
      · contradiction
  | _ =>
      simp only [readerStep, Reader.rejectTooLarge, Reader.receiveWsPing, Reader.message,
        Reader.idleProbe, Reader.exit, Reader.step] at h
      clear hping
      (repeat' split at h) <;> first
        | contradiction
        | cases h
          rfl

theorem step_waiting (hping : a.ping? = none) (h : step cfg s a = some s') :
    s'.reader.waitingPingReady = s.reader.waitingPingReady := by
  obtain ⟨p, c, sh, pr, rfl, hc, rfl⟩ | ⟨p, sh, pr, z, rfl, -, -, hb, rfl⟩ |
    ⟨z, sh, pr, z', rfl, hz, hr, rfl⟩ | ⟨c, sh, r, rfl, hr, rfl⟩ |
    ⟨w, order, k, sh, rfl, hw, rfl⟩ | ⟨c, sh, wr, rfl, hw, rfl⟩ | ⟨rfl, rfl⟩ := step_cases h
  case inr.inr.inr.inl =>
    refine readerStep_waiting ?_ hr
    rintro id rfl
    contradiction
  all_goals rfl

/-- What is not a PING is not answered with one. -/
theorem receipt_other (hping : a.ping? = none) (h : step cfg s a = some s') :
    ∀ r ∈ receipt s a s', r.Proper := by
  intro r hr
  unfold receipt at hr
  split at hr
  · next frame =>
      rw [List.mem_singleton] at hr
      subst hr
      have hwait := step_waiting hping h
      have hanswers : addedPings s.shared.control.queue s'.shared.control.queue = [] := by
        simp only [step, readerStep, Reader.receive, Option.map_eq_some_iff, Prod.exists] at h
        obtain ⟨sh, rd, hread, rfl⟩ := h
        split at hread
        · cases frame with
          | ping id => contradiction
          | synStream id headers fin =>
              cases hread
              exact addedPings_sendControl _ rfl
          | settings initial maxConcurrent maxFrame =>
              cases initial <;> simp only [routeFrame] at hread <;> (try split at hread) <;>
                cases hread <;> exact addedPings_self _
          | _ =>
              simp only [routeFrame, creditSession] at hread
              (repeat' split at hread) <;> cases hread <;> exact addedPings_self _
        · contradiction
      unfold Receipt.Proper
      simp only [hanswers, hwait, Bool.and_not_self]
      cases frame <;> first
        | contradiction
        | simp
  · exact absurd hr List.not_mem_nil

/-- Once the waiter is gone, a PING is handled by its parity. -/
theorem receipt_settled (hfree : ControlFree s a) (hwait : s.reader.waitingPingReady = false)
    (h : step cfg s a = some s') :
    (∀ r ∈ receipt s a s', r.Proper) ∧ s'.reader.waitingPingReady = false := by
  cases hping : a.ping? with
  | none => exact ⟨receipt_other hping h, by rw [step_waiting hping h, hwait]⟩
  | some id =>
      unfold Act.ping? at hping
      split at hping
      · next id' =>
          cases hping
          simp only [step, readerStep, Reader.receive, Option.map_eq_some_iff, Prod.exists] at h
          obtain ⟨sh, rd, hread, rfl⟩ := h
          split at hread
          · simp only [routeFrame, hwait, Bool.false_eq_true, if_false] at hread
            split at hread
            · next heven =>
                cases hread
                refine ⟨?_, hwait⟩
                intro r hr
                rw [receipt, List.mem_singleton] at hr
                subst hr
                obtain ⟨hopen, hroom⟩ := hfree
                have hqueue := Chan.sendOrDrop_of_room (.encodePing id) hopen hroom
                have hsent : addedPings s.shared.control.queue
                    (s.shared.control.sendOrDrop (.encodePing id)).queue = [id] := by
                  rw [hqueue, addedPings_snoc]
                  rfl
                simp only [Receipt.Proper, hwait, heven, if_true, Bool.false_and]
                exact ⟨hsent, by simp⟩
            · next hodd =>
                cases hread
                refine ⟨?_, hwait⟩
                intro r hr
                rw [receipt, List.mem_singleton] at hr
                subst hr
                simp only [Receipt.Proper, hwait, hodd, if_false, Bool.false_and]
                exact ⟨addedPings_self _, by simp⟩
          · contradiction
      · contradiction

/-- The first PING signals the waiter and is not answered. -/
theorem receipt_first {id : UInt32} (hwait : s.reader.waitingPingReady = true)
    (h : step cfg s (.reader (.receive (.ping id))) = some s') :
    receipt s (.reader (.receive (.ping id))) s' = [⟨.ping id, [], true⟩] ∧
      s'.reader.waitingPingReady = false := by
  simp only [step, readerStep, Reader.receive, Option.map_eq_some_iff, Prod.exists] at h
  obtain ⟨sh, rd, hread, rfl⟩ := h
  split at hread
  · simp only [routeFrame, hwait, if_true] at hread
    cases hread
    refine ⟨?_, rfl⟩
    simp [receipt, hwait, addedPings_self]
  · contradiction

/-! ## Whole runs -/

theorem receipts_settled {acts : List Act} (hwait : s.reader.waitingPingReady = false)
    (hmeets : (mux cfg).Meets ControlFree s acts) : ∀ r ∈ receipts cfg s acts, r.Proper := by
  induction acts generalizing s with
  | nil => simp [receipts]
  | cons a as ih =>
      intro r hr
      rw [receipts] at hr
      split at hr
      · next s' hs =>
          obtain ⟨hproper, hwait'⟩ := receipt_settled hmeets.1 hwait hs
          rcases List.mem_append.1 hr with hr | hr
          · exact hproper r hr
          · exact ih hwait' (hmeets.2 s' hs) r hr
      · exact absurd hr List.not_mem_nil

theorem receipts_waiting_iff {acts : List Act} {t : MuxState}
    (hwait : s.reader.waitingPingReady = true) (hrun : (mux cfg).run s acts = some t)
    (hmeets : (mux cfg).Meets ControlFree s acts) :
    (∀ r ∈ receipts cfg s acts, r.Proper) ↔ ∀ id, acts.findSome? Act.ping? = some id → id = 1 := by
  induction acts generalizing s with
  | nil => simp [receipts]
  | cons a as ih =>
      obtain ⟨s', hs, hrest⟩ := run_cons_some hrun
      have hs' : step cfg s a = some s' := hs
      simp only [receipts, hs', List.forall_mem_append, List.findSome?_cons]
      cases hping : a.ping? with
      | none =>
          have hwait' : s'.reader.waitingPingReady = true := by rw [step_waiting hping hs', hwait]
          rw [ih hwait' hrest (hmeets.2 s' hs)]
          exact ⟨fun h => h.2, fun h => ⟨receipt_other hping hs', h⟩⟩
      | some id =>
          have ha : a = .reader (.receive (.ping id)) := by
            unfold Act.ping? at hping
            split at hping
            · cases hping
              rfl
            · contradiction
          subst ha
          obtain ⟨hfirst, hwait'⟩ := receipt_first hwait hs'
          have hlater := receipts_settled hwait' (hmeets.2 s' hs)
          rw [hfirst, List.forall_mem_singleton]
          constructor
          · rintro ⟨hproper, -⟩ id' hid
            cases hid
            exact hproper.2 rfl
          · intro hone
            have hid : id = 1 := hone id rfl
            subst hid
            exact ⟨⟨rfl, fun _ => rfl⟩, hlater⟩

/-- With a free slot for every answer, a run handles every PING as it should exactly when
the first PING it receives, if any, has the id of the client's own first PING. -/
theorem pings_handled_iff (cfg : MuxConfig) (acts : List Act) (s : MuxState)
    (hrun : (mux cfg).run (mux cfg).init acts = some s)
    (hmeets : (mux cfg).Meets ControlFree (mux cfg).init acts) :
    (∀ r ∈ receipts cfg (mux cfg).init acts, r.Proper) ↔
      ∀ id, acts.findSome? Act.ping? = some id → id = 1 :=
  receipts_waiting_iff rfl hrun hmeets

/-- The answer to the client's PING, and a PING of the peer. -/
def answeredPings : List Act :=
  [.reader (.receive (.ping 1)), .reader (.receive (.ping 2))]

theorem pings_handled_in_order :
    (∃ s, (mux MuxConfig.default).run (mux MuxConfig.default).init answeredPings = some s) ∧
      ∀ r ∈ receipts MuxConfig.default (mux MuxConfig.default).init answeredPings, r.Proper := by
  have hchecked : ((mux MuxConfig.default).run (mux MuxConfig.default).init answeredPings).map
      (fun s => s.reader.waitingPingReady) = some false := by decide +kernel
  obtain ⟨s, hrun, -⟩ := Option.map_eq_some_iff.1 hchecked
  have hmeets : (mux MuxConfig.default).Meets ControlFree (mux MuxConfig.default).init
      answeredPings := meets_of_check (by decide +kernel)
  refine ⟨⟨s, hrun⟩, (pings_handled_iff _ answeredPings s hrun hmeets).2 ?_⟩
  intro id hid
  cases hid
  rfl

/-- A peer that sends its own PING 2 first gets no answer, and the handshake is over. -/
theorem first_ping_swallowed :
    ¬ ∀ (cfg : MuxConfig) (acts : List Act) (s : MuxState),
      (mux cfg).run (mux cfg).init acts = some s →
      (mux cfg).Meets ControlFree (mux cfg).init acts →
        ∀ r ∈ receipts cfg (mux cfg).init acts, r.Proper := by
  intro hall
  have hchecked : ((mux MuxConfig.default).run (mux MuxConfig.default).init
      [.reader (.receive (.ping 2))]).map (fun s => s.reader.waitingPingReady) = some false := by
    decide +kernel
  obtain ⟨s, hrun, -⟩ := Option.map_eq_some_iff.1 hchecked
  have hmeets : (mux MuxConfig.default).Meets ControlFree (mux MuxConfig.default).init
      [.reader (.receive (.ping 2))] := meets_of_check (by decide +kernel)
  have hreceipts : receipts MuxConfig.default (mux MuxConfig.default).init
      [.reader (.receive (.ping 2))] = [⟨.ping 2, [], true⟩] := by decide +kernel
  have hproper := hall _ _ s hrun hmeets ⟨.ping 2, [], true⟩ (by rw [hreceipts]; simp)
  exact absurd hproper.1 (by decide)

end KubePortForward.Mux
