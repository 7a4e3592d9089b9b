import KubePortForward.Verified.Merge
import KubePortForward.Mux.PairCommands
import KubePortForward.Mux.WireOrder

/-!
# What a pair puts on the wire

Any number of pairs share one writer.  Their commands are merged into one queue, and the
writer mixes its own frames and those of the control and window channels into what it
writes.  Whatever the mixture, the frames of one pair are on the wire as its callers
caused them: its own headers, the bytes that its writes accepted in their order, and a
FIN only behind all of them.

## Main results

* `aside_invariant` — only the command channel opens streams or carries their bytes.
* `logged_invariant` — the wire is the front of what all pairs have sent, merged.
* `pair_on_the_wire` — the frames of one pair.
* `outbound_bytes_in_order` — the bytes of its data stream.
-/

namespace KubePortForward.Mux

open KubePortForward.Codec
open KubePortForward.Verified.BigEndian
open KubePortForward.Verified.Channel
open KubePortForward.Verified.Merge
open KubePortForward.Verified.Transition

/-! ## Frames that open a stream or carry its bytes -/

def Outgoing.carries : Outgoing → Bool
  | .synStream _ _ _ => true
  | .data _ _ _ => true
  | .raw _ => true
  | _ => false

def contents (frames : List Outgoing) : List Outgoing := frames.filter Outgoing.carries

@[simp] theorem contents_append (xs ys : List Outgoing) :
    contents (xs ++ ys) = contents xs ++ contents ys := List.filter_append ..

/-- A command none of whose frames opens a stream or carries its bytes. -/
def CarriesNothing (cmd : MuxCommand) : Prop := contents (cmdFrames cmd) = []

theorem carriesNothing_closeStream (id : StreamId) (status : UInt32) :
    CarriesNothing (.closeStream id status) := rfl

theorem carriesNothing_goAway (last : StreamId) : CarriesNothing (.goAway last) := rfl

theorem carriesNothing_encodeWindowUpdate (id : StreamId) (n : UInt32) :
    CarriesNothing (.encodeWindowUpdate id n) := rfl

theorem ReaderControl.carriesNothing {a : ReaderAct} {r : Reader} {c : MuxCommand}
    (h : ReaderControl a r c) : CarriesNothing c := by
  cases h <;> rfl

theorem WorkerControl.carriesNothing {w : Shard} {sh : Shared} {c : MuxCommand}
    (h : WorkerControl w sh c) : CarriesNothing c := by
  cases h <;> rfl

/-- The two channels that the writer prefers to the command channel. -/
structure Aside (s : MuxState) : Prop where
  control : ∀ c ∈ s.shared.control.queue, CarriesNothing c
  window : ∀ c ∈ s.shared.window.queue, CarriesNothing c

theorem step_aside {cfg : MuxConfig} {s s' : MuxState} {a : Act} (hI : Aside s)
    (h : step cfg s a = some s') : Aside s' := by
  obtain ⟨p, c, sh, pr, rfl, hc, rfl⟩ | ⟨p, sh, pr, z, rfl, -, -, hb, rfl⟩ |
    ⟨z, sh, pr, z', rfl, hz, hr, rfl⟩ | ⟨c, sh, r, rfl, hr, rfl⟩ |
    ⟨w, order, k, sh, rfl, hw, rfl⟩ | ⟨c, sh, wr, rfl, hw, rfl⟩ | ⟨rfl, rfl⟩ := step_cases h
  · refine ⟨?_, ?_⟩
    · rcases client_control hc with hq | ⟨-, -, -, -, hq⟩
      · show ∀ c ∈ sh.control.queue, _
        rw [hq]
        exact hI.control
      · exact forall_mem_snoc hI.control (carriesNothing_closeStream _ _) hq
    · show ∀ c ∈ sh.window.queue, _
      rw [(client_footprint hc).window]
      exact hI.window
  · refine ⟨?_, ?_⟩
    · rcases (realizeBegin_writer hb).2 with hq | ⟨last, hq⟩
      · show ∀ c ∈ sh.control.queue, _
        rw [hq]
        exact hI.control
      · exact forall_mem_snoc hI.control (carriesNothing_goAway last) hq
    · show ∀ c ∈ sh.window.queue, _
      rw [(realizeBegin_footprint hb).window]
      exact hI.window
  · refine ⟨?_, ?_⟩
    · show ∀ c ∈ sh.control.queue, _
      rw [(realizeStep_writer hr).1]
      exact hI.control
    · show ∀ c ∈ sh.window.queue, _
      rw [(realizeStep_footprint hr).window]
      exact hI.window
  · refine ⟨?_, ?_⟩
    · rcases reader_control hr with hq | ⟨y, hq, hy⟩
      · show ∀ c ∈ sh.control.queue, _
        rw [hq]
        exact hI.control
      · exact forall_mem_snoc hI.control hy.carriesNothing hq
    · rcases reader_window hr with hq | ⟨n, hq⟩
      · show ∀ c ∈ sh.window.queue, _
        rw [hq]
        exact hI.window
      · exact forall_mem_snoc hI.window (carriesNothing_encodeWindowUpdate _ n) hq
  · have hmove := workerMove_of_step hw
    refine ⟨?_, ?_⟩
    · obtain ⟨added, hq, hadded⟩ := hmove.control
      show ∀ c ∈ sh.control.queue, _
      rw [hq]
      intro x hx
      rcases List.mem_append.mp hx with hx | hx
      · exact hI.control x hx
      · exact (hadded x hx).carriesNothing
    · rcases hmove.window with hq | ⟨f, rest, id, n, -, -, -, hq⟩
      · show ∀ c ∈ sh.window.queue, _
        rw [hq]
        exact hI.window
      · exact forall_mem_snoc hI.window (carriesNothing_encodeWindowUpdate _ n) hq
  · have hmove := writerMove_of_step hw
    exact ⟨fun x hx => hI.control x (hmove.control_subset x hx),
      fun x hx => hI.window x (hmove.window_subset x hx)⟩
  · exact ⟨hI.control, hI.window⟩

theorem aside_invariant (cfg : MuxConfig) : (mux cfg).Invariant anyStep Aside := by
  refine Invariant.of_step ⟨?_, ?_⟩ fun s a s' hI _ h => step_aside hI h
  · simp [mux, MuxState.init, Shared.init]
  · simp [mux, MuxState.init, Shared.init]

/-! ## What all pairs have sent -/

/-- What the writer puts in front of the command channel opens nothing and carries
nothing. -/
theorem Inserted.contents_eq {s : MuxState} {frames : List Outgoing} (hI : Aside s)
    (h : Inserted s.shared s.writer frames) : contents frames = [] := by
  cases h with
  | control hpolls hqueue =>
      refine hI.control _ ?_
      rw [hqueue]
      exact List.mem_cons_self
  | window hqueue =>
      refine hI.window _ ?_
      rw [hqueue]
      exact List.mem_cons_self
  | ping id => rfl
  | settings entries => rfl

/-- `log` is what the pairs have put on the command channel, merged: the wire is the
front of it, and all of it is written or on its way while the writer runs. -/
structure Logged (s : OwnedState) (log : List (Nat × MuxCommand)) : Prop where
  merged : Merges log fun p => (s.owners p).issued
  written : contents (pipeline s.mux.shared s.mux.writer) <+: contents (rendered cmdFrames log)
  running : s.mux.writer.pc.leaving = false →
    contents (pipeline s.mux.shared s.mux.writer) = contents (rendered cmdFrames log)
  named : ∀ x ∈ log, (s.mux.pairs x.1).errorId ≠ 0
  unnamed : ∀ p, (s.mux.pairs p).errorId = 0 → (s.mux.pairs p).dataId = 0

theorem logged_init (cfg : MuxConfig) : Logged (owned cfg).init [] where
  merged := Merges.nil
  written := List.prefix_rfl
  running := fun _ => rfl
  named := List.forall_mem_nil _
  unnamed := fun _ _ => rfl

section

variable {s : OwnedState} {log : List (Nat × MuxCommand)} {p : Nat} {sh : Shared} {pr : Pair}
variable {z : Option Realize} {o : Owner}

/-- The owner of one pair has moved. -/
theorem Logged.put (hI : Logged s log) (sent : List MuxCommand)
    (hqueue : sh.cmd.queue = s.mux.shared.cmd.queue ++ sent)
    (hissued : o.issued = (s.owners p).issued)
    (hids : (pr.errorId = (s.mux.pairs p).errorId ∧ pr.dataId = (s.mux.pairs p).dataId) ∨
      pr.errorId ≠ 0) (hsent : sent ≠ [] → pr.errorId ≠ 0) :
    Logged (s.put p sh pr z o) (log ++ sent.map fun c => (p, c)) := by
  have hpipeline : s.mux.writer.pc.leaving = false →
      pipeline sh s.mux.writer = pipeline s.mux.shared s.mux.writer ++ sent.flatMap cmdFrames := by
    intro hlive
    rw [pipeline_of_running hlive, pipeline_of_running hlive]
    simp [backlog, hqueue]
  have hrunning : s.mux.writer.pc.leaving = false → contents (pipeline sh s.mux.writer) =
      contents (rendered cmdFrames (log ++ sent.map fun c => (p, c))) := by
    intro hlive
    rw [hpipeline hlive, contents_append, hI.running hlive, rendered_append, rendered_map,
      contents_append]
  have hpairs : ∀ q, ((s.put p sh pr z o).mux.pairs q) = if q = p then pr else s.mux.pairs q := by
    intro q
    by_cases hq : q = p
    · rw [hq, if_pos rfl]
      exact Function.update_self ..
    · rw [if_neg hq]
      exact Function.update_of_ne hq ..
  refine ⟨?_, ?_, hrunning, ?_, ?_⟩
  · refine hI.merged.send p sent ?_ ?_
    · simp only [OwnedState.put, Function.update_self, hissued, hqueue, appended_append]
    · intro q hq
      simp only [OwnedState.put, Function.update_of_ne hq]
  · cases hlive : s.mux.writer.pc.leaving with
    | false =>
        show contents (pipeline sh s.mux.writer) <+: _
        rw [hrunning hlive]
    | true =>
        have hold := hI.written
        rw [pipeline_of_leaving hlive] at hold
        show contents (pipeline sh s.mux.writer) <+: _
        rw [pipeline_of_leaving hlive, rendered_append, contents_append]
        exact hold.trans (List.prefix_append _ _)
  · intro x hx
    rw [hpairs]
    rcases List.mem_append.mp hx with hx | hx
    · have hold := hI.named x hx
      split
      · next hq =>
          rcases hids with hsame | hne
          · rw [hsame.1, ← hq]
            exact hold
          · exact hne
      · exact hold
    · obtain ⟨c, hc, rfl⟩ := List.mem_map.mp hx
      rw [if_pos rfl]
      exact hsent (List.ne_nil_of_mem hc)
  · intro q
    rw [hpairs]
    split
    · rcases hids with hsame | hne
      · rw [hsame.1, hsame.2]
        exact hI.unnamed p
      · exact fun hzero => absurd hzero hne
    · exact hI.unnamed q

/-- A task of the connection has moved and left the command channel alone. -/
theorem Logged.env {m : MuxState} (hI : Logged s log) (hpairs : m.pairs = s.mux.pairs)
    (hwriter : m.writer = s.mux.writer) (hcmd : m.shared.cmd.queue = s.mux.shared.cmd.queue) :
    Logged { s with mux := m } log := by
  have hpipeline : pipeline m.shared m.writer = pipeline s.mux.shared s.mux.writer := by
    rw [hwriter, pipeline_congr _ hcmd]
  refine ⟨hI.merged, ?_, ?_, ?_, ?_⟩
  · show contents (pipeline m.shared m.writer) <+: _
    rw [hpipeline]
    exact hI.written
  · show m.writer.pc.leaving = false → contents (pipeline m.shared m.writer) = _
    rw [hpipeline, hwriter]
    exact hI.running
  · show ∀ x ∈ log, (m.pairs x.1).errorId ≠ 0
    rw [hpairs]
    exact hI.named
  · show ∀ p, (m.pairs p).errorId = 0 → (m.pairs p).dataId = 0
    rw [hpairs]
    exact hI.unnamed

theorem Logged.writer {wr : Writer} (hI : Logged s log) (hA : Aside s.mux)
    (hquiet : s.mux.writer.pc.leaving = true → s.mux.writer.out = [])
    (hmove : WriterMove s.mux.shared s.mux.writer sh wr) :
    Logged { s with mux := { s.mux with shared := sh, writer := wr } } log := by
  refine ⟨hI.merged, ?_, ?_, hI.named, hI.unnamed⟩
  · show contents (pipeline sh wr) <+: _
    rcases hmove.pipeline_cases hquiet with ⟨-, hcut⟩ | ⟨-, hsame⟩ |
      ⟨frames, rest, -, -, -, hin, hold, hnew⟩
    · rw [hcut]
      exact ((wire_prefix_pipeline _ _).filter _).trans hI.written
    · rw [hsame]
      exact hI.written
    · have hwritten := hI.written
      rw [hold, contents_append] at hwritten
      rw [hnew, contents_append, contents_append, hin.contents_eq hA, List.nil_append]
      exact hwritten
  · show wr.pc.leaving = false → contents (pipeline sh wr) = _
    intro hlive
    rcases hmove.pipeline_cases hquiet with ⟨hleft, -⟩ | ⟨hleaving, hsame⟩ |
      ⟨frames, rest, hlive', -, -, hin, hold, hnew⟩
    · rw [hlive] at hleft
      contradiction
    · rw [hsame]
      exact hI.running (hleaving ▸ hlive)
    · have hrunning := hI.running hlive'
      rw [hold, contents_append] at hrunning
      rw [hnew, contents_append, contents_append, hin.contents_eq hA, List.nil_append]
      exact hrunning

end

/-- Moves of a caller leave the record of what was issued to `put`. -/
theorem OwnerMove.issued_eq {p : Nat} {sh : Shared} {pr pr' : Pair} {o o' : Owner}
    {sent : List MuxCommand} (hmove : OwnerMove p sh pr o pr' o' sent) (hI : OwnerInv o pr)
    (hC : Commands o pr) : o'.issued = o.issued := by
  cases hmove with
  | grant pr' hfrom hto hwrite hshut =>
      have hnone : o.state = .none := (hI.unborn (by rw [hfrom]; rfl)).1
      have hissued := hC.untried (by rw [hnone]; rfl)
      rw [hissued]
      rfl
  | _ => rfl

theorem step_logged {cfg : MuxConfig} {s s' : OwnedState} {a : OwnedAct}
    {log : List (Nat × MuxCommand)} (hI : Owned cfg s) (hP : PairCommands s) (hS : Logged s log)
    (hs : ownedStep cfg s a = some s') : ∃ log', Logged s' log' := by
  have hO := Reaches.of_invariant hI.reach (ownership_invariant cfg)
  have hN := Reaches.of_invariant hI.reach (synOrder_invariant cfg)
  have hopened : ∀ p, (s.mux.pairs p).phase = .opened → (s.mux.pairs p).errorId ≠ 0 := by
    intro p hphase
    exact (hO.guarded p (by rw [hphase]; rfl)).1
  have hrealizing : ∀ y, s.mux.realizing = some y → (s.mux.pairs y.pair).errorId ≠ 0 := by
    intro y hy hzero
    have hid := (hN.opening y hy).1
    rw [← (hO.realizing y hy).2.1, hzero] at hid
    contradiction
  obtain ⟨p, c, sh, pr, o, rfl, hstep, rfl⟩ | ⟨p, h, op, hcall, hmutex, hstate, rfl⟩ |
    ⟨p, h, op, g, sh, pr, z, -, hcall, hmutex, hstate, hfree, hb, rfl⟩ |
    ⟨p, h, op, g, hcall, hmutex, hstate, rfl⟩ | ⟨z, sh, pr, z', -, hz, hstep, rfl⟩ |
    ⟨z, sh, pr, sh', o, -, hz, hstep, hrealized, rfl⟩ | ⟨b, m, rfl, henv, hm, rfl⟩ :=
    ownedStep_cases hs
  · have hown := hI.owners p
    obtain ⟨sent, hmove, hqueue⟩ := ownerMove_of_step (fun hm => (hown.free hm).1) hstep
    have hissued := hmove.issued_eq hown (hP.commands p)
    rcases ownerStep_client hown (hI.receivers p) hstep with ⟨rfl, rfl⟩ | ⟨c', hc, -⟩
    · have hnone : sent = [] := by simpa using hqueue
      subst hnone
      exact ⟨_, hS.put [] hqueue hissued (.inl ⟨rfl, rfl⟩) fun hne => absurd rfl hne⟩
    · have hids := client_pair hc
      refine ⟨_, hS.put sent hqueue hissued (.inl ⟨hids.1, hids.2.1⟩) fun hne => ?_⟩
      rw [hids.1]
      rcases client_cmd hc with hq | ⟨payload, -, hwrite, -⟩ | ⟨-, hphase, -⟩
      · rw [hq] at hqueue
        exact absurd (by simpa using hqueue) hne
      · exact hopened p (hO.writing p (by rw [hwrite]; simp))
      · exact hopened p hphase
  · exact ⟨_, hS.put [] (List.append_nil _).symm rfl (.inl ⟨rfl, rfl⟩) fun hne => absurd rfl hne⟩
  · have hqueue : sh.cmd.queue = s.mux.shared.cmd.queue ++ [] := by
      rw [(realizeBegin_writer hb).1, List.append_nil]
    have hissued : ((s.owners p).realizes g h op z).issued = (s.owners p).issued := by
      cases z <;> rfl
    refine ⟨_, hS.put [] hqueue hissued ?_ fun hne => absurd rfl hne⟩
    rcases (realizeBegin_pair hb).2 with ⟨rfl, -⟩ | ⟨y, rfl, rfl⟩
    · exact .inl ⟨rfl, rfl⟩
    · refine .inr fun hzero => ?_
      have hmod := hN.next_mod
      rw [← (realizeBegin_opening hb).1, show y.errorId = 0 from hzero] at hmod
      contradiction
  · exact ⟨_, hS.put [] (List.append_nil _).symm rfl (.inl ⟨rfl, rfl⟩) fun hne => absurd rfl hne⟩
  · have hids : pr.errorId = (s.mux.pairs z.pair).errorId ∧
        pr.dataId = (s.mux.pairs z.pair).dataId := by
      rcases realizeStep_pair hstep with ⟨rfl, -⟩ | ⟨rfl, -⟩ | ⟨rfl, -⟩ <;> exact ⟨rfl, rfl⟩
    have hnamed : pr.errorId ≠ 0 := by
      rw [hids.1]
      exact hrealizing z hz
    rcases (realizeStep_writer hstep).2 with hcmd | ⟨-, -, -, hqueue⟩
    · refine ⟨_, hS.put [] ?_ rfl (.inl hids) fun _ => hnamed⟩
      rw [hcmd, List.append_nil]
    · exact ⟨_, hS.put _ hqueue rfl (.inl hids) fun _ => hnamed⟩
  · have hown := hI.owners z.pair
    obtain ⟨h, op, hmutex, hcall, -, hstate⟩ := hown.realizing_call (hO.realizing z hz).1
    have hids : pr.errorId = (s.mux.pairs z.pair).errorId ∧
        pr.dataId = (s.mux.pairs z.pair).dataId := by
      rcases realizeStep_pair hstep with ⟨rfl, -⟩ | ⟨rfl, -⟩ | ⟨rfl, -⟩ <;> exact ⟨rfl, rfl⟩
    have hsame : sh' = sh ∧ o.issued = (s.owners z.pair).issued := by
      obtain ⟨hopen, hbroken⟩ := Owner.realized_eq sh hmutex hcall hstate
      cases hd : decide (pr.phase = .opened) with
      | true =>
          rw [hd, hopen] at hrealized
          obtain ⟨rfl, rfl⟩ := Prod.mk.inj hrealized
          exact ⟨rfl, rfl⟩
      | false =>
          rw [hd, hbroken] at hrealized
          obtain ⟨rfl, rfl⟩ := Prod.mk.inj hrealized
          exact ⟨rfl, rfl⟩
    have hqueue : sh'.cmd.queue = s.mux.shared.cmd.queue ++ [] := by
      rw [hsame.1, List.append_nil]
      rcases (realizeStep_writer hstep).2 with hcmd | ⟨-, hsome, -⟩
      · rw [hcmd]
      · contradiction
    exact ⟨_, hS.put [] hqueue hsame.2 (.inl hids) fun hne => absurd rfl hne⟩
  · obtain ⟨p, c, sh, pr, rfl, -, -⟩ | ⟨p, sh, pr, z, rfl, -, -, -, -⟩ |
      ⟨z, sh, pr, z', rfl, -, -, -⟩ | ⟨c, sh, r, rfl, hr, rfl⟩ | ⟨w, order, k, sh, rfl, hw, rfl⟩ |
      ⟨c, sh, wr, rfl, hw, rfl⟩ | ⟨rfl, rfl⟩ := step_cases hm
    · contradiction
    · contradiction
    · contradiction
    · exact ⟨log, hS.env rfl rfl (by rw [(reader_footprint hr).cmd])⟩
    · exact ⟨log, hS.env rfl rfl (by rw [(workerMove_of_step hw).footprint.cmd])⟩
    · have hA := Reaches.of_invariant hI.reach (aside_invariant cfg)
      have hF := Reaches.of_invariant hI.reach (feeds_invariant cfg)
      exact ⟨log, hS.writer hA hF.quiet (writerMove_of_step hw)⟩
    · exact ⟨log, hS.env rfl rfl rfl⟩

theorem logged_invariant (cfg : MuxConfig) :
    (owned cfg).Invariant anyStep fun s => ∃ log, Logged s log := by
  refine Invariant.of_step_using (Invariant.and (owned_invariant cfg) (pairCommands_invariant cfg))
    ⟨[], logged_init cfg⟩ ?_
  rintro s a s' ⟨hI, hP⟩ ⟨log, hS⟩ - h
  exact step_logged hI hP hS h

/-! ## The frames of one pair -/

/-- The frame opens the stream or carries its bytes. -/
def Outgoing.sendsOn (id : StreamId) (f : Outgoing) : Bool :=
  decide (f.mark id = some .syn ∨ f.mark id = some (.data false) ∨ f.mark id = some (.data true))

/-- The frames of a pair other than resets and window updates. -/
def Pair.sent (pr : Pair) (frames : List Outgoing) : List Outgoing :=
  frames.filter fun f => f.sendsOn pr.errorId || f.sendsOn pr.dataId

/-- The frames of a pair that has written `payloads`. -/
def Pair.frames (pr : Pair) (payloads : List Bytes) (fin : Bool) : List Outgoing :=
  [.synStream pr.errorId pr.errorHeaders false, .synStream pr.dataId pr.dataHeaders false,
    .data pr.errorId [] true] ++
    payloads.map (fun payload => .raw (rawDataFrame pr.dataId payload)) ++
    if fin then [.data pr.dataId [] true] else []

theorem sendsOn_synStream (id i : StreamId) (headers : Headers) (fin : Bool) :
    (Outgoing.synStream i headers fin).sendsOn id = decide (i = id) := by
  by_cases hid : i = id <;> simp [Outgoing.sendsOn, Outgoing.mark, hid]

theorem sendsOn_data {i : StreamId} (hi : i ≤ MAX_STREAM_ID) (id : StreamId) (payload : Bytes)
    (fin : Bool) : (Outgoing.data i payload fin).sendsOn id = decide (i = id) := by
  have hmark : (Outgoing.data i payload fin).mark id =
      if i = id then some (.data fin) else none := by
    show (if i &&& 0x7FFFFFFF = id then some (Mark.data fin) else none) = _
    rw [and_mask_of_le hi]
  unfold Outgoing.sendsOn
  rw [hmark]
  cases fin <;> by_cases hid : i = id <;> simp [hid]

theorem sendsOn_raw {i : StreamId} (hi : i ≤ MAX_STREAM_ID) (id : StreamId) (payload : Bytes) :
    (Outgoing.raw (rawDataFrame i payload)).sendsOn id = decide (i = id) := by
  have hmark : (Outgoing.raw (rawDataFrame i payload)).mark id =
      if i = id then some (.data false) else none := rawMark_rawDataFrame id i payload hi
  unfold Outgoing.sendsOn
  rw [hmark]
  by_cases hid : i = id <;> simp [hid]

theorem carries_of_sendsOn {id : StreamId} {f : Outgoing} (h : f.sendsOn id = true) :
    f.carries = true := by
  cases f with
  | synStream i headers fin => rfl
  | data i payload fin => rfl
  | raw frame => rfl
  | _ =>
      simp only [Outgoing.sendsOn, Outgoing.mark] at h
      grind

theorem sent_contents (pr : Pair) (frames : List Outgoing) :
    pr.sent (contents frames) = pr.sent frames := by
  unfold Pair.sent contents
  rw [List.filter_filter]
  refine List.filter_congr fun f _ => ?_
  cases hcarries : f.carries with
  | true => simp
  | false =>
      have hoff : ∀ id, f.sendsOn id = false := by
        intro id
        by_contra hon
        have := carries_of_sendsOn (Bool.eq_true_of_not_eq_false hon)
        rw [hcarries] at this
        contradiction
      rw [hoff, hoff]
      rfl

/-- The commands of a pair, as frames. -/
theorem flatMap_issued {pr : Pair} {payloads : List Bytes} :
    (pr.openCommand :: (payloads.map pr.dataCommand ++ pr.finCommands)).flatMap cmdFrames =
      pr.frames payloads pr.gracefulShutdown := by
  have hdata : (payloads.map pr.dataCommand).flatMap cmdFrames =
      payloads.map fun payload => .raw (rawDataFrame pr.dataId payload) := by
    induction payloads with
    | nil => rfl
    | cons payload payloads ih =>
        rw [List.map_cons, List.flatMap_cons, ih]
        rfl
  have hfin : pr.finCommands.flatMap cmdFrames =
      if pr.gracefulShutdown then [.data pr.dataId [] true] else [] := by
    unfold Pair.finCommands
    split <;> rfl
  rw [List.flatMap_cons, List.flatMap_append, hdata, hfin, ← List.append_assoc]
  rfl

/-- A frame of a pair names one of its streams and none of another pair. -/
theorem frames_sendsOn {s : MuxState} {p q : Nat} (hW : Ownership s) (hO : SynOrder s)
    (hq : (s.pairs q).errorId ≠ 0)
    (hp : (s.pairs p).errorId = 0 → (s.pairs p).dataId = 0) {payloads : List Bytes} {fin : Bool}
    {f : Outgoing} (hf : f ∈ (s.pairs q).frames payloads fin) :
    (f.sendsOn (s.pairs p).errorId || f.sendsOn (s.pairs p).dataId) = decide (q = p) := by
  have hids := hW.ids q hq
  have hdle := hW.dataId_le hO hq
  have hele : (s.pairs q).errorId ≤ MAX_STREAM_ID := by
    rw [UInt32.le_iff_toNat_le] at hdle ⊢
    omega
  -- Whichever of its ids a frame names, it is one of `p` exactly if `p` is the pair.
  have hone : ∀ kind : HalfKind,
      (decide ((s.pairs q).idOf kind = (s.pairs p).errorId) ||
        decide ((s.pairs q).idOf kind = (s.pairs p).dataId)) = decide (q = p) := by
    intro kind
    by_cases hqp : q = p
    · subst hqp
      cases kind <;> simp [Pair.idOf]
    · rw [decide_eq_false hqp, Bool.or_eq_false_iff, decide_eq_false_iff_not,
        decide_eq_false_iff_not]
      by_cases hpzero : (s.pairs p).errorId = 0
      · have hne : (s.pairs q).idOf kind ≠ 0 := by
          intro hzero
          have hnat := congrArg UInt32.toNat hzero
          cases kind <;> simp only [Pair.idOf, UInt32.toNat_zero] at hnat <;> omega
        rw [hpzero, hp hpzero]
        exact ⟨hne, hne⟩
      · refine ⟨fun heq => hqp ?_, fun heq => hqp ?_⟩
        · have hid : (s.pairs q).idOf kind = (s.pairs p).idOf .error := heq
          exact (hW.idOf_inj hq hpzero hid).1
        · have hid : (s.pairs q).idOf kind = (s.pairs p).idOf .data := heq
          exact (hW.idOf_inj hq hpzero hid).1
  unfold Pair.frames at hf
  rcases List.mem_append.mp hf with hf | hf
  · rcases List.mem_append.mp hf with hf | hf
    · simp only [List.mem_cons, List.not_mem_nil, or_false] at hf
      rcases hf with rfl | rfl | rfl
      · rw [sendsOn_synStream, sendsOn_synStream]
        exact hone .error
      · rw [sendsOn_synStream, sendsOn_synStream]
        exact hone .data
      · rw [sendsOn_data hele, sendsOn_data hele]
        exact hone .error
    · obtain ⟨payload, -, rfl⟩ := List.mem_map.mp hf
      rw [sendsOn_raw hdle, sendsOn_raw hdle]
      exact hone .data
  · split at hf
    · rw [List.mem_singleton.mp hf, sendsOn_data hdle, sendsOn_data hdle]
      exact hone .data
    · cases hf

/-- What is on the wire of a pair is the front of what it has issued, and all of it when
the writer has nothing left to write. -/
theorem pair_sent {cfg : MuxConfig} {as : List OwnedAct} {s : OwnedState}
    (hrun : (owned cfg).run (owned cfg).init as = some s) (p : Nat) :
    (s.mux.pairs p).sent s.mux.writer.wire <+: (s.owners p).issued.flatMap cmdFrames ∧
      (s.mux.writer.pc.leaving = false → backlog s.mux.shared s.mux.writer = [] →
        (s.mux.pairs p).sent s.mux.writer.wire = (s.owners p).issued.flatMap cmdFrames) := by
  obtain ⟨log, hS⟩ := logged_invariant cfg as s hrun (meets_anyStep _ _)
  have hI := owned_invariant cfg as s hrun (meets_anyStep _ _)
  have hP := pairCommands_invariant cfg as s hrun (meets_anyStep _ _)
  have hW := Reaches.of_invariant hI.reach (ownership_invariant cfg)
  have hO := Reaches.of_invariant hI.reach (synOrder_invariant cfg)
  have hshare : (s.mux.pairs p).sent (rendered cmdFrames log) =
      (s.owners p).issued.flatMap cmdFrames := by
    have hmerged : share p log = (s.owners p).issued := hS.merged p
    rw [← hmerged]
    refine filter_rendered ?_
    intro x hx f hf
    have hmerged : share x.1 log = (s.owners x.1).issued := hS.merged x.1
    have hin : x.2 ∈ (s.owners x.1).issued := by
      rw [← hmerged]
      exact mem_share hx
    obtain ⟨payloads, hissued, -⟩ := (hP.commands x.1).shape (List.ne_nil_of_mem hin)
    have hmem : f ∈ (s.owners x.1).issued.flatMap cmdFrames :=
      List.mem_flatMap.mpr ⟨x.2, hin, hf⟩
    rw [hissued, flatMap_issued] at hmem
    exact frames_sendsOn hW hO (hS.named x hx) (hS.unnamed p) hmem
  have hcontents : (s.mux.pairs p).sent (contents (rendered cmdFrames log)) =
      (s.owners p).issued.flatMap cmdFrames := by
    rw [sent_contents, hshare]
  refine ⟨?_, ?_⟩
  · have hwire : contents s.mux.writer.wire <+: contents (rendered cmdFrames log) :=
      ((wire_prefix_pipeline s.mux.shared s.mux.writer).filter _).trans hS.written
    rw [← hcontents, ← sent_contents]
    exact hwire.filter _
  · intro hlive hdrained
    have hall := hS.running hlive
    rw [pipeline_of_running hlive, hdrained, List.append_nil] at hall
    rw [← hcontents, ← sent_contents, hall]

/-- Every SYN_STREAM on the wire is one of a pair that was granted: of its error stream, or
of its data stream and then behind the other. -/
theorem syn_of_pair {cfg : MuxConfig} {as : List OwnedAct} {s : OwnedState}
    (hrun : (owned cfg).run (owned cfg).init as = some s) {id : StreamId} {headers : Headers}
    {fin : Bool} (hsyn : .synStream id headers fin ∈ s.mux.writer.wire) :
    ∃ p, (s.mux.pairs p).errorId ≠ 0 ∧ (s.mux.pairs p).phase.ungranted = false ∧
      ((id = (s.mux.pairs p).errorId ∧ headers = (s.mux.pairs p).errorHeaders) ∨
        (id = (s.mux.pairs p).dataId ∧ headers = (s.mux.pairs p).dataHeaders ∧
          .synStream (s.mux.pairs p).errorId (s.mux.pairs p).errorHeaders false ∈
            s.mux.writer.wire)) := by
  obtain ⟨log, hS⟩ := logged_invariant cfg as s hrun (meets_anyStep _ _)
  have hI := owned_invariant cfg as s hrun (meets_anyStep _ _)
  have hP := pairCommands_invariant cfg as s hrun (meets_anyStep _ _)
  have hin : .synStream id headers fin ∈ rendered cmdFrames log := by
    have hcontents : .synStream id headers fin ∈ contents s.mux.writer.wire :=
      List.mem_filter.mpr ⟨hsyn, rfl⟩
    have hall := ((wire_prefix_pipeline s.mux.shared s.mux.writer).filter _).trans hS.written
    exact (List.mem_filter.mp (hall.subset hcontents)).1
  obtain ⟨x, hx, hframe⟩ := List.mem_flatMap.mp hin
  have hmerged : share x.1 log = (s.owners x.1).issued := hS.merged x.1
  have hissued : x.2 ∈ (s.owners x.1).issued := by
    rw [← hmerged]
    exact mem_share hx
  have hne := List.ne_nil_of_mem hissued
  obtain ⟨payloads, hshape, -⟩ := (hP.commands x.1).shape hne
  have hmem : .synStream id headers fin ∈ (s.owners x.1).issued.flatMap cmdFrames :=
    List.mem_flatMap.mpr ⟨x.2, hissued, hframe⟩
  have hgranted : (s.mux.pairs x.1).phase.ungranted = false := by
    cases hphase : (s.mux.pairs x.1).phase.ungranted with
    | false => rfl
    | true =>
        have hnone := ((hI.owners x.1).unborn hphase).1
        exact absurd ((hP.commands x.1).untried (by rw [hnone]; rfl)) hne
  refine ⟨x.1, hS.named x hx, hgranted, ?_⟩
  obtain ⟨hfront, -⟩ := pair_sent hrun x.1
  rw [hshape, flatMap_issued] at hmem hfront
  simp only [Pair.frames, List.mem_append, List.mem_cons, List.not_mem_nil, or_false,
    List.mem_map] at hmem
  rcases hmem with (⟨heq | heq | heq⟩ | ⟨payload, -, heq⟩) | heq
  · cases heq
    exact .inl ⟨rfl, rfl⟩
  · cases heq
    refine .inr ⟨rfl, rfl, ?_⟩
    have hsent : .synStream (s.mux.pairs x.1).dataId (s.mux.pairs x.1).dataHeaders false ∈
        (s.mux.pairs x.1).sent s.mux.writer.wire := by
      refine List.mem_filter.mpr ⟨hsyn, ?_⟩
      simp [sendsOn_synStream]
    -- A front of the pair's frames that is not empty begins with the error stream.
    obtain ⟨f, rest, hcons⟩ := List.exists_cons_of_ne_nil (List.ne_nil_of_mem hsent)
    rw [hcons] at hfront
    have hfirst : f = .synStream (s.mux.pairs x.1).errorId (s.mux.pairs x.1).errorHeaders false :=
      (List.cons_prefix_cons.mp hfront).1
    have hhere : f ∈ (s.mux.pairs x.1).sent s.mux.writer.wire := by
      rw [hcons]
      exact List.mem_cons_self
    rw [← hfirst]
    exact (List.mem_filter.mp hhere).1
  · cases heq
  · cases heq
  · split at heq
    · simp at heq
    · cases heq

/-- In every run of any number of pairs, a pair that has issued nothing is not open, has
accepted no bytes, was not shut down and has nothing on the wire.  Of any other pair the
wire holds nothing but the front of this: the two SYN_STREAMs with its own headers, the FIN
of its error stream, the payloads that its writes accepted, in order, and, if it was shut
down, the FIN of its data stream.  All of it is there once the writer, still in its loop,
has nothing of the command channel left. -/
theorem pair_on_the_wire (cfg : MuxConfig) (as : List OwnedAct) (s : OwnedState)
    (hrun : (owned cfg).run (owned cfg).init as = some s) (p : Nat) :
    ((s.owners p).issued = [] ∧ (s.owners p).state ≠ .opened ∧
        (s.owners p).accepted.flatten = [] ∧ (s.mux.pairs p).gracefulShutdown = false ∧
        (s.mux.pairs p).sent s.mux.writer.wire = []) ∨
    (s.owners p).issued ≠ [] ∧ ∃ payloads : List Bytes,
      payloads.flatten = (s.owners p).accepted.flatten ∧
      (s.mux.pairs p).sent s.mux.writer.wire <+:
        (s.mux.pairs p).frames payloads (s.mux.pairs p).gracefulShutdown ∧
      (s.mux.writer.pc.leaving = false → backlog s.mux.shared s.mux.writer = [] →
        (s.mux.pairs p).sent s.mux.writer.wire =
          (s.mux.pairs p).frames payloads (s.mux.pairs p).gracefulShutdown) := by
  have hC := (pairCommands_invariant cfg as s hrun (meets_anyStep _ _)).commands p
  obtain ⟨hfront, hall⟩ := pair_sent hrun p
  by_cases hnil : (s.owners p).issued = []
  · left
    refine ⟨hnil, fun hopened => hC.opened hopened hnil, hC.unwritten hnil, hC.unshut hnil, ?_⟩
    rw [hnil] at hfront
    exact List.prefix_nil.mp hfront
  · right
    obtain ⟨payloads, hissued, hflat⟩ := hC.shape hnil
    rw [hissued, flatMap_issued] at hfront hall
    exact ⟨hnil, payloads, hflat, hfront, hall⟩

/-- The halves of a split stream have opened it, written and shut it down; then the writer
has its turn. -/
def splitWrittenActs : List OwnedAct :=
  splitActs ++ [OwnedAct.env (.writer (.emit true)), .env (.writer (.flush true)),
    .env (.writer (.emit true)), .env (.writer (.flush true))] ++
    List.replicate 5 (OwnedAct.env (.writer .step)) ++
    List.replicate 3 (OwnedAct.env (.writer (.emit true))) ++
    [OwnedAct.env (.writer .step), .env (.writer (.emit true)), .env (.writer .step),
      .env (.writer (.emit true))]

theorem pair_on_the_wire_split :
    ∃ s payloads, (owned MuxConfig.default).run (owned MuxConfig.default).init
        splitWrittenActs = some s ∧
      payloads.flatten = [104, 105] ∧
      (s.mux.pairs 0).sent s.mux.writer.wire = (s.mux.pairs 0).frames payloads true ∧
      s.mux.writer.wire.length = 7 := by
  have hobs : ((owned MuxConfig.default).run (owned MuxConfig.default).init
      splitWrittenActs).map (fun s => ((s.owners 0).accepted.flatten,
        (s.mux.pairs 0).gracefulShutdown, s.mux.writer.wire.length, s.mux.writer.pc.leaving,
        backlog s.mux.shared s.mux.writer)) = some ([104, 105], true, 7, false, []) := by
    decide +kernel
  obtain ⟨s, hrun, hs⟩ := Option.map_eq_some_iff.mp hobs
  simp only [Prod.mk.injEq] at hs
  obtain ⟨haccepted, hshut, hwire, hlive, hdrained⟩ := hs
  rcases pair_on_the_wire _ _ s hrun 0 with ⟨-, -, -, hopen, -⟩ | ⟨-, payloads, hflat, -, hall⟩
  · rw [hshut] at hopen
    contradiction
  · have hsent := hall hlive hdrained
    rw [hshut] at hsent
    exact ⟨s, payloads, hrun, hflat.trans haccepted, hsent, hwire⟩

/-! ## The bytes of its data stream -/

/-- The bytes of stream `id` that a frame carries. -/
def Outgoing.bytesOn (id : StreamId) (f : Outgoing) : Bytes :=
  if f.sendsOn id then
    match f with
    | .data _ payload _ => payload
    | .raw frame => frame.drop 8
    | _ => []
  else []

theorem bytesOn_sent (pr : Pair) (frames : List Outgoing) :
    (pr.sent frames).flatMap (·.bytesOn pr.dataId) = frames.flatMap (·.bytesOn pr.dataId) := by
  induction frames with
  | nil => rfl
  | cons f frames ih =>
      rw [List.flatMap_cons, ← ih]
      cases hon : f.sendsOn pr.errorId || f.sendsOn pr.dataId with
      | true =>
          have hkeep : pr.sent (f :: frames) = f :: pr.sent frames := by
            simp only [Pair.sent, List.filter_cons, hon, if_true]
          rw [hkeep, List.flatMap_cons]
      | false =>
          have hskip : pr.sent (f :: frames) = pr.sent frames := by
            simp only [Pair.sent, List.filter_cons, hon, Bool.false_eq_true, if_false]
          have hnone : f.bytesOn pr.dataId = [] := by
            rw [Bool.or_eq_false_iff] at hon
            simp [Outgoing.bytesOn, hon.2]
          rw [hskip, hnone, List.nil_append]

theorem rawDataFrame_payload (id : StreamId) (payload : Bytes) :
    (rawDataFrame id payload).drop 8 = payload := by
  rw [rawDataFrame, List.drop_append]
  simp

/-- The frames of a pair carry its payloads on the data stream. -/
theorem bytesOn_frames {pr : Pair} (hle : pr.dataId ≤ MAX_STREAM_ID) (payloads : List Bytes)
    (fin : Bool) :
    (pr.frames payloads fin).flatMap (·.bytesOn pr.dataId) = payloads.flatten := by
  have hdata : (payloads.map fun payload => Outgoing.raw (rawDataFrame pr.dataId payload)).flatMap
      (·.bytesOn pr.dataId) = payloads.flatten := by
    induction payloads with
    | nil => rfl
    | cons payload payloads ih =>
        have hone : (Outgoing.raw (rawDataFrame pr.dataId payload)).bytesOn pr.dataId =
            payload := by
          rw [Outgoing.bytesOn, sendsOn_raw hle, if_pos (by simp)]
          exact rawDataFrame_payload _ _
        rw [List.map_cons, List.flatMap_cons, hone, ih, List.flatten_cons]
  have hopen : [Outgoing.synStream pr.errorId pr.errorHeaders false,
      .synStream pr.dataId pr.dataHeaders false, .data pr.errorId [] true].flatMap
        (·.bytesOn pr.dataId) = [] := by
    simp [Outgoing.bytesOn]
  have hfin : (if fin then [Outgoing.data pr.dataId [] true] else []).flatMap
      (·.bytesOn pr.dataId) = [] := by
    cases fin <;> simp [Outgoing.bytesOn]
  rw [Pair.frames, List.flatMap_append, List.flatMap_append, hopen, hdata, hfin,
    List.nil_append, List.append_nil]

/-- Only the last frame of a pair ends its data stream. -/
theorem mark_of_mem_frames {pr : Pair} (hle : pr.dataId ≤ MAX_STREAM_ID)
    (hele : pr.errorId ≤ MAX_STREAM_ID) (hne : pr.errorId ≠ pr.dataId) {payloads : List Bytes}
    {f : Outgoing} (hf : f ∈ pr.frames payloads false) :
    f.mark pr.dataId ≠ some (.data true) := by
  unfold Pair.frames at hf
  rw [if_neg (by simp), List.append_nil] at hf
  rcases List.mem_append.mp hf with hf | hf
  · simp only [List.mem_cons, List.not_mem_nil, or_false] at hf
    rcases hf with rfl | rfl | rfl
    · simp [Outgoing.mark, hne]
    · simp [Outgoing.mark]
    · simp [Outgoing.mark, and_mask_of_le hele, hne]
  · obtain ⟨payload, -, rfl⟩ := List.mem_map.mp hf
    have hmark : (Outgoing.raw (rawDataFrame pr.dataId payload)).mark pr.dataId =
        if pr.dataId = pr.dataId then some (.data false) else none :=
      rawMark_rawDataFrame pr.dataId pr.dataId payload hle
    rw [hmark, if_pos rfl]
    simp

theorem mem_sent_of_fin {pr : Pair} {frames : List Outgoing} {f : Outgoing} (hf : f ∈ frames)
    (hfin : f.mark pr.dataId = some (.data true)) : f ∈ pr.sent frames := by
  refine List.mem_filter.mpr ⟨hf, ?_⟩
  simp [Outgoing.sendsOn, hfin]

/-- In every run of any number of pairs, what the transport was handed for the data stream
of a pair is the front of the bytes that its writes have accepted; and the stream is ended
only when it was shut down and all of them were handed over. -/
theorem outbound_bytes_in_order (cfg : MuxConfig) (as : List OwnedAct) (s : OwnedState)
    (hrun : (owned cfg).run (owned cfg).init as = some s) (p : Nat) :
    s.mux.writer.wire.flatMap (·.bytesOn (s.mux.pairs p).dataId) <+:
        (s.owners p).accepted.flatten ∧
      ((∃ f ∈ s.mux.writer.wire, f.mark (s.mux.pairs p).dataId = some (.data true)) →
        (s.mux.pairs p).gracefulShutdown = true ∧
          s.mux.writer.wire.flatMap (·.bytesOn (s.mux.pairs p).dataId) =
            (s.owners p).accepted.flatten) := by
  have hC := (pairCommands_invariant cfg as s hrun (meets_anyStep _ _)).commands p
  obtain ⟨hfront, -⟩ := pair_sent hrun p
  rw [← bytesOn_sent]
  by_cases hnil : (s.owners p).issued = []
  · rw [hnil] at hfront
    have hnone := List.prefix_nil.mp hfront
    refine ⟨?_, ?_⟩
    · rw [hnone, hC.unwritten hnil]
      exact List.prefix_rfl
    · rintro ⟨f, hf, hfin⟩
      have hin := mem_sent_of_fin hf hfin
      rw [hnone] at hin
      cases hin
  · obtain ⟨payloads, hissued, hflat⟩ := hC.shape hnil
    obtain ⟨log, hS⟩ := logged_invariant cfg as s hrun (meets_anyStep _ _)
    have hI := owned_invariant cfg as s hrun (meets_anyStep _ _)
    have hW := Reaches.of_invariant hI.reach (ownership_invariant cfg)
    have hO := Reaches.of_invariant hI.reach (synOrder_invariant cfg)
    have hnamed : (s.mux.pairs p).errorId ≠ 0 := by
      have hmerged : share p log = (s.owners p).issued := hS.merged p
      obtain ⟨c, hc⟩ := List.exists_mem_of_ne_nil _ hnil
      rw [← hmerged] at hc
      obtain ⟨x, hx, hpx⟩ := List.mem_filterMap.mp hc
      split at hpx
      · next hp => exact hp ▸ hS.named x hx
      · cases hpx
    have hids := hW.ids p hnamed
    have hdle := hW.dataId_le hO hnamed
    have hele : (s.mux.pairs p).errorId ≤ MAX_STREAM_ID := by
      rw [UInt32.le_iff_toNat_le] at hdle ⊢
      omega
    have hne : (s.mux.pairs p).errorId ≠ (s.mux.pairs p).dataId := by
      intro heq
      have := congrArg UInt32.toNat heq
      omega
    rw [hissued, flatMap_issued] at hfront
    have hbytes := bytesOn_frames hdle payloads (s.mux.pairs p).gracefulShutdown
    refine ⟨?_, ?_⟩
    · rw [← hflat, ← hbytes]
      exact hfront.flatMap _
    · rintro ⟨f, hf, hfin⟩
      have hin := mem_sent_of_fin hf hfin
      -- The prefix that ends the stream is no shorter than the whole.
      cases hshut : (s.mux.pairs p).gracefulShutdown with
      | false =>
          rw [hshut] at hfront
          exact absurd hfin (mark_of_mem_frames hdle hele hne (hfront.subset hin))
      | true =>
          rw [hshut] at hfront hbytes
          have hsnoc : (s.mux.pairs p).frames payloads true =
              (s.mux.pairs p).frames payloads false ++ [.data (s.mux.pairs p).dataId [] true] := by
            simp [Pair.frames]
          refine ⟨rfl, ?_⟩
          rw [hsnoc] at hfront
          rcases List.prefix_concat_iff.mp hfront with hall | hpart
          · rw [hall, ← hsnoc, hbytes, hflat]
          · exact absurd hfin (mark_of_mem_frames hdle hele hne (hpart.subset hin))

theorem outbound_bytes_split :
    ∃ s, (owned MuxConfig.default).run (owned MuxConfig.default).init splitWrittenActs = some s ∧
      (s.mux.pairs 0).gracefulShutdown = true ∧
      s.mux.writer.wire.flatMap (·.bytesOn (s.mux.pairs 0).dataId) = [104, 105] := by
  have hobs : ((owned MuxConfig.default).run (owned MuxConfig.default).init
      splitWrittenActs).map (fun s => ((s.owners 0).accepted.flatten, (s.mux.pairs 0).dataId,
        decide (Outgoing.data 3 [] true ∈ s.mux.writer.wire))) = some ([104, 105], 3, true) := by
    decide +kernel
  obtain ⟨s, hrun, hs⟩ := Option.map_eq_some_iff.mp hobs
  simp only [Prod.mk.injEq, decide_eq_true_eq] at hs
  obtain ⟨haccepted, hid, hfin⟩ := hs
  have hended : ∃ f ∈ s.mux.writer.wire, f.mark (s.mux.pairs 0).dataId = some (.data true) := by
    refine ⟨_, hfin, ?_⟩
    rw [hid]
    decide
  obtain ⟨hshut, hall⟩ := (outbound_bytes_in_order _ _ s hrun 0).2 hended
  exact ⟨s, hrun, hshut, hall.trans haccepted⟩

end KubePortForward.Mux
