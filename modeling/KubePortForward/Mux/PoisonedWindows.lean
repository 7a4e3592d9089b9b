import KubePortForward.Verified.Transition
import KubePortForward.Mux.WindowResize

/-!
# Poisoned send windows

One frame worker and the owners of its streams, with every access to a send window a step
of its own.  A call of the worker first changes the worker's map and then works through
the windows it has to credit, resize or poison; between any two of these accesses an owner
may load a window or try its exchange.  Everything else the worker's calls read belongs to
the other tasks, which may change it at any time.

## Main results

* `applyRegistration_accesses`, `dispatch_accesses`, `closeAll_accesses` — one after the
  other, the accesses of a call do what the call of `Worker` does.
* `PoisonOk` — no entry of the map and no access still to come has a poisoned window.
* `poisoned_window_stays` — so a poisoned window stays poisoned, debits nothing and is
  never credited or resized.
-/

namespace KubePortForward.Mux

open KubePortForward.Codec
open KubePortForward.Verified.Channel
open KubePortForward.Verified.Transition

/-! ## What a call does to windows -/

/-- What a worker does to a send window. -/
inductive WindowOp where
  | replenish (delta : UInt32)
  | applyDelta (delta : Int)
  | close
  deriving DecidableEq, Repr

def WindowOp.apply : WindowOp → SendWindow → SendWindow
  | .replenish delta, w => w.replenish delta
  | .applyDelta delta, w => w.applyDelta delta
  | .close, w => w.close

/-- An operation on the window of one stream. -/
structure WindowAccess where
  id : StreamId
  op : WindowOp
  deriving DecidableEq, Repr

def WindowAccess.perform (windows : StreamId → SendWindow) (a : WindowAccess) :
    StreamId → SendWindow :=
  Function.update windows a.id (a.op.apply (windows a.id))

/-- The same operation on the windows of several streams. -/
def accessEach (ids : List StreamId) (op : WindowOp) : List WindowAccess :=
  ids.map fun id => { id, op }

/-- The accesses of `apply_registration`, with `order` the order in which the hash map
yields the streams that are walked. -/
def registrationAccesses (order : List StreamId) (k : Worker) :
    StreamRegistration → List WindowAccess
  | .openStream _ _ => []
  | .close id => if id ∈ k.streams then accessEach [id] .close else []
  | .settingsWindowDelta delta => accessEach order (.applyDelta delta)
  | .goAway _ _ => accessEach order .close

/-- The accesses of `dispatch_frame_in_worker`. -/
def frameAccesses (k : Worker) : Frame → List WindowAccess
  | .rstStream id _ => if id ∈ k.streams then accessEach [id] .close else []
  | .windowUpdate id delta =>
      if id ∈ k.streams then accessEach [id] (.replenish delta) else []
  | _ => []

/-- `order` enumerates the streams that the registration walks. -/
def Enumerates (order : List StreamId) (k : Worker) : StreamRegistration → Prop
  | .settingsWindowDelta _ => order.Perm k.streams.keys
  | .goAway last _ => order.Perm (badIds last k)
  | _ => True

instance (order : List StreamId) (k : Worker) (reg : StreamRegistration) :
    Decidable (Enumerates order k reg) := by
  cases reg <;> unfold Enumerates <;> infer_instance

/-! ## One after the other they are the call -/

/-- Walking streams one after the other is doing it to all of them. -/
theorem perform_accessEach {ids : List StreamId} (hids : ids.Nodup) (op : WindowOp)
    (windows : StreamId → SendWindow) :
    (accessEach ids op).foldl WindowAccess.perform windows =
      fun id => if id ∈ ids then op.apply (windows id) else windows id := by
  induction ids generalizing windows with
  | nil => simp [accessEach]
  | cons i ids ih =>
      obtain ⟨hi, hids⟩ := List.nodup_cons.1 hids
      have hrest := ih hids (Function.update windows i (op.apply (windows i)))
      simp only [accessEach, List.map_cons, List.foldl_cons, WindowAccess.perform] at hrest ⊢
      rw [hrest]
      funext id
      by_cases hid : id = i
      · subst hid
        simp [hi]
      · simp [hid]

theorem dropTx?_windows (sh : Shared) (r : Option ChanRef) :
    (sh.dropTx? r).windows = sh.windows := by
  cases r <;> rfl

theorem removeStream_close (id : StreamId) (k : Worker) (sh : Shared) :
    (removeStream id k sh).2.windows =
      (if id ∈ k.streams then accessEach [id] .close else []).foldl
        WindowAccess.perform sh.windows := by
  unfold removeStream
  cases hst : k.streams.lookup id with
  | none =>
      have hout : id ∉ k.streams := AList.lookup_eq_none.1 hst
      simp [hout]
  | some st =>
      have hin : id ∈ k.streams := AList.lookup_isSome.1 (by rw [hst]; rfl)
      simp [hin, accessEach, WindowAccess.perform, WindowOp.apply, Shared.updWindow,
        dropTx?_windows]

theorem removeStream_streams (id : StreamId) (k : Worker) (sh : Shared) :
    (removeStream id k sh).1.streams = k.streams.erase id := rfl

theorem refuseStreams_close {ids : List StreamId} (hids : ids.Nodup) {k : Worker}
    (hin : ∀ id ∈ ids, id ∈ k.streams) (sh : Shared) :
    (refuseStreams ids k sh).2.windows =
      (accessEach ids .close).foldl WindowAccess.perform sh.windows := by
  induction ids generalizing k sh with
  | nil => rfl
  | cons i ids ih =>
      obtain ⟨hi, hids⟩ := List.nodup_cons.1 hids
      have hrest : ∀ id ∈ ids, id ∈ (removeStream i k sh).1.streams := by
        intro id hid
        rw [removeStream_streams]
        refine AList.mem_erase.2 ⟨?_, hin id (List.mem_cons_of_mem i hid)⟩
        rintro rfl
        exact hi hid
      have hhead := removeStream_close i k sh
      rw [if_pos (hin i List.mem_cons_self)] at hhead
      rw [refuseStreams, ih hids hrest]
      show (accessEach ids .close).foldl _ (removeStream i k sh).2.windows = _
      rw [hhead]
      rfl

theorem badIds_nodup (last : StreamId) (k : Worker) : (badIds last k).Nodup :=
  k.streams.keys_nodup.filter _

theorem mem_of_mem_badIds {last id : StreamId} {k : Worker} (h : id ∈ badIds last k) :
    id ∈ k.streams :=
  AList.mem_keys.1 (List.mem_filter.1 h).1

theorem applyRegistration_accesses {order : List StreamId} {reg : StreamRegistration}
    {k k' : Worker} {sh sh' : Shared} (horder : Enumerates order k reg)
    (h : applyRegistration order reg k sh = some (k', sh')) :
    sh'.windows =
      (registrationAccesses order k reg).foldl WindowAccess.perform sh.windows := by
  cases reg with
  | openStream id r =>
      cases h
      exact dropTx?_windows _ _
  | close id =>
      cases h
      exact removeStream_close id k sh
  | settingsWindowDelta delta =>
      cases h
      have hmem : ∀ id, id ∈ order ↔ id ∈ k.streams := fun id => horder.mem_iff
      rw [registrationAccesses, perform_accessEach (horder.nodup_iff.2 k.streams.keys_nodup)]
      simp only [hmem]
      rfl
  | goAway last status =>
      simp only [applyRegistration] at h
      split at h
      · next hperm =>
          have hclose := refuseStreams_close (hperm.nodup_iff.2 (badIds_nodup last k))
            (fun id hid => mem_of_mem_badIds (hperm.mem_iff.1 hid)) sh
          rw [Option.some.inj h] at hclose
          exact hclose
      · contradiction

theorem halfClose_same_windows (id : StreamId) (k : Worker) (sh : Shared) :
    (halfClose id k sh).2.windows = sh.windows := by
  unfold halfClose
  split
  · exact dropTx?_windows _ _
  · rfl

theorem deliverPayload_same_windows (n : UInt32) (id : StreamId) (payload : Bytes)
    (k : Worker) (sh : Shared) :
    (deliverPayload n id payload k sh).2.1.windows = sh.windows := by
  simp only [deliverPayload, creditPeer]
  (repeat' split) <;> rfl

theorem dispatch_accesses (n : UInt32) (frame : Frame) (k : Worker) (sh : Shared) :
    (dispatchFrameInWorker n frame k sh).2.windows =
      (frameAccesses k frame).foldl WindowAccess.perform sh.windows := by
  cases frame with
  | data id payload fin =>
      have hdeliver := deliverPayload_same_windows n id payload k sh
      simp only [dispatchFrameInWorker]
      split
      · exact hdeliver
      · split
        · exact (halfClose_same_windows _ _ _).trans hdeliver
        · exact hdeliver
  | synReply id headers fin =>
      have hanswer : (answerReply id k sh).2.windows = sh.windows := by
        unfold answerReply
        (repeat' split) <;> rfl
      simp only [dispatchFrameInWorker]
      split
      · exact (halfClose_same_windows _ _ _).trans hanswer
      · exact hanswer
  | rstStream id status => exact removeStream_close id k sh
  | windowUpdate id delta =>
      simp only [dispatchFrameInWorker, frameAccesses]
      split <;> rfl
  | _ => rfl

/-- `order` enumerates the streams of the worker. -/
theorem closeAll_accesses {order : List StreamId} {k : Worker}
    (horder : order.Perm k.streams.keys) (sh : Shared) :
    (closeAll k sh).windows =
      (accessEach order .close).foldl WindowAccess.perform sh.windows := by
  have hmem : ∀ id, id ∈ order ↔ id ∈ k.streams := fun id => horder.mem_iff
  rw [perform_accessEach (horder.nodup_iff.2 k.streams.keys_nodup)]
  simp only [hmem, closeAll, (foldl_dropTx_windows _ sh).1]
  rfl

/-! ## The worker among the owners of its streams -/

/-- The access that a call of `consume` makes next. -/
inductive ConsumePc where
  | idle
  | load (id : StreamId) (n : Nat)
  | exchange (id : StreamId) (n : Nat) (cur : Int)
  deriving DecidableEq, Repr

/-- A worker with the accesses its current call has still to make, and the calls of
`consume` under way, each under a name of its own. -/
structure PoisonState where
  worker : Worker
  shared : Shared
  todo : List WindowAccess := []
  running : Bool := true
  calls : Nat → ConsumePc := fun _ => .idle
  /-- History: the ids of the streams opened so far. -/
  opened : List StreamId := []
  /-- History: the worker's accesses so far. -/
  made : List WindowAccess := []
  /-- History: which window each `consume` was about and what it returned. -/
  returns : List (StreamId × Bool) := []

inductive PoisonAct where
  | register (order : List StreamId) (reg : StreamRegistration)
  | frame (frame : Frame)
  | shutdown (order : List StreamId)
  | access
  | consume (c : Nat) (id : StreamId) (n : Nat)
  | step (c : Nat)
  | environment (sh : Shared)

/-- The stream that a registration opens is none that was opened before. -/
def FreshOpen (opened : List StreamId) : StreamRegistration → Prop
  | .openStream id _ => id ∉ opened
  | _ => True

instance (opened : List StreamId) (reg : StreamRegistration) :
    Decidable (FreshOpen opened reg) := by
  cases reg <;> unfold FreshOpen <;> infer_instance

/-- The stream that a registration opens, if it does. -/
def StreamRegistration.opens : StreamRegistration → List StreamId
  | .openStream id _ => [id]
  | _ => []

/-- A call of the worker has changed its map and has windows to go through. -/
def PoisonState.call (k : Worker) (sh : Shared) (accesses : List WindowAccess)
    (s : PoisonState) : PoisonState :=
  { s with
    worker := k
    shared := { sh with windows := s.shared.windows }
    todo := accesses }

/-- The worker is between two calls. -/
def PoisonState.ready (s : PoisonState) : Prop := s.running = true ∧ s.todo = []

instance (s : PoisonState) : Decidable s.ready := by
  unfold PoisonState.ready
  infer_instance

/-- The worker's next access. -/
def PoisonState.access (s : PoisonState) : Option PoisonState :=
  match s.todo with
  | [] => none
  | a :: rest =>
      some { s with
        shared := { s.shared with windows := a.perform s.shared.windows }
        todo := rest
        made := s.made ++ [a] }

/-- A call of `consume` returns. -/
def PoisonState.finish (c : Nat) (id : StreamId) (result : Bool) (s : PoisonState) :
    PoisonState :=
  { s with
    calls := Function.update s.calls c .idle
    returns := s.returns ++ [(id, result)] }

/-- The next access of a call of `consume`. -/
def PoisonState.consumeStep (c : Nat) (s : PoisonState) : Option PoisonState :=
  match s.calls c with
  | .idle => none
  | .load id n =>
      if (s.shared.windows id).remaining = I64_MIN then some (s.finish c id false)
      else some { s with
        calls := Function.update s.calls c (.exchange id n (s.shared.windows id).remaining) }
  | .exchange id n cur =>
      if (s.shared.windows id).remaining = cur then
        some { s.finish c id true with
          shared := s.shared.updWindow id fun w =>
            { w with remaining := wrapI64 (cur - n) } }
      else some { s with calls := Function.update s.calls c (.load id n) }

def poisonStep (initialWindowSize : UInt32) (s : PoisonState) : PoisonAct → Option PoisonState
  | .register order reg =>
      if s.ready ∧ FreshOpen s.opened reg ∧ Enumerates order s.worker reg then
        (applyRegistration order reg s.worker s.shared).map fun (k, sh) =>
          { s.call k sh (registrationAccesses order s.worker reg) with
            opened := s.opened ++ reg.opens }
      else none
  | .frame frame =>
      if s.ready then
        match dispatchFrameInWorker initialWindowSize frame s.worker s.shared with
        | (k, sh) => some (s.call k sh (frameAccesses s.worker frame))
      else none
  | .shutdown order =>
      if s.ready ∧ order.Perm s.worker.streams.keys then
        some { s.call ⟨.exiting, ∅, ∅⟩ (closeAll s.worker s.shared) (accessEach order .close) with
          running := false }
      else none
  | .access => s.access
  | .consume c id n =>
      if s.calls c = .idle then
        some { s with calls := Function.update s.calls c (.load id n) }
      else none
  | .step c => s.consumeStep c
  | .environment sh => some { s with shared := { sh with windows := s.shared.windows } }

/-- A worker that starts with no streams, over windows of these sizes. -/
def poisoning (initialWindowSize : UInt32) (initial : StreamId → UInt32) (sh : Shared) :
    System PoisonState PoisonAct where
  init :=
    { worker := Worker.init
      shared := { sh with windows := fun id => SendWindow.new (initial id) } }
  step := poisonStep initialWindowSize

/-! ## What is poisoned is out of reach -/

/-- `close` was called on the stream's window. -/
def PoisonState.Closed (s : PoisonState) (id : StreamId) : Prop :=
  (⟨id, .close⟩ : WindowAccess) ∈ s.made

/-- The worker reaches only windows that were not closed. -/
structure PoisonOk (s : PoisonState) : Prop where
  entries : ∀ id ∈ s.worker.streams, id ∈ s.opened ∧ ¬ s.Closed id
  once : (s.todo.map WindowAccess.id).Nodup
  reached : ∀ a ∈ s.todo, a.id ∈ s.opened ∧ ¬ s.Closed a.id
  removed : ∀ a ∈ s.todo, a.op = .close → a.id ∉ s.worker.streams
  closed : ∀ id, s.Closed id → id ∈ s.opened ∧ (s.shared.windows id).remaining = I64_MIN
  exchanging : ∀ c id n cur, s.calls c = .exchange id n cur → cur ≠ I64_MIN

/-- What a call of the worker has to go through: streams of its map, each once, and it
keeps none that it closes. -/
structure CallAccesses (k k' : Worker) (opens : List StreamId)
    (accesses : List WindowAccess) : Prop where
  streams : ∀ id ∈ k'.streams, id ∈ k.streams ∨ id ∈ opens
  once : (accesses.map WindowAccess.id).Nodup
  reached : ∀ a ∈ accesses, a.id ∈ k.streams
  removed : ∀ a ∈ accesses, a.op = .close → a.id ∉ k'.streams

theorem accessEach_ids (ids : List StreamId) (op : WindowOp) :
    (accessEach ids op).map WindowAccess.id = ids := by
  rw [accessEach, List.map_map]
  exact List.map_id ids

theorem mem_accessEach {ids : List StreamId} {op : WindowOp} {a : WindowAccess}
    (h : a ∈ accessEach ids op) : a.id ∈ ids ∧ a.op = op := by
  obtain ⟨id, hid, rfl⟩ := List.mem_map.1 h
  exact ⟨hid, rfl⟩

theorem CallAccesses.none {k k' : Worker} {opens : List StreamId}
    (hstreams : ∀ id ∈ k'.streams, id ∈ k.streams ∨ id ∈ opens) :
    CallAccesses k k' opens [] :=
  ⟨hstreams, List.nodup_nil, by simp, by simp⟩

theorem CallAccesses.each {k k' : Worker} {ids : List StreamId} {op : WindowOp}
    (hstreams : ∀ id ∈ k'.streams, id ∈ k.streams) (hids : ids.Nodup)
    (hin : ∀ id ∈ ids, id ∈ k.streams) (hout : op = .close → ∀ id ∈ ids, id ∉ k'.streams) :
    CallAccesses k k' [] (accessEach ids op) where
  streams id hid := .inl (hstreams id hid)
  once := by rwa [accessEach_ids]
  reached a ha := hin _ (mem_accessEach ha).1
  removed a ha hop := hout ((mem_accessEach ha).2.symm.trans hop) _ (mem_accessEach ha).1

theorem removeStream_callAccesses (id : StreamId) (k : Worker) (sh : Shared) :
    CallAccesses k (removeStream id k sh).1 []
      (if id ∈ k.streams then accessEach [id] .close else []) := by
  have hstreams := (removeStream_windows id k sh).streams
  split
  · next hin =>
      refine .each hstreams (List.nodup_singleton id) ?_ ?_
      · simpa using hin
      · intro _ i hi
        rw [List.mem_singleton.1 hi, removeStream_streams]
        exact fun h => (AList.mem_erase.1 h).1 rfl
  · exact .none fun i hi => .inl (hstreams i hi)

theorem refuseStreams_removed (ids : List StreamId) (k : Worker) (sh : Shared) :
    ∀ id ∈ ids, id ∉ (refuseStreams ids k sh).1.streams := by
  induction ids generalizing k sh with
  | nil => simp
  | cons i ids ih =>
      intro id hid
      rw [refuseStreams]
      rcases List.mem_cons.1 hid with rfl | hid
      · intro hin
        have hleft := (refuseStreams_windows ids _ _).streams id hin
        exact (AList.mem_erase.1 hleft).1 rfl
      · exact ih _ _ id hid

theorem registration_callAccesses {order : List StreamId} {reg : StreamRegistration}
    {k k' : Worker} {sh sh' : Shared} (horder : Enumerates order k reg)
    (h : applyRegistration order reg k sh = some (k', sh')) :
    CallAccesses k k' reg.opens (registrationAccesses order k reg) := by
  cases reg with
  | openStream id r =>
      cases h
      refine .none fun i hi => ?_
      rcases AList.mem_insert _ |>.1 hi with rfl | hi
      · exact .inr List.mem_cons_self
      · exact .inl hi
  | close id =>
      cases h
      exact removeStream_callAccesses id k sh
  | settingsWindowDelta delta =>
      cases h
      exact .each (fun _ hid => hid) (horder.nodup_iff.2 k.streams.keys_nodup)
        (fun id hid => AList.mem_keys.1 (horder.mem_iff.1 hid)) (by simp)
  | goAway last status =>
      simp only [applyRegistration] at h
      split at h
      · next hperm =>
          have hstreams := (refuseStreams_windows order k sh).streams
          have hout := refuseStreams_removed order k sh
          rw [Option.some.inj h] at hstreams hout
          exact .each hstreams (hperm.nodup_iff.2 (badIds_nodup last k))
            (fun id hid => mem_of_mem_badIds (hperm.mem_iff.1 hid)) fun _ => hout
      · contradiction

theorem frame_callAccesses (n : UInt32) (frame : Frame) (k : Worker) (sh : Shared) :
    CallAccesses k (dispatchFrameInWorker n frame k sh).1 [] (frameAccesses k frame) := by
  have hstreams : ∀ id ∈ (dispatchFrameInWorker n frame k sh).1.streams, id ∈ k.streams := by
    rcases dispatch_windows n frame k sh with hkeep | ⟨id, delta, -, -, hk, -⟩
    · exact hkeep.streams
    · rw [hk]
      exact fun _ hid => hid
  cases frame with
  | rstStream id status => exact removeStream_callAccesses id k sh
  | windowUpdate id delta =>
      simp only [frameAccesses]
      split
      · next hin => exact .each hstreams (List.nodup_singleton id) (by simpa using hin) (by simp)
      · exact .none fun i hi => .inl (hstreams i hi)
  | _ => exact .none fun i hi => .inl (hstreams i hi)

/-! ## Every step keeps it so -/

variable {n : UInt32} {s s' : PoisonState}

/-- A call of the worker reaches only windows of its map, and those are not closed. -/
theorem PoisonOk.call (h : PoisonOk s) {k : Worker} {opens : List StreamId}
    {accesses : List WindowAccess} (hcall : CallAccesses s.worker k opens accesses)
    (hfresh : ∀ id ∈ opens, id ∉ s.opened) (sh : Shared) (running : Bool) :
    PoisonOk { s.call k sh accesses with opened := s.opened ++ opens, running := running } where
  entries id hid := by
    rcases hcall.streams id hid with hold | hnew
    · exact ⟨List.mem_append_left _ (h.entries id hold).1, (h.entries id hold).2⟩
    · exact ⟨List.mem_append_right _ hnew, fun hclosed =>
        hfresh id hnew (h.closed id hclosed).1⟩
  once := hcall.once
  reached a ha :=
    have hold := h.entries _ (hcall.reached a ha)
    ⟨List.mem_append_left _ hold.1, hold.2⟩
  removed := hcall.removed
  closed id hid := ⟨List.mem_append_left _ (h.closed id hid).1, (h.closed id hid).2⟩
  exchanging := h.exchanging

theorem PoisonOk.access (h : PoisonOk s) (hs : s.access = some s') : PoisonOk s' := by
  unfold PoisonState.access at hs
  cases htodo : s.todo with
  | nil =>
      rw [htodo] at hs
      contradiction
  | cons a rest =>
      rw [htodo] at hs
      cases hs
      have hhead := h.reached a (htodo ▸ List.mem_cons_self)
      have honce := h.once
      rw [htodo, List.map_cons, List.nodup_cons] at honce
      -- Only the access just made can close a window, and it is not one still to come.
      have hstill : ∀ id, id ∈ s.opened → ¬ s.Closed id → (a.op = .close → a.id ≠ id) →
          ¬ (⟨id, .close⟩ : WindowAccess) ∈ s.made ++ [a] := by
        intro id _ hopen hne hmem
        rcases List.mem_append.1 hmem with hmem | hmem
        · exact hopen hmem
        · rw [List.mem_singleton] at hmem
          subst hmem
          exact hne rfl rfl
      constructor
      · intro id hid
        obtain ⟨hopened, hopen⟩ := h.entries id hid
        refine ⟨hopened, hstill id hopened hopen fun hop heq => ?_⟩
        exact h.removed a (htodo ▸ List.mem_cons_self) hop (heq ▸ hid)
      · exact honce.2
      · intro b hb
        obtain ⟨hopened, hopen⟩ := h.reached b (htodo ▸ List.mem_cons_of_mem a hb)
        refine ⟨hopened, hstill b.id hopened hopen fun _ heq => ?_⟩
        exact honce.1 (heq ▸ List.mem_map_of_mem hb)
      · intro b hb
        exact h.removed b (htodo ▸ List.mem_cons_of_mem a hb)
      · intro id hid
        by_cases heq : id = a.id
        · subst heq
          rcases List.mem_append.1 hid with hid | hid
          · exact absurd hid hhead.2
          · refine ⟨hhead.1, ?_⟩
            have hop : a.op = .close := by
              rw [← List.mem_singleton.1 hid]
            simp [WindowAccess.perform, hop, WindowOp.apply, SendWindow.close]
        · rcases List.mem_append.1 hid with hid | hid
          · simp only [WindowAccess.perform, Function.update_of_ne heq]
            exact h.closed id hid
          · rw [List.mem_singleton] at hid
            exact absurd (congrArg WindowAccess.id hid) heq
      · exact h.exchanging

/-- A call of `consume` that moves on has not loaded the mark of a poisoned window. -/
theorem PoisonOk.exchanging_update (h : PoisonOk s) {c : Nat} {pc : ConsumePc}
    (hpc : ∀ id n cur, pc = .exchange id n cur → cur ≠ I64_MIN) :
    ∀ c' id n cur, Function.update s.calls c pc c' = .exchange id n cur → cur ≠ I64_MIN := by
  intro c' id n cur hc'
  by_cases heq : c' = c
  · subst heq
    rw [Function.update_self] at hc'
    exact hpc id n cur hc'
  · rw [Function.update_of_ne heq] at hc'
    exact h.exchanging c' id n cur hc'

theorem PoisonOk.consumeStep (h : PoisonOk s) {c : Nat} (hs : s.consumeStep c = some s') :
    PoisonOk s' := by
  unfold PoisonState.consumeStep at hs
  cases hpc : s.calls c with
  | idle =>
      rw [hpc] at hs
      contradiction
  | load id n =>
      simp only [hpc] at hs
      split at hs
      · cases hs
        exact ⟨h.entries, h.once, h.reached, h.removed, h.closed, h.exchanging_update (by simp)⟩
      · next hopen =>
          cases hs
          refine ⟨h.entries, h.once, h.reached, h.removed, h.closed,
            h.exchanging_update fun id' n' cur heq => ?_⟩
          cases heq
          exact hopen
  | exchange id n cur =>
      simp only [hpc] at hs
      split at hs
      · next hcur =>
          cases hs
          refine ⟨h.entries, h.once, h.reached, h.removed, fun id' hid' => ?_,
            h.exchanging_update (by simp)⟩
          have hne : id' ≠ id := by
            rintro rfl
            exact h.exchanging c id' n cur hpc (hcur ▸ (h.closed id' hid').2)
          simp only [Shared.updWindow, Function.update_of_ne hne]
          exact h.closed id' hid'
      · cases hs
        exact ⟨h.entries, h.once, h.reached, h.removed, h.closed, h.exchanging_update (by simp)⟩

theorem poisonStep_ok {a : PoisonAct} (h : PoisonOk s) (hs : poisonStep n s a = some s') :
    PoisonOk s' := by
  cases a with
  | register order reg =>
      simp only [poisonStep] at hs
      split at hs
      · next hg =>
          obtain ⟨⟨k, sh⟩, hk, rfl⟩ := Option.map_eq_some_iff.1 hs
          have hfresh : ∀ id ∈ reg.opens, id ∉ s.opened := by
            cases reg with
            | openStream id r => simpa [StreamRegistration.opens, FreshOpen] using hg.2.1
            | _ => simp [StreamRegistration.opens]
          exact h.call (registration_callAccesses hg.2.2 hk) hfresh sh s.running
      · contradiction
  | frame frame =>
      simp only [poisonStep] at hs
      split at hs
      · cases hs
        have hcall := h.call (frame_callAccesses n frame s.worker s.shared) (by simp)
          (dispatchFrameInWorker n frame s.worker s.shared).2 s.running
        rwa [List.append_nil] at hcall
      · contradiction
  | shutdown order =>
      simp only [poisonStep] at hs
      split at hs
      · next hg =>
          cases hs
          have hall : CallAccesses s.worker ⟨.exiting, ∅, ∅⟩ [] (accessEach order .close) :=
            .each (fun _ hid => absurd hid (AList.notMem_empty _))
              (hg.2.nodup_iff.2 s.worker.streams.keys_nodup)
              (fun id hid => AList.mem_keys.1 (hg.2.mem_iff.1 hid))
              fun _ _ _ => AList.notMem_empty _
          have hcall := h.call hall (by simp) (closeAll s.worker s.shared) false
          rwa [List.append_nil] at hcall
      · contradiction
  | access => exact h.access hs
  | consume c id n =>
      simp only [poisonStep] at hs
      split at hs
      · cases hs
        exact ⟨h.entries, h.once, h.reached, h.removed, h.closed, h.exchanging_update (by simp)⟩
      · contradiction
  | step c => exact h.consumeStep hs
  | environment sh =>
      cases hs
      exact ⟨h.entries, h.once, h.reached, h.removed, h.closed, h.exchanging⟩

theorem poisoning_ok (n : UInt32) (initial : StreamId → UInt32) (sh : Shared) :
    (poisoning n initial sh).Invariant anyStep PoisonOk := by
  apply Invariant.of_step
  · refine ⟨fun id hid => absurd hid (AList.notMem_empty _), List.nodup_nil, ?_, ?_, ?_, ?_⟩
    · simp [poisoning]
    · simp [poisoning]
    · simp [poisoning, PoisonState.Closed]
    · simp [poisoning]
  · intro s a s' h _ hs
    exact poisonStep_ok h hs

/-! ## From a close on -/

/-- What happened to a window between two states: it is poisoned, no debit of it
succeeded and the worker did not touch it. -/
structure Untouched (id : StreamId) (s s' : PoisonState) : Prop where
  value : (s'.shared.windows id).remaining = I64_MIN
  returns : ∃ rs, s'.returns = s.returns ++ rs ∧ ∀ r ∈ rs, r.1 = id → r.2 = false
  accesses : ∃ as, s'.made = s.made ++ as ∧ ∀ a ∈ as, a.id ≠ id

/-- What the worker accesses is what its call has to go through. -/
theorem poisonStep_made {a : PoisonAct} (hs : poisonStep n s a = some s') :
    ∃ as, s'.made = s.made ++ as ∧ ∀ b ∈ as, b ∈ s.todo := by
  cases a with
  | access =>
      simp only [poisonStep, PoisonState.access] at hs
      split at hs
      · contradiction
      · next b rest htodo =>
          cases hs
          refine ⟨[b], rfl, fun b' hb' => ?_⟩
          rw [List.mem_singleton.1 hb', htodo]
          exact List.mem_cons_self
  | register order reg =>
      simp only [poisonStep] at hs
      split at hs
      · obtain ⟨⟨k, sh⟩, -, rfl⟩ := Option.map_eq_some_iff.1 hs
        exact ⟨[], by simp [PoisonState.call], by simp⟩
      · contradiction
  | _ =>
      refine ⟨[], ?_, by simp⟩
      simp only [poisonStep, PoisonState.consumeStep, PoisonState.finish] at hs
      (repeat' split at hs) <;> cases hs <;> simp [PoisonState.call]

/-- Only a call of `consume` on a window that is not closed returns `true`. -/
theorem poisonStep_returns {a : PoisonAct} (h : PoisonOk s)
    (hs : poisonStep n s a = some s') :
    ∃ rs, s'.returns = s.returns ++ rs ∧ ∀ r ∈ rs, s.Closed r.1 → r.2 = false := by
  cases a with
  | step c =>
      simp only [poisonStep, PoisonState.consumeStep] at hs
      split at hs
      · contradiction
      · split at hs
        · cases hs
          exact ⟨[_], rfl, by simp⟩
        · cases hs
          exact ⟨[], by simp, by simp⟩
      · next id n cur hpc =>
          split at hs
          · next hcur =>
              cases hs
              refine ⟨[(id, true)], rfl, fun r hr hclosed => ?_⟩
              rw [List.mem_singleton.1 hr] at hclosed
              exact absurd (hcur ▸ (h.closed id hclosed).2) (h.exchanging c id n cur hpc)
          · cases hs
            exact ⟨[], by simp, by simp⟩
  | register order reg =>
      simp only [poisonStep] at hs
      split at hs
      · obtain ⟨⟨k, sh⟩, -, rfl⟩ := Option.map_eq_some_iff.1 hs
        exact ⟨[], by simp [PoisonState.call], by simp⟩
      · contradiction
  | _ =>
      refine ⟨[], ?_, by simp⟩
      simp only [poisonStep, PoisonState.access] at hs
      (repeat' split at hs) <;> cases hs
      all_goals simp [PoisonState.call]

theorem PoisonState.Closed.grows {id : StreamId} (h : s.Closed id)
    (hgrow : ∃ as, s'.made = s.made ++ as) : s'.Closed id := by
  obtain ⟨as, has⟩ := hgrow
  unfold PoisonState.Closed
  rw [has]
  exact List.mem_append_left as h

theorem Untouched.step {id : StreamId} {t : PoisonState} {a : PoisonAct} (h : PoisonOk s)
    (hclosed : t.Closed id) (hu : Untouched id t s) (hs : poisonStep n s a = some s') :
    Untouched id t s' := by
  obtain ⟨rs, hrs, hfalse⟩ := hu.returns
  obtain ⟨as, has, hother⟩ := hu.accesses
  obtain ⟨rs', hrs', hfalse'⟩ := poisonStep_returns h hs
  obtain ⟨as', has', hreached⟩ := poisonStep_made hs
  have hnow : s.Closed id := hclosed.grows ⟨as, has⟩
  refine ⟨?_, ⟨rs ++ rs', ?_, fun r hr hid => ?_⟩, as ++ as', ?_, fun b hb => ?_⟩
  · exact ((poisonStep_ok h hs).closed id (hnow.grows ⟨as', has'⟩)).2
  · rw [hrs', hrs, List.append_assoc]
  · rcases List.mem_append.1 hr with hr | hr
    · exact hfalse r hr hid
    · exact hfalse' r hr (hid ▸ hnow)
  · rw [has', has, List.append_assoc]
  · rcases List.mem_append.1 hb with hb | hb
    · exact hother b hb
    · rintro rfl
      exact (h.reached b (hreached b hb)).2 hnow

/-- From the moment a window was closed, through every run of the worker and of the calls
of `consume`: its value is `i64::MIN`, every `consume` on it that returns, returns
`false`, and the worker neither credits nor resizes it. -/
theorem poisoned_window_stays (n : UInt32) (initial : StreamId → UInt32) (sh : Shared)
    {as bs : List PoisonAct} {s s' : PoisonState} {id : StreamId}
    (hrun : (poisoning n initial sh).run (poisoning n initial sh).init as = some s)
    (hclosed : s.Closed id) (hrest : (poisoning n initial sh).run s bs = some s') :
    (s'.shared.windows id).remaining = I64_MIN ∧
    (∃ rs, s'.returns = s.returns ++ rs ∧ ∀ r ∈ rs, r.1 = id → r.2 = false) ∧
    ∃ accesses, s'.made = s.made ++ accesses ∧ ∀ a ∈ accesses, a.id ≠ id := by
  have hinv := poisoning_ok n initial sh
  have hok := hinv as s hrun (meets_anyStep _ _)
  have hstart : Untouched id s s :=
    ⟨(hok.closed id hclosed).2, ⟨[], by simp, by simp⟩, [], by simp, by simp⟩
  have hend : Untouched id s s' :=
    Invariant.stable hinv (fun _ _ _ h hu _ hs => hu.step h hclosed hs) hrun hstart hrest
      (meets_anyStep _ _)
  exact ⟨hend.value, hend.returns, hend.accesses⟩

/-- A window of ten bytes is credited, then reset by the peer while a debit of it has
loaded its value. -/
def resetActs : List PoisonAct :=
  [.register [] (.openStream 1 ⟨0, .data⟩), .frame (.windowUpdate 1 5), .access,
    .consume 0 1 4, .step 0, .frame (.rstStream 1 3), .access]

/-- The debit goes on, more credit and a resize arrive, and the worker shuts down. -/
def afterResetActs : List PoisonAct :=
  [.step 0, .frame (.windowUpdate 1 7), .step 0, .register [] (.settingsWindowDelta 9),
    .consume 0 1 4, .shutdown [], .step 0]

theorem reset_window_stays :
    ∃ s s', (poisoning 65536 (fun _ => 10) (Shared.init .default)).run
        (poisoning 65536 (fun _ => 10) (Shared.init .default)).init resetActs = some s ∧
      s.Closed 1 ∧
      (poisoning 65536 (fun _ => 10) (Shared.init .default)).run s afterResetActs = some s' ∧
      (s'.shared.windows 1).remaining = I64_MIN ∧
      s'.returns = s.returns ++ [(1, false), (1, false)] := by
  have hchecked : ((poisoning 65536 (fun _ => 10) (Shared.init .default)).run
      (poisoning 65536 (fun _ => 10) (Shared.init .default)).init resetActs).map
      (fun s => (decide ((⟨1, .close⟩ : WindowAccess) ∈ s.made),
        ((poisoning 65536 (fun _ => 10) (Shared.init .default)).run s afterResetActs).map
          (fun s' => decide (s'.returns = s.returns ++ [(1, false), (1, false)])))) =
      some (true, some true) := by decide +kernel
  obtain ⟨s, hrun, hs⟩ := Option.map_eq_some_iff.1 hchecked
  rw [Prod.mk.injEq, decide_eq_true_eq] at hs
  obtain ⟨s', hrest, hs'⟩ := Option.map_eq_some_iff.1 hs.2
  have hstays := poisoned_window_stays 65536 (fun _ => 10) (Shared.init .default) hrun hs.1
    hrest
  exact ⟨s, s', hrun, hs.1, hrest, hstays.1, of_decide_eq_true hs'⟩

end KubePortForward.Mux
