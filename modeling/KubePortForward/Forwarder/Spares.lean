import KubePortForward.Mux.Footprint

/-!
# Spare streams

`kube-portforward/src/session.rs`: `connect` takes a stream out of a queue of streams that
were reserved earlier and opens a new one only when none is left; `replenish_spare_streams`
fills the queue.  Any number of both run at once over the members of the session's pool,
each cut at its accesses to shared memory, while members close, receive GOAWAY, change their
limits and have slots released by other streams.

`spdy_mux::Session::open_stream_pair` tries some members one after the other and may give
up; which ones is left to the label here, and an attempt on one is the `openBegin` and the
`openStep`s of the pair it opens.

A spare is stale for `connect` when its mux is closed.  One whose mux has received GOAWAY
is handed out, and `realize_stream_pair` then refuses it.

## Main results

* `Ledger` — every stream is in one place: in the queue, with one task, with its owner, or
  its slot is released.
* `spares_can_be_opened` — what `connect` returns was taken from a mux that was neither
  closed nor going away, if no spare of one that is going away comes up; a discarded spare
  releases its slot once; and the queue is never over its capacity.
* `spare_of_goaway_handed_out` — a spare that comes up after its mux has received GOAWAY.
-/

namespace KubePortForward.Forwarder

open KubePortForward.Mux
open KubePortForward.Verified.Transition

def SPARE_STREAM_CAP : Nat := 16

/-- A stream of the session: its name, the member of the pool it was opened on, and the
pair as `spdy_mux` holds it. -/
structure Spare where
  name : Nat
  home : Nat
  pair : Pair

/-- What the member's flags were when a stream was taken. -/
structure Flags where
  closed : Bool
  goaway : Bool
  deriving DecidableEq, Repr

def flagsOf (sh : Shared) : Flags := ⟨sh.cancelled, sh.goawayReceived⟩

/-- `Receiver::is_closed`. -/
def receiverClosed (c : DataChan) : Bool := !c.txAlive || c.chan.closed

/-- `Stream::is_read_closed`. -/
def Spare.isReadClosed (st : Spare) (sh : Shared) : Bool :=
  match st.pair.phase with
  | .unopened => st.pair.data.readEof ||
      receiverClosed (sh.chans ⟨st.name, .data⟩) || sh.cancelled
  | .opened => st.pair.data.readEof || receiverClosed (sh.chans ⟨st.name, .data⟩)
  | _ => false

/-- Which call opens a new stream. -/
inductive Caller where
  | connect
  | replenish
  deriving DecidableEq, Repr

/-- The access that a task makes next. -/
inductive TaskPc where
  | idle
  | pop
  | check (st : Spare) (taken : Flags)
  | discard (st : Spare)
  | claim
  | room
  | full
  | push (st : Spare)
  | dropPushed (st : Spare)
  | unguard
  | opening (caller : Caller)
  | attempt (caller : Caller) (name home : Nat) (taken : Flags) (pr : Pair)

/-- A stream that `connect` returned, and the flags of its mux when it was taken. -/
structure Returned where
  stream : Spare
  taken : Flags

structure SpareState where
  members : Nat → Shared
  queue : List Spare := []
  replenishing : Bool := false
  tasks : Nat → TaskPc := fun _ => .idle
  nextName : Nat := 0
  /-- History: what `connect` returned, and what was discarded. -/
  returned : List Returned := []
  discarded : List Nat := []
  /-- History: how often the slot of a stream was released. -/
  released : Nat → Nat := fun _ => 0

inductive SpareAct where
  | connect (t : Nat)
  | replenish (t : Nat)
  | step (t : Nat)
  | stop (t : Nat) (full : Bool)
  | attempt (t home : Nat)
  | giveUp (t : Nat)
  | close (i : Nat)
  | goAway (i : Nat)
  | limit (i : Nat) (m : UInt32)
  | release (i : Nat)
  deriving DecidableEq, Repr

namespace SpareState

def setTask (s : SpareState) (t : Nat) (pc : TaskPc) : SpareState :=
  { s with tasks := Function.update s.tasks t pc }

def setMember (s : SpareState) (i : Nat) (sh : Shared) : SpareState :=
  { s with members := Function.update s.members i sh }

/-- The release guard of an unopened stream. -/
def releaseSlot (s : SpareState) (st : Spare) : SpareState :=
  { s.setMember st.home
      { s.members st.home with activePairs := (s.members st.home).activePairs - 1 } with
    released := Function.update s.released st.name (s.released st.name + 1) }

/-- The call ends with an error, or there is no more room: `connect` returns, and
`replenish_spare_streams` clears its flag. -/
def failed (s : SpareState) (t : Nat) : Caller → SpareState
  | .connect => s.setTask t .idle
  | .replenish => s.setTask t .unguard

/-- A new stream was opened. -/
def opened (s : SpareState) (t : Nat) (st : Spare) (taken : Flags) : Caller → SpareState
  | .connect => { s.setTask t .idle with returned := s.returned ++ [⟨st, taken⟩] }
  | .replenish => s.setTask t (.push st)

/-- The next access of an attempt on a member: `MuxHandle::open_stream_pair`. -/
def attemptStep (cfg : MuxConfig) (t : Nat) (caller : Caller) (name home : Nat)
    (taken : Flags) (pr : Pair) (s : SpareState) : Option SpareState :=
  match pr.openStep cfg name (s.members home) with
  | none => none
  | some (sh, pr') =>
      let s := s.setMember home sh
      match pr'.phase with
      | .refused => some (s.setTask t (.opening caller))
      | .unopened => some (s.opened t ⟨name, home, pr'⟩ taken caller)
      | _ => some (s.setTask t (.attempt caller name home taken pr'))

/-- An attempt on a member begins with its flags. -/
def attemptBegin (t home : Nat) (caller : Caller) (s : SpareState) : Option SpareState :=
  match ({} : Pair).openBegin [] [] (s.members home) with
  | none => none
  | some (sh, pr) =>
      if pr.phase = .refused then some (s.failed t caller)
      else some ({ s.setMember home sh with nextName := s.nextName + 1 }.setTask t
        (.attempt caller s.nextName home (flagsOf (s.members home)) pr))

/-- The next access of a task. -/
def step (cfg : MuxConfig) (t : Nat) (s : SpareState) : Option SpareState :=
  match s.tasks t with
  | .pop =>
      match s.queue with
      | [] => some (s.setTask t (.opening .connect))
      | st :: rest =>
          some ({ s with queue := rest }.setTask t (.check st (flagsOf (s.members st.home))))
  | .check st taken =>
      if st.isReadClosed (s.members st.home) then
        some { s.setTask t (.discard st) with discarded := s.discarded ++ [st.name] }
      else some { s.setTask t .idle with returned := s.returned ++ [⟨st, taken⟩] }
  | .discard st => some ((s.releaseSlot st).setTask t .pop)
  | .claim =>
      if s.replenishing then some (s.setTask t .idle)
      else some ({ s with replenishing := true }.setTask t .room)
  | .room =>
      if s.queue.length < SPARE_STREAM_CAP then some (s.setTask t .full)
      else some (s.setTask t .unguard)
  | .push st =>
      if s.queue.length < SPARE_STREAM_CAP then
        some ({ s with queue := s.queue ++ [st] }.setTask t .room)
      else some { s.setTask t (.dropPushed st) with discarded := s.discarded ++ [st.name] }
  | .dropPushed st => some ((s.releaseSlot st).setTask t .unguard)
  | .unguard => some ({ s with replenishing := false }.setTask t .idle)
  | .attempt caller name home taken pr => s.attemptStep cfg t caller name home taken pr
  | _ => none

end SpareState

def spareStep (cfg : MuxConfig) (size : Nat) (s : SpareState) : SpareAct → Option SpareState
  | .connect t =>
      match s.tasks t with
      | .idle => some (s.setTask t .pop)
      | _ => none
  | .replenish t =>
      match s.tasks t with
      | .idle => some (s.setTask t .claim)
      | _ => none
  | .step t => s.step cfg t
  -- `is_full` and the cancellation token, read one after the other.
  | .stop t full =>
      match s.tasks t with
      | .full => some (s.setTask t (if full then .unguard else .opening .replenish))
      | _ => none
  | .attempt t home =>
      match s.tasks t with
      | .opening caller => if home < size then s.attemptBegin t home caller else none
      | _ => none
  | .giveUp t =>
      match s.tasks t with
      | .opening caller => some (s.failed t caller)
      | _ => none
  | .close i => some (s.setMember i { s.members i with cancelled := true })
  | .goAway i => some (s.setMember i { s.members i with goawayReceived := true })
  | .limit i m => some (s.setMember i { s.members i with peerMaxConcurrent := m })
  | .release i =>
      if 0 < (s.members i).activePairs then
        some (s.setMember i { s.members i with activePairs := (s.members i).activePairs - 1 })
      else none

/-- A session over `size` members, with no spares yet. -/
def sparing (cfg : MuxConfig) (size : Nat) (members : Nat → Shared) :
    System SpareState SpareAct where
  init := { members := members }
  step := spareStep cfg size

/-- No spare comes up whose mux has received GOAWAY and is not closed yet. -/
def NoneGoingAway (s : SpareState) : SpareAct → Prop
  | .step t =>
      match s.tasks t, s.queue with
      | .pop, st :: _ => (s.members st.home).goawayReceived = true →
          (s.members st.home).cancelled = true
      | _, _ => True
  | _ => True

instance (s : SpareState) (a : SpareAct) : Decidable (NoneGoingAway s a) := by
  unfold NoneGoingAway
  (repeat' split) <;> infer_instance

/-! ## Where a stream is -/

/-- Where the stream of a name is.  One that is `away` was returned, or never came to be. -/
inductive Place where
  | unborn
  | queued
  | held (t : Nat)
  | away
  | dropping (t : Nat)
  | gone
  deriving DecidableEq, Repr

/-- The stream that the task has in its hands. -/
def TaskPc.holds : TaskPc → Option Nat
  | .check st _ => some st.name
  | .push st => some st.name
  | .attempt _ name _ _ _ => some name
  | _ => none

/-- The stream whose slot the task is about to release. -/
def TaskPc.drops : TaskPc → Option Nat
  | .discard st => some st.name
  | .dropPushed st => some st.name
  | _ => none

/-- Every stream is in one place. -/
structure Ledger (place : Nat → Place) (s : SpareState) : Prop where
  queued : ∀ st ∈ s.queue, place st.name = .queued
  once : (s.queue.map Spare.name).Nodup
  holds : ∀ t n, (s.tasks t).holds = some n → place n = .held t
  drops : ∀ t n, (s.tasks t).drops = some n ↔ place n = .dropping t
  unborn : ∀ n, s.nextName ≤ n → place n = .unborn
  released : ∀ n, s.released n = if place n = .gone then 1 else 0
  discarded : ∀ n ∈ s.discarded, place n = .gone ∨ ∃ t, place n = .dropping t

section

variable {cfg : MuxConfig} {size : Nat} {place : Nat → Place} {s s' : SpareState} {t : Nat}

/-- A step that moves no stream. -/
theorem Ledger.same (h : Ledger place s) {pc : TaskPc}
    (htasks : s'.tasks = Function.update s.tasks t pc)
    (hholds : pc.holds = (s.tasks t).holds) (hdrops : pc.drops = (s.tasks t).drops)
    (hqueue : s'.queue = s.queue) (hnext : s'.nextName = s.nextName)
    (hreleased : s'.released = s.released) (hdiscarded : s'.discarded = s.discarded) :
    Ledger place s' := by
  have htask : ∀ t', (s'.tasks t').holds = (s.tasks t').holds ∧
      (s'.tasks t').drops = (s.tasks t').drops := by
    intro t'
    rw [htasks]
    by_cases ht : t' = t
    · subst ht
      rw [Function.update_self]
      exact ⟨hholds, hdrops⟩
    · rw [Function.update_of_ne ht]
      exact ⟨rfl, rfl⟩
  refine ⟨hqueue ▸ h.queued, hqueue ▸ h.once, fun t' n => ?_, fun t' n => ?_,
    hnext ▸ h.unborn, hreleased ▸ h.released, hdiscarded ▸ h.discarded⟩
  · rw [(htask t').1]
    exact h.holds t' n
  · rw [(htask t').2]
    exact h.drops t' n

/-- Stream `n` goes to place `p` by a step of task `t`, which had no other. -/
theorem Ledger.move (h : Ledger place s) {n : Nat} {p : Place} {pc : TaskPc}
    (htasks : s'.tasks = Function.update s.tasks t pc)
    (hmine : ∀ t', place n = .held t' ∨ place n = .dropping t' → t' = t)
    (honly : ∀ m, (s.tasks t).drops = some m → m = n)
    (hholds : pc.holds = if p = .held t then some n else none)
    (hdrops : pc.drops = if p = .dropping t then some n else none)
    (hplace : ∀ t', p = .dropping t' → t' = t)
    (hqueue : ∀ st ∈ s'.queue, st ∈ s.queue ∧ st.name ≠ n ∨ st.name = n ∧ p = .queued)
    (honce : (s'.queue.map Spare.name).Nodup)
    (hnext : s.nextName ≤ s'.nextName ∧ n < s'.nextName)
    (hreleased : s'.released = Function.update s.released n (if p = .gone then 1 else 0))
    (hdiscarded : ∀ m ∈ s'.discarded, m ∈ s.discarded ∧ m ≠ n ∨
      m = n ∧ (p = .gone ∨ p = .dropping t)) :
    Ledger (Function.update place n p) s' := by
  constructor
  · intro st hst
    rcases hqueue st hst with ⟨hin, hne⟩ | ⟨rfl, hp⟩
    · rw [Function.update_of_ne hne]
      exact h.queued st hin
    · rw [Function.update_self, hp]
  · exact honce
  · intro t' m hm
    rw [htasks] at hm
    by_cases ht : t' = t
    · subst ht
      rw [Function.update_self, hholds] at hm
      split at hm
      · next hp =>
          cases hm
          rw [Function.update_self, hp]
      · contradiction
    · rw [Function.update_of_ne ht] at hm
      have hplace' := h.holds t' m hm
      have hne : m ≠ n := by
        rintro rfl
        exact ht (hmine t' (.inl hplace'))
      rw [Function.update_of_ne hne]
      exact hplace'
  · intro t' m
    rw [htasks]
    by_cases ht : t' = t
    · subst ht
      rw [Function.update_self, hdrops]
      by_cases hm : m = n
      · subst hm
        rw [Function.update_self]
        split
        · next hp => simp [hp]
        · next hp => simp [hp]
      · rw [Function.update_of_ne hm, ← h.drops t' m]
        constructor
        · intro heq
          split at heq
          · exact absurd (Option.some.inj heq).symm hm
          · contradiction
        · intro heq
          exact absurd (honly m heq) hm
    · rw [Function.update_of_ne ht]
      by_cases hm : m = n
      · subst hm
        rw [Function.update_self, h.drops t' m]
        constructor
        · intro hp
          exact absurd (hmine t' (.inr hp)) ht
        · intro hp
          exact absurd (hplace t' hp) ht
      · rw [Function.update_of_ne hm]
        exact h.drops t' m
  · intro m hm
    rw [Function.update_of_ne (by omega)]
    exact h.unborn m (by omega)
  · intro m
    rw [hreleased]
    by_cases hm : m = n
    · subst hm
      simp only [Function.update_self]
    · simp only [Function.update_of_ne hm]
      exact h.released m
  · intro m hm
    rcases hdiscarded m hm with ⟨hin, hne⟩ | ⟨rfl, hp⟩
    · rw [Function.update_of_ne hne]
      exact h.discarded m hin
    · rw [Function.update_self]
      exact hp.imp_right fun hp => ⟨t, hp⟩

theorem Ledger.lt_nextName (h : Ledger place s) {n : Nat} (hn : place n ≠ .unborn) :
    n < s.nextName := by
  by_contra hge
  exact hn (h.unborn n (by omega))

theorem TaskPc.drops_of_holds {pc : TaskPc} {n : Nat} (h : pc.holds = some n) :
    pc.drops = none := by
  cases pc <;> first | rfl | contradiction

/-- A stream that its task had in its hands goes elsewhere. -/
theorem Ledger.moveHeld (h : Ledger place s) {n : Nat} {p : Place} {pc : TaskPc}
    (hn : (s.tasks t).holds = some n) (htasks : s'.tasks = Function.update s.tasks t pc)
    (hholds : pc.holds = if p = .held t then some n else none)
    (hdrops : pc.drops = if p = .dropping t then some n else none)
    (hplace : ∀ t', p = .dropping t' → t' = t) (hgone : p ≠ .gone)
    (hqueue : s'.queue = s.queue ∨
      ∃ st : Spare, st.name = n ∧ p = .queued ∧ s'.queue = s.queue ++ [st])
    (hnext : s'.nextName = s.nextName) (hreleased : s'.released = s.released)
    (hdiscarded : s'.discarded = s.discarded ∨
      p = .dropping t ∧ s'.discarded = s.discarded ++ [n]) :
    Ledger (Function.update place n p) s' := by
  have hhere : place n = .held t := h.holds t n hn
  have hout : ∀ st ∈ s.queue, st.name ≠ n := by
    rintro st hst rfl
    rw [h.queued st hst] at hhere
    contradiction
  have hkept : ∀ m ∈ s.discarded, m ≠ n := by
    rintro m hm rfl
    rcases h.discarded m hm with hgone | ⟨t', hdrop⟩
    · rw [hgone] at hhere
      contradiction
    · rw [hdrop] at hhere
      contradiction
  refine h.move htasks (fun t' hor => ?_) (fun m hm => ?_) hholds hdrops hplace (fun st hst => ?_)
    ?_ ⟨by omega, ?_⟩ ?_ fun m hm => ?_
  · rw [hhere] at hor
    rcases hor with heq | heq
    · cases heq
      rfl
    · contradiction
  · rw [TaskPc.drops_of_holds hn] at hm
    contradiction
  · rcases hqueue with hsame | ⟨st', hname, hp, hadd⟩
    · rw [hsame] at hst
      exact .inl ⟨hst, hout st hst⟩
    · rw [hadd] at hst
      rcases List.mem_append.1 hst with hst | hst
      · exact .inl ⟨hst, hout st hst⟩
      · rw [List.mem_singleton.1 hst]
        exact .inr ⟨hname, hp⟩
  · rcases hqueue with hsame | ⟨st', hname, hp, hadd⟩
    · rw [hsame]
      exact h.once
    · rw [hadd, List.map_append, List.nodup_append]
      refine ⟨h.once, List.nodup_singleton _, ?_⟩
      intro m hm m' hm' heq
      obtain ⟨st, hst, rfl⟩ := List.mem_map.1 hm
      rw [List.map_singleton, List.mem_singleton] at hm'
      exact hout st hst (heq.trans (hm'.trans hname))
  · rw [hnext]
    exact h.lt_nextName (by rw [hhere]; simp)
  · rw [hreleased, if_neg hgone]
    refine (Function.update_eq_self_iff.2 ?_).symm
    rw [h.released n, hhere, if_neg (by simp)]
  · rcases hdiscarded with hsame | ⟨hp, hadd⟩
    · rw [hsame] at hm
      exact .inl ⟨hm, hkept m hm⟩
    · rw [hadd] at hm
      rcases List.mem_append.1 hm with hm | hm
      · exact .inl ⟨hm, hkept m hm⟩
      · exact .inr ⟨List.mem_singleton.1 hm, .inr hp⟩

/-- The slot of a discarded stream is released. -/
theorem Ledger.release (h : Ledger place s) {st : Spare} {pc : TaskPc}
    (hst : (s.tasks t).drops = some st.name) (hholds : pc.holds = none)
    (hdrops : pc.drops = none) :
    Ledger (Function.update place st.name .gone) ((s.releaseSlot st).setTask t pc) := by
  have hhere : place st.name = .dropping t := (h.drops t st.name).1 hst
  have hout : ∀ st' ∈ s.queue, st'.name ≠ st.name := by
    intro st' hst' heq
    have hqueued := h.queued st' hst'
    rw [heq, hhere] at hqueued
    contradiction
  refine h.move rfl (fun t' hor => ?_) (fun m hm => ?_) (by rw [hholds]; rfl)
    (by rw [hdrops]; rfl) (by simp) (fun st' hst' => .inl ⟨hst', hout st' hst'⟩) h.once
    ⟨Nat.le_refl _, h.lt_nextName (by rw [hhere]; simp)⟩ ?_ fun m hm => ?_
  · rw [hhere] at hor
    rcases hor with heq | heq
    · contradiction
    · cases heq
      rfl
  · rw [hst] at hm
    exact (Option.some.inj hm).symm
  · simp only [SpareState.releaseSlot, SpareState.setTask, SpareState.setMember, if_true]
    rw [h.released st.name, hhere, if_neg (by simp)]
  · by_cases heq : m = st.name
    · exact .inr ⟨heq, .inl rfl⟩
    · exact .inl ⟨hm, heq⟩

/-- A spare is taken from the queue. -/
theorem Ledger.take (h : Ledger place s) {st : Spare} {rest : List Spare} {taken : Flags}
    (hqueue : s.queue = st :: rest) (hdrops : (s.tasks t).drops = none) :
    Ledger (Function.update place st.name (.held t))
      ({ s with queue := rest }.setTask t (.check st taken)) := by
  have hhere : place st.name = .queued := h.queued st (hqueue ▸ List.mem_cons_self)
  have honce := h.once
  rw [hqueue, List.map_cons, List.nodup_cons] at honce
  refine h.move rfl (fun t' hor => ?_) (fun m hm => ?_) (by simp [TaskPc.holds])
    (by simp [TaskPc.drops]) (by simp) (fun st' hst' => .inl ⟨?_, ?_⟩) honce.2
    ⟨Nat.le_refl _, h.lt_nextName (by rw [hhere]; simp)⟩ ?_ fun m hm => .inl ⟨hm, ?_⟩
  · rw [hhere] at hor
    rcases hor with heq | heq <;> contradiction
  · rw [hdrops] at hm
    contradiction
  · rw [hqueue]
    exact List.mem_cons_of_mem st hst'
  · intro heq
    exact honce.1 (heq ▸ List.mem_map_of_mem hst')
  · refine (Function.update_eq_self_iff.2 ?_).symm
    show (if Place.held t = .gone then 1 else 0) = s.released st.name
    rw [h.released st.name, hhere]
    rfl
  · rintro rfl
    rcases h.discarded _ hm with hgone | ⟨t', hdrop⟩
    · rw [hhere] at hgone
      contradiction
    · rw [hhere] at hdrop
      contradiction

/-- An attempt begins under a name of its own. -/
theorem Ledger.begin (h : Ledger place s) {pc : TaskPc}
    (hholds : pc.holds = some s.nextName) (hdrops : (s.tasks t).drops = none)
    (htasks : s'.tasks = Function.update s.tasks t pc) (hqueue : s'.queue = s.queue)
    (hnext : s'.nextName = s.nextName + 1) (hreleased : s'.released = s.released)
    (hdiscarded : s'.discarded = s.discarded) :
    Ledger (Function.update place s.nextName (.held t)) s' := by
  have hhere : place s.nextName = .unborn := h.unborn s.nextName (Nat.le_refl _)
  refine h.move htasks (fun t' hor => ?_) (fun m hm => ?_) (by rw [hholds, if_pos rfl])
    (by rw [TaskPc.drops_of_holds hholds]; rfl) (by simp) (fun st hst => .inl ⟨?_, ?_⟩) ?_
    ⟨by omega, by omega⟩ ?_ fun m hm => .inl ⟨hdiscarded ▸ hm, ?_⟩
  · rw [hhere] at hor
    rcases hor with heq | heq <;> contradiction
  · rw [hdrops] at hm
    contradiction
  · rw [← hqueue]
    exact hst
  · intro heq
    have hqueued := h.queued st (hqueue ▸ hst)
    rw [heq, hhere] at hqueued
    contradiction
  · rw [hqueue]
    exact h.once
  · rw [hreleased]
    refine (Function.update_eq_self_iff.2 ?_).symm
    rw [h.released s.nextName, hhere]
    rfl
  · rintro rfl
    rcases h.discarded _ (hdiscarded ▸ hm) with hgone | ⟨t', hdrop⟩
    · rw [hhere] at hgone
      contradiction
    · rw [hhere] at hdrop
      contradiction

/-- The ledger is kept by an access of an attempt. -/
theorem Ledger.attemptStep (h : Ledger place s) {caller : Caller} {name home : Nat}
    {taken : Flags} {pr : Pair} (hpc : s.tasks t = .attempt caller name home taken pr)
    (hs : s.attemptStep cfg t caller name home taken pr = some s') :
    ∃ place', Ledger place' s' := by
  have hn : (s.tasks t).holds = some name := by rw [hpc]; rfl
  unfold SpareState.attemptStep at hs
  split at hs
  · contradiction
  · next sh pr' hstep =>
      simp only at hs
      split at hs
      · cases hs
        exact ⟨_, h.moveHeld (p := .away) hn rfl rfl rfl (by simp) (by simp) (.inl rfl) rfl rfl
          (.inl rfl)⟩
      · cases hs
        cases caller with
        | connect =>
            exact ⟨_, h.moveHeld (p := .away) hn rfl rfl rfl (by simp) (by simp) (.inl rfl) rfl
              rfl (.inl rfl)⟩
        | replenish =>
            exact ⟨_, h.same rfl (by rw [hn]; rfl) (by rw [hpc]; rfl) rfl rfl rfl rfl⟩
      · cases hs
        exact ⟨_, h.same rfl (by rw [hn]; rfl) (by rw [hpc]; rfl) rfl rfl rfl rfl⟩

theorem Ledger.step (h : Ledger place s) (hs : s.step cfg t = some s') :
    ∃ place', Ledger place' s' := by
  unfold SpareState.step at hs
  cases hpc : s.tasks t with
  | pop =>
      simp only [hpc] at hs
      split at hs
      · cases hs
        exact ⟨_, h.same rfl (by rw [hpc]; rfl) (by rw [hpc]; rfl) rfl rfl rfl rfl⟩
      · next st rest hqueue =>
          cases hs
          exact ⟨_, h.take hqueue (by rw [hpc]; rfl)⟩
  | check st taken =>
      have hn : (s.tasks t).holds = some st.name := by rw [hpc]; rfl
      simp only [hpc] at hs
      split at hs
      · cases hs
        exact ⟨_, h.moveHeld (p := .dropping t) hn rfl rfl (by simp [TaskPc.drops])
          (by simp) (by simp) (.inl rfl) rfl rfl (.inr ⟨rfl, rfl⟩)⟩
      · cases hs
        exact ⟨_, h.moveHeld (p := .away) hn rfl rfl rfl (by simp) (by simp) (.inl rfl) rfl rfl
          (.inl rfl)⟩
  | discard st =>
      simp only [hpc] at hs
      cases hs
      exact ⟨_, h.release (by rw [hpc]; rfl) rfl rfl⟩
  | push st =>
      have hn : (s.tasks t).holds = some st.name := by rw [hpc]; rfl
      simp only [hpc] at hs
      split at hs
      · cases hs
        exact ⟨_, h.moveHeld (p := .queued) hn rfl rfl rfl (by simp) (by simp)
          (.inr ⟨st, rfl, rfl, rfl⟩) rfl rfl (.inl rfl)⟩
      · cases hs
        exact ⟨_, h.moveHeld (p := .dropping t) hn rfl rfl (by simp [TaskPc.drops])
          (by simp) (by simp) (.inl rfl) rfl rfl (.inr ⟨rfl, rfl⟩)⟩
  | dropPushed st =>
      simp only [hpc] at hs
      cases hs
      exact ⟨_, h.release (by rw [hpc]; rfl) rfl rfl⟩
  | attempt caller name home taken pr =>
      simp only [hpc] at hs
      exact h.attemptStep hpc hs
  | _ =>
      simp only [hpc] at hs
      (repeat' split at hs) <;> cases hs
      all_goals exact ⟨_, h.same rfl (by rw [hpc]; rfl) (by rw [hpc]; rfl) rfl rfl rfl rfl⟩

theorem spareStep_ledger {a : SpareAct} (h : Ledger place s)
    (hs : spareStep cfg size s a = some s') : ∃ place', Ledger place' s' := by
  have hmember : ∀ {i : Nat} {sh : Shared}, Ledger place (s.setMember i sh) := by
    intro i sh
    exact ⟨h.queued, h.once, h.holds, h.drops, h.unborn, h.released, h.discarded⟩
  have hfailed : ∀ {t : Nat} {caller : Caller}, s.tasks t = .opening caller →
      Ledger place (s.failed t caller) := by
    intro t caller hpc
    cases caller <;>
      exact h.same rfl (by rw [hpc]; rfl) (by rw [hpc]; rfl) rfl rfl rfl rfl
  cases a with
  | step t => exact h.step hs
  | attempt t home =>
      simp only [spareStep] at hs
      split at hs
      · next caller hpc =>
          split at hs
          · unfold SpareState.attemptBegin at hs
            split at hs
            · contradiction
            · split at hs
              · cases hs
                exact ⟨_, hfailed hpc⟩
              · cases hs
                exact ⟨_, h.begin rfl (by rw [hpc]; rfl) rfl rfl rfl rfl rfl⟩
          · contradiction
      · contradiction
  | giveUp t =>
      simp only [spareStep] at hs
      split at hs
      · next caller hpc =>
          cases hs
          exact ⟨_, hfailed hpc⟩
      · contradiction
  | stop t full =>
      simp only [spareStep] at hs
      split at hs
      · next hpc =>
          cases hs
          refine ⟨_, h.same rfl ?_ ?_ rfl rfl rfl rfl⟩
          · rw [hpc]
            cases full <;> rfl
          · rw [hpc]
            cases full <;> rfl
      · contradiction
  | connect t =>
      simp only [spareStep] at hs
      split at hs
      · next hpc =>
          cases hs
          exact ⟨_, h.same rfl (by rw [hpc]; rfl) (by rw [hpc]; rfl) rfl rfl rfl rfl⟩
      · contradiction
  | replenish t =>
      simp only [spareStep] at hs
      split at hs
      · next hpc =>
          cases hs
          exact ⟨_, h.same rfl (by rw [hpc]; rfl) (by rw [hpc]; rfl) rfl rfl rfl rfl⟩
      · contradiction
  | release i =>
      simp only [spareStep] at hs
      split at hs
      · cases hs
        exact ⟨_, hmember⟩
      · contradiction
  | _ =>
      cases hs
      exact ⟨_, hmember⟩

end

theorem ledger_invariant (cfg : MuxConfig) (size : Nat) (members : Nat → Shared) :
    (sparing cfg size members).Invariant anyStep fun s => ∃ place, Ledger place s := by
  refine Invariant.of_step ⟨fun _ => .unborn, ?_⟩ fun s a s' h _ hs => ?_
  · constructor <;> simp [sparing, TaskPc.holds, TaskPc.drops]
  · obtain ⟨place, h⟩ := h
    exact spareStep_ledger h hs

/-! ## What is handed out -/

/-- What a task that has taken a stream knows about its mux. -/
def TaskOk (members : Nat → Shared) : TaskPc → Prop
  | .check st taken => st.pair.phase = .unopened ∧
      (taken.closed = true → (members st.home).cancelled = true) ∧
      (taken.goaway = true → taken.closed = true)
  | .push st => st.pair.phase = .unopened
  | .attempt _ _ _ taken _ => taken = ⟨false, false⟩
  | _ => True

structure TakenOk (s : SpareState) : Prop where
  queued : ∀ st ∈ s.queue, st.pair.phase = .unopened
  tasks : ∀ t, TaskOk s.members (s.tasks t)
  returned : ∀ r ∈ s.returned, r.taken = ⟨false, false⟩

section

variable {cfg : MuxConfig} {size : Nat} {s s' : SpareState} {t : Nat}

theorem TaskOk.mono {members members' : Nat → Shared} {pc : TaskPc} (h : TaskOk members pc)
    (hclosed : ∀ i, (members i).cancelled = true → (members' i).cancelled = true) :
    TaskOk members' pc := by
  cases pc with
  | check st taken => exact ⟨h.1, fun hc => hclosed _ (h.2.1 hc), h.2.2⟩
  | _ => exact h

/-- A member that was closed stays closed when its entry is replaced by such a one. -/
theorem setMember_closed {i : Nat} {sh : Shared}
    (hsh : (s.members i).cancelled = true → sh.cancelled = true) :
    ∀ j, (s.members j).cancelled = true → ((s.setMember i sh).members j).cancelled = true := by
  intro j hj
  simp only [SpareState.setMember]
  by_cases hij : j = i
  · subst hij
    rw [Function.update_self]
    exact hsh hj
  · rw [Function.update_of_ne hij]
    exact hj

/-- A step of task `t`, which opens no closed member again. -/
theorem TakenOk.of_task (h : TakenOk s) {pc : TaskPc}
    (hclosed : ∀ i, (s.members i).cancelled = true → (s'.members i).cancelled = true)
    (htasks : s'.tasks = Function.update s.tasks t pc) (hpc : TaskOk s'.members pc)
    (hqueue : ∀ st ∈ s'.queue, st ∈ s.queue ∨ st.pair.phase = .unopened)
    (hreturned : ∀ r ∈ s'.returned, r ∈ s.returned ∨ r.taken = ⟨false, false⟩) :
    TakenOk s' := by
  refine ⟨fun st hst => ?_, fun t' => ?_, fun r hr => ?_⟩
  · rcases hqueue st hst with hin | hphase
    · exact h.queued st hin
    · exact hphase
  · rw [htasks]
    by_cases ht : t' = t
    · subst ht
      rw [Function.update_self]
      exact hpc
    · rw [Function.update_of_ne ht]
      exact (h.tasks t').mono hclosed
  · rcases hreturned r hr with hin | htaken
    · exact h.returned r hin
    · exact htaken

/-- A step that neither takes a stream nor gives one away. -/
theorem TakenOk.idle (h : TakenOk s) {pc : TaskPc} (hpc : TaskOk s.members pc) :
    TakenOk (s.setTask t pc) :=
  h.of_task (fun _ hi => hi) rfl hpc (fun _ hst => .inl hst) fun _ hr => .inl hr

theorem TakenOk.attemptStep (h : TakenOk s) {caller : Caller} {name home : Nat}
    {taken : Flags} {pr : Pair} (hpc : s.tasks t = .attempt caller name home taken pr)
    (hs : s.attemptStep cfg t caller name home taken pr = some s') : TakenOk s' := by
  have htaken : taken = ⟨false, false⟩ := by
    have htask := h.tasks t
    rw [hpc] at htask
    exact htask
  unfold SpareState.attemptStep at hs
  split at hs
  · contradiction
  · next sh pr' hstep =>
      have hfoot : ClientFootprint (s.members home) sh := client_footprint
        (show clientStep cfg name .openStep (s.members home) pr = some (sh, pr') from hstep)
      have hclosed : ∀ i, (s.members i).cancelled = true →
          ((s.setMember home sh).members i).cancelled = true :=
        setMember_closed fun hc => by rw [hfoot.cancelled, hc]
      simp only at hs
      split at hs
      · cases hs
        exact h.of_task hclosed rfl trivial (fun _ hst => .inl hst) fun _ hr => .inl hr
      · next hphase =>
          cases hs
          cases caller with
          | connect =>
              refine h.of_task hclosed rfl trivial (fun _ hst => .inl hst) fun r hr => ?_
              rcases List.mem_append.1 hr with hr | hr
              · exact .inl hr
              · rw [List.mem_singleton.1 hr]
                exact .inr htaken
          | replenish =>
              exact h.of_task hclosed rfl hphase (fun _ hst => .inl hst) fun _ hr => .inl hr
      · cases hs
        exact h.of_task hclosed rfl htaken (fun _ hst => .inl hst) fun _ hr => .inl hr

theorem TakenOk.releaseSlot (h : TakenOk s) (st : Spare) {pc : TaskPc}
    (hpc : ∀ members, TaskOk members pc) : TakenOk ((s.releaseSlot st).setTask t pc) :=
  h.of_task (setMember_closed fun hc => hc) rfl (hpc _) (fun _ hst => .inl hst)
    fun _ hr => .inl hr

theorem TakenOk.step (h : TakenOk s) (hok : NoneGoingAway s (.step t))
    (hs : s.step cfg t = some s') : TakenOk s' := by
  have htask := h.tasks t
  unfold SpareState.step at hs
  cases hpc : s.tasks t with
  | pop =>
      simp only [hpc] at hs
      split at hs
      · cases hs
        exact h.idle trivial
      · next st rest hqueue =>
          cases hs
          simp only [NoneGoingAway, hpc, hqueue] at hok
          have hin : ∀ st' ∈ rest, st' ∈ s.queue := by
            intro st' hst'
            rw [hqueue]
            exact List.mem_cons_of_mem st hst'
          refine h.of_task (fun _ hi => hi) rfl ⟨?_, id, hok⟩
            (fun st' hst' => .inl (hin st' hst')) fun _ hr => .inl hr
          exact h.queued st (hqueue ▸ List.mem_cons_self)
  | check st taken =>
      rw [hpc] at htask
      obtain ⟨hphase, hclosed, hgoaway⟩ := htask
      simp only [hpc] at hs
      split at hs
      · cases hs
        exact h.of_task (fun _ hi => hi) rfl trivial (fun _ hst => .inl hst) fun _ hr => .inl hr
      · next hstale =>
          cases hs
          refine h.of_task (fun _ hi => hi) rfl trivial (fun _ hst => .inl hst) fun r hr => ?_
          rcases List.mem_append.1 hr with hr | hr
          · exact .inl hr
          · rw [List.mem_singleton.1 hr]
            simp only [Spare.isReadClosed, hphase, Bool.or_eq_true, not_or] at hstale
            have hopen : taken.closed = false := by
              by_contra hc
              exact hstale.2 (hclosed (by simpa using hc))
            have hstays : taken.goaway = false := by
              by_contra hg
              have hc := hgoaway (by simpa using hg)
              rw [hopen] at hc
              contradiction
            refine .inr ?_
            cases taken
            simp_all
  | discard st =>
      simp only [hpc] at hs
      cases hs
      exact h.releaseSlot st fun _ => trivial
  | push st =>
      rw [hpc] at htask
      simp only [hpc] at hs
      split at hs
      · cases hs
        refine h.of_task (fun _ hi => hi) rfl trivial (fun st' hst' => ?_) fun _ hr => .inl hr
        rcases List.mem_append.1 hst' with hst' | hst'
        · exact .inl hst'
        · rw [List.mem_singleton.1 hst']
          exact .inr htask
      · cases hs
        exact h.of_task (fun _ hi => hi) rfl trivial (fun _ hst => .inl hst) fun _ hr => .inl hr
  | dropPushed st =>
      simp only [hpc] at hs
      cases hs
      exact h.releaseSlot st fun _ => trivial
  | attempt caller name home taken pr =>
      simp only [hpc] at hs
      exact h.attemptStep hpc hs
  | _ =>
      simp only [hpc] at hs
      (repeat' split at hs) <;> cases hs
      all_goals
        exact h.of_task (fun _ hi => hi) rfl trivial (fun _ hst => .inl hst) fun _ hr => .inl hr

/-- What other tasks do to a member does not open it again. -/
theorem TakenOk.setMember (h : TakenOk s) {i : Nat} {sh : Shared}
    (hsh : (s.members i).cancelled = true → sh.cancelled = true) :
    TakenOk (s.setMember i sh) :=
  ⟨h.queued, fun t => (h.tasks t).mono (setMember_closed hsh), h.returned⟩

theorem TakenOk.failed (h : TakenOk s) (caller : Caller) : TakenOk (s.failed t caller) := by
  cases caller <;> exact h.idle trivial

/-- An attempt goes past the flags of the member only if neither is set. -/
theorem TakenOk.attemptBegin (h : TakenOk s) {home : Nat} {caller : Caller}
    (hs : s.attemptBegin t home caller = some s') : TakenOk s' := by
  simp only [SpareState.attemptBegin, Pair.openBegin, if_true] at hs
  by_cases hflags : (s.members home).cancelled = true ∨ (s.members home).goawayReceived = true
  · simp only [if_pos hflags, if_true] at hs
    cases hs
    exact h.failed caller
  · simp only [if_neg hflags, reduceCtorEq, if_false] at hs
    cases hs
    have hnone : flagsOf (s.members home) = ⟨false, false⟩ := by
      simp only [not_or, Bool.not_eq_true] at hflags
      rw [flagsOf, hflags.1, hflags.2]
    exact h.of_task (setMember_closed fun hc => hc) rfl hnone (fun _ hst => .inl hst)
      fun _ hr => .inl hr

theorem spareStep_taken {a : SpareAct} (h : TakenOk s) (hok : NoneGoingAway s a)
    (hs : spareStep cfg size s a = some s') : TakenOk s' := by
  cases a with
  | step t => exact h.step hok hs
  | attempt t home =>
      simp only [spareStep] at hs
      split at hs
      · split at hs
        · exact h.attemptBegin hs
        · contradiction
      · contradiction
  | giveUp t =>
      simp only [spareStep] at hs
      split at hs
      · cases hs
        exact h.failed _
      · contradiction
  | stop t full =>
      simp only [spareStep] at hs
      split at hs
      · cases hs
        cases full <;> exact h.idle trivial
      · contradiction
  | connect t =>
      simp only [spareStep] at hs
      split at hs
      · cases hs
        exact h.idle trivial
      · contradiction
  | replenish t =>
      simp only [spareStep] at hs
      split at hs
      · cases hs
        exact h.idle trivial
      · contradiction
  | close i =>
      cases hs
      exact h.setMember fun _ => rfl
  | release i =>
      simp only [spareStep] at hs
      split at hs
      · cases hs
        exact h.setMember id
      · contradiction
  | _ =>
      cases hs
      exact h.setMember id

/-! ## The queue -/

theorem step_queue (hs : s.step cfg t = some s') :
    s'.queue = s.queue ∨ (∃ st, s.queue = st :: s'.queue) ∨
      s.queue.length < SPARE_STREAM_CAP ∧ ∃ st, s'.queue = s.queue ++ [st] := by
  unfold SpareState.step at hs
  split at hs
  · split at hs
    · cases hs
      exact .inl rfl
    · next st rest hqueue =>
        cases hs
        exact .inr (.inl ⟨st, hqueue⟩)
  · split at hs <;> cases hs <;> exact .inl rfl
  · cases hs
    exact .inl rfl
  · split at hs <;> cases hs <;> exact .inl rfl
  · split at hs <;> cases hs <;> exact .inl rfl
  · split at hs
    · next hroom =>
        cases hs
        exact .inr (.inr ⟨hroom, _, rfl⟩)
    · cases hs
      exact .inl rfl
  · cases hs
    exact .inl rfl
  · cases hs
    exact .inl rfl
  · next caller name home taken pr hpc =>
      refine .inl ?_
      unfold SpareState.attemptStep at hs
      split at hs
      · contradiction
      · simp only at hs
        split at hs
        · cases hs
          rfl
        · cases hs
          cases caller <;> rfl
        · cases hs
          rfl
  · contradiction

theorem spareStep_bound {a : SpareAct} (h : s.queue.length ≤ SPARE_STREAM_CAP)
    (hs : spareStep cfg size s a = some s') : s'.queue.length ≤ SPARE_STREAM_CAP := by
  have hfailed : ∀ (t : Nat) (caller : Caller), (s.failed t caller).queue = s.queue := by
    intro t caller
    cases caller <;> rfl
  cases a with
  | step t =>
      rcases step_queue hs with hsame | ⟨st, hpop⟩ | ⟨hroom, st, hpush⟩
      · rw [hsame]
        exact h
      · rw [hpop, List.length_cons] at h
        omega
      · rw [hpush, List.length_append, List.length_singleton]
        omega
  | attempt t home =>
      simp only [spareStep, SpareState.attemptBegin] at hs
      (repeat' split at hs) <;> cases hs
      · rw [hfailed]
        exact h
      · exact h
  | giveUp t =>
      simp only [spareStep] at hs
      split at hs
      · cases hs
        rw [hfailed]
        exact h
      · contradiction
  | _ =>
      simp only [spareStep] at hs
      (repeat' split at hs) <;> cases hs
      all_goals exact h

end

theorem taken_invariant (cfg : MuxConfig) (size : Nat) (members : Nat → Shared) :
    (sparing cfg size members).Invariant NoneGoingAway TakenOk := by
  refine Invariant.of_step ⟨by simp [sparing], fun _ => trivial, by simp [sparing]⟩ ?_
  intro s a s' h hok hs
  exact spareStep_taken h hok hs

theorem bound_invariant (cfg : MuxConfig) (size : Nat) (members : Nat → Shared) :
    (sparing cfg size members).Invariant anyStep fun s =>
      s.queue.length ≤ SPARE_STREAM_CAP := by
  refine Invariant.of_step (Nat.zero_le _) fun s a s' h _ hs => ?_
  exact spareStep_bound h hs

/-- A mux that is neither closed nor going away refuses a realization only when it is out of
stream ids. -/
theorem realizeBegin_refuses {p : Nat} {sh : Shared} {pr : Pair}
    (hflags : flagsOf sh = ⟨false, false⟩) (hrefused : (realizeBegin p sh pr).2.2 = none) :
    MAX_STREAM_ID < sh.nextStreamId + 2 ∨ MAX_STREAM_ID < sh.nextStreamId := by
  simp only [flagsOf, Flags.mk.injEq] at hflags
  simp only [realizeBegin, hflags, Bool.false_eq_true, or_self, if_false] at hrefused
  split at hrefused
  · next hids => exact hids
  · contradiction

/-- In every run: if no spare of a mux that is going away and not closed comes up, whatever
`connect` returned was on a mux that was neither closed nor going away when it was taken,
so that realizing it then is not refused for that; a discarded spare has released its slot once, or the task that discards it is about to, and
no slot is released twice; and the queue holds no more spares than it may. -/
theorem spares_can_be_opened (cfg : MuxConfig) (size : Nat) (members : Nat → Shared)
    {as : List SpareAct} {s : SpareState}
    (hrun : (sparing cfg size members).run (sparing cfg size members).init as = some s) :
    ((sparing cfg size members).Meets NoneGoingAway (sparing cfg size members).init as →
      ∀ r ∈ s.returned, r.taken.closed = false ∧ r.taken.goaway = false ∧
        ∀ sh pr, flagsOf sh = r.taken → (realizeBegin r.stream.name sh pr).2.2 = none →
          MAX_STREAM_ID < sh.nextStreamId + 2 ∨ MAX_STREAM_ID < sh.nextStreamId) ∧
    (∀ n ∈ s.discarded, s.released n = 1 ∨
      s.released n = 0 ∧ ∃ t, (s.tasks t).drops = some n) ∧
    (∀ n, s.released n ≤ 1) ∧
    s.queue.length ≤ SPARE_STREAM_CAP := by
  obtain ⟨place, hledger⟩ := ledger_invariant cfg size members as s hrun (meets_anyStep _ _)
  refine ⟨fun hmeets r hr => ?_, fun n hn => ?_, fun n => ?_, ?_⟩
  · rw [(taken_invariant cfg size members as s hrun hmeets).returned r hr]
    exact ⟨rfl, rfl, fun sh pr => realizeBegin_refuses⟩
  · rw [hledger.released n]
    rcases hledger.discarded n hn with hgone | ⟨t, hdropping⟩
    · exact .inl (if_pos hgone)
    · exact .inr ⟨by rw [hdropping]; rfl, t, (hledger.drops t n).2 hdropping⟩
  · rw [hledger.released n]
    split <;> omega
  · exact bound_invariant cfg size members as s hrun (meets_anyStep _ _)

/-- Task 0 puts one spare of member 0 into the queue. -/
def spareActs : List SpareAct :=
  [SpareAct.replenish 0, .step 0, .step 0, .stop 0 false, .attempt 0 0] ++
    List.replicate 4 (SpareAct.step 0)

/-- The spare's mux closes, and `connect` discards it and opens a stream on member 1. -/
def staleSpareActs : List SpareAct :=
  spareActs ++ [SpareAct.close 0, .connect 1] ++ List.replicate 4 (SpareAct.step 1) ++
    [SpareAct.attempt 1 1] ++ List.replicate 3 (SpareAct.step 1)

theorem spares_can_be_opened_stale :
    ∃ s, (sparing .default 2 fun _ => Shared.init .default).run
        (sparing .default 2 fun _ => Shared.init .default).init staleSpareActs = some s ∧
      s.returned.map (fun r => r.stream.home) = [1] ∧ s.discarded = [0] ∧
      (∀ r ∈ s.returned, r.taken.closed = false ∧ r.taken.goaway = false) ∧
      s.released 0 ≤ 1 := by
  have hchecked : ((sparing .default 2 fun _ => Shared.init .default).run
      (sparing .default 2 fun _ => Shared.init .default).init staleSpareActs).map
      (fun s => (s.returned.map (fun r => r.stream.home), s.discarded)) =
      some ([1], [0]) := by decide +kernel
  obtain ⟨s, hrun, hs⟩ := Option.map_eq_some_iff.1 hchecked
  rw [Prod.mk.injEq] at hs
  have hopened := spares_can_be_opened .default 2 (fun _ => Shared.init .default) hrun
  refine ⟨s, hrun, hs.1, hs.2, fun r hr => ?_, hopened.2.2.1 0⟩
  obtain ⟨hclosed, hgoaway, -⟩ := hopened.1 (meets_of_check (by decide +kernel)) r hr
  exact ⟨hclosed, hgoaway⟩

/-- The spare's mux receives GOAWAY, and `connect` hands the spare out. -/
def goAwaySpareActs : List SpareAct :=
  spareActs ++ [SpareAct.goAway 0, .connect 1, .step 1, .step 1]

/-- What `connect` returned was on a mux that had received GOAWAY, and its realization is
refused at once. -/
theorem spare_of_goaway_handed_out :
    ∃ s r, (sparing .default 1 fun _ => Shared.init .default).run
        (sparing .default 1 fun _ => Shared.init .default).init goAwaySpareActs = some s ∧
      r ∈ s.returned ∧ ¬ (r.taken.closed = false ∧ r.taken.goaway = false) ∧
      (realizeBegin r.stream.name (s.members r.stream.home) r.stream.pair).2.2 = none := by
  have hchecked : ((sparing .default 1 fun _ => Shared.init .default).run
      (sparing .default 1 fun _ => Shared.init .default).init goAwaySpareActs).map
      (fun s => s.returned.map fun r => (r.taken,
        (realizeBegin r.stream.name (s.members r.stream.home) r.stream.pair).2.2)) =
      some [(⟨false, true⟩, none)] := by decide +kernel
  obtain ⟨s, hrun, hs⟩ := Option.map_eq_some_iff.1 hchecked
  obtain ⟨r, hr, hfacts⟩ := List.mem_map.1 (hs ▸ List.mem_cons_self)
  rw [Prod.mk.injEq] at hfacts
  refine ⟨s, r, hrun, hr, fun hflags => ?_, hfacts.2⟩
  rw [hfacts.1] at hflags
  exact absurd hflags.2 (by decide)

end KubePortForward.Forwarder
