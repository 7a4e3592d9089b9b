import KubePortForward.Mux.Registration
import KubePortForward.Mux.Routing

/-!
# From a worker to the reader of a stream

A worker passes the payload of a DATA frame to the stream's inbound channel,
through the sender in the stream's entry.  This module says what each call of a
worker does to that sender and to the channels, and that a sender always leads
to the half that owns the stream.

## Main results

* `dispatch_other`, `dispatch_sender` — what dispatching a frame does to a stream.
* `applyRegistration_sender` — what applying a registration does to a stream.
* `senders_invariant` — a sender leads to the half whose id it is kept under.
-/

namespace KubePortForward.Mux

open KubePortForward.Codec
open KubePortForward.Verified.Channel
open KubePortForward.Verified.Transition

/-! ## Payloads and ends of a stream -/

/-- The payload a frame carries for stream `id`. -/
def framePayload (id : StreamId) : Frame → Option Bytes
  | .data i payload _ => if i = id ∧ payload ≠ [] then some payload else none
  | _ => none

/-- The payloads a sequence of frames carries for stream `id`. -/
def payloadsOf (id : StreamId) (frames : List Frame) : List Bytes :=
  frames.filterMap (framePayload id)

@[simp] theorem payloadsOf_append (id : StreamId) (xs ys : List Frame) :
    payloadsOf id (xs ++ ys) = payloadsOf id xs ++ payloadsOf id ys :=
  List.filterMap_append ..

/-- The frame ends the peer's side of stream `id`. -/
def isFin (id : StreamId) : Frame → Bool
  | .data i _ fin => i == id && fin
  | .synReply i _ fin => i == id && fin
  | _ => false

theorem framePayload_eq_none {id : StreamId} {f : Frame} (h : workerKey f ≠ some id) :
    framePayload id f = none := by
  cases f with
  | data i payload fin =>
      have hne : ¬ i = id := by simpa [workerKey] using h
      simp [framePayload, hne]
  | _ => rfl

/-! ## Senders -/

/-- The sender in the worker's entry for a stream. -/
def Worker.sender (k : Worker) (id : StreamId) : Option ChanRef :=
  (k.streams.lookup id).bind (·.dataTx)

theorem Worker.knows_of_sender {k : Worker} {id : StreamId} {r : ChanRef}
    (h : k.sender id = some r) : k.knows id := by
  unfold Worker.sender at h
  cases hst : k.streams.lookup id with
  | none => simp [hst] at h
  | some st => exact .inl (AList.lookup_isSome.1 (by rw [hst]; rfl))

/-- What happened to a channel: payloads were added to its queue and its record, and
its sender may have been dropped. -/
structure Grows (c c' : DataChan) (added : List Bytes) : Prop where
  queue : c'.chan.queue = c.chan.queue ++ added
  delivered : c'.delivered = c.delivered ++ added
  closed : c'.chan.closed = c.chan.closed
  nonempty : ∀ p ∈ added, p ≠ []
  live : added ≠ [] → c.chan.closed = false
  alive : c'.txAlive = true → c.txAlive = true

theorem Grows.rfl {c : DataChan} : Grows c c [] := by
  constructor <;> simp

theorem Grows.trans_nil {c c' c'' : DataChan} {added : List Bytes} (h : Grows c c' added)
    (h' : Grows c' c'' []) : Grows c c'' added where
  queue := by rw [h'.queue, h.queue, List.append_nil]
  delivered := by rw [h'.delivered, h.delivered, List.append_nil]
  closed := by rw [h'.closed, h.closed]
  nonempty := h.nonempty
  live := h.live
  alive htx := h.alive (h'.alive htx)

theorem dropTx_chans_ne {sh : Shared} {r r' : ChanRef} (h : r ≠ r') :
    (sh.dropTx r').chans r = sh.chans r := by
  simp [Shared.dropTx, Shared.updChan, h]

theorem dropTx_grows (sh : Shared) (r r' : ChanRef) :
    Grows (sh.chans r) ((sh.dropTx r').chans r) [] := by
  by_cases h : r = r'
  · subst h
    simp only [Shared.dropTx, Shared.updChan, Function.update_self]
    exact ⟨by simp, by simp, by simp, by simp, by simp, by simp⟩
  · rw [dropTx_chans_ne h]
    exact .rfl

theorem dropTx?_chans_ne {sh : Shared} {r : ChanRef} {o : Option ChanRef} (h : o ≠ some r) :
    (sh.dropTx? o).chans r = sh.chans r := by
  cases o with
  | none => rfl
  | some r' => exact dropTx_chans_ne fun heq => h (by rw [heq])

theorem dropTx?_grows (sh : Shared) (r : ChanRef) (o : Option ChanRef) :
    Grows (sh.chans r) ((sh.dropTx? o).chans r) [] := by
  cases o with
  | none => exact .rfl
  | some r' => exact dropTx_grows sh r r'

/-! ## What each call does to a stream -/

/-- A call about stream `i` that drops its sender: other streams keep theirs, and no
other channel is touched. -/
structure DropsSender (i : StreamId) (k k' : Worker) (sh sh' : Shared) : Prop where
  self : k'.sender i = none
  other : ∀ id, id ≠ i → k'.sender id = k.sender id
  chans : ∀ r, k.sender i ≠ some r → sh'.chans r = sh.chans r
  grows : ∀ r, Grows (sh.chans r) (sh'.chans r) []
  dead : ∀ r, k.sender i = some r → (sh'.chans r).txAlive = false

theorem dropTx_dead (sh : Shared) (r : ChanRef) : ((sh.dropTx r).chans r).txAlive = false := by
  simp [Shared.dropTx, Shared.updChan]

theorem halfClose_drops (i : StreamId) (k : Worker) (sh : Shared) :
    DropsSender i k (halfClose i k sh).1 sh (halfClose i k sh).2 := by
  unfold halfClose
  cases hst : k.streams.lookup i with
  | none =>
      exact ⟨by simp [Worker.sender, hst], fun _ _ => rfl, fun _ _ => rfl, fun _ => .rfl,
        by simp [Worker.sender, hst]⟩
  | some st =>
      refine ⟨by simp [Worker.sender], fun id hid => ?_, fun r hr => ?_,
        fun r => dropTx?_grows sh r st.dataTx, fun r hr => ?_⟩
      · simp [Worker.sender, AList.lookup_insert_ne hid]
      · exact dropTx?_chans_ne (by simpa [Worker.sender, hst] using hr)
      · have htx : st.dataTx = some r := by simpa [Worker.sender, hst] using hr
        simp only [htx]
        exact dropTx_dead sh r

theorem removeStream_drops (i : StreamId) (k : Worker) (sh : Shared) :
    DropsSender i k (removeStream i k sh).1 sh (removeStream i k sh).2 := by
  unfold removeStream
  refine ⟨by simp [Worker.sender], fun id hid => ?_, fun r hr => ?_, fun r => ?_,
    fun r hr => ?_⟩
  · simp [Worker.sender, AList.lookup_erase_ne hid]
  · cases hst : k.streams.lookup i with
    | none => rfl
    | some st =>
        simp only
        exact dropTx?_chans_ne (by simpa [Worker.sender, hst] using hr)
  · cases k.streams.lookup i with
    | none => exact .rfl
    | some st => exact dropTx?_grows sh r st.dataTx
  · cases hst : k.streams.lookup i with
    | none => simp [Worker.sender, hst] at hr
    | some st =>
        have htx : st.dataTx = some r := by simpa [Worker.sender, hst] using hr
        simp only [htx]
        exact dropTx_dead sh r

/-- Delivering a payload: other streams keep their senders and other channels their
contents. -/
theorem deliverPayload_other (n : UInt32) (i : StreamId) (payload : Bytes) (k : Worker)
    (sh : Shared) :
    (∀ id, id ≠ i → (deliverPayload n i payload k sh).1.sender id = k.sender id) ∧
      ∀ r, k.sender i ≠ some r →
        (deliverPayload n i payload k sh).2.1.chans r = sh.chans r := by
  unfold deliverPayload
  split
  · exact ⟨fun _ _ => rfl, fun _ _ => rfl⟩
  · cases hst : k.streams.lookup i with
    | none => exact ⟨fun _ _ => rfl, fun _ _ => rfl⟩
    | some st =>
        cases htx : st.dataTx with
        | none =>
            simp only [htx]
            exact ⟨fun _ _ => True.intro, fun _ _ => True.intro⟩
        | some r' =>
            have hsender : k.sender i = some r' := by simp [Worker.sender, hst, htx]
            have hins : ∀ st', ∀ id, id ≠ i →
                Worker.sender { k with streams := k.streams.insert i st' } id = k.sender id :=
              fun st' id hid => by simp [Worker.sender, AList.lookup_insert_ne hid]
            have hera : ∀ id, id ≠ i →
                Worker.sender { k with streams := k.streams.erase i } id = k.sender id :=
              fun id hid => by simp [Worker.sender, AList.lookup_erase_ne hid]
            have hupd : ∀ c, ∀ r, k.sender i ≠ some r →
                Function.update sh.chans r' c r = sh.chans r :=
              fun c r hr => Function.update_of_ne (fun heq => hr (by rw [hsender, heq])) _ _
            simp only [htx, creditPeer, Shared.updChan]
            (repeat' split)
            · exact ⟨hins _, hupd _⟩
            · exact ⟨hins _, hupd _⟩
            · exact ⟨hins _, hupd _⟩
            · exact ⟨fun _ _ => rfl, fun _ _ => rfl⟩
            · exact ⟨hera, hupd _⟩

/-- Delivering a payload to a stream that has a sender: the channel takes it if it has
room, and the entry goes if nobody receives any more. -/
theorem deliverPayload_sender (n : UInt32) (sh : Shared) {i : StreamId} {payload : Bytes}
    {k : Worker} {r : ChanRef} (hs : k.sender i = some r) (hp : payload ≠ []) :
    ((sh.chans r).chan.closed = false ∧ (sh.chans r).chan.HasRoom ∧
      (deliverPayload n i payload k sh).1.sender i = some r ∧
      (deliverPayload n i payload k sh).2.2 = false ∧
      Grows (sh.chans r) ((deliverPayload n i payload k sh).2.1.chans r) [payload] ∧
      ((deliverPayload n i payload k sh).2.1.chans r).txAlive = (sh.chans r).txAlive) ∨
    ((sh.chans r).chan.closed = false ∧ ¬ (sh.chans r).chan.HasRoom ∧
      deliverPayload n i payload k sh = (k, sh, false)) ∨
    ((sh.chans r).chan.closed = true ∧
      (deliverPayload n i payload k sh).1.sender i = none ∧
      (deliverPayload n i payload k sh).2.2 = true ∧
      Grows (sh.chans r) ((deliverPayload n i payload k sh).2.1.chans r) [] ∧
      ((deliverPayload n i payload k sh).2.1.chans r).txAlive = false) := by
  obtain ⟨st, hst, htx⟩ : ∃ st, k.streams.lookup i = some st ∧ st.dataTx = some r := by
    simpa [Worker.sender, Option.bind_eq_some_iff] using hs
  have hemp : payload.isEmpty = false := by
    cases payload with
    | nil => exact absurd rfl hp
    | cons b bs => rfl
  simp only [deliverPayload, hemp, hst, htx, Bool.false_eq_true, if_false]
  cases hsend : (sh.chans r).chan.trySend payload with
  | ok c =>
      obtain ⟨hopen, hroom, rfl⟩ := Chan.trySend_eq_ok.1 hsend
      have hgrow : Grows (sh.chans r)
          { sh.chans r with
            chan := (sh.chans r).chan.push payload hroom
            delivered := (sh.chans r).delivered ++ [payload] } [payload] :=
        ⟨rfl, rfl, rfl, by simpa using hp, fun _ => hopen, id⟩
      refine .inl ⟨hopen, hroom, ?_⟩
      simp only [creditPeer]
      (repeat' split) <;> refine ⟨by simp [Worker.sender], by simp, ?_, ?_⟩ <;>
        simp only [Shared.updChan, Function.update_self]
      · exact hgrow
      · exact hgrow
      · exact hgrow
  | error e =>
      unfold Chan.trySend at hsend
      cases hclosed : (sh.chans r).chan.closed with
      | true =>
          simp only [hclosed, if_true, Except.error.injEq] at hsend
          subst hsend
          refine .inr (.inr ⟨rfl, by simp [Worker.sender], rfl, ?_, ?_⟩)
          · exact dropTx_grows sh r r
          · exact dropTx_dead sh r
      | false =>
          by_cases hroom : (sh.chans r).chan.HasRoom
          · simp [hclosed, hroom] at hsend
          · simp only [hclosed, Bool.false_eq_true, if_false, hroom, dite_false,
              Except.error.injEq] at hsend
            subst hsend
            exact .inr (.inl ⟨rfl, hroom, rfl⟩)

/-- A stream without a sender takes no payload. -/
theorem deliverPayload_none (n : UInt32) (payload : Bytes) (sh : Shared) {i : StreamId}
    {k : Worker} (hs : k.sender i = none) :
    (deliverPayload n i payload k sh).1 = k ∧
      (deliverPayload n i payload k sh).2.1.chans = sh.chans := by
  unfold deliverPayload
  split
  · exact ⟨rfl, rfl⟩
  · cases hst : k.streams.lookup i with
    | none => exact ⟨rfl, rfl⟩
    | some st =>
        have htx : st.dataTx = none := by simpa [Worker.sender, hst] using hs
        simp [htx]

/-- Delivering a payload creates no sender. -/
theorem deliverPayload_sender_of {n : UInt32} {i : StreamId} {payload : Bytes} {k : Worker}
    {sh : Shared} {r : ChanRef} (h : (deliverPayload n i payload k sh).1.sender i = some r) :
    k.sender i = some r := by
  by_cases hp : payload = []
  · simpa [deliverPayload, hp] using h
  · cases hs : k.sender i with
    | none => rwa [(deliverPayload_none n payload sh hs).1, hs] at h
    | some r' =>
        rcases deliverPayload_sender n sh hs hp with ⟨-, -, hk, -⟩ | ⟨-, -, heq⟩ | ⟨-, hk, -⟩
        · rwa [hk] at h
        · rwa [heq, hs] at h
        · rw [hk] at h
          contradiction

theorem answerReply_same (i : StreamId) (k : Worker) (sh : Shared) :
    (∀ id, (answerReply i k sh).1.sender id = k.sender id) ∧
      (answerReply i k sh).2.chans = sh.chans := by
  unfold answerReply
  (repeat' split) <;> exact ⟨fun _ => rfl, rfl⟩

/-- Dispatching a frame concerns the stream it is keyed by only. -/
theorem dispatch_other (n : UInt32) (f : Frame) (k : Worker) (sh : Shared) :
    (∀ id, workerKey f ≠ some id →
      (dispatchFrameInWorker n f k sh).1.sender id = k.sender id) ∧
    ∀ r, (∀ i, workerKey f = some i → k.sender i ≠ some r) →
      (dispatchFrameInWorker n f k sh).2.chans r = sh.chans r := by
  cases f with
  | data i payload fin =>
      obtain ⟨hsender, hchans⟩ := deliverPayload_other n i payload k sh
      have hgone : ∀ r, k.sender i ≠ some r →
          (deliverPayload n i payload k sh).1.sender i ≠ some r :=
        fun r hr h => hr (deliverPayload_sender_of h)
      refine ⟨fun id hid => ?_, fun r hr => ?_⟩
      · have hne : id ≠ i := fun heq => hid (by rw [heq]; rfl)
        simp only [dispatchFrameInWorker]
        split
        · exact hsender id hne
        · split
          · rw [(halfClose_drops i _ _).other id hne, hsender id hne]
          · exact hsender id hne
      · have hne := hr i rfl
        simp only [dispatchFrameInWorker]
        split
        · exact hchans r hne
        · split
          · rw [(halfClose_drops i _ _).chans r (hgone r hne), hchans r hne]
          · exact hchans r hne
  | synReply i headers fin =>
      obtain ⟨hsender, hchans⟩ := answerReply_same i k sh
      refine ⟨fun id hid => ?_, fun r hr => ?_⟩
      · have hne : id ≠ i := fun heq => hid (by rw [heq]; rfl)
        simp only [dispatchFrameInWorker]
        split
        · rw [(halfClose_drops i _ _).other id hne, hsender]
        · exact hsender id
      · have hne := hr i rfl
        simp only [dispatchFrameInWorker]
        split
        · rw [(halfClose_drops i _ _).chans r (by rwa [hsender]), hchans]
        · rw [hchans]
  | rstStream i status =>
      refine ⟨fun id hid => ?_, fun r hr => ?_⟩
      · have hne : id ≠ i := fun heq => hid (by rw [heq]; rfl)
        exact (removeStream_drops i k sh).other id hne
      · exact (removeStream_drops i k sh).chans r (hr i rfl)
  | windowUpdate i delta =>
      simp only [dispatchFrameInWorker]
      split <;> exact ⟨fun _ _ => rfl, fun _ _ => rfl⟩
  | _ => exact ⟨fun _ _ => rfl, fun _ _ => rfl⟩

/-- A stream without a sender does not get one by a frame. -/
theorem dispatch_none (n : UInt32) (f : Frame) (sh : Shared) {id : StreamId} {k : Worker}
    (hs : k.sender id = none) : (dispatchFrameInWorker n f k sh).1.sender id = none := by
  by_cases hkey : workerKey f = some id
  · cases f with
    | data i payload fin =>
        obtain rfl : i = id := by simpa [workerKey] using hkey
        have hk := (deliverPayload_none n payload sh hs).1
        simp only [dispatchFrameInWorker]
        split
        · rw [hk, hs]
        · split
          · exact (halfClose_drops i _ _).self
          · rw [hk, hs]
    | synReply i headers fin =>
        obtain rfl : i = id := by simpa [workerKey] using hkey
        simp only [dispatchFrameInWorker]
        split
        · exact (halfClose_drops i _ _).self
        · rw [(answerReply_same i k sh).1, hs]
    | rstStream i status =>
        obtain rfl : i = id := by simpa [workerKey] using hkey
        exact (removeStream_drops i k sh).self
    | windowUpdate i delta =>
        simp only [dispatchFrameInWorker]
        split <;> exact hs
    | _ => exact hs
  · rw [(dispatch_other n f k sh).1 id hkey, hs]

/-- What a frame for a stream that has a sender does: its payload goes into the
channel if there is room, a FIN drops the sender, and so does a reset or a delivery
to a receiver that is gone. -/
theorem dispatch_sender (n : UInt32) (sh : Shared) {f : Frame} {id : StreamId} {k : Worker}
    {r : ChanRef} (hs : k.sender id = some r) (hkey : workerKey f = some id) :
    ∃ added,
      Grows (sh.chans r) ((dispatchFrameInWorker n f k sh).2.chans r) added ∧
      (added = (framePayload id f).toList ∨ added = [] ∧
        ((sh.chans r).chan.closed = true ∧
            (dispatchFrameInWorker n f k sh).1.sender id = none ∨
          (sh.chans r).chan.closed = false ∧ ¬ (sh.chans r).chan.HasRoom)) ∧
      ((dispatchFrameInWorker n f k sh).1.sender id = some r ∧ isFin id f = false ∧
          ((dispatchFrameInWorker n f k sh).2.chans r).txAlive = (sh.chans r).txAlive ∨
        (dispatchFrameInWorker n f k sh).1.sender id = none ∧
          ((dispatchFrameInWorker n f k sh).2.chans r).txAlive = false ∧
          (isFin id f = true ∨ (∃ status, f = .rstStream id status) ∨
            (sh.chans r).chan.closed = true)) := by
  cases f with
  | data i payload fin =>
      obtain rfl : i = id := by simpa [workerKey] using hkey
      by_cases hp : payload = []
      · -- Nothing to deliver: only the FIN counts.
        have hnone : framePayload i (.data i payload fin) = none := by simp [framePayload, hp]
        have hskip : deliverPayload n i payload k sh = (k, sh, false) := by
          simp [deliverPayload, hp]
        refine ⟨[], ?_⟩
        simp only [dispatchFrameInWorker, hskip, hnone, Bool.false_eq_true, if_false]
        cases fin with
        | false => exact ⟨.rfl, .inl rfl, .inl ⟨hs, by simp [isFin], rfl⟩⟩
        | true =>
            have hdrop := halfClose_drops i k sh
            exact ⟨hdrop.grows r, .inl rfl,
              .inr ⟨hdrop.self, hdrop.dead r hs, .inl (by simp [isFin])⟩⟩
      · have hsome : framePayload i (.data i payload fin) = some payload := by
          simp [framePayload, hp]
        rcases deliverPayload_sender n sh hs hp with
          ⟨-, -, hk, hrm, hgrow, htx⟩ | ⟨hopen, hfull, heq⟩ | ⟨hclosed, hk, hrm, hgrow, hdead⟩
        · refine ⟨[payload], ?_⟩
          simp only [dispatchFrameInWorker, hrm, hsome, Bool.false_eq_true, if_false]
          cases fin with
          | false => exact ⟨hgrow, .inl rfl, .inl ⟨hk, by simp [isFin], htx⟩⟩
          | true =>
              have hdrop := halfClose_drops i (deliverPayload n i payload k sh).1
                (deliverPayload n i payload k sh).2.1
              exact ⟨hgrow.trans_nil (hdrop.grows r), .inl rfl,
                .inr ⟨hdrop.self, hdrop.dead r hk, .inl (by simp [isFin])⟩⟩
        · refine ⟨[], ?_⟩
          simp only [dispatchFrameInWorker, heq, Bool.false_eq_true, if_false]
          cases fin with
          | false =>
              exact ⟨.rfl, .inr ⟨trivial, .inr ⟨hopen, hfull⟩⟩,
                .inl ⟨hs, by simp [isFin], rfl⟩⟩
          | true =>
              have hdrop := halfClose_drops i k sh
              exact ⟨hdrop.grows r, .inr ⟨trivial, .inr ⟨hopen, hfull⟩⟩,
                .inr ⟨hdrop.self, hdrop.dead r hs, .inl (by simp [isFin])⟩⟩
        · refine ⟨[], ?_⟩
          simp only [dispatchFrameInWorker, hrm, if_true]
          exact ⟨hgrow, .inr ⟨trivial, .inl ⟨hclosed, hk⟩⟩,
            .inr ⟨hk, hdead, .inr (.inr hclosed)⟩⟩
  | synReply i headers fin =>
      obtain rfl : i = id := by simpa [workerKey] using hkey
      obtain ⟨hsender, hchans⟩ := answerReply_same i k sh
      refine ⟨[], ?_⟩
      simp only [dispatchFrameInWorker]
      cases fin with
      | false =>
          refine ⟨?_, .inl rfl, .inl ⟨by rw [← hs]; exact hsender i, by simp [isFin], ?_⟩⟩
          · rw [if_neg (by simp), hchans]
            exact .rfl
          · rw [if_neg (by simp), hchans]
      | true =>
          have hdrop := halfClose_drops i (answerReply i k sh).1 (answerReply i k sh).2
          have hgrow := hdrop.grows r
          rw [hchans] at hgrow
          exact ⟨hgrow, .inl rfl, .inr ⟨hdrop.self,
            hdrop.dead r ((hsender i).trans hs), .inl (by simp [isFin])⟩⟩
  | rstStream i status =>
      obtain rfl : i = id := by simpa [workerKey] using hkey
      have hdrop := removeStream_drops i k sh
      exact ⟨[], hdrop.grows r, .inl rfl,
        .inr ⟨hdrop.self, hdrop.dead r hs, .inr (.inl ⟨status, rfl⟩)⟩⟩
  | windowUpdate i delta =>
      refine ⟨[], ?_⟩
      simp only [dispatchFrameInWorker]
      split <;> exact ⟨.rfl, .inl rfl, .inl ⟨hs, rfl, rfl⟩⟩
  | _ => simp [workerKey] at hkey

/-! ## Registrations and the end of a worker -/

theorem refuseStreams_drops (ids : List StreamId) (k : Worker) (sh : Shared) :
    (∀ id, (refuseStreams ids k sh).1.sender id = if id ∈ ids then none else k.sender id) ∧
      (∀ r, (∀ i ∈ ids, k.sender i ≠ some r) →
        (refuseStreams ids k sh).2.chans r = sh.chans r) ∧
      ∀ r, Grows (sh.chans r) ((refuseStreams ids k sh).2.chans r) [] := by
  induction ids generalizing k sh with
  | nil => exact ⟨fun _ => by simp [refuseStreams], fun _ _ => rfl, fun _ => .rfl⟩
  | cons i rest ih =>
      have hdrop := removeStream_drops i k sh
      obtain ⟨hsender, hchans, hgrows⟩ := ih (removeStream i k sh).1
        ((removeStream i k sh).2.sendControl (.closeStream i RST_STATUS_CANCEL))
      refine ⟨fun id => ?_, fun r hr => ?_, fun r => ?_⟩
      · rw [refuseStreams, hsender]
        by_cases hid : id = i
        · subst hid
          simp [hdrop.self]
        · simp [hid, hdrop.other id hid]
      · rw [refuseStreams, hchans r]
        · exact hdrop.chans r (hr i (by simp))
        · intro j hj
          by_cases hji : j = i
          · subst hji
            simp [hdrop.self]
          · rw [hdrop.other j hji]
            exact hr j (List.mem_cons_of_mem _ hj)
      · rw [refuseStreams]
        exact (hdrop.grows r).trans_nil (hgrows r)

theorem foldl_dropTx_chans (refs : List ChanRef) (sh : Shared) (r : ChanRef) :
    (r ∉ refs → (refs.foldl Shared.dropTx sh).chans r = sh.chans r) ∧
      Grows (sh.chans r) ((refs.foldl Shared.dropTx sh).chans r) [] := by
  induction refs generalizing sh with
  | nil => exact ⟨fun _ => rfl, .rfl⟩
  | cons r' refs ih =>
      obtain ⟨hsame, hgrows⟩ := ih (sh.dropTx r')
      refine ⟨fun hr => ?_, (dropTx_grows sh r r').trans_nil hgrows⟩
      rw [List.foldl_cons, hsame fun h => hr (List.mem_cons_of_mem _ h)]
      exact dropTx_chans_ne fun heq => hr (by simp [heq])

/-- What applying a registration does to senders, if it does not open a stream that is
open already. -/
structure AppliesTo (reg : StreamRegistration) (k k' : Worker) (sh sh' : Shared) : Prop where
  back : ∀ id r, k'.sender id = some r → k.sender id = some r ∨ reg = .openStream id r
  keep : ∀ id r, k.sender id = some r → k'.sender id = some r ∨
    k'.sender id = none ∧ (reg = .close id ∨ ∃ last status, reg = .goAway last status ∧ last < id)
  opens : ∀ id r, reg = .openStream id r → k'.sender id = some r
  chans : ∀ r, (∀ i, k.sender i = some r → k'.sender i = some r) → sh'.chans r = sh.chans r
  grows : ∀ r, Grows (sh.chans r) (sh'.chans r) []

theorem applyRegistration_sender {order : List StreamId} {reg : StreamRegistration}
    {k k' : Worker} {sh sh' : Shared}
    (h : applyRegistration order reg k sh = some (k', sh'))
    (hnew : ∀ id r, reg = .openStream id r → k.sender id = none) :
    AppliesTo reg k k' sh sh' := by
  unfold applyRegistration at h
  cases reg with
  | openStream i r' =>
      have hnone := hnew i r' rfl
      cases h
      have hself : Worker.sender { k with
          streams := k.streams.insert i { dataTx := some r', consumedSinceUpdate := 0 }
          pendingReplies := insert i k.pendingReplies } i = some r' := by simp [Worker.sender]
      have hother : ∀ id, id ≠ i → Worker.sender { k with
          streams := k.streams.insert i { dataTx := some r', consumedSinceUpdate := 0 }
          pendingReplies := insert i k.pendingReplies } id = k.sender id :=
        fun id hid => by simp [Worker.sender, AList.lookup_insert_ne hid]
      rw [show (k.streams.lookup i).bind (·.dataTx) = none from hnone]
      refine ⟨fun id r hr => ?_, fun id r hr => .inl ?_, fun id r hr => ?_, fun _ _ => rfl,
        fun _ => .rfl⟩
      · by_cases hid : id = i
        · subst hid
          rw [hself, Option.some.injEq] at hr
          exact .inr (by rw [hr])
        · exact .inl (by rwa [hother id hid] at hr)
      · have hid : id ≠ i := by
          rintro rfl
          rw [hnone] at hr
          contradiction
        rwa [hother id hid]
      · cases hr
        exact hself
  | close i =>
      rw [Option.some.injEq] at h
      have hdrop := removeStream_drops i k sh
      rw [h] at hdrop
      refine ⟨fun id r hr => .inl ?_, fun id r hr => ?_, by simp, fun r hr => ?_, hdrop.grows⟩
      · by_cases hid : id = i
        · subst hid
          rw [hdrop.self] at hr
          contradiction
        · rwa [hdrop.other id hid] at hr
      · by_cases hid : id = i
        · subst hid
          exact .inr ⟨hdrop.self, .inl rfl⟩
        · exact .inl (by rwa [hdrop.other id hid])
      · refine hdrop.chans r fun hi => ?_
        have := hr i hi
        rw [hdrop.self] at this
        contradiction
  | settingsWindowDelta delta =>
      cases h
      exact ⟨fun _ _ hr => .inl hr, fun _ _ hr => .inl hr, by simp, fun _ _ => rfl,
        fun _ => .rfl⟩
  | goAway last status =>
      simp only at h
      split at h
      · next hperm =>
          rw [Option.some.injEq] at h
          obtain ⟨hsender, hchans, hgrows⟩ := refuseStreams_drops order k sh
          rw [h] at hsender hchans hgrows
          refine ⟨fun id r hr => .inl ?_, fun id r hr => ?_, by simp, fun r hr => ?_, hgrows⟩
          · rw [hsender] at hr
            split at hr
            · contradiction
            · exact hr
          · by_cases hin : id ∈ order
            · refine .inr ⟨by rw [hsender, if_pos hin], .inr ⟨last, status, rfl, ?_⟩⟩
              have hbad : id ∈ badIds last k := hperm.mem_iff.1 hin
              simpa using (List.mem_filter.1 hbad).2
            · exact .inl (by rwa [hsender, if_neg hin])
          · refine hchans r fun i hi hs => ?_
            have := hr i hs
            rw [hsender, if_pos hi] at this
            contradiction
      · contradiction

/-- A worker that shuts down drops the senders of its entries. -/
theorem closeAll_chans (k : Worker) (sh : Shared) (r : ChanRef) :
    ((∀ i, k.sender i ≠ some r) → (closeAll k sh).chans r = sh.chans r) ∧
      Grows (sh.chans r) ((closeAll k sh).chans r) [] := by
  obtain ⟨hsame, hgrows⟩ := foldl_dropTx_chans
    (k.streams.entries.filterMap (fun e => e.2.dataTx)) sh r
  refine ⟨fun hr => hsame fun hin => ?_, hgrows⟩
  obtain ⟨e, he, htx⟩ := List.mem_filterMap.1 hin
  refine hr e.1 ?_
  have hlookup : k.streams.lookup e.1 = some e.2 := AList.mem_lookup_iff.2 he
  simp [Worker.sender, hlookup, htx]

/-! ## Whose sender it is -/

/-- The channel belongs to the half that owns stream `id`. -/
def Names (s : MuxState) (r : ChanRef) (id : StreamId) : Prop :=
  (s.pairs r.pair).errorId ≠ 0 ∧ (s.pairs r.pair).idOf r.half = id

theorem Ownership.names_unique {s : MuxState} (hW : Ownership s) {r r' : ChanRef}
    {id : StreamId} (h : Names s r id) (h' : Names s r' id) : r = r' := by
  obtain ⟨p, kind⟩ := r
  obtain ⟨q, kind'⟩ := r'
  obtain ⟨hp, hkind⟩ := hW.idOf_inj h.1 h'.1 (h.2.trans h'.2.symm)
  simp only at hp hkind
  rw [hp, hkind]

/-- A half keeps the id it was given. -/
theorem step_names {cfg : MuxConfig} {s s' : MuxState} {a : Act} (hW : Ownership s)
    (h : step cfg s a = some s') {r : ChanRef} {id : StreamId} (hn : Names s r id) :
    Names s' r id := by
  obtain ⟨p, c, sh, pr, rfl, hc, rfl⟩ | ⟨p, sh, pr, z, rfl, -, hphase, hb, rfl⟩ |
    ⟨z, sh, pr, z', rfl, hz, hr, rfl⟩ | ⟨c, sh, r, rfl, hr, rfl⟩ |
    ⟨w, order, k, sh, rfl, hw, rfl⟩ | ⟨c, sh, wr, rfl, hw, rfl⟩ | ⟨rfl, rfl⟩ := step_cases h
  · obtain ⟨herr, hdata, -⟩ := client_pair hc
    by_cases hp : r.pair = p
    · subst hp
      simp only [Names, Function.update_self, herr] at hn ⊢
      refine ⟨hn.1, ?_⟩
      rw [← hn.2]
      cases r.half <;> simp [Pair.idOf, herr, hdata]
    · simpa only [Names, Function.update_of_ne hp] using hn
  · have hzero := hW.fresh p (by rw [hphase]; rfl)
    have hp : r.pair ≠ p := by
      rintro rfl
      exact hn.1 hzero
    simpa only [Names, Function.update_of_ne hp] using hn
  · by_cases hp : r.pair = z.pair
    · simp only [Names, hp, Function.update_self] at hn ⊢
      rcases realizeStep_pair hr with ⟨rfl, -⟩ | ⟨rfl, -⟩ | ⟨rfl, -, -⟩ <;>
        cases hk : r.half <;> simpa [hk, Pair.idOf] using hn
    · simpa only [Names, Function.update_of_ne hp] using hn
  · exact hn
  · exact hn
  · exact hn
  · exact hn

/-- Senders lead to the half whose id they are kept or registered under. -/
structure Senders (s : MuxState) : Prop where
  entries : ∀ w id r, (s.workers w).sender id = some r → Names s r id
  queued : ∀ w id r, .openStream id r ∈ (s.shared.reg w).queue → Names s r id

theorem senders_init (cfg : MuxConfig) : Senders (MuxState.init cfg) := by
  constructor <;> simp [MuxState.init, Shared.init, Worker.init, Worker.sender]

/-- An entry's sender after a worker's move was there before or was registered. -/
theorem WorkerMove.sender_back {cfg : MuxConfig} {order : List StreamId} {w : Shard}
    {k k' : Worker} {sh sh' : Shared} (h : WorkerMove cfg order w k sh k' sh')
    {id : StreamId} {r : ChanRef} (hs : k'.sender id = some r)
    (hqueued : ∀ i r, .openStream i r ∈ (sh.reg w).queue → k.sender i = none)
    (hclosing : ∀ i r, .openStream i r ∉ (sh.closeReg w).queue) :
    k.sender id = some r ∨ .openStream id r ∈ (sh.reg w).queue := by
  cases h with
  | @takeClose reg c _ _ pc hpc hfrom hrecv happly =>
      have hmem : reg ∈ (sh.closeReg w).queue := by simp [Chan.recv_eq_some hrecv]
      have hspec := applyRegistration_sender happly fun i r' heq =>
        absurd (heq ▸ hmem) (hclosing i r')
      rcases hspec.back id r hs with hs | rfl
      · exact .inl hs
      · exact absurd hmem (hclosing id r)
  | @takeReg reg c _ _ pc hpc hfrom hrecv happly =>
      have hmem : reg ∈ (sh.reg w).queue := by simp [Chan.recv_eq_some hrecv]
      have hspec := applyRegistration_sender happly fun i r' heq =>
        hqueued i r' (heq ▸ hmem)
      rcases hspec.back id r hs with hs | rfl
      · exact .inl hs
      · exact .inr hmem
  | @takeFrame frame c hpc hrecv =>
      refine .inl ?_
      by_cases hkey : workerKey frame = some id
      · cases hold : Worker.sender { k with pc := .drainClose } id with
        | none =>
            rw [dispatch_none _ _ _ hold] at hs
            contradiction
        | some r' =>
            obtain ⟨_, -, -, ⟨hk, -⟩ | ⟨hk, -⟩⟩ :=
              dispatch_sender cfg.initialWindowSize (sh.setFrames w c) hold hkey
            · rw [hk] at hs
              exact hold.trans hs
            · rw [hk] at hs
              contradiction
      · rwa [(dispatch_other _ _ _ _).1 id hkey] at hs
  | move pc hfrom hto => exact .inl hs
  | shutdown hpc => simp [Worker.sender] at hs
  | exit hpc => exact .inl hs

theorem Registrations.queued_sender {s : MuxState} (hR : Registrations s) {w : Shard}
    {id : StreamId} {r : ChanRef} (h : .openStream id r ∈ (s.shared.reg w).queue) :
    (s.workers w).sender id = none := by
  obtain ⟨-, -, hun⟩ := hR.queued w id (mem_openIds.2 ⟨r, h⟩)
  cases hs : (s.workers w).sender id with
  | none => rfl
  | some r' => exact absurd (Worker.knows_of_sender hs) hun

theorem Registrations.not_closing {s : MuxState} (hR : Registrations s) (w : Shard)
    (id : StreamId) (r : ChanRef) : .openStream id r ∉ (s.shared.closeReg w).queue := by
  intro h
  have := hR.closeKinds w _ h
  simp [StreamRegistration.isOpening] at this

/-- A worker's queue of opens only shrinks when it moves. -/
theorem WorkerRegs.regs_subset {w : Shard} {k k' : Worker} {sh sh' : Shared}
    (h : WorkerRegs w k sh k' sh') (v : Shard) :
    ∀ reg ∈ (sh'.reg v).queue, reg ∈ (sh.reg v).queue := by
  intro reg hreg
  cases h with
  | takeClose taken rest hfrom hqueue _ hregs hknows hpc => rwa [hregs] at hreg
  | takeReg taken rest hqueue hregs _ hknows hpc =>
      rw [hregs] at hreg
      split at hreg
      · next hv =>
          rw [hv, hqueue]
          exact List.mem_cons_of_mem _ hreg
      · exact hreg
  | keep hregs _ hknows hpc => rwa [hregs] at hreg
  | exit hpc hk hregs _ =>
      rw [hregs] at hreg
      split at hreg
      · simp at hreg
      · exact hreg

theorem EnqueuesOpen.mem {sh sh' : Shared} {i id : StreamId} {r r' : ChanRef} {w : Shard}
    (h : EnqueuesOpen sh sh' i r') (hq : .openStream id r ∈ (sh'.reg w).queue) :
    .openStream id r ∈ (sh.reg w).queue ∨ id = i ∧ r = r' := by
  rw [h.queue, List.mem_append] at hq
  refine hq.imp_right fun hq => ?_
  split at hq
  · simpa using hq
  · simp at hq

theorem step_senders {cfg : MuxConfig} {s s' : MuxState} {a : Act} (hO : SynOrder s)
    (hW : Ownership s) (hR : Registrations s) (hI : Senders s)
    (h : step cfg s a = some s') : Senders s' := by
  have hnames : ∀ {r : ChanRef} {id : StreamId}, Names s r id → Names s' r id :=
    fun hn => step_names hW h hn
  obtain ⟨p, c, sh, pr, rfl, hc, rfl⟩ | ⟨p, sh, pr, z, rfl, -, -, hb, rfl⟩ |
    ⟨z, sh, pr, z', rfl, hz, hr, rfl⟩ | ⟨c, sh, r, rfl, hr, rfl⟩ |
    ⟨w, order, k, sh, rfl, hw, rfl⟩ | ⟨c, sh, wr, rfl, hw, rfl⟩ | ⟨rfl, rfl⟩ := step_cases h
  · exact ⟨fun w id r hs => hnames (hI.entries w id r hs),
      fun w id r hq => hnames (hI.queued w id r ((client_footprint hc).reg ▸ hq))⟩
  · exact ⟨fun w id r hs => hnames (hI.entries w id r hs),
      fun w id r hq => hnames (hI.queued w id r ((realizeBegin_regs hb).1 ▸ hq))⟩
  · refine ⟨fun w id r hs => hnames (hI.entries w id r hs), fun w id r hq => ?_⟩
    obtain ⟨-, herr, hdata⟩ := hW.realizing z hz
    obtain ⟨hmod, -⟩ := hO.opening z hz
    have hne : (s.pairs z.pair).errorId ≠ 0 := by
      intro h0
      rw [← herr, h0] at hmod
      simp at hmod
    rcases realizeStep_reg hr with ⟨hreg, -⟩ | ⟨-, -, -, hopen, -⟩ | ⟨-, -, -, hopen, -⟩
    · exact hnames (hI.queued w id r (by simpa only [hreg] using hq))
    · rcases hopen.mem hq with hq | ⟨rfl, rfl⟩
      · exact hnames (hI.queued w id r hq)
      · exact hnames ⟨hne, herr⟩
    · rcases hopen.mem hq with hq | ⟨rfl, rfl⟩
      · exact hnames (hI.queued w id r hq)
      · exact hnames ⟨hne, hdata⟩
  · refine ⟨hI.entries, fun w id r hq => ?_⟩
    rcases reader_reg hr with hreg | ⟨v, delta, mc, mf, -, -, -, rfl⟩
    · exact hI.queued w id r (hreg ▸ hq)
    · by_cases hv : w = v
      · subst hv
        simp only [Shared.setReg, Function.update_self] at hq
        rcases sendOrDrop_mem hq with hq | hq
        · exact hI.queued w id r hq
        · contradiction
      · simp only [Shared.setReg, Function.update_of_ne hv] at hq
        exact hI.queued w id r hq
  · have hmove := workerMove_of_step hw
    refine ⟨fun v id r hs => ?_, fun v id r hq => hI.queued v id r
      (hmove.regs.regs_subset v _ hq)⟩
    by_cases hv : v = w
    · subst hv
      simp only [Function.update_self] at hs
      rcases hmove.sender_back hs (fun _ _ => hR.queued_sender) (hR.not_closing v) with hs | hq
      · exact hI.entries v id r hs
      · exact hI.queued v id r hq
    · simp only [Function.update_of_ne hv] at hs
      exact hI.entries v id r hs
  · exact ⟨hI.entries, fun w id r hq => hI.queued w id r ((writer_footprint hw).reg ▸ hq)⟩
  · exact ⟨hI.entries, hI.queued⟩

theorem senders_invariant (cfg : MuxConfig) : (mux cfg).Invariant anyStep Senders :=
  Invariant.of_step_using
    (Invariant.and (synOrder_invariant cfg)
      (Invariant.and (ownership_invariant cfg) (registrations_invariant cfg)))
    (senders_init cfg) fun _ _ _ hJ hI _ h => step_senders hJ.1 hJ.2.1 hJ.2.2 hI h

end KubePortForward.Mux
