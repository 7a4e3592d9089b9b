import KubePortForward.Mux.EndOfStream

/-!
# Reading a stream to its end

The read side of `stream.rs` by itself: two inbound channels, a `Stream` that reads the
data channel through `poll_read`, `poll_fill_buf` and `consume` in any order, and at some
point its `split` into a `DataStream`, which goes on with what is buffered, and an
`ErrorStream`.  Whoever sends on the channels may send any chunks at any time and may
stop.  The first call that reads realizes the pair, which can fail; a failed realization
drops both senders, and every later call fails.

## Main results

* `ReadsOk` — bytes are neither lost nor repeated, and an end that was seen is one.
* `reads_drain` — so the calls return the chunks in order, and nothing only at the end.
-/

namespace KubePortForward.Mux

open KubePortForward.Codec
open KubePortForward.Verified.Channel
open KubePortForward.Verified.Transition

/-- Whether the pair is on the wire. -/
inductive WireState where
  | unopened
  | opened
  | broken
  deriving DecidableEq, Repr

/-- What a call returned: nothing yet, an error, the bytes put in the caller's buffer, or
the slice the caller may look at. -/
inductive ReadReturn where
  | pending
  | failed
  | read (kind : HalfKind) (bytes : Bytes)
  | filled (slice : Bytes)
  deriving DecidableEq, Repr

/-- The two channels and the read sides.  There is no error half before the split. -/
structure ReadState where
  data : DataChan
  error : DataChan
  dataHalf : ReadHalf := {}
  errorHalf : Option ReadHalf := none
  wireState : WireState := .unopened
  returned : Option ReadReturn := none

/-- What the senders of the channels and the owner of the stream do.  A call that
realizes the pair is told whether it can. -/
inductive ReadAct where
  | send (kind : HalfKind) (chunk : Bytes)
  | dropSender (kind : HalfKind)
  | pollRead (kind : HalfKind) (room : Nat) (realizes : Bool)
  | pollFillBuf (realizes : Bool)
  | consume (amt : Nat)
  | split

def ReadState.chan (s : ReadState) : HalfKind → DataChan
  | .data => s.data
  | .error => s.error

def ReadState.setChan (s : ReadState) (c : DataChan) : HalfKind → ReadState
  | .data => { s with data := c }
  | .error => { s with error := c }

/-- The read side of a channel, or how it will start. -/
def ReadState.half (s : ReadState) : HalfKind → ReadHalf
  | .data => s.dataHalf
  | .error => s.errorHalf.getD {}

def ReadState.setHalf (s : ReadState) (h : ReadHalf) : HalfKind → ReadState
  | .data => { s with dataHalf := h }
  | .error => { s with errorHalf := some h }

/-- Someone reads the channel. -/
def ReadState.readable (s : ReadState) : HalfKind → Bool
  | .data => true
  | .error => s.errorHalf.isSome

/-- The sender of a channel goes away. -/
def DataChan.dropSender (c : DataChan) : DataChan := { c with txAlive := false }

/-- A non-empty chunk is sent on a channel that has room. -/
def DataChan.send (c : DataChan) (chunk : Bytes) : Option DataChan :=
  if c.txAlive = true ∧ chunk ≠ [] then
    match c.chan.trySend chunk with
    | .ok ch => some { c with chan := ch, delivered := c.delivered ++ [chunk] }
    | .error _ => none
  else none

/-- `ensure_open` and `ensure_shared_open`: whether the call may go on, and the stream
afterwards. -/
def ReadState.ensureOpen (realizes : Bool) (s : ReadState) : Bool × ReadState :=
  match s.wireState, realizes with
  | .opened, _ => (true, s)
  | .unopened, true => (true, { s with wireState := .opened })
  | .unopened, false => (false, { s with
      wireState := .broken
      data := s.data.dropSender
      error := s.error.dropSender })
  | .broken, _ => (false, s)

/-- `poll_read` of `Stream`, `DataStream` and `ErrorStream` with room for some bytes. -/
def ReadState.pollRead (kind : HalfKind) (room : Nat) (realizes : Bool) (s : ReadState) :
    Option ReadState :=
  if s.readable kind = true ∧ 0 < room then
    match s.ensureOpen realizes with
    | (false, s) => some { s with returned := some .failed }
    | (true, s) =>
        match pollReadChannel (s.chan kind) (s.half kind) room with
        | (.pending, _, _) => some { s with returned := some .pending }
        | (.ready bytes, c, h) =>
            some { (s.setChan c kind).setHalf { h with obtained := h.obtained ++ bytes } kind with
              returned := some (.read kind bytes) }
  else none

/-- `poll_fill_buf` of `Stream` and `DataStream`. -/
def ReadState.pollFillBuf (realizes : Bool) (s : ReadState) : ReadState :=
  match s.ensureOpen realizes with
  | (false, s) => { s with returned := some .failed }
  | (true, s) =>
      match pollFillBufChannel (s.data.chan.queue.length + 1) s.data s.dataHalf with
      | (r, c, h) => { s with
          data := c
          dataHalf := h
          returned := some (match r with
            | .pending => .pending
            | .ready slice => .filled slice) }

/-- `consume` of `Stream` and `DataStream`. -/
def ReadState.consume (amt : Nat) (s : ReadState) : ReadState :=
  match consumeChannelBuf s.dataHalf amt with
  | (bytes, h) =>
      { s with dataHalf := { h with obtained := h.obtained ++ bytes }, returned := none }

/-- `Stream::split`: what is buffered stays with the data half. -/
def ReadState.split (s : ReadState) : Option ReadState :=
  if s.errorHalf.isSome then none else some { s with errorHalf := some {} }

def readStep (s : ReadState) : ReadAct → Option ReadState
  | .send kind chunk => ((s.chan kind).send chunk).map fun c => s.setChan c kind
  | .dropSender kind => some (s.setChan (s.chan kind).dropSender kind)
  | .pollRead kind room realizes => s.pollRead kind room realizes
  | .pollFillBuf realizes => some (s.pollFillBuf realizes)
  | .consume amt => some (s.consume amt)
  | .split => s.split

/-- A stream that was reserved with these channel capacities. -/
def reading (dataBuffer errorBuffer : Nat) : System ReadState ReadAct where
  init := { data := DataChan.new dataBuffer, error := DataChan.new errorBuffer }
  step := readStep

/-! ## One half -/

/-- A channel whose receiver exists and the half that reads it. -/
structure HalfReads (c : DataChan) (h : ReadHalf) : Prop where
  live : c.chan.closed = false
  bytes : HalfOk c h
  eof : EofOk c h

theorem HalfReads.dropSender {c : DataChan} {h : ReadHalf} (hI : HalfReads c h) :
    HalfReads c.dropSender h where
  live := hI.live
  bytes := ⟨hI.bytes.bytes, hI.bytes.taken, hI.bytes.chunks, hI.bytes.buffered⟩
  eof := fun heof => ⟨(hI.eof heof).1, (hI.eof heof).2.1, rfl⟩

theorem HalfReads.send {c c' : DataChan} {h : ReadHalf} {chunk : Bytes} (hI : HalfReads c h)
    (hs : c.send chunk = some c') : HalfReads c' h := by
  unfold DataChan.send at hs
  split at hs
  · next hok =>
      split at hs
      · next ch hsend =>
          cases hs
          obtain ⟨-, hroom, rfl⟩ := Chan.trySend_eq_ok.1 hsend
          have hgrow : Grows c { c with
              chan := c.chan.push chunk hroom, delivered := c.delivered ++ [chunk] } [chunk] := by
            refine ⟨rfl, rfl, rfl, ?_, fun _ => hI.live, id⟩
            intro p hp
            rw [List.mem_singleton.1 hp]
            exact hok.2
          refine ⟨hI.live, hI.bytes.grows hgrow, fun heof => ?_⟩
          -- a half that has seen the end has no sender any more
          exact absurd hok.1 (by rw [(hI.eof heof).2.2]; decide)
      · contradiction
  · contradiction

/-- Zero bytes are read only at the end. -/
theorem pollReadChannel_nil {c c' : DataChan} {h h' : ReadHalf} {n : Nat} (hI : HalfReads c h)
    (hn : 0 < n) (hr : pollReadChannel c h n = (.ready [], c', h')) : h'.readEof = true := by
  obtain ⟨hqueue, hbuf, htx⟩ := pollReadChannel_empty hI.bytes hI.eof hn hr
  unfold pollReadChannel at hr
  split at hr
  · next heof =>
      cases hr
      exact heof
  · simp only [hbuf] at hr
    split at hr
    · next hrecv =>
        rw [Chan.recv_eq_some hrecv] at hqueue
        contradiction
    · rw [if_neg (by simp [htx])] at hr
      cases hr
      rfl

/-- And only then is there nothing to look at. -/
theorem pollFillBufChannel_nil {fuel : Nat} {c c' : DataChan} {h h' : ReadHalf}
    (hr : pollFillBufChannel fuel c h = (.ready [], c', h')) : h'.readEof = true := by
  induction fuel generalizing c h with
  | zero => cases hr
  | succ fuel ih =>
      rw [pollFillBufChannel] at hr
      split at hr
      · cases hr
      · split at hr
        · next heof =>
            cases hr
            exact heof
        · split at hr
          · exact ih hr
          · split at hr
            · cases hr
            · cases hr
              rfl

theorem HalfReads.read {c c' : DataChan} {h h' : ReadHalf} {n : Nat} {bytes : Bytes}
    (hI : HalfReads c h) (hr : pollReadChannel c h n = (.ready bytes, c', h')) :
    HalfReads c' { h' with obtained := h'.obtained ++ bytes } where
  live := by
    have hclosed := pollReadChannel_closed c h n
    rw [hr] at hclosed
    rw [hclosed, hI.live]
  bytes := hI.bytes.read hI.live hr
  eof := hI.eof.read hr

theorem HalfReads.fill {c : DataChan} {h : ReadHalf} (fuel : Nat) (hI : HalfReads c h) :
    HalfReads (pollFillBufChannel fuel c h).2.1 (pollFillBufChannel fuel c h).2.2 where
  live := by rw [pollFillBufChannel_closed, hI.live]
  bytes := hI.bytes.fill fuel hI.live
  eof := hI.eof.fill fuel

theorem HalfReads.consume {c : DataChan} {h : ReadHalf} (amt : Nat) (hI : HalfReads c h) :
    HalfReads c { (consumeChannelBuf h amt).2 with
      obtained := (consumeChannelBuf h amt).2.obtained ++ (consumeChannelBuf h amt).1 } where
  live := hI.live
  bytes := hI.bytes.consume amt hI.live
  eof := hI.eof.consume amt

/-- At the end everything was returned. -/
theorem HalfReads.drained {c : DataChan} {h : ReadHalf} (hI : HalfReads c h)
    (heof : h.readEof = true) : c.txAlive = false ∧ h.obtained = c.delivered.flatten := by
  obtain ⟨hqueue, hbuf, htx⟩ := hI.eof heof
  have hbytes := hI.bytes.bytes hI.live
  rw [hqueue, hbuf, Option.getD_none, List.flatten_nil, List.append_nil, List.append_nil] at hbytes
  exact ⟨htx, hbytes⟩

/-! ## The stream -/

/-- The call found the end of the channel. -/
def ReadReturn.ends (kind : HalfKind) : ReadReturn → Prop
  | .read kind' bytes => kind' = kind ∧ bytes = []
  | .filled slice => kind = .data ∧ slice = []
  | _ => False

/-- Both halves account for their channels, and an end that was reported was seen. -/
structure ReadsOk (s : ReadState) : Prop where
  halves : ∀ kind, HalfReads (s.chan kind) (s.half kind)
  ended : ∀ kind r, s.returned = some r → r.ends kind → (s.half kind).readEof = true

theorem readsOk_init (dataBuffer errorBuffer : Nat) :
    ReadsOk (reading dataBuffer errorBuffer).init where
  halves := by
    intro kind
    cases kind <;> exact ⟨rfl, HalfOk.fresh _, by simp [EofOk, reading, ReadState.half]⟩
  ended := by simp [reading]

/-- A change of one channel and of its half leaves the other alone. -/
theorem ReadsOk.set {s : ReadState} {c : DataChan} {h : ReadHalf} (hI : ReadsOk s)
    (kind : HalfKind) (hreads : HalfReads c h) (kind' : HalfKind) :
    HalfReads (((s.setChan c kind).setHalf h kind).chan kind')
      (((s.setChan c kind).setHalf h kind).half kind') := by
  have hother := hI.halves kind'
  cases kind <;> cases kind' <;> first
    | exact hreads
    | exact hother

theorem ReadsOk.setChan {s : ReadState} {kind : HalfKind} {c : DataChan} (hI : ReadsOk s)
    (hreads : HalfReads c (s.half kind)) : ReadsOk (s.setChan c kind) where
  halves := by
    intro kind'
    have hother := hI.halves kind'
    cases kind <;> cases kind' <;> first
      | exact hreads
      | exact hother
  ended := by
    have hended := hI.ended
    cases kind <;> exact hended

/-- A call that returns no end. -/
theorem ReadsOk.returns {s : ReadState} {r : ReadReturn} (hI : ReadsOk s)
    (hr : ∀ kind, ¬ r.ends kind) : ReadsOk { s with returned := some r } where
  halves := hI.halves
  ended := by
    intro kind r' hr' hends
    cases hr'
    exact absurd hends (hr kind)

theorem ReadsOk.ensureOpen {s : ReadState} (realizes : Bool) (hI : ReadsOk s) :
    ReadsOk (s.ensureOpen realizes).2 := by
  unfold ReadState.ensureOpen
  split
  · exact hI
  · exact ⟨hI.halves, hI.ended⟩
  · refine ⟨fun kind => ?_, hI.ended⟩
    have hhalf := (hI.halves kind).dropSender
    cases kind <;> exact hhalf
  · exact hI

theorem ReadsOk.pollRead {s s' : ReadState} {kind : HalfKind} {room : Nat} {realizes : Bool}
    (hI : ReadsOk s) (hs : s.pollRead kind room realizes = some s') : ReadsOk s' := by
  have hopen := hI.ensureOpen realizes
  unfold ReadState.pollRead at hs
  split at hs
  · next hguard =>
      split at hs
      · next t ht =>
          cases hs
          rw [ht] at hopen
          exact hopen.returns (by simp [ReadReturn.ends])
      · next t ht =>
          rw [ht] at hopen
          split at hs
          · cases hs
            exact hopen.returns (by simp [ReadReturn.ends])
          · next bytes c h hread =>
              cases hs
              refine ⟨hopen.set kind ((hopen.halves kind).read hread), ?_⟩
              rintro kind' r hr hends
              cases hr
              obtain ⟨rfl, rfl⟩ := hends
              have heof := pollReadChannel_nil (hopen.halves kind) hguard.2 hread
              cases kind <;> exact heof
  · contradiction

theorem ReadsOk.pollFillBuf {s : ReadState} (realizes : Bool) (hI : ReadsOk s) :
    ReadsOk (s.pollFillBuf realizes) := by
  have hopen := hI.ensureOpen realizes
  unfold ReadState.pollFillBuf
  split
  · next t ht =>
      rw [ht] at hopen
      exact hopen.returns (by simp [ReadReturn.ends])
  · next t ht =>
      rw [ht] at hopen
      have hfill := (hopen.halves .data).fill (t.data.chan.queue.length + 1)
      split
      · next r c h hr =>
          have hdata : pollFillBufChannel (t.data.chan.queue.length + 1) (t.chan .data)
              (t.half .data) = (r, c, h) := hr
          rw [hdata] at hfill
          refine ⟨hopen.set .data hfill, ?_⟩
          intro kind r' hr' hends
          cases r with
          | pending =>
              cases hr'
              exact absurd hends (by simp [ReadReturn.ends])
          | ready slice =>
              cases hr'
              obtain ⟨rfl, rfl⟩ := hends
              exact pollFillBufChannel_nil hdata

theorem ReadsOk.consume {s : ReadState} (amt : Nat) (hI : ReadsOk s) :
    ReadsOk (s.consume amt) where
  halves := hI.set .data ((hI.halves .data).consume amt)
  ended := by simp [ReadState.consume]

theorem ReadsOk.split {s s' : ReadState} (hI : ReadsOk s) (hs : s.split = some s') :
    ReadsOk s' := by
  unfold ReadState.split at hs
  split at hs
  · contradiction
  · next hwhole =>
      cases hs
      have hnone : s.errorHalf = none := by simpa using hwhole
      have hsame : ∀ kind, ({ s with errorHalf := some {} } : ReadState).half kind = s.half kind := by
        intro kind
        cases kind with
        | data => rfl
        | error => simp [ReadState.half, hnone]
      refine ⟨fun kind => ?_, fun kind r hr hends => ?_⟩
      · rw [hsame]
        have hhalf := hI.halves kind
        cases kind <;> exact hhalf
      · rw [hsame]
        exact hI.ended kind r hr hends

theorem readStep_readsOk {s s' : ReadState} {a : ReadAct} (hI : ReadsOk s)
    (hs : readStep s a = some s') : ReadsOk s' := by
  cases a with
  | send kind chunk =>
      obtain ⟨c, hc, rfl⟩ := Option.map_eq_some_iff.1 hs
      exact hI.setChan ((hI.halves kind).send hc)
  | dropSender kind =>
      cases hs
      exact hI.setChan (hI.halves kind).dropSender
  | pollRead kind room realizes => exact hI.pollRead hs
  | pollFillBuf realizes =>
      cases hs
      exact hI.pollFillBuf realizes
  | consume amt =>
      cases hs
      exact hI.consume amt
  | split => exact hI.split hs

theorem readsOk_invariant (dataBuffer errorBuffer : Nat) :
    (reading dataBuffer errorBuffer).Invariant anyStep ReadsOk :=
  Invariant.of_step (readsOk_init dataBuffer errorBuffer)
    fun _ _ _ hI _ hs => readStep_readsOk hI hs

/-- Whatever was called and sent so far, split or not: what was returned and removed,
what is buffered and what is queued are together the chunks sent, in order; and a call
has returned nothing only if the channel is closed and every chunk was returned. -/
theorem reads_drain (dataBuffer errorBuffer : Nat) (acts : List ReadAct) (s : ReadState)
    (hrun : (reading dataBuffer errorBuffer).run (reading dataBuffer errorBuffer).init acts =
      some s) (kind : HalfKind) :
    (s.half kind).obtained ++ ((s.half kind).readBuf.getD [] ++
        (s.chan kind).chan.queue.flatten) = (s.chan kind).delivered.flatten ∧
      (s.returned = some (.read kind []) ∨ (kind = .data ∧ s.returned = some (.filled [])) →
        (s.chan kind).txAlive = false ∧
          (s.half kind).obtained = (s.chan kind).delivered.flatten) := by
  have hI := readsOk_invariant dataBuffer errorBuffer acts s hrun (meets_anyStep _ _)
  have hhalf := hI.halves kind
  refine ⟨?_, ?_⟩
  · rw [← List.append_assoc]
    exact hhalf.bytes.bytes hhalf.live
  · rintro (hread | ⟨rfl, hfilled⟩)
    · exact hhalf.drained (hI.ended kind _ hread ⟨rfl, rfl⟩)
    · exact hhalf.drained (hI.ended .data _ hfilled ⟨rfl, rfl⟩)

/-- Two chunks, one read in two parts, the other through the buffer after the split, and
the end. -/
def drainedActs : List ReadAct :=
  [.pollRead .data 4 true, .send .data [1, 2, 3], .send .data [4, 5], .pollRead .data 2 true,
    .split, .pollFillBuf true, .consume 9, .pollFillBuf true, .consume 1, .dropSender .data,
    .pollRead .data 8 true, .pollRead .data 8 true]

theorem reads_drain_split :
    ∃ s, (reading 2 2).run (reading 2 2).init drainedActs = some s ∧
      s.returned = some (.read .data []) ∧ s.data.txAlive = false ∧
      s.dataHalf.obtained = [1, 2, 3, 4, 5] := by
  have hchecked : ((reading 2 2).run (reading 2 2).init drainedActs).map
      (fun s => (s.returned, s.data.delivered)) =
      some (some (.read .data []), [[1, 2, 3], [4, 5]]) := by decide +kernel
  obtain ⟨s, hrun, hs⟩ := Option.map_eq_some_iff.1 hchecked
  simp only [Prod.mk.injEq] at hs
  obtain ⟨htx, hall⟩ := (reads_drain 2 2 drainedActs s hrun .data).2 (.inl hs.1)
  have hdelivered : (s.chan .data).delivered = [[1, 2, 3], [4, 5]] := hs.2
  rw [hdelivered] at hall
  exact ⟨s, hrun, hs.1, htx, hall⟩

end KubePortForward.Mux
