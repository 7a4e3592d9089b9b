import KubePortForward.Verified.Simulation
import KubePortForward.Mux.Chunking
import KubePortForward.Mux.Inbound

/-!
# The transport below the reader

`spdy-mux/src/transport.rs` and the loop of `run_reader` around it.  SPDY frames come in
the binary messages of a WebSocket, or as they are over an upgraded connection.  Either
adapter turns what it reads into messages; the reader appends the binary ones to its
buffer, decodes frames off the front of it and routes each of them before it decodes the
next, while every other task of the connection goes on.

The connection of `Mux.System` leaves open what its reader receives.  Here it receives what
the octets say.

## Main results

* `wired_reaches` — the connection under a transport is the connection of `Mux.System`.
* `read_invariant` — what was routed is what the decode loop takes off the messages.
* `octets_to_bytes` — from the octets of the transport to the bytes of a stream's owner.
* `transports_agree` — a tunnel and a raw connection with the same octets.
* `held_octets_bounded` — how much a reader holds on to.
-/

namespace KubePortForward.Mux

open KubePortForward.Codec
open KubePortForward.Verified.Framing
open KubePortForward.Verified.Transition

/-! ## The adapters -/

/-- `fastwebsockets::OpCode`. -/
inductive OpCode where
  | continuation
  | text
  | binary
  | close
  | ping
  | pong
  deriving DecidableEq, Repr

structure WsFrame where
  opcode : OpCode
  payload : Bytes
  deriving DecidableEq, Repr

/-- What `FragmentCollectorRead::read_frame` returns. -/
inductive WsRead where
  | frame (f : WsFrame)
  | connectionClosed
  | failed (message : String)
  deriving DecidableEq, Repr

/-- What `read_buf` returns: the octets that were read, none of them at the end. -/
inductive RawRead where
  | octets (chunk : Bytes)
  | failed (message : String)
  deriving DecidableEq, Repr

inductive TransportError where
  | fastWebSocket (message : String)
  | io (message : String)
  deriving DecidableEq, Repr

inductive WsMessage where
  | binary (payload : Bytes)
  | ping (payload : Bytes)
  | close
  deriving DecidableEq, Repr

/-- What `read_message` returns. -/
inductive Read where
  | message (m : WsMessage)
  | failed (e : TransportError)
  | eof
  deriving DecidableEq, Repr

/-- One round of the loop of `FastWsReader::read_message`; `none` when the frame is absorbed
and the next one is read. -/
def fastWsRead : WsRead → Option Read
  | .frame ⟨.binary, payload⟩ => some (.message (.binary payload))
  | .frame ⟨.ping, payload⟩ => some (.message (.ping payload))
  | .frame ⟨.close, _⟩ => some (.message .close)
  | .frame ⟨.pong, _⟩ => none
  | .frame ⟨.text, _⟩ => none
  | .frame ⟨.continuation, _⟩ => none
  | .connectionClosed => some .eof
  | .failed message => some (.failed (.fastWebSocket message))

/-- `RawSpdyReader::read_message`, over the buffer that `read_buf` appends to. -/
def rawRead (buf : Bytes) : RawRead → Read × Bytes
  | .octets [] => (.eof, buf)
  | .octets chunk => (.message (.binary (buf ++ chunk)), [])
  | .failed message => (.failed (.io message), buf)

/-! ## A connection and its transport -/

inductive Transport where
  | fastWs
  | rawSpdy
  deriving DecidableEq, Repr

inductive WiredAct where
  | ws (r : WsRead)
  | raw (r : RawRead)
  | decode
  | env (a : Act)
  deriving DecidableEq, Repr

/-- A connection, the codec and the buffer of its reader, and the buffer of a raw transport.
While `decoding`, the reader is in the loop over the frames of a message.  `received` is
history: the binary messages. -/
structure Wired (F : Flate) where
  mux : MuxState
  loop : ReadLoop F
  frameBuf : Bytes := []
  decoding : Bool := false
  rawBuf : Bytes := []
  received : List Bytes := []

/-- What `run_reader` does first with what it has read. -/
def Read.act : Read → Act
  | .message (.binary _) => .reader .message
  | .message (.ping payload) => .reader (.wsPing payload)
  | .message .close => .reader .exit
  | .failed _ => .reader .exit
  | .eof => .reader .exit

/-- What `run_reader` does with the outcome of a round of its decode loop. -/
def ReadAction.act : ReadAction → Option Act
  | .route frame => some (.reader (.receive frame))
  | .reset id => some (.reader (.tooLarge id))
  | .fatal _ => some (.reader .exit)
  | .diverge => none

/-- What the tasks of the connection do by themselves: the reader reads only through the
transport, and looks at its timers and its token only between messages. -/
def Act.apart (decoding : Bool) : Act → Bool
  | .reader (.receive _) => false
  | .reader (.tooLarge _) => false
  | .reader (.wsPing _) => false
  | .reader .message => false
  | .reader .idleProbe => !decoding
  | .reader .exit => !decoding
  | _ => true

variable {F : Flate}

namespace Wired

/-- The reader is about to select on `read_message`. -/
def waiting (s : Wired F) : Bool := !s.decoding && decide (s.mux.reader.pc = .idle)

/-- A message has been returned: the octets of a binary one are appended to the buffer. -/
def took (s : Wired F) : Read → Wired F
  | .message (.binary payload) =>
      { s with frameBuf := s.frameBuf ++ payload, decoding := true
               received := s.received ++ [payload] }
  | _ => s

def setMux (s : Wired F) (m : MuxState) : Wired F := { s with mux := m }

end Wired

def wiredStep (cfg : MuxConfig) (transport : Transport) (s : Wired F) :
    WiredAct → Option (Wired F)
  | .ws r =>
      if transport = .fastWs ∧ s.waiting = true then
        match fastWsRead r with
        | some read => (step cfg s.mux read.act).map (s.took read).setMux
        | none => some s
      else none
  | .raw r =>
      if transport = .rawSpdy ∧ s.waiting = true then
        match rawRead s.rawBuf r with
        | (read, rest) =>
            (step cfg s.mux read.act).map fun m => { (s.took read).setMux m with rawBuf := rest }
      else none
  | .decode =>
      if s.decoding = true ∧ s.mux.reader.pc = .idle then
        match readNext s.loop s.frameBuf with
        | none => some { s with decoding := false }
        | some (action, loop, rest) =>
            action.act.bind fun a => (step cfg s.mux a).map fun m =>
              { s with mux := m, loop := loop, frameBuf := rest, decoding := loop.running }
      else none
  | .env a => if a.apart s.decoding then (step cfg s.mux a).map s.setMux else none

/-- The state of the reader's codec when the connection is spawned. -/
def ReadLoop.start (F : Flate) (cfg : MuxConfig) : ReadLoop F :=
  ⟨.withMaxFrameSize F cfg.maxFrameSize, true⟩

/-- A connection over a transport. -/
def wired (F : Flate) (cfg : MuxConfig) (transport : Transport) : System (Wired F) WiredAct where
  init := { mux := MuxState.init cfg, loop := .start F cfg }
  step := wiredStep cfg transport

/-! ## What a step is -/

/-- What the step makes the tasks of the connection do. -/
def Wired.acts (s : Wired F) : WiredAct → Option Act
  | .ws r => (fastWsRead r).map Read.act
  | .raw r => some (rawRead s.rawBuf r).1.act
  | .decode => (readNext s.loop s.frameBuf).bind fun x => x.1.act
  | .env a => some a

/-- The octets that are read for the connection. -/
def WiredAct.octets : WiredAct → Bytes
  | .ws (.frame ⟨.binary, payload⟩) => payload
  | .raw (.octets chunk) => chunk
  | _ => []

def Read.octets : Read → Bytes
  | .message (.binary payload) => payload
  | _ => []

/-- A WebSocket passes on the octets of its binary frames. -/
theorem fastWsRead_octets (r : WsRead) :
    (WiredAct.ws r).octets = ((fastWsRead r).map Read.octets).getD [] := by
  cases r with
  | frame f =>
      obtain ⟨opcode, payload⟩ := f
      cases opcode <;> rfl
  | connectionClosed => rfl
  | failed message => rfl

/-- A raw transport passes on what it has read, and keeps nothing. -/
theorem rawRead_octets (r : RawRead) :
    (rawRead [] r).1.octets = (WiredAct.raw r).octets ∧ (rawRead [] r).2 = [] := by
  cases r with
  | octets chunk => cases chunk <;> exact ⟨rfl, rfl⟩
  | failed message => exact ⟨rfl, rfl⟩

section

variable {cfg : MuxConfig} {transport : Transport} {s s' : Wired F} {a : WiredAct}

/-- A message is returned, a frame is absorbed, the decode loop ends or goes through a
round, or another task moves. -/
theorem wiredStep_cases (h : wiredStep cfg transport s a = some s') :
    (∃ read rest m, s.waiting = true ∧ s.acts a = some read.act ∧
      step cfg s.mux read.act = some m ∧ s' = { (s.took read).setMux m with rawBuf := rest } ∧
      (s.rawBuf = [] → rest = [] ∧ read.octets = a.octets)) ∨
    (a.octets = [] ∧ s' = s) ∨
    (a = .decode ∧ readNext s.loop s.frameBuf = none ∧ s' = { s with decoding := false }) ∨
    (∃ action loop rest b m, a = .decode ∧ s.decoding = true ∧
      readNext s.loop s.frameBuf = some (action, loop, rest) ∧ action.act = some b ∧
      step cfg s.mux b = some m ∧
      s' = { s with mux := m, loop := loop, frameBuf := rest, decoding := loop.running }) ∨
    (∃ b m, a = .env b ∧ b.apart s.decoding = true ∧ step cfg s.mux b = some m ∧
      s' = s.setMux m) := by
  cases a with
  | ws r =>
      have hoctets := fastWsRead_octets r
      simp only [wiredStep] at h
      split at h
      · next hwait =>
          split at h
          · next read hread =>
              obtain ⟨m, hstep, rfl⟩ := Option.map_eq_some_iff.mp h
              rw [hread] at hoctets
              refine .inl ⟨read, s.rawBuf, m, hwait.2, ?_, hstep, ?_, fun hraw => ⟨hraw, hoctets.symm⟩⟩
              · show (fastWsRead r).map Read.act = _
                rw [hread]
                rfl
              · cases read with
                | message msg => cases msg <;> rfl
                | failed e => rfl
                | eof => rfl
          · next hread =>
              rw [hread] at hoctets
              exact .inr (.inl ⟨hoctets, (Option.some.inj h).symm⟩)
      · cases h
  | raw r =>
      simp only [wiredStep] at h
      split at h
      · next hwait =>
          obtain ⟨m, hstep, rfl⟩ := Option.map_eq_some_iff.mp h
          refine .inl ⟨(rawRead s.rawBuf r).1, (rawRead s.rawBuf r).2, m, hwait.2, rfl, hstep, rfl, ?_⟩
          intro hraw
          rw [hraw]
          exact ⟨(rawRead_octets r).2, (rawRead_octets r).1⟩
      · cases h
  | decode =>
      simp only [wiredStep] at h
      split at h
      · next hgo =>
          split at h
          · next hnone => exact .inr (.inr (.inl ⟨rfl, hnone, (Option.some.inj h).symm⟩))
          · next action loop rest hsome =>
              obtain ⟨b, hb, h⟩ := Option.bind_eq_some_iff.mp h
              obtain ⟨m, hstep, rfl⟩ := Option.map_eq_some_iff.mp h
              exact .inr (.inr (.inr (.inl ⟨action, loop, rest, b, m, rfl, hgo.1, hsome, hb, hstep,
                rfl⟩)))
      · cases h
  | env b =>
      simp only [wiredStep] at h
      split at h
      · next hapart =>
          obtain ⟨m, hstep, rfl⟩ := Option.map_eq_some_iff.mp h
          exact .inr (.inr (.inr (.inr ⟨b, m, rfl, hapart, hstep, rfl⟩)))
      · cases h

/-- The tasks of the connection do what their own system allows. -/
theorem wiredStep_mux (h : wiredStep cfg transport s a = some s') :
    s'.mux = s.mux ∨ ∃ b, s.acts a = some b ∧ step cfg s.mux b = some s'.mux := by
  obtain ⟨read, rest, m, -, hacts, hstep, rfl, -⟩ | ⟨-, rfl⟩ | ⟨-, -, rfl⟩ |
    ⟨action, loop, rest, b, m, rfl, -, hnext, hb, hstep, rfl⟩ | ⟨b, m, rfl, -, hstep, rfl⟩ :=
    wiredStep_cases h
  · exact .inr ⟨read.act, hacts, hstep⟩
  · exact .inl rfl
  · exact .inl rfl
  · refine .inr ⟨b, ?_, hstep⟩
    show (readNext s.loop s.frameBuf).bind _ = _
    rw [hnext]
    exact hb
  · exact .inr ⟨b, rfl, hstep⟩

end

/-- What the tasks of the connection are made to do meets the condition. -/
def Underneath (ok : MuxState → Act → Prop) (s : Wired F) (a : WiredAct) : Prop :=
  ∀ b, s.acts a = some b → ok s.mux b

instance (ok : MuxState → Act → Prop) [∀ s a, Decidable (ok s a)] (s : Wired F) (a : WiredAct) :
    Decidable (Underneath ok s a) :=
  match h : s.acts a with
  | none => .isTrue fun _ hb => by rw [h] at hb; cases hb
  | some b =>
      decidable_of_iff (ok s.mux b)
        ⟨fun hok _ hb => by rw [h] at hb; cases hb; exact hok, fun hok => hok b h⟩

theorem wired_reaches (F : Flate) (cfg : MuxConfig) (transport : Transport)
    (ok : MuxState → Act → Prop) :
    (wired F cfg transport).Invariant (Underneath ok) fun s => (mux cfg).Reaches ok s.mux := by
  refine simulation Wired.mux (J := fun _ => True) (fun _ _ _ _ => trivial) rfl ?_
  intro s a s' _ hok h
  rcases wiredStep_mux h with hsame | ⟨b, hb, hstep⟩
  · exact .inl hsame
  · exact .inr ⟨b, hok b hb, hstep⟩

/-! ## What is routed -/

theorem waiting_iff {s : Wired F} :
    s.waiting = true ↔ s.decoding = false ∧ s.mux.reader.pc = .idle := by
  rw [Wired.waiting, Bool.and_eq_true, Bool.not_eq_true', decide_eq_true_eq]

def ReadAction.routed : ReadAction → Option Frame
  | .route frame => some frame
  | _ => none

/-- The frames among what the decode loop does. -/
def routes (actions : List ReadAction) : List Frame := actions.filterMap ReadAction.routed

/-- What the decode loop still takes off the buffer. -/
def Wired.ahead (s : Wired F) : List ReadAction × ReadLoop F × Bytes :=
  drain readNext s.frameBuf.length s.loop s.frameBuf

/-- All that the messages so far make of the decode loop is what was done and what is still
ahead. -/
structure Reads (cfg : MuxConfig) (s : Wired F) : Prop where
  done : ∃ actions, routes actions = s.mux.shared.history.routed ∧
    readChunks (.start F cfg) s.received = (actions ++ s.ahead.1, s.ahead.2)
  waits : s.decoding = false → readNext s.loop s.frameBuf = none

theorem readChunks_snoc (s : ReadLoop F) (chunks : List Bytes) (chunk : Bytes) :
    readChunks s (chunks ++ [chunk]) =
      ((readChunks s chunks).1 ++
        (drain readNext ((readChunks s chunks).2.2 ++ chunk).length (readChunks s chunks).2.1
          ((readChunks s chunks).2.2 ++ chunk)).1,
        (drain readNext ((readChunks s chunks).2.2 ++ chunk).length (readChunks s chunks).2.1
          ((readChunks s chunks).2.2 ++ chunk)).2) := by
  unfold readChunks
  generalize ([] : Bytes) = buf
  induction chunks generalizing s buf with
  | nil => simp [feed]
  | cons first chunks ih =>
      rw [List.cons_append, feed_cons, ih, feed_cons]
      simp only [List.append_assoc]

section

variable {cfg : MuxConfig} {transport : Transport} {s s' : Wired F}

/-- A loop that waits has nothing ahead. -/
theorem ahead_of_waits (h : readNext s.loop s.frameBuf = none) :
    s.ahead = ([], s.loop, s.frameBuf) := drain_of_none h

theorem Reads.took (hI : Reads cfg s) (hdone : s.decoding = false) (payload : Bytes) (m : MuxState)
    (hrouted : m.shared.history.routed = s.mux.shared.history.routed) (rest : Bytes) :
    Reads cfg { (s.took (.message (.binary payload))).setMux m with rawBuf := rest } := by
  obtain ⟨actions, hroutes, hreads⟩ := hI.done
  rw [ahead_of_waits (hI.waits hdone), List.append_nil] at hreads
  refine ⟨⟨actions, hroutes.trans hrouted.symm, ?_⟩, fun h => by cases h⟩
  show readChunks _ (s.received ++ [payload]) = _
  rw [readChunks_snoc, hreads]
  rfl

theorem Reads.next (hI : Reads cfg s) {action : ReadAction} {loop : ReadLoop F} {rest : Bytes}
    (hnext : readNext s.loop s.frameBuf = some (action, loop, rest)) {m : MuxState}
    (hrouted : m.shared.history.routed = s.mux.shared.history.routed ++ action.routed.toList) :
    Reads cfg { s with mux := m, loop := loop, frameBuf := rest, decoding := loop.running } := by
  obtain ⟨actions, hroutes, hreads⟩ := hI.done
  have hlt := readNext_consumes _ _ _ _ _ hnext
  have hahead : s.ahead = (action :: (drain readNext rest.length loop rest).1,
      (drain readNext rest.length loop rest).2) := by
    obtain ⟨n, hn⟩ : ∃ n, s.frameBuf.length = n + 1 := ⟨s.frameBuf.length - 1, by omega⟩
    show drain readNext s.frameBuf.length s.loop s.frameBuf = _
    rw [hn, drain_of_some hnext, drain_enough readNext_consumes (by omega)]
  refine ⟨⟨actions ++ [action], ?_, ?_⟩, ?_⟩
  · show routes (actions ++ [action]) = m.shared.history.routed
    rw [hrouted, ← hroutes]
    simp only [routes, List.filterMap_append]
    cases action <;> rfl
  · rw [hahead] at hreads
    show readChunks _ s.received = (_ ++ (drain readNext rest.length loop rest).1, _)
    rw [hreads, List.append_assoc]
    rfl
  · intro hstopped
    have hstopped : loop.running = false := hstopped
    show readNext loop rest = none
    rw [readNext, if_pos (.inl hstopped)]

/-- Other tasks route nothing. -/
theorem Reads.apart (hI : Reads cfg s) {m : MuxState}
    (hrouted : m.shared.history.routed = s.mux.shared.history.routed) (rest : Bytes) :
    Reads cfg { s.setMux m with rawBuf := rest } := by
  obtain ⟨actions, hroutes, hreads⟩ := hI.done
  exact ⟨⟨actions, hroutes.trans hrouted.symm, hreads⟩, hI.waits⟩

theorem wiredStep_reads {a : WiredAct} (hI : Reads cfg s)
    (h : wiredStep cfg transport s a = some s') : Reads cfg s' := by
  obtain ⟨read, rest, m, hwait, -, hstep, rfl, -⟩ | ⟨-, rfl⟩ | ⟨-, hnone, rfl⟩ |
    ⟨action, loop, rest, b, m, rfl, -, hnext, hb, hstep, rfl⟩ | ⟨b, m, rfl, hapart, hstep, rfl⟩ :=
    wiredStep_cases h
  · have hdone := (waiting_iff.mp hwait).1
    have hrouted := step_routed hstep
    cases read with
    | message msg =>
        cases msg with
        | binary payload => exact hI.took hdone payload m (by simpa [Read.act] using hrouted) rest
        | ping payload => exact hI.apart (by simpa [Read.act] using hrouted) rest
        | close => exact hI.apart (by simpa [Read.act] using hrouted) rest
    | failed e => exact hI.apart (by simpa [Read.act] using hrouted) rest
    | eof => exact hI.apart (by simpa [Read.act] using hrouted) rest
  · exact hI
  · obtain ⟨actions, hroutes, hreads⟩ := hI.done
    exact ⟨⟨actions, hroutes, hreads⟩, fun _ => hnone⟩
  · refine hI.next hnext ?_
    rw [step_routed hstep]
    cases action <;> cases hb <;> rfl
  · refine hI.apart ?_ s.rawBuf
    rw [step_routed hstep]
    cases b with
    | reader c =>
        cases c with
        | receive frame => cases hapart
        | _ => exact List.append_nil _
    | _ => exact List.append_nil _

end

theorem read_invariant (F : Flate) (cfg : MuxConfig) (transport : Transport) :
    (wired F cfg transport).Invariant anyStep (Reads cfg) := by
  refine Invariant.of_step ⟨⟨[], rfl, rfl⟩, fun _ => ?_⟩ fun s a s' hI _ h => wiredStep_reads hI h
  simp [wired, readNext]

/-! ## From octets to bytes -/

/-- The octets that are read for the connection in the course of a run. -/
def octetsOf (as : List WiredAct) : Bytes := as.flatMap WiredAct.octets

/-- The frames that the octets hold, one behind the other. -/
def framesIn (F : Flate) (cfg : MuxConfig) (octets : Bytes) : List Frame :=
  routes (drain readNext octets.length (.start F cfg) octets).1

theorem wiredStep_octets {cfg : MuxConfig} {transport : Transport} {s s' : Wired F}
    {a : WiredAct} (hraw : s.rawBuf = []) (h : wiredStep cfg transport s a = some s') :
    s'.received.flatten = s.received.flatten ++ a.octets ∧ s'.rawBuf = [] := by
  obtain ⟨read, rest, m, -, -, -, rfl, hread⟩ | ⟨hnone, rfl⟩ | ⟨rfl, -, rfl⟩ |
    ⟨action, loop, rest, b, m, rfl, -, -, -, -, rfl⟩ | ⟨b, m, rfl, -, -, rfl⟩ :=
    wiredStep_cases h
  · obtain ⟨hrest, hoctets⟩ := hread hraw
    refine ⟨?_, hrest⟩
    rw [← hoctets]
    cases read with
    | message msg =>
        cases msg with
        | binary payload => simp [Wired.took, Wired.setMux, Read.octets]
        | ping payload => exact (List.append_nil _).symm
        | close => exact (List.append_nil _).symm
    | failed e => exact (List.append_nil _).symm
    | eof => exact (List.append_nil _).symm
  · rw [hnone, List.append_nil]
    exact ⟨rfl, hraw⟩
  · exact ⟨(List.append_nil _).symm, hraw⟩
  · exact ⟨(List.append_nil _).symm, hraw⟩
  · exact ⟨(List.append_nil _).symm, hraw⟩

theorem run_octets {cfg : MuxConfig} {transport : Transport} {as : List WiredAct}
    {s s' : Wired F} (hraw : s.rawBuf = []) (hrun : (wired F cfg transport).run s as = some s') :
    s'.received.flatten = s.received.flatten ++ octetsOf as := by
  induction as generalizing s with
  | nil =>
      cases hrun
      exact (List.append_nil _).symm
  | cons a as ih =>
      obtain ⟨t, hstep, hrest⟩ := run_cons_some hrun
      obtain ⟨hreceived, hraw'⟩ := wiredStep_octets hraw hstep
      rw [ih hraw' hrest, hreceived, List.append_assoc]
      rfl

/-- What was routed is the front of what the octets hold, and all of it between messages. -/
theorem routed_of_octets {cfg : MuxConfig} {transport : Transport} {as : List WiredAct}
    {s : Wired F} (hrun : (wired F cfg transport).run (wired F cfg transport).init as = some s)
    (hrejects : RejectsLast (.withMaxFrameSize F cfg.maxFrameSize) (octetsOf as)) :
    s.mux.shared.history.routed <+: framesIn F cfg (octetsOf as) ∧
      (s.decoding = false → s.mux.shared.history.routed = framesIn F cfg (octetsOf as) ∧
        (s.loop, s.frameBuf) =
          (drain readNext (octetsOf as).length (.start F cfg) (octetsOf as)).2) := by
  have hI := read_invariant F cfg transport as s hrun (meets_anyStep _ _)
  obtain ⟨actions, hroutes, hreads⟩ := hI.done
  have hoctets : s.received.flatten = octetsOf as := run_octets rfl hrun
  have hscan : readChunks (.start F cfg) s.received =
      drain readNext s.received.flatten.length (.start F cfg) s.received.flatten :=
    readChunks_eq (by rw [hoctets]; exact hrejects)
  rw [hreads, hoctets] at hscan
  have hframes : framesIn F cfg (octetsOf as) = routes actions ++ routes s.ahead.1 := by
    rw [framesIn, ← hscan, routes, List.filterMap_append]
    rfl
  refine ⟨?_, fun hdone => ?_⟩
  · rw [hframes, hroutes]
    exact List.prefix_append _ _
  · rw [ahead_of_waits (hI.waits hdone)] at hscan hframes
    refine ⟨?_, by rw [← hscan]⟩
    rw [hframes, hroutes]
    exact (List.append_nil _).symm

/-- From the octets that a transport of either kind has read to the bytes that the owner of
a half has obtained, in every run: these are a front of the payloads that the octets hold for
its stream, as long as no payload for it finds a queue full and nothing follows the header of
a frame above the limit. -/
theorem octets_to_bytes (F : Flate) (cfg : MuxConfig) (transport : Transport)
    (as : List WiredAct) (s : Wired F) (p : Nat) (kind : HalfKind)
    (hrun : (wired F cfg transport).run (wired F cfg transport).init as = some s)
    (halloc : (s.mux.pairs p).errorId ≠ 0)
    (hmeets : (wired F cfg transport).Meets
      (Underneath (NothingDropped ((s.mux.pairs p).idOf kind))) (wired F cfg transport).init as)
    (hrejects : RejectsLast (.withMaxFrameSize F cfg.maxFrameSize) (octetsOf as)) :
    ((s.mux.pairs p).half kind).obtained <+:
      (payloadsOf ((s.mux.pairs p).idOf kind) (framesIn F cfg (octetsOf as))).flatten := by
  have hreach := wired_reaches F cfg transport _ as s hrun hmeets
  have hI := Reaches.of_invariant hreach (inbound_invariant cfg _)
  have hany := wired_reaches F cfg transport anyStep as s hrun
    (Meets.mono (fun _ _ _ _ _ => trivial) (meets_anyStep _ _))
  have hC := Reaches.of_invariant hany (consumed_invariant cfg)
  have hdelivered := hI.delivered ⟨p, kind⟩ ⟨halloc, rfl⟩
  have hrouted := (routed_of_octets hrun hrejects).1
  calc ((s.mux.pairs p).half kind).obtained
      <+: (s.mux.shared.chans ⟨p, kind⟩).delivered.flatten := (hC.halves ⟨p, kind⟩).taken
    _ <+: (payloadsOf _ s.mux.shared.history.routed).flatten := flatten_isPrefix hdelivered
    _ <+: _ := flatten_isPrefix (hrouted.filterMap _)

theorem RejectsLast.frame {codec codec' : SpdyCodec F} {frame : Frame} {octets rest : Bytes}
    (htake : takeFrame codec octets = some (frame, codec', rest)) (h : RejectsLast codec' rest) :
    RejectsLast codec octets := by
  intro codec'' rest' hscans hover
  cases hscans with
  | refl => exact absurd hover (readNext_of_takeFrame htake).1
  | step hnext hscans' =>
      rw [htake] at hnext
      cases hnext
      exact h _ _ hscans' hover

/-- DATA for the data stream of the first pair. -/
def cutFrame : Bytes := encodeData 3 [1, 2, 3] false

/-- A pair is opened and its data stream is known to its worker. -/
def wiredOpenActs : List WiredAct :=
  (startActs ++ openActs 0 ++ realizeActs 0 ++ workerRound (shardOf 3)).map .env

/-- The frame comes in two binary messages, with a Pong and a Ping between them. -/
def cutActs : List WiredAct :=
  wiredOpenActs ++
    [.ws (.frame ⟨.binary, cutFrame.take 5⟩), .decode, .ws (.frame ⟨.pong, []⟩),
      .ws (.frame ⟨.ping, [7]⟩), .ws (.frame ⟨.binary, cutFrame.drop 5⟩), .decode,
      .env (.reader .step), .decode, .env (.worker (shardOf 3) []),
      .env (.client 0 (.read .data 2))]

/-- The frame comes in two reads that are cut elsewhere. -/
def rawActs : List WiredAct :=
  wiredOpenActs ++
    [.raw (.octets (cutFrame.take 9)), .decode, .raw (.octets (cutFrame.drop 9)), .decode,
      .env (.reader .step), .decode]

theorem cutActs_rejectsLast :
    RejectsLast (.withMaxFrameSize noFlate MuxConfig.default.maxFrameSize) (octetsOf cutActs) := by
  have hoctets : octetsOf cutActs = cutFrame := by decide +kernel
  have htake : takeFrame (.withMaxFrameSize noFlate MuxConfig.default.maxFrameSize) cutFrame =
      some (.data 3 [1, 2, 3] false, .withMaxFrameSize noFlate MuxConfig.default.maxFrameSize,
        []) := rfl
  rw [hoctets]
  exact .frame htake (.nil _)

theorem octets_to_bytes_cut :
    ∃ s, (wired noFlate .default .fastWs).run (wired noFlate .default .fastWs).init cutActs =
        some s ∧ (s.mux.pairs 0).data.obtained = [1, 2] ∧
      [1, 2] <+: (payloadsOf 3 (framesIn noFlate .default (octetsOf cutActs))).flatten := by
  have hobs : ((wired noFlate .default .fastWs).run (wired noFlate .default .fastWs).init
      cutActs).map (fun s => ((s.mux.pairs 0).data.obtained, (s.mux.pairs 0).errorId,
        (s.mux.pairs 0).dataId)) = some ([1, 2], 1, 3) := by decide +kernel
  obtain ⟨s, hrun, hs⟩ := Option.map_eq_some_iff.1 hobs
  simp only [Prod.mk.injEq] at hs
  obtain ⟨hgot, herr, hid⟩ := hs
  have hdata : (s.mux.pairs 0).idOf .data = 3 := hid
  have hmeets : (wired noFlate .default .fastWs).Meets (Underneath (NothingDropped 3))
      (wired noFlate .default .fastWs).init cutActs := meets_of_check (by decide +kernel)
  have hbytes := octets_to_bytes noFlate .default .fastWs cutActs s 0 .data hrun
    (by rw [herr]; decide) (by rw [hdata]; exact hmeets) cutActs_rejectsLast
  rw [hdata, show ((s.mux.pairs 0).half .data).obtained = [1, 2] from hgot] at hbytes
  exact ⟨s, hrun, hgot, hbytes⟩

/-- A tunnel and a raw connection that have read the same octets, in whatever pieces and
with whatever else in between, have routed the same frames and stand at the same place
between messages. -/
theorem transports_agree (F : Flate) (cfg : MuxConfig) (as bs : List WiredAct) (s t : Wired F)
    (hrun : (wired F cfg .fastWs).run (wired F cfg .fastWs).init as = some s)
    (hrun' : (wired F cfg .rawSpdy).run (wired F cfg .rawSpdy).init bs = some t)
    (hsame : octetsOf as = octetsOf bs)
    (hrejects : RejectsLast (.withMaxFrameSize F cfg.maxFrameSize) (octetsOf as))
    (hdone : s.decoding = false) (hdone' : t.decoding = false) :
    s.mux.shared.history.routed = t.mux.shared.history.routed ∧ s.loop = t.loop ∧
      s.frameBuf = t.frameBuf := by
  obtain ⟨hrouted, hplace⟩ := (routed_of_octets hrun hrejects).2 hdone
  rw [hsame] at hrejects hrouted hplace
  obtain ⟨hrouted', hplace'⟩ := (routed_of_octets hrun' hrejects).2 hdone'
  rw [← hplace'] at hplace
  exact ⟨hrouted.trans hrouted'.symm, (Prod.mk.inj hplace).1, (Prod.mk.inj hplace).2⟩

theorem transports_agree_cut :
    ∃ s t, (wired noFlate .default .fastWs).run (wired noFlate .default .fastWs).init cutActs =
        some s ∧
      (wired noFlate .default .rawSpdy).run (wired noFlate .default .rawSpdy).init rawActs =
        some t ∧ s.mux.shared.history.routed = [.data 3 [1, 2, 3] false] ∧
      s.mux.shared.history.routed = t.mux.shared.history.routed := by
  have hobs : ((wired noFlate .default .fastWs).run (wired noFlate .default .fastWs).init
      cutActs).map (fun s => (s.decoding, s.mux.shared.history.routed)) =
      some (false, [.data 3 [1, 2, 3] false]) := by decide +kernel
  have hobs' : ((wired noFlate .default .rawSpdy).run (wired noFlate .default .rawSpdy).init
      rawActs).map (fun s => s.decoding) = some false := by decide +kernel
  obtain ⟨s, hrun, hs⟩ := Option.map_eq_some_iff.1 hobs
  obtain ⟨t, hrun', ht⟩ := Option.map_eq_some_iff.1 hobs'
  simp only [Prod.mk.injEq] at hs
  have hagree := transports_agree noFlate .default cutActs rawActs s t hrun hrun'
    (by decide +kernel) cutActs_rejectsLast hs.1 ht
  exact ⟨s, t, hrun, hrun', hs.2, hagree.1⟩

/-! ## What a reader holds on to -/

theorem payloadLen_lt (buf : Bytes) : payloadLen buf < 2 ^ 24 := by
  unfold payloadLen
  rw [UInt32.toNat_and]
  have hmask : (0x00FFFFFF : UInt32).toNat = 2 ^ 24 - 1 := rfl
  rw [hmask, Nat.and_two_pow_sub_one_eq_mod]
  exact Nat.mod_lt _ (by decide)

/-- A loop that waits lacks part of a frame within the limit. -/
theorem length_of_waits {s : ReadLoop F} {buf : Bytes} (hrun : s.running = true)
    (h : readNext s buf = none) :
    buf.length < 8 + max MAX_CONTROL_FRAME_SIZE s.codec.maxFrameSize.toNat ∧
      buf.length < 8 + 2 ^ 24 := by
  have hmax : MAX_CONTROL_FRAME_SIZE = 2 ^ 20 := rfl
  have hlt := payloadLen_lt buf
  by_cases hshort : buf.length < 8
  · omega
  have hfit : ¬ Oversized s.codec buf := by
    intro hover
    rw [readNext_oversized hrun hover] at h
    cases h
  have hpart : buf.length < 8 + payloadLen buf := by
    by_contra hwhole
    have hlen : (buf.take (frameTotal buf)).length = frameTotal buf := by
      rw [List.length_take]
      exact Nat.min_eq_left (by unfold frameTotal; omega)
    have hsplit := List.take_append_drop (frameTotal buf) buf
    have hlen' : 8 ≤ (buf.take (frameTotal buf)).length := by
      rw [hlen]
      exact Nat.le_add_right ..
    obtain ⟨a, s', hnext⟩ := readNext_whole hrun hlen'
      (by rwa [← oversized_append (buf.drop (frameTotal buf)) hlen', hsplit])
      (by rw [hlen, ← frameTotal_append (buf.drop (frameTotal buf)) hlen', hsplit])
    have hsome := hnext (buf.drop (frameTotal buf))
    rw [hsplit, h] at hsome
    cases hsome
  have hlimit : payloadLen buf ≤ frameLimit s.codec.maxFrameSize buf := by
    by_contra hover
    exact hfit ⟨by omega, by omega⟩
  unfold frameLimit at hlimit
  split at hlimit <;> omega

/-- The last binary message. -/
def Wired.lastRead (s : Wired F) : Bytes := s.received.getLast?.getD []

structure Held (s : Wired F) : Prop where
  /-- A reader that could not decode has left its loop. -/
  stops : s.loop.running = false → s.mux.reader.pc = .stopped
  bounded : s.frameBuf.length < 8 + 2 ^ 24 + s.lastRead.length

theorem Held.waiting {s : Wired F} (hI : Held s) (hwait : s.waiting = true) :
    s.decoding = false ∧ s.loop.running = true := by
  obtain ⟨hdone, hidle⟩ := waiting_iff.mp hwait
  refine ⟨hdone, ?_⟩
  by_contra hstop
  have hstopped := hI.stops (Bool.eq_false_of_not_eq_true hstop)
  rw [hidle] at hstopped
  cases hstopped

theorem readerStep_not_stopped {cfg : MuxConfig} {a : ReaderAct} {sh sh' : Shared}
    {r r' : Reader} (h : readerStep cfg a sh r = some (sh', r')) : r.pc ≠ .stopped := by
  intro hstopped
  cases a <;> simp [readerStep, Reader.receive, Reader.rejectTooLarge, Reader.receiveWsPing,
    Reader.message, Reader.idleProbe, Reader.exit, Reader.step, hstopped] at h

theorem step_stopped {cfg : MuxConfig} {s s' : MuxState} {a : Act}
    (hstopped : s.reader.pc = .stopped) (h : step cfg s a = some s') :
    s'.reader.pc = .stopped := by
  obtain ⟨p, c, sh, pr, rfl, -, rfl⟩ | ⟨p, sh, pr, z, rfl, -, -, -, rfl⟩ |
    ⟨z, sh, pr, z', rfl, -, -, rfl⟩ | ⟨c, sh, rd, rfl, hr, rfl⟩ | ⟨w, order, k, sh, rfl, -, rfl⟩ |
    ⟨c, sh, wr, rfl, -, rfl⟩ | ⟨rfl, rfl⟩ := step_cases h
  · exact hstopped
  · exact hstopped
  · exact hstopped
  · exact absurd hstopped (readerStep_not_stopped hr)
  · exact hstopped
  · exact hstopped
  · exact hstopped

/-- A round that ends the loop is one that leaves it. -/
theorem readNext_stops {s s' : ReadLoop F} {buf rest : Bytes} {action : ReadAction} {a : Act}
    (h : readNext s buf = some (action, s', rest)) (ha : action.act = some a)
    (hstop : s'.running = false) : a = .reader .exit := by
  have hrun := (readNext_some h).1
  unfold readNext at h
  split at h
  · cases h
  · split at h
    · cases h
      cases ha
    · cases h
      exact absurd hrun (by simpa using hstop)
    · cases h
    · split at h <;> cases h <;> exact absurd hrun (by simpa using hstop)
    · cases h
      cases ha
      rfl

theorem exit_stops {cfg : MuxConfig} {s s' : MuxState}
    (h : step cfg s (.reader .exit) = some s') : s'.reader.pc = .stopped := by
  simp only [step, readerStep, Reader.exit] at h
  split at h
  · cases h
    rfl
  · cases h

theorem wiredStep_held {cfg : MuxConfig} {transport : Transport} {s s' : Wired F}
    {a : WiredAct} (hR : Reads cfg s) (hI : Held s) (h : wiredStep cfg transport s a = some s') :
    Held s' := by
  obtain ⟨read, rest, m, hwait, -, hstep, rfl, -⟩ | ⟨-, rfl⟩ | ⟨-, hnone, rfl⟩ |
    ⟨action, loop, rest, b, m, rfl, -, hnext, hb, hstep, rfl⟩ | ⟨b, m, rfl, hapart, hstep, rfl⟩ :=
    wiredStep_cases h
  · obtain ⟨hdone, hrun⟩ := hI.waiting hwait
    have hstops : ∀ t : Wired F, t.loop = s.loop → t.loop.running = false →
        t.mux.reader.pc = .stopped := by
      intro t hloop hstop
      rw [hloop, hrun] at hstop
      cases hstop
    cases read with
    | message msg =>
        cases msg with
        | binary payload =>
            have hlt := (length_of_waits hrun (hR.waits hdone)).2
            refine ⟨hstops _ rfl, ?_⟩
            show (s.frameBuf ++ payload).length < 8 + 2 ^ 24 +
              ((s.received ++ [payload]).getLast?.getD []).length
            rw [List.length_append, List.getLast?_concat]
            show _ < 8 + 2 ^ 24 + payload.length
            omega
        | ping payload => exact ⟨hstops _ rfl, hI.bounded⟩
        | close => exact ⟨hstops _ rfl, hI.bounded⟩
    | failed e => exact ⟨hstops _ rfl, hI.bounded⟩
    | eof => exact ⟨hstops _ rfl, hI.bounded⟩
  · exact hI
  · exact ⟨hI.stops, hI.bounded⟩
  · refine ⟨fun hstop => ?_, Nat.lt_trans (readNext_consumes _ _ _ _ _ hnext) hI.bounded⟩
    rw [readNext_stops hnext hb hstop] at hstep
    exact exit_stops hstep
  · exact ⟨fun hstop => step_stopped (hI.stops hstop) hstep, hI.bounded⟩

theorem held_invariant (F : Flate) (cfg : MuxConfig) (transport : Transport) :
    (wired F cfg transport).Invariant anyStep Held := by
  refine Invariant.of_step_using (read_invariant F cfg transport) ⟨?_, ?_⟩
    fun s a s' hR hI _ h => wiredStep_held hR hI h
  · intro hstop
    cases hstop
  · simp [wired, Wired.lastRead]

/-- Whatever comes over a transport of either kind: between messages a reader that has not
left its loop holds part of one frame within its limit, and at any time less than the
longest frame there is and its last message. -/
theorem held_octets_bounded (F : Flate) (cfg : MuxConfig) (transport : Transport)
    (as : List WiredAct) (s : Wired F)
    (hrun : (wired F cfg transport).run (wired F cfg transport).init as = some s) :
    (s.waiting = true → s.frameBuf.length <
      8 + min (2 ^ 24) (max MAX_CONTROL_FRAME_SIZE s.loop.codec.maxFrameSize.toNat)) ∧
      s.frameBuf.length < 8 + 2 ^ 24 + s.lastRead.length := by
  have hR := read_invariant F cfg transport as s hrun (meets_anyStep _ _)
  have hI := held_invariant F cfg transport as s hrun (meets_anyStep _ _)
  refine ⟨fun hwait => ?_, hI.bounded⟩
  obtain ⟨hdone, hrunning⟩ := hI.waiting hwait
  obtain ⟨hlimit, hlong⟩ := length_of_waits hrunning (hR.waits hdone)
  omega

theorem held_octets_cut :
    ∃ s, (wired noFlate .default .fastWs).run (wired noFlate .default .fastWs).init
        (cutActs.take (wiredOpenActs.length + 3)) = some s ∧
      s.frameBuf = cutFrame.take 5 ∧ s.waiting = true ∧
      s.frameBuf.length < 8 + min (2 ^ 24)
        (max MAX_CONTROL_FRAME_SIZE s.loop.codec.maxFrameSize.toNat) := by
  have hobs : ((wired noFlate .default .fastWs).run (wired noFlate .default .fastWs).init
      (cutActs.take (wiredOpenActs.length + 3))).map (fun s => (s.frameBuf, s.waiting)) =
      some (cutFrame.take 5, true) := by decide +kernel
  obtain ⟨s, hrun, hs⟩ := Option.map_eq_some_iff.1 hobs
  simp only [Prod.mk.injEq] at hs
  exact ⟨s, hrun, hs.1, hs.2, (held_octets_bounded noFlate .default .fastWs _ s hrun).1 hs.2⟩

end KubePortForward.Mux
