import KubePortForward.Codec.SpdyCodec
import KubePortForward.Verified.Framing

/-!
# How the transport cuts the bytes

`run_reader` appends every binary message to its buffer and decodes frames off the
front for as long as it can.  A frame is decoded when it is complete, wherever the
messages end; a frame above the size limit is rejected as soon as its header is
there.  What then is left of it is skipped only if it has all arrived.  Otherwise the
buffer is cleared, and the rest of the frame, when it comes, is read as frames.

## Main results

* `readNext_frame` — what a round does with a frame within the limit does not depend
  on what follows it.
* `chunking_invisible_iff` — the cuts cannot be seen exactly when nothing follows the
  header of a frame above the limit.
* `cut_in_rejected_frame` — a frame above the limit that is cut in two.
-/

namespace KubePortForward.Mux

open KubePortForward.Codec
open KubePortForward.Verified.BigEndian
open KubePortForward.Verified.Framing

variable {F : Flate}

/-- What a round of the decode loop does: `diverge` when decoding does not return. -/
inductive ReadAction where
  | route (frame : Frame)
  | reset (streamId : StreamId)
  | fatal (e : CodecError)
  | diverge
  deriving DecidableEq, Repr

/-- The codec of the reader, and whether it has not left its loop. -/
structure ReadLoop (F : Flate) where
  codec : SpdyCodec F
  running : Bool

/-- What `route_frame` does to the codec. -/
def routeCodec (frame : Frame) (codec : SpdyCodec F) : SpdyCodec F :=
  match frame with
  | .settings _ _ (some maxFrameSize) => codec.setMaxFrameSize maxFrameSize
  | _ => codec

/-- One round of `while frame_buf.len() >= 8`. -/
def readNext (s : ReadLoop F) (buf : Bytes) : Option (ReadAction × ReadLoop F × Bytes) :=
  if s.running = false ∨ buf.length < 8 then none
  else match s.codec.decodeFrame buf with
  | none => some (.diverge, { s with running := false }, buf.drop (frameTotal buf))
  | some ⟨.ok (some frame), rest, codec⟩ =>
      some (.route frame, { s with codec := routeCodec frame codec }, rest)
  | some ⟨.ok none, _, _⟩ => none
  | some ⟨.error (.frameTooLarge id _ _), rest, codec⟩ =>
      if frameTotal rest ≤ rest.length then
        some (.reset id, { s with codec := codec }, rest.drop (frameTotal rest))
      else some (.reset id, { s with codec := codec }, [])
  | some ⟨.error e, rest, codec⟩ => some (.fatal e, { codec := codec, running := false }, rest)

/-- The reader is given these messages. -/
def readChunks (s : ReadLoop F) (chunks : List Bytes) : List ReadAction × ReadLoop F × Bytes :=
  feed readNext s [] chunks

/-- The same actions and, if the reader goes on, the same octets left. -/
def SameReading (x y : List ReadAction × ReadLoop F × Bytes) : Prop :=
  x.1 = y.1 ∧ x.2.1.running = y.2.1.running ∧ (x.2.1.running = true → x.2.2 = y.2.2)

/-- As the octets arrive, it makes no difference how they are cut. -/
def ChunkingInvisible (s : ReadLoop F) (octets : Bytes) : Prop :=
  ∀ received, received <+: octets → ∀ chunks chunks' : List Bytes,
    chunks.flatten = received → chunks'.flatten = received →
      SameReading (readChunks s chunks) (readChunks s chunks')

/-- `decode_frame` takes a frame off the buffer and `route_frame` gets it. -/
def takeFrame (codec : SpdyCodec F) (buf : Bytes) : Option (Frame × SpdyCodec F × Bytes) :=
  match codec.decodeFrame buf with
  | some ⟨.ok (some frame), rest, codec⟩ => some (frame, routeCodec frame codec, rest)
  | _ => none

/-- Where, frame by frame, the header of a frame above the limit is reached, the octets
end with it. -/
def RejectsLast (codec : SpdyCodec F) (octets : Bytes) : Prop :=
  ∀ codec' rest, Scans takeFrame codec octets codec' rest → Oversized codec' rest →
    rest.length = 8

/-! ## One round -/

/-- A frame above the limit is rejected, and what there is of it dropped. -/
theorem readNext_oversized {s : ReadLoop F} {buf : Bytes} (hrun : s.running = true)
    (h : Oversized s.codec buf) :
    readNext s buf = some (.reset (headerStreamId buf), s,
      if frameTotal buf ≤ buf.length then buf.drop (frameTotal buf) else []) := by
  unfold readNext
  rw [if_neg (by have := h.1; simp [hrun]; omega), decodeFrame_oversized h]
  simp only
  split <;> rfl

/-- A round that acts has the header of a frame. -/
theorem readNext_some {s s' : ReadLoop F} {buf rest : Bytes} {a : ReadAction}
    (h : readNext s buf = some (a, s', rest)) : s.running = true ∧ 8 ≤ buf.length := by
  unfold readNext at h
  split at h
  · contradiction
  · next hgo =>
      rw [not_or, Bool.not_eq_false] at hgo
      exact ⟨hgo.1, by omega⟩

/-- A whole frame within the limit is taken off, whatever follows it. -/
theorem readNext_whole {s : ReadLoop F} {frame : Bytes} (hrun : s.running = true)
    (hlen : 8 ≤ frame.length) (hfit : ¬ Oversized s.codec frame)
    (htotal : frameTotal frame = frame.length) :
    ∃ a s', ∀ more, readNext s (frame ++ more) = some (a, s', more) := by
  have hcontinue : ∀ more : Bytes, ¬ (s.running = false ∨ (frame ++ more).length < 8) := by
    intro more
    simp [hrun]
    omega
  have hdecode : ∀ more, s.codec.decodeFrame (frame ++ more) = (s.codec.decodeWhole frame).map
      fun r => ⟨r.1.map some, more, r.2⟩ := by
    intro more
    rw [decodeFrame_append more hlen hfit (by omega), decodeFrame_complete hlen hfit (by omega),
      htotal, List.take_length, List.drop_length, Option.map_map]
    rfl
  simp only [readNext, if_neg (hcontinue _), hdecode, frameTotal_append _ hlen, htotal,
    List.drop_left]
  cases hwhole : s.codec.decodeWhole frame with
  | none => exact ⟨_, _, fun _ => rfl⟩
  | some x =>
      obtain ⟨result, codec⟩ := x
      cases result with
      | ok frame => exact ⟨_, _, fun _ => rfl⟩
      | error e =>
          have hsize := decodeWhole_isSize hwhole
          cases e with
          | frameTooLarge id size limit => contradiction
          | _ => exact ⟨_, _, fun _ => rfl⟩

/-- A round that acts on a frame within the limit takes off the whole frame, and would do
so whatever followed it. -/
theorem readNext_frame {s s' : ReadLoop F} {buf rest : Bytes} {a : ReadAction}
    (h : readNext s buf = some (a, s', rest)) (hfit : ¬ Oversized s.codec buf) :
    ∃ frame, buf = frame ++ rest ∧ 8 ≤ frame.length ∧
      ∀ more, readNext s (frame ++ more) = some (a, s', more) := by
  obtain ⟨hrun, hlen⟩ := readNext_some h
  have htotal : frameTotal buf ≤ buf.length := by
    by_contra hshort
    rw [readNext, if_neg (by simp [hrun]; omega),
      decodeFrame_incomplete hfit (.inr (by omega))] at h
    contradiction
  have hsplit := List.take_append_drop (frameTotal buf) buf
  have hframe : (buf.take (frameTotal buf)).length = frameTotal buf := by
    rw [List.length_take]
    omega
  have hlen' : 8 ≤ (buf.take (frameTotal buf)).length := by
    rw [hframe]
    exact Nat.le_add_right ..
  have hfit' : ¬ Oversized s.codec (buf.take (frameTotal buf)) := by
    rwa [← oversized_append (buf.drop (frameTotal buf)) hlen', hsplit]
  have htotal' : frameTotal (buf.take (frameTotal buf)) = (buf.take (frameTotal buf)).length := by
    rw [hframe, ← frameTotal_append (buf.drop (frameTotal buf)) hlen', hsplit]
  obtain ⟨b, t, hwhole⟩ := readNext_whole hrun hlen' hfit' htotal'
  have hsame := hwhole (buf.drop (frameTotal buf))
  rw [hsplit, h] at hsame
  cases hsame
  exact ⟨_, hsplit.symm, hlen', hwhole⟩

theorem readNext_consumes : Consumes (readNext (F := F)) := by
  intro s buf a s' rest h
  obtain ⟨hrun, hlen⟩ := readNext_some h
  have htotal : 8 ≤ frameTotal buf := Nat.le_add_right ..
  by_cases hover : Oversized s.codec buf
  · rw [readNext_oversized hrun hover] at h
    cases h
    split
    · rw [List.length_drop]
      omega
    · simp only [List.length_nil]
      omega
  · obtain ⟨frame, rfl, hframe, -⟩ := readNext_frame h hover
    rw [List.length_append]
    omega

/-- Of a frame above the limit that has not arrived whole nothing is kept. -/
theorem readNext_oversized_short {s : ReadLoop F} {buf : Bytes} (hrun : s.running = true)
    (h : Oversized s.codec buf) (hlen : buf.length ≤ 9) :
    readNext s buf = some (.reset (headerStreamId buf), s, []) := by
  have htotal : 9 ≤ frameTotal buf := by
    have := h.2
    unfold frameTotal
    omega
  rw [readNext_oversized hrun h]
  split
  · rw [List.drop_eq_nil_of_le (by omega)]
  · rfl

/-! ## The frames before the first one that is rejected -/

/-- A frame that is taken off is routed. -/
theorem readNext_of_takeFrame {codec codec' : SpdyCodec F} {buf rest : Bytes} {frame : Frame}
    (h : takeFrame codec buf = some (frame, codec', rest)) :
    ¬ Oversized codec buf ∧
      readNext ⟨codec, true⟩ buf = some (.route frame, ⟨codec', true⟩, rest) := by
  unfold takeFrame at h
  split at h
  · next frame₁ rest₁ codec₁ hdecode =>
      cases h
      have hlen : ¬ buf.length < 8 := by
        intro hshort
        rw [SpdyCodec.decodeFrame, if_pos hshort] at hdecode
        cases hdecode
      refine ⟨?_, ?_⟩
      · intro hover
        rw [decodeFrame_oversized hover] at hdecode
        cases hdecode
      · rw [readNext, if_neg (by simpa using hlen), hdecode]
  · contradiction

/-- A round after which the reader goes on has taken a frame off. -/
theorem takeFrame_of_readNext {s s' : ReadLoop F} {buf rest : Bytes} {a : ReadAction}
    (h : readNext s buf = some (a, s', rest)) (hfit : ¬ Oversized s.codec buf)
    (hrun : s'.running = true) :
    ∃ frame, takeFrame s.codec buf = some (frame, s'.codec, rest) := by
  obtain ⟨-, hlen⟩ := readNext_some h
  have hwhole : ∀ d, s.codec.decodeFrame buf = some d → ∀ e, d.result = .error e →
      e.isSize = false := by
    intro d hdecode e he
    by_cases htotal : frameTotal buf ≤ buf.length
    · rw [decodeFrame_complete hlen hfit htotal, Option.map_eq_some_iff] at hdecode
      obtain ⟨⟨result, codec⟩, hresult, rfl⟩ := hdecode
      cases result with
      | ok frame => cases he
      | error e' =>
          cases he
          exact decodeWhole_isSize hresult
    · rw [decodeFrame_incomplete hfit (.inr (by omega))] at hdecode
      cases hdecode
      cases he
  unfold readNext at h
  unfold takeFrame
  split at h
  · contradiction
  · split at h
    · cases h
      contradiction
    · next hdecode =>
        cases h
        rw [hdecode]
        exact ⟨_, rfl⟩
    · contradiction
    · next hdecode => exact absurd (hwhole _ hdecode _ rfl) (by simp [CodecError.isSize])
    · cases h
      contradiction

/-! ## The condition is enough -/

theorem takeFrame_short {codec : SpdyCodec F} {buf : Bytes} (h : buf.length < 8) :
    takeFrame codec buf = none := by
  rw [takeFrame, SpdyCodec.decodeFrame, if_pos h]

/-- Nothing is rejected where there is no header. -/
theorem RejectsLast.nil (codec : SpdyCodec F) : RejectsLast codec [] := by
  intro codec' rest hscans hover
  cases hscans with
  | refl => exact absurd hover.1 (by simp)
  | step hnext _ => rw [takeFrame_short (by simp)] at hnext; contradiction

/-- The condition is kept by every round after which the reader goes on. -/
theorem RejectsLast.next {s s' : ReadLoop F} {octets rest : Bytes} {a : ReadAction}
    (h : RejectsLast s.codec octets) (hnext : readNext s octets = some (a, s', rest))
    (hrun : s'.running = true) : RejectsLast s'.codec rest := by
  by_cases hover : Oversized s.codec octets
  · have hend := h s.codec octets (.refl _ _) hover
    rw [readNext_oversized_short (readNext_some hnext).1 hover (by omega)] at hnext
    cases hnext
    exact .nil _
  · obtain ⟨frame, htake⟩ := takeFrame_of_readNext hnext hover hrun
    exact fun t u hscans => h t u (.step htake hscans)

theorem RejectsLast.scans {s s' : ReadLoop F} {octets rest : Bytes}
    (h : RejectsLast s.codec octets) (hscans : Scans readNext s octets s' rest)
    (hrun : s'.running = true) : RejectsLast s'.codec rest := by
  induction hscans with
  | refl s stream => exact h
  | step hnext hrest ih =>
      refine ih (h.next hnext ?_) hrun
      cases hrest with
      | refl => exact hrun
      | step hnext' _ => exact (readNext_some hnext').1

/-- Where nothing follows a rejected header, every round does what it would do with all
the octets in the buffer. -/
theorem RejectsLast.stable {s : ReadLoop F} {octets : Bytes} (h : RejectsLast s.codec octets) :
    Stable readNext s octets := by
  intro s' stream hscans buf more a s'' rest hstream hnext
  obtain ⟨hrun, hlen⟩ := readNext_some hnext
  subst hstream
  by_cases hover : Oversized s'.codec buf
  · have hend := h.scans hscans hrun _ _ (.refl _ _) ((oversized_append more hlen).2 hover)
    have hmore : more = [] := by
      rw [List.length_append] at hend
      exact List.length_eq_zero_iff.1 (by omega)
    subst hmore
    simpa using hnext
  · obtain ⟨frame, rfl, -, hframe⟩ := readNext_frame hnext hover
    rw [List.append_assoc]
    exact hframe (rest ++ more)

/-- The octets that have arrived so far are scanned as part of all. -/
theorem scans_append {codec codec' : SpdyCodec F} {received rest : Bytes} (more : Bytes)
    (h : Scans takeFrame codec received codec' rest) :
    Scans takeFrame codec (received ++ more) codec' (rest ++ more) := by
  induction h with
  | refl codec stream => exact .refl _ _
  | @step codec codec₁ codec₂ stream rest₁ rest₂ frame₁ hnext _ ih =>
      obtain ⟨hfit, hread⟩ := readNext_of_takeFrame hnext
      obtain ⟨frame, rfl, hlen, hframe⟩ := readNext_frame hread hfit
      have hfit' : ¬ Oversized codec (frame ++ (rest₁ ++ more)) := by
        rwa [oversized_append _ hlen, ← oversized_append rest₁ hlen]
      obtain ⟨frame', htake⟩ := takeFrame_of_readNext (hframe _) hfit' rfl
      rw [List.append_assoc]
      exact .step htake ih

/-- Fewer octets hold fewer headers. -/
theorem RejectsLast.take {codec : SpdyCodec F} {received more : Bytes}
    (h : RejectsLast codec (received ++ more)) : RejectsLast codec received := by
  intro codec' rest hscans hover
  have hend := h codec' _ (scans_append more hscans) ((oversized_append more hover.1).2 hover)
  rw [List.length_append] at hend
  have := hover.1
  omega

theorem readChunks_eq {s : ReadLoop F} {chunks : List Bytes}
    (h : RejectsLast s.codec chunks.flatten) :
    readChunks s chunks = drain readNext chunks.flatten.length s chunks.flatten :=
  feed_eq_drain readNext_consumes chunks h.stable (by simp [readNext])

/-! ## And needed -/

/-- Two ways of cutting what follows a whole frame are two ways of cutting all of it. -/
theorem readChunks_cons {s s' : ReadLoop F} {buf : Bytes} {a : ReadAction}
    (hnext : readNext s buf = some (a, s', [])) (chunks : List Bytes) :
    readChunks s (buf :: chunks) = (a :: (readChunks s' chunks).1, (readChunks s' chunks).2) := by
  have hlen := (readNext_some hnext).2
  have hdrain : drain readNext ([] ++ buf).length s ([] ++ buf) = ([a], s', []) := by
    obtain ⟨n, hn⟩ : ∃ n, buf.length = n + 1 := ⟨buf.length - 1, by omega⟩
    have hempty : readNext s' [] = none := by simp [readNext]
    rw [List.nil_append, hn, drain_of_some hnext, drain_of_none hempty]
  rw [readChunks, feed_cons, hdrain]
  rfl

/-- The header of a frame above the limit and one more octet, cut between the two: the
octet is part of the rejected frame, or the first one of the next. -/
theorem not_invisible_of_oversized {s : ReadLoop F} {octets : Bytes} (hrun : s.running = true)
    (hover : Oversized s.codec octets) (hmore : octets.length ≠ 8) :
    ¬ ChunkingInvisible s octets := by
  intro h
  have hlen := hover.1
  have hkept : ∀ k, 8 ≤ k → Oversized s.codec (octets.take k) := by
    intro k hk
    have hsplit := List.take_append_drop k octets
    rw [← hsplit] at hover
    refine (oversized_append _ ?_).1 hover
    rw [List.length_take]
    omega
  have hnine : octets.take 9 = octets.take 8 ++ [octets.get ⟨8, by omega⟩] := by
    rw [List.take_succ_eq_append_getElem (by omega)]
    rfl
  have hwhole := readChunks_cons
    (readNext_oversized_short hrun (hkept 9 (by omega)) (List.length_take_le ..)) []
  have hcut := readChunks_cons
    (readNext_oversized_short hrun (hkept 8 (by omega))
      (Nat.le_trans (List.length_take_le ..) (by omega))) [[octets.get ⟨8, by omega⟩]]
  have hwaits : readNext s [octets.get ⟨8, by omega⟩] = none := by simp [readNext]
  have hlast : readChunks s [[octets.get ⟨8, by omega⟩]] = ([], s, [octets.get ⟨8, by omega⟩]) := by
    rw [readChunks, feed_cons, List.nil_append, drain_of_none hwaits]
    rfl
  have hsame := (h _ (List.take_prefix 9 octets) [octets.take 9]
    [octets.take 8, [octets.get ⟨8, by omega⟩]] (by simp)
    (by rw [hnine]; simp only [List.flatten_cons, List.flatten_nil, List.append_nil])).2.2
  rw [hwhole, hcut, hlast] at hsame
  exact absurd (hsame hrun) (by simp [readChunks, feed])

/-- A frame that was decoded can be a message of its own. -/
theorem ChunkingInvisible.of_cons {s s' : ReadLoop F} {frame more : Bytes} {a : ReadAction}
    (hnext : readNext s frame = some (a, s', [])) (h : ChunkingInvisible s (frame ++ more)) :
    ChunkingInvisible s' more := by
  intro received hreceived chunks chunks' hchunks hchunks'
  have hsame := h (frame ++ received) (List.prefix_append_right_inj frame |>.2 hreceived)
    (frame :: chunks) (frame :: chunks') (by simp [hchunks]) (by simp [hchunks'])
  rw [readChunks_cons hnext, readChunks_cons hnext] at hsame
  exact ⟨List.tail_eq_of_cons_eq hsame.1, hsame.2⟩

/-- Up to the first header that is rejected, every frame can be a message of its own. -/
theorem not_invisible_of_scans {codec codec' : SpdyCodec F} {octets rest : Bytes}
    (hscans : Scans takeFrame codec octets codec' rest) (hover : Oversized codec' rest)
    (hmore : rest.length ≠ 8) : ¬ ChunkingInvisible ⟨codec, true⟩ octets := by
  induction hscans with
  | refl codec stream => exact not_invisible_of_oversized rfl hover hmore
  | step hnext _ ih =>
      obtain ⟨hfit, hread⟩ := readNext_of_takeFrame hnext
      obtain ⟨frame, rfl, -, hframe⟩ := readNext_frame hread hfit
      have hwhole := hframe []
      rw [List.append_nil] at hwhole
      exact fun h => ih hover hmore (h.of_cons hwhole)

/-- The cuts cannot be seen exactly when nothing follows the header of a frame above the
limit. -/
theorem chunking_invisible_iff (codec : SpdyCodec F) (octets : Bytes) :
    ChunkingInvisible ⟨codec, true⟩ octets ↔ RejectsLast codec octets := by
  constructor
  · intro h codec' rest hscans hover
    by_contra hmore
    exact not_invisible_of_scans hscans hover hmore h
  · intro h received hreceived chunks chunks' hchunks hchunks'
    obtain ⟨more, rfl⟩ := hreceived
    have hpart := h.take
    rw [readChunks_eq (by rwa [hchunks]), readChunks_eq (by rwa [hchunks']), hchunks, hchunks']
    exact ⟨rfl, rfl, fun _ => rfl⟩

/-- A library whose streams are never used. -/
def noFlate : Flate where
  Compress := Unit
  Decompress := Unit
  newCompress := ()
  newDecompress := ()
  setCompressDictionary := fun _ _ => .ok ()
  setDecompressDictionary := fun _ _ => .ok ()
  compress := fun _ _ _ => ⟨.ok .ok, 0, [], ()⟩
  decompress := fun _ _ _ => ⟨.ok .ok, 0, [], ()⟩

/-- DATA on stream 1 with nine octets, and a PING. -/
def rejectedOctets : Bytes :=
  encodeData 1 (List.replicate 9 0) false ++ encodePing 2

/-- With a limit of eight octets the DATA frame is skipped when it comes with the PING,
and the PING is routed; cut after its header, its payload is read as frames. -/
theorem cut_in_rejected_frame :
    ¬ ∀ (F : Flate) (codec : SpdyCodec F) (chunks chunks' : List Bytes),
      chunks.flatten = chunks'.flatten →
        SameReading (readChunks ⟨codec, true⟩ chunks) (readChunks ⟨codec, true⟩ chunks') := by
  intro h
  have hsame := (h noFlate (.withMaxFrameSize noFlate 8) [rejectedOctets]
    [rejectedOctets.take 8, rejectedOctets.drop 8] (by decide)).1
  exact absurd hsame (by decide)

end KubePortForward.Mux
