import KubePortForward.Verified.Transition
import KubePortForward.Codec.SpdyCodec
import KubePortForward.Codec.WordFlate

/-!
# Header inflation ends below its ceiling

`decompress_headers` once more, with the output buffer and the two positions that it slices
its input and its output at, and with a record of the buffers it allocates, the blocks it
parses and the dictionaries it sets.  A slice that is out of range panics.

Of the decompressor nothing is assumed but that a call takes no more than it is given,
writes no more than it has room for, and does one of the two when it reports success and
there was input.  Whatever else it does, the loop goes on only after a round that took
input, gave output, doubled the buffer or set the dictionary, and all four are bounded.

## Main results

* `round_ok` — a round stays in range and below the ceiling, and leaves fewer to come.
* `round_listed` — a round does what the loop over lists does.
* `inflation_ends_within_ceiling` — the loop returns for every input and every state of the
  decompressor, no slice is out of range, and over the life of a codec the dictionary is set
  once at most.
-/

namespace KubePortForward.Codec

open KubePortForward.Verified.Transition

/-- What a call of the decompressor never does, in whatever state it is. -/
structure Flate.DecompressBounds (F : Flate) : Prop where
  consumed_le : ∀ st input room, (F.decompress st input room).consumed ≤ input.length
  produced_le : ∀ st input room, (F.decompress st input room).produced.length ≤ room
  progress : ∀ st input room, (F.decompress st input room).result = .ok .ok → input ≠ [] →
    0 < (F.decompress st input room).consumed + (F.decompress st input room).produced.length

variable {F : Flate}

/-! ## The loop over positions -/

inductive InflateEvent where
  | buffer (len : Nat)
  | dictionary
  | parsed (block : Bytes)
  deriving DecidableEq, Repr

/-- The locals of `decompress_headers`: the buffer, and how far the counters of the
decompressor are ahead of `base_in` and `base_out`. -/
structure InflateState (F : Flate) where
  output : Bytes
  curIn : Nat
  curOut : Nat
  codec : SpdyCodec F
  events : List InflateEvent

inductive InflateRound (F : Flate) where
  | panicked
  | done (result : Except CodecError Headers) (s : InflateState F)
  | again (s : InflateState F)

/-- `&bs[start..]`. -/
def sliceFrom (bs : Bytes) (start : Nat) : Option Bytes :=
  if start ≤ bs.length then some (bs.drop start) else none

/-- `&bs[..stop]`. -/
def sliceTo (bs : Bytes) (stop : Nat) : Option Bytes :=
  if stop ≤ bs.length then some (bs.take stop) else none

namespace InflateState

/-- `grow_header_buffer(&mut output)`. -/
def grow (s : InflateState F) : Except CodecError (InflateState F) :=
  match growHeaderBuffer s.output.length with
  | .error e => .error e
  | .ok len =>
      .ok { s with
        output := s.output ++ List.replicate (len - s.output.length) 0
        events := s.events ++ [.buffer len] }

/-- The call has written to `output[cur_out..]` and moved the counters. -/
def took (call : FlateCall F.Decompress DecompressError) (s : InflateState F) :
    InflateState F :=
  { s with
    output := s.output.take s.curOut ++ call.produced ++
      s.output.drop (s.curOut + call.produced.length)
    curIn := s.curIn + call.consumed
    curOut := s.curOut + call.produced.length
    codec := { s.codec with decompressor := call.state } }

/-- `return parse_header_block(&output[..new_out])`. -/
def parse (s : InflateState F) : InflateRound F :=
  match sliceTo s.output s.curOut with
  | some block => .done (parseHeaderBlock block) { s with events := s.events ++ [.parsed block] }
  | none => .panicked

/-- The decompressor asks for the dictionary, or fails. -/
def failed (e : DecompressError) (s : InflateState F) : InflateRound F :=
  if e.needsDictionary && !s.codec.dictSetDecompress then
    match F.setDecompressDictionary s.codec.decompressor SPDY_DICT with
    | .ok st =>
        .again { s with
          codec := { s.codec with decompressor := st, dictSetDecompress := true }
          events := s.events ++ [.dictionary] }
    | .error message => .done (.error (.compression message)) s
  else .done (.error (.compression e.message)) s

/-- What a round makes of a call. -/
def settle (compressed : Bytes) (call : FlateCall F.Decompress DecompressError)
    (s : InflateState F) : InflateRound F :=
  match call.result with
  | .ok .ok =>
      if decide (compressed.length ≤ s.curIn) && call.produced.isEmpty then s.parse
      else .again s
  | .ok .bufError =>
      if compressed.length ≤ s.curIn then s.parse
      else match s.grow with
      | .error e => .done (.error e) s
      | .ok s => .again s
  | .ok .streamEnd => s.parse
  | .error e => s.failed e

/-- The buffer of a round, which is enlarged when it is nearly full. -/
@[irreducible]
def buffer (s : InflateState F) : Except CodecError (InflateState F) :=
  if s.output.length - 256 ≤ s.curOut then s.grow else .ok s

/-- One round of the loop, once it has its buffer. -/
def inflate (compressed : Bytes) (s : InflateState F) : InflateRound F :=
  match sliceFrom compressed s.curIn, sliceFrom s.output s.curOut with
  | some input, some room =>
      let call := F.decompress s.codec.decompressor input room.length
      (s.took call).settle compressed call
  | _, _ => .panicked

/-- One round of the loop of `decompress_headers`. -/
def round (compressed : Bytes) (s : InflateState F) : InflateRound F :=
  match s.buffer with
  | .error e => .done (.error e) s
  | .ok s => s.inflate compressed

/-- The locals as the loop is entered. -/
def start (compressed : Bytes) (codec : SpdyCodec F) : InflateState F :=
  let len := min (compressed.length * 4 + 1024) MAX_HEADER_BLOCK_SIZE
  { output := List.replicate len 0
    curIn := 0
    curOut := 0
    codec := codec
    events := [.buffer len] }

end InflateState

def inflateLoop (compressed : Bytes) : Nat → InflateState F → Option (InflateRound F)
  | 0, _ => none
  | rounds + 1, s =>
      match s.round compressed with
      | .again s => inflateLoop compressed rounds s
      | r => some r

/-- `decompress_headers`, with the positions and the record. -/
def SpdyCodec.inflateHeaders (compressed : Bytes) (codec : SpdyCodec F) :
    Option (InflateRound F) :=
  if compressed.isEmpty then
    some (.done (.ok []) { output := [], curIn := 0, curOut := 0, codec := codec, events := [] })
  else inflateLoop compressed (decompressRounds compressed) (.start compressed codec)

/-! ## One round -/

/-- The record keeps below the ceiling, and has the dictionary set exactly if it was set in
the meantime. -/
structure Recorded (wasSet : Bool) (s : InflateState F) : Prop where
  buffers : ∀ len, .buffer len ∈ s.events → len ≤ MAX_HEADER_BLOCK_SIZE
  blocks : ∀ block, .parsed block ∈ s.events → block.length ≤ MAX_HEADER_BLOCK_SIZE
  dictionary : s.events.count .dictionary + wasSet.toNat = s.codec.dictSetDecompress.toNat

/-- Both positions are in range and the buffer is below the ceiling. -/
structure InRange (compressed : Bytes) (s : InflateState F) : Prop where
  input : s.curIn ≤ compressed.length
  output : s.curOut ≤ s.output.length
  positive : 0 < s.output.length
  ceiling : s.output.length ≤ MAX_HEADER_BLOCK_SIZE

/-- How many rounds can still come: each takes input, gives output, doubles the buffer or
sets the dictionary, or is the last. -/
def InflateState.roundsLeft (compressed : Bytes) (s : InflateState F) : Nat :=
  (compressed.length - s.curIn) + (MAX_HEADER_BLOCK_SIZE - s.curOut) +
    (20 - s.output.length.log2) + (!s.codec.dictSetDecompress).toNat

/-- What a round may come to. -/
def RoundOk (compressed : Bytes) (wasSet : Bool) (left : Nat) : InflateRound F → Prop
  | .panicked => False
  | .done _ s => Recorded wasSet s
  | .again s => InRange compressed s ∧ Recorded wasSet s ∧ s.roundsLeft compressed < left

/-- A buffer that is enlarged is doubled, or as large as it may be. -/
theorem growHeaderBuffer_ok {len len' : Nat} (hpos : 0 < len)
    (h : growHeaderBuffer len = .ok len') :
    len < len' ∧ len' ≤ MAX_HEADER_BLOCK_SIZE ∧ 20 - len'.log2 < 20 - len.log2 := by
  unfold growHeaderBuffer at h
  split at h
  · contradiction
  · next hbelow =>
      obtain rfl := Except.ok.inj h
      have hlog : len.log2 < 20 := (Nat.log2_lt (by omega)).2 (Nat.lt_of_not_le hbelow)
      have hgrown : len < min (len * 2) MAX_HEADER_BLOCK_SIZE := by omega
      refine ⟨hgrown, Nat.min_le_right _ _, ?_⟩
      by_cases hfits : len * 2 ≤ MAX_HEADER_BLOCK_SIZE
      · rw [Nat.min_eq_left hfits, Nat.mul_comm, Nat.log2_two_mul (by omega)]
        omega
      · rw [Nat.min_eq_right (Nat.le_of_not_le hfits)]
        have hmax : MAX_HEADER_BLOCK_SIZE.log2 = 20 := by
          show (2 ^ 20).log2 = 20
          exact Nat.log2_two_pow
        omega

section

variable {compressed : Bytes} {wasSet : Bool} {s s' : InflateState F}

theorem grow_ok (hrange : InRange compressed s) (hrec : Recorded wasSet s)
    (h : s.grow = .ok s') : InRange compressed s' ∧ Recorded wasSet s' ∧
      s'.roundsLeft compressed < s.roundsLeft compressed := by
  unfold InflateState.grow at h
  split at h
  · contradiction
  · next len hlen =>
      obtain rfl := Except.ok.inj h
      obtain ⟨hmore, hmax, hlog⟩ := growHeaderBuffer_ok hrange.positive hlen
      have hlength : (s.output ++ List.replicate (len - s.output.length) 0).length = len := by
        simp only [List.length_append, List.length_replicate]
        omega
      refine ⟨⟨hrange.input, ?_, ?_, ?_⟩, ⟨?_, ?_, ?_⟩, ?_⟩
      · have := hrange.output
        simp only [hlength]
        omega
      · simp only [hlength]
        omega
      · simpa only [hlength] using hmax
      · intro len' hmem
        rcases List.mem_append.1 hmem with hold | hnew
        · exact hrec.buffers len' hold
        · rw [InflateEvent.buffer.inj (List.mem_singleton.1 hnew)]
          exact hmax
      · intro block hmem
        rcases List.mem_append.1 hmem with hold | hnew
        · exact hrec.blocks block hold
        · simp at hnew
      · rw [List.count_append]
        simpa using hrec.dictionary
      · simp only [InflateState.roundsLeft, hlength]
        omega

/-- A round has as many to come after it as before, once it has its buffer. -/
theorem buffer_ok (hrange : InRange compressed s) (hrec : Recorded wasSet s)
    (h : s.buffer = .ok s') : InRange compressed s' ∧ Recorded wasSet s' ∧
      s'.roundsLeft compressed ≤ s.roundsLeft compressed := by
  unfold InflateState.buffer at h
  split at h
  · obtain ⟨hrange', hrec', hleft⟩ := grow_ok hrange hrec h
    exact ⟨hrange', hrec', Nat.le_of_lt hleft⟩
  · obtain rfl := Except.ok.inj h
    exact ⟨hrange, hrec, Nat.le_refl _⟩

variable {call : FlateCall F.Decompress DecompressError}

/-- A call that keeps to its slices stays in range, and every octet that it takes or gives
leaves one round less. -/
theorem took_ok (hrange : InRange compressed s)
    (hconsumed : call.consumed ≤ compressed.length - s.curIn)
    (hproduced : call.produced.length ≤ s.output.length - s.curOut) :
    InRange compressed (s.took call) ∧ (s.took call).output.length = s.output.length ∧
      (s.took call).roundsLeft compressed + (call.consumed + call.produced.length) =
        s.roundsLeft compressed := by
  have hinput := hrange.input
  have houtput := hrange.output
  have hceiling := hrange.ceiling
  have hlength : (s.took call).output.length = s.output.length := by
    simp only [InflateState.took, List.length_append, List.length_take, List.length_drop]
    omega
  refine ⟨⟨?_, ?_, ?_, ?_⟩, hlength, ?_⟩
  · simp only [InflateState.took]
    omega
  · rw [hlength]
    simp only [InflateState.took]
    omega
  · rw [hlength]
    exact hrange.positive
  · rw [hlength]
    exact hceiling
  · simp only [InflateState.roundsLeft, hlength]
    simp only [InflateState.took]
    omega

theorem parse_ok {left : Nat} (hrange : InRange compressed s) (hrec : Recorded wasSet s) :
    RoundOk compressed wasSet left s.parse := by
  unfold InflateState.parse sliceTo
  rw [if_pos hrange.output]
  refine ⟨?_, ?_, ?_⟩
  · intro len hmem
    rcases List.mem_append.1 hmem with hold | hnew
    · exact hrec.buffers len hold
    · simp at hnew
  · intro block hmem
    rcases List.mem_append.1 hmem with hold | hnew
    · exact hrec.blocks block hold
    · rw [InflateEvent.parsed.inj (List.mem_singleton.1 hnew)]
      have := hrange.ceiling
      simp only [List.length_take]
      omega
  · rw [List.count_append]
    simpa using hrec.dictionary

/-- The dictionary is set only while it has not been. -/
theorem failed_ok {left : Nat} {e : DecompressError} (hrange : InRange compressed s)
    (hrec : Recorded wasSet s) (hleft : s.roundsLeft compressed ≤ left) :
    RoundOk compressed wasSet left (s.failed e) := by
  unfold InflateState.failed
  split
  · next hasks =>
      have hunset : s.codec.dictSetDecompress = false := by
        simpa using (Bool.and_eq_true_iff.1 hasks).2
      split
      · refine ⟨⟨hrange.input, hrange.output, hrange.positive, hrange.ceiling⟩,
          ⟨?_, ?_, ?_⟩, ?_⟩
        · intro len hmem
          rcases List.mem_append.1 hmem with hold | hnew
          · exact hrec.buffers len hold
          · simp at hnew
        · intro block hmem
          rcases List.mem_append.1 hmem with hold | hnew
          · exact hrec.blocks block hold
          · simp at hnew
        · have hcount := hrec.dictionary
          rw [hunset] at hcount
          rw [List.count_append]
          simp only [List.count_singleton_self, Bool.toNat_true, Bool.toNat_false] at hcount ⊢
          omega
        · simp only [InflateState.roundsLeft, hunset, Bool.not_false, Bool.not_true,
            Bool.toNat_true, Bool.toNat_false] at hleft ⊢
          omega
      · exact hrec
  · exact hrec

theorem settle_ok {left : Nat} (hrange : InRange compressed s) (hrec : Recorded wasSet s)
    (hleft : s.roundsLeft compressed + (call.consumed + call.produced.length) ≤ left)
    (hprogress : call.result = .ok .ok → s.curIn < compressed.length →
      0 < call.consumed + call.produced.length) :
    RoundOk compressed wasSet left (s.settle compressed call) := by
  unfold InflateState.settle
  split
  · next hok =>
      split
      · exact parse_ok hrange hrec
      · next hgoes =>
          refine ⟨hrange, hrec, ?_⟩
          have hmoved : 0 < call.consumed + call.produced.length := by
            by_cases hin : compressed.length ≤ s.curIn
            · have hsome : call.produced ≠ [] := by
                intro hnone
                simp [hin, hnone] at hgoes
              have := List.length_pos_iff.2 hsome
              omega
            · exact hprogress hok (Nat.lt_of_not_le hin)
          omega
  · split
    · exact parse_ok hrange hrec
    · split
      · exact hrec
      · next s' hgrow =>
          obtain ⟨hrange', hrec', hless⟩ := grow_ok hrange hrec hgrow
          exact ⟨hrange', hrec', by omega⟩
  · exact parse_ok hrange hrec
  · exact failed_ok hrange hrec (by omega)

/-- A round stays in range and below the ceiling, and leaves fewer to come. -/
theorem round_ok (bounds : F.DecompressBounds) (hrange : InRange compressed s)
    (hrec : Recorded wasSet s) :
    RoundOk compressed wasSet (s.roundsLeft compressed) (s.round compressed) := by
  unfold InflateState.round
  cases hbuffer : s.buffer with
  | error e => exact hrec
  | ok s' =>
      obtain ⟨hrange', hrec', hleft⟩ := buffer_ok hrange hrec hbuffer
      simp only [InflateState.inflate, sliceFrom, if_pos hrange'.input, if_pos hrange'.output]
      have hconsumed := bounds.consumed_le s'.codec.decompressor (compressed.drop s'.curIn)
        (s'.output.drop s'.curOut).length
      have hproduced := bounds.produced_le s'.codec.decompressor (compressed.drop s'.curIn)
        (s'.output.drop s'.curOut).length
      have hprogress := bounds.progress s'.codec.decompressor (compressed.drop s'.curIn)
        (s'.output.drop s'.curOut).length
      generalize F.decompress s'.codec.decompressor (compressed.drop s'.curIn)
        (s'.output.drop s'.curOut).length = call at hconsumed hproduced hprogress ⊢
      rw [List.length_drop] at hconsumed hproduced
      obtain ⟨htook, -, hcount⟩ := took_ok hrange' hconsumed hproduced
      refine settle_ok htook ⟨hrec'.buffers, hrec'.blocks, hrec'.dictionary⟩ (by omega) ?_
      intro hok hmore
      apply hprogress hok
      intro hnil
      have hzero := congrArg List.length hnil
      simp only [List.length_drop, List.length_nil, InflateState.took] at hzero hmore
      omega

end

/-- With as many rounds as can come and one more, the loop returns. -/
theorem inflateLoop_ok (bounds : F.DecompressBounds) {compressed : Bytes} {wasSet : Bool}
    (rounds : Nat) : ∀ {s : InflateState F}, InRange compressed s → Recorded wasSet s →
      s.roundsLeft compressed < rounds →
      ∃ result s', inflateLoop compressed rounds s = some (.done result s') ∧
        Recorded wasSet s' := by
  induction rounds with
  | zero =>
      intro s _ _ hleft
      exact absurd hleft (Nat.not_lt_zero _)
  | succ rounds ih =>
      intro s hrange hrec hleft
      have hround := round_ok bounds hrange hrec
      rw [inflateLoop]
      cases hresult : s.round compressed with
      | panicked =>
          rw [hresult] at hround
          exact hround.elim
      | done result s' =>
          rw [hresult] at hround
          exact ⟨result, s', rfl, hround⟩
      | again s' =>
          rw [hresult] at hround
          obtain ⟨hrange', hrec', hless⟩ := hround
          exact ih hrange' hrec' (by omega)

/-! ## The loop over lists -/

/-- A round of `decompressLoop`. -/
def decompressStep (input : Bytes) (bufLen : Nat) (out : Bytes) (codec : SpdyCodec F) :
    DecompressRound F :=
  match roundBuffer bufLen out with
  | .error e => .done (.error e) codec
  | .ok bufLen => decompressRound input bufLen out codec

theorem decompressLoop_succ (rounds : Nat) (input : Bytes) (bufLen : Nat) (out : Bytes)
    (codec : SpdyCodec F) :
    decompressLoop (rounds + 1) input bufLen out codec =
      match decompressStep input bufLen out codec with
      | .done result codec => some (result, codec)
      | .again input bufLen out codec => decompressLoop rounds input bufLen out codec := by
  rw [decompressLoop, decompressStep]
  cases roundBuffer bufLen out <;> rfl

/-- What is left of the block, and what the buffer holds. -/
def InflateState.listed (compressed : Bytes) (s : InflateState F) : DecompressRound F :=
  .again (compressed.drop s.curIn) s.output.length (s.output.take s.curOut) s.codec

def InflateRound.listed (compressed : Bytes) : InflateRound F → Option (DecompressRound F)
  | .panicked => none
  | .done result s => some (.done result s.codec)
  | .again s => some (s.listed compressed)

section

variable {compressed : Bytes} {s s' : InflateState F}

theorem parse_listed (hrange : InRange compressed s) :
    s.parse.listed compressed =
      some (.done (parseHeaderBlock (s.output.take s.curOut)) s.codec) := by
  unfold InflateState.parse sliceTo
  rw [if_pos hrange.output]
  rfl

/-- A larger buffer holds what it held. -/
theorem grow_listed (hrange : InRange compressed s) :
    (∃ e, growHeaderBuffer s.output.length = .error e ∧ s.grow = .error e) ∨
    ∃ len s', growHeaderBuffer s.output.length = .ok len ∧ s.grow = .ok s' ∧
      s'.listed compressed =
        .again (compressed.drop s.curIn) len (s.output.take s.curOut) s.codec := by
  unfold InflateState.grow
  cases hlen : growHeaderBuffer s.output.length with
  | error e => exact .inl ⟨e, rfl, rfl⟩
  | ok len =>
      obtain ⟨hmore, -, -⟩ := growHeaderBuffer_ok hrange.positive hlen
      refine .inr ⟨len, _, rfl, rfl, ?_⟩
      simp only [InflateState.listed, List.length_append, List.length_replicate,
        List.take_append_of_le_length hrange.output]
      congr 1
      omega

theorem failed_listed (e : DecompressError) :
    (s.failed e).listed compressed =
      some (decompressFailed e (compressed.drop s.curIn) s.output.length
        (s.output.take s.curOut) s.codec) := by
  unfold InflateState.failed decompressFailed
  split
  · cases F.setDecompressDictionary s.codec.decompressor SPDY_DICT <;> rfl
  · rfl

/-- The buffer holds what was given so far and what the call gave. -/
theorem took_listed (call : FlateCall F.Decompress DecompressError)
    (hrange : InRange compressed s) : (s.took call).output.take (s.took call).curOut =
      s.output.take s.curOut ++ call.produced := by
  have houtput := hrange.output
  have hlength : (s.output.take s.curOut ++ call.produced).length =
      s.curOut + call.produced.length := by
    rw [List.length_append, List.length_take, Nat.min_eq_left houtput]
  show (s.output.take s.curOut ++ call.produced ++ _).take (s.curOut + call.produced.length) = _
  rw [← hlength, List.take_left]

/-- What a round makes of a call is what it makes of it over lists. -/
theorem inflate_listed (bounds : F.DecompressBounds) (hrange : InRange compressed s) :
    (s.inflate compressed).listed compressed =
      some (decompressRound (compressed.drop s.curIn) s.output.length
        (s.output.take s.curOut) s.codec) := by
  have houtput := hrange.output
  have hroom : s.output.length - (s.output.take s.curOut).length =
      (s.output.drop s.curOut).length := by
    rw [List.length_take, List.length_drop, Nat.min_eq_left houtput]
  simp only [InflateState.inflate, sliceFrom, if_pos hrange.input, if_pos houtput,
    decompressRound, hroom]
  have hconsumed := bounds.consumed_le s.codec.decompressor (compressed.drop s.curIn)
    (s.output.drop s.curOut).length
  have hproduced := bounds.produced_le s.codec.decompressor (compressed.drop s.curIn)
    (s.output.drop s.curOut).length
  generalize F.decompress s.codec.decompressor (compressed.drop s.curIn)
    (s.output.drop s.curOut).length = call at hconsumed hproduced ⊢
  rw [List.length_drop] at hconsumed hproduced
  obtain ⟨htook, hlength, -⟩ := took_ok hrange hconsumed hproduced
  have hinput : (compressed.drop s.curIn).drop call.consumed =
      compressed.drop (s.took call).curIn := List.drop_drop
  have hempty : (compressed.drop (s.took call).curIn).isEmpty =
      decide (compressed.length ≤ (s.took call).curIn) := by
    rw [Bool.eq_iff_iff]
    simp
  have hcodec : ({ s.codec with decompressor := call.state } : SpdyCodec F) =
      (s.took call).codec := rfl
  rw [hinput, hempty, ← took_listed call hrange, ← hlength, hcodec]
  unfold InflateState.settle
  generalize s.took call = s' at htook ⊢
  cases call.result with
  | error e => exact failed_listed e
  | ok status =>
      cases status with
      | ok =>
          simp only
          split
          · exact parse_listed htook
          · rfl
      | bufError =>
          simp only [decide_eq_true_eq]
          split
          · exact parse_listed htook
          · rcases grow_listed htook with ⟨e, he, hgrow⟩ | ⟨len, grown, hlen, hgrow, hlisted⟩
            · simp only [hgrow, he]
              rfl
            · simp only [hgrow, hlen]
              exact congrArg some hlisted
      | streamEnd => exact parse_listed htook

/-- The buffer of a round is that of the loop over lists. -/
theorem buffer_listed (hrange : InRange compressed s) :
    (∃ e, roundBuffer s.output.length (s.output.take s.curOut) = .error e ∧
      s.buffer = .error e) ∨
    ∃ len s', roundBuffer s.output.length (s.output.take s.curOut) = .ok len ∧
      s.buffer = .ok s' ∧ s'.listed compressed =
        .again (compressed.drop s.curIn) len (s.output.take s.curOut) s.codec := by
  unfold roundBuffer InflateState.buffer
  rw [List.length_take, Nat.min_eq_left hrange.output]
  generalize s.output.length - 256 = mark
  by_cases hfull : mark ≤ s.curOut
  · simp only [if_pos hfull]
    exact grow_listed hrange
  · simp only [if_neg hfull]
    exact .inr ⟨_, s, rfl, rfl, rfl⟩

/-- A round does what the loop over lists does. -/
theorem round_listed (bounds : F.DecompressBounds) {wasSet : Bool}
    (hrange : InRange compressed s) (hrec : Recorded wasSet s) :
    (s.round compressed).listed compressed =
      some (decompressStep (compressed.drop s.curIn) s.output.length
        (s.output.take s.curOut) s.codec) := by
  unfold InflateState.round decompressStep
  rcases buffer_listed hrange with ⟨e, he, hs'⟩ | ⟨len, s', hlen, hs', hlisted⟩
  · simp only [hs', he]
    rfl
  · obtain ⟨hin, hlength, hout, hcodec⟩ := DecompressRound.again.inj hlisted
    simp only [hs', hlen]
    rw [inflate_listed bounds (buffer_ok hrange hrec hs').1, hin, hlength, hout, hcodec]

end

/-- The two loops return the same. -/
theorem inflateLoop_listed (bounds : F.DecompressBounds) {compressed : Bytes} {wasSet : Bool}
    (rounds : Nat) : ∀ {s s' : InflateState F} {result : Except CodecError Headers},
      InRange compressed s → Recorded wasSet s →
      inflateLoop compressed rounds s = some (.done result s') →
      decompressLoop rounds (compressed.drop s.curIn) s.output.length
        (s.output.take s.curOut) s.codec = some (result, s'.codec) := by
  induction rounds with
  | zero =>
      intro s s' result _ _ hloop
      contradiction
  | succ rounds ih =>
      intro s s' result hrange hrec hloop
      have hround := round_ok bounds hrange hrec
      have hlisted := round_listed bounds hrange hrec
      rw [inflateLoop] at hloop
      rw [decompressLoop_succ]
      cases hresult : s.round compressed with
      | panicked =>
          rw [hresult] at hround
          exact hround.elim
      | done r t =>
          rw [hresult] at hloop hlisted
          obtain ⟨rfl, rfl⟩ := InflateRound.done.inj (Option.some.inj hloop)
          rw [← Option.some.inj hlisted]
      | again t =>
          rw [hresult] at hround hloop hlisted
          obtain ⟨hrange', hrec', -⟩ := hround
          rw [← Option.some.inj hlisted]
          exact ih hrange' hrec' hloop

/-! ## The life of a codec -/

theorem start_length (compressed : Bytes) (codec : SpdyCodec F) :
    (InflateState.start compressed codec).output.length =
      min (compressed.length * 4 + 1024) MAX_HEADER_BLOCK_SIZE := by
  simp only [InflateState.start, List.length_replicate]

theorem start_ok (compressed : Bytes) (codec : SpdyCodec F) :
    InRange compressed (.start compressed codec) ∧
      Recorded codec.dictSetDecompress (.start compressed codec) ∧
      (InflateState.start compressed codec).roundsLeft compressed < decompressRounds compressed := by
  have hlength := start_length compressed codec
  have hmax : 0 < MAX_HEADER_BLOCK_SIZE := by decide
  refine ⟨⟨Nat.zero_le _, Nat.zero_le _, ?_, ?_⟩, ⟨?_, ?_, ?_⟩, ?_⟩
  · omega
  · omega
  · intro len hmem
    simp only [InflateState.start, List.mem_singleton, InflateEvent.buffer.injEq] at hmem
    rw [hmem]
    exact Nat.min_le_right _ _
  · intro block hmem
    simp only [InflateState.start, List.mem_singleton, reduceCtorEq] at hmem
  · exact Nat.zero_add _
  · have hflag : (!codec.dictSetDecompress).toNat ≤ 1 := Bool.toNat_le _
    show compressed.length - 0 + (MAX_HEADER_BLOCK_SIZE - 0) +
      (20 - (InflateState.start compressed codec).output.length.log2) +
      (!codec.dictSetDecompress).toNat < compressed.length + MAX_HEADER_BLOCK_SIZE + 32
    omega

/-- `decompress_headers` returns, whatever the decompressor does within its bounds. -/
theorem inflateHeaders_ok (bounds : F.DecompressBounds) (codec : SpdyCodec F)
    (compressed : Bytes) :
    ∃ result s, codec.inflateHeaders compressed = some (.done result s) ∧
      codec.decompressHeaders compressed = some (result, s.codec) ∧
      Recorded codec.dictSetDecompress s := by
  unfold SpdyCodec.inflateHeaders SpdyCodec.decompressHeaders
  split
  · exact ⟨_, _, rfl, rfl, nofun, nofun, Nat.zero_add _⟩
  · obtain ⟨hrange, hrec, hleft⟩ := start_ok compressed codec
    obtain ⟨result, s, hloop, hrec'⟩ := inflateLoop_ok bounds _ hrange hrec hleft
    have hlist := inflateLoop_listed bounds _ hrange hrec hloop
    rw [start_length] at hlist
    exact ⟨result, s, hloop, hlist, hrec'⟩

/-- A codec, and what its inflations have recorded so far. -/
structure CodecLife (F : Flate) where
  codec : SpdyCodec F
  events : List InflateEvent

inductive CodecAct where
  | inflate (compressed : Bytes)
  | deflate (rounds : Nat) (headers : Headers)
  | setMaxFrameSize (size : UInt32)

def codecStep (c : CodecLife F) : CodecAct → Option (CodecLife F)
  | .inflate compressed =>
      match c.codec.inflateHeaders compressed with
      | some (.done _ s) => some { codec := s.codec, events := c.events ++ s.events }
      | _ => none
  | .deflate rounds headers =>
      (c.codec.compressHeaders rounds headers).map fun (_, codec) => { c with codec := codec }
  | .setMaxFrameSize size => some { c with codec := c.codec.setMaxFrameSize size }

/-- What happens to a codec after `with_max_frame_size`. -/
def codecLife (F : Flate) (maxFrameSize : UInt32) : System (CodecLife F) CodecAct where
  init := { codec := .withMaxFrameSize F maxFrameSize, events := [] }
  step := codecStep

/-- The codec is as before, or as `decompress_headers` left it. -/
def InflatesOnce (codec codec' : SpdyCodec F) : Prop :=
  codec' = codec ∨
    ∃ compressed result, codec.decompressHeaders compressed = some (result, codec')

theorem headersFrame_codec {codec : SpdyCodec F} {minLen : Nat} {message : String}
    {payload : Bytes} {frame : Headers → Frame} {r : Except CodecError Frame × SpdyCodec F}
    (h : headersFrame minLen message payload frame codec = some r) :
    InflatesOnce codec r.2 := by
  unfold headersFrame at h
  split at h
  · obtain rfl := Option.some.inj h
    exact .inl rfl
  · obtain ⟨⟨result, codec'⟩, hinflated, rfl⟩ := Option.map_eq_some_iff.1 h
    exact .inr ⟨_, result, hinflated⟩

theorem decodeControlFrame_codec {codec : SpdyCodec F} {frameType : Nat} {flags : UInt8}
    {payload : Bytes} {r : Except CodecError Frame × SpdyCodec F}
    (h : codec.decodeControlFrame frameType flags payload = some r) :
    InflatesOnce codec r.2 := by
  unfold SpdyCodec.decodeControlFrame at h
  split at h
  · exact headersFrame_codec h
  split at h
  · exact headersFrame_codec h
  -- No other frame has headers.
  (repeat' split at h) <;> (obtain rfl := Option.some.inj h; exact .inl rfl)

/-- Decoding a frame inflates one block at most, and changes the codec in no other way. -/
theorem decodeFrame_codec {codec : SpdyCodec F} {buf : Bytes} {d : Decoded F}
    (h : codec.decodeFrame buf = some d) : InflatesOnce codec d.codec := by
  unfold SpdyCodec.decodeFrame at h
  simp only at h
  split at h
  · obtain rfl := Option.some.inj h
    exact .inl rfl
  split at h
  · obtain rfl := Option.some.inj h
    exact .inl rfl
  split at h
  · obtain rfl := Option.some.inj h
    exact .inl rfl
  split at h
  · obtain ⟨r, hr, rfl⟩ := Option.map_eq_some_iff.1 h
    exact decodeControlFrame_codec hr
  · obtain rfl := Option.some.inj h
    exact .inl rfl

theorem compressHeaders_dictSetDecompress {rounds : Nat} {headers : Headers}
    {codec codec' : SpdyCodec F} {result : Except CodecError Bytes}
    (h : codec.compressHeaders rounds headers = some (result, codec')) :
    codec'.dictSetDecompress = codec.dictSetDecompress := by
  unfold SpdyCodec.compressHeaders at h
  split at h
  · obtain ⟨-, rfl⟩ := Prod.mk.inj (Option.some.inj h)
    rfl
  · next primed hprime =>
      obtain ⟨⟨bytes, st⟩, -, heq⟩ := Option.map_eq_some_iff.1 h
      obtain ⟨-, rfl⟩ := Prod.mk.inj heq
      unfold SpdyCodec.primeCompressor at hprime
      split at hprime
      · rw [Except.ok.inj hprime]
      · split at hprime
        · rw [← Except.ok.inj hprime]
        · contradiction

/-- The record of a life says whether the dictionary is set. -/
theorem dictionary_invariant (bounds : F.DecompressBounds) (maxFrameSize : UInt32) :
    (codecLife F maxFrameSize).Invariant anyStep
      (fun c => c.events.count .dictionary = c.codec.dictSetDecompress.toNat) := by
  refine Invariant.of_step rfl fun c a c' h _ hs => ?_
  cases a with
  | inflate compressed =>
      obtain ⟨result, s, hinflate, -, hrec⟩ := inflateHeaders_ok bounds c.codec compressed
      simp only [codecLife, codecStep, hinflate] at hs
      obtain rfl := Option.some.inj hs
      have hcount := hrec.dictionary
      simp only [List.count_append]
      omega
  | deflate rounds headers =>
      obtain ⟨⟨result, codec'⟩, hcompress, rfl⟩ := Option.map_eq_some_iff.1 hs
      rw [h, compressHeaders_dictSetDecompress hcompress]
  | setMaxFrameSize size =>
      obtain rfl := Option.some.inj hs
      exact h

/-- For every input and every state of a decompressor that keeps to its bounds,
`decompress_headers` returns without a slice out of range; neither its buffer nor the block
it parses exceeds the ceiling; and in the life of a codec the dictionary is set once at
most. -/
theorem inflation_ends_within_ceiling (F : Flate) (bounds : F.DecompressBounds) :
    (∀ (codec : SpdyCodec F) (compressed : Bytes),
      ∃ result s, codec.inflateHeaders compressed = some (.done result s) ∧
        codec.decompressHeaders compressed = some (result, s.codec) ∧
        (∀ len, .buffer len ∈ s.events → len ≤ MAX_HEADER_BLOCK_SIZE) ∧
        ∀ block, .parsed block ∈ s.events → block.length ≤ MAX_HEADER_BLOCK_SIZE) ∧
    ∀ maxFrameSize acts c,
      (codecLife F maxFrameSize).run (codecLife F maxFrameSize).init acts = some c →
      c.events.count .dictionary ≤ 1 := by
  refine ⟨fun codec compressed => ?_, fun maxFrameSize acts c hrun => ?_⟩
  · obtain ⟨result, s, hinflate, hlist, hrec⟩ := inflateHeaders_ok bounds codec compressed
    exact ⟨result, s, hinflate, hlist, hrec.buffers, hrec.blocks⟩
  · have hcount := dictionary_invariant bounds maxFrameSize acts c hrun (meets_anyStep _ _)
    simp only at hcount
    rw [hcount]
    exact Bool.toNat_le _

/-- Streams of words keep to the bounds. -/
theorem wordFlate_bounds : wordFlate.DecompressBounds := by
  refine ⟨fun st input room => ?_, fun st input room => ?_, fun st input room hok hinput => ?_⟩
  · show (WordDecompress.decompress st input room).consumed ≤ _
    unfold WordDecompress.decompress
    split
    · exact Nat.le_refl _
    split
    · exact Nat.le_refl _
    · next hlong =>
        rw [List.length_append] at hlong
        split
        · simp only
          omega
        · exact Nat.zero_le _
  · show (WordDecompress.decompress st input room).produced.length ≤ _
    unfold WordDecompress.decompress
    split
    · exact List.length_take_le _ _
    split
    · exact Nat.zero_le _
    split
    · exact Nat.zero_le _
    · exact Nat.zero_le _
  · have hpos := List.length_pos_iff.2 hinput
    have hres : (WordDecompress.decompress st input room).result = .ok .ok := hok
    show 0 < (WordDecompress.decompress st input room).consumed + _
    unfold WordDecompress.decompress at hres ⊢
    split at hres
    · next hprimed =>
        rw [if_pos hprimed]
        simp only
        omega
    · next hprimed =>
        rw [if_neg hprimed]
        split at hres
        · next hshort =>
            rw [if_pos hshort]
            simp only
            omega
        · split at hres <;> contradiction

/-- A codec that inflates the headers of two streams sets the dictionary for the first. -/
theorem inflation_of_two_blocks :
    (∃ result s, (SpdyCodec.withMaxFrameSize wordFlate 16384).inflateHeaders
        (zlibHeader ++ Word.errorHeaders.code) = some (.done result s) ∧
      (SpdyCodec.withMaxFrameSize wordFlate 16384).decompressHeaders
        (zlibHeader ++ Word.errorHeaders.code) = some (result, s.codec) ∧
      (∀ len, .buffer len ∈ s.events → len ≤ MAX_HEADER_BLOCK_SIZE) ∧
      ∀ block, .parsed block ∈ s.events → block.length ≤ MAX_HEADER_BLOCK_SIZE) ∧
    ∃ c, (codecLife wordFlate 16384).run (codecLife wordFlate 16384).init
        [.inflate (zlibHeader ++ Word.errorHeaders.code), .inflate Word.dataHeaders.code] = some c ∧
      c.events.count .dictionary = 1 ∧ c.events.count .dictionary ≤ 1 := by
  have h := inflation_ends_within_ceiling wordFlate wordFlate_bounds
  have hlife : ((codecLife wordFlate 16384).run (codecLife wordFlate 16384).init
      [.inflate (zlibHeader ++ Word.errorHeaders.code), .inflate Word.dataHeaders.code]).map
      (fun c => c.events.count .dictionary) = some 1 := by
    decide +kernel
  obtain ⟨c, hrun, hcount⟩ := Option.map_eq_some_iff.1 hlife
  exact ⟨h.1 _ _, c, hrun, hcount, h.2 _ _ c hrun⟩

end KubePortForward.Codec
