import KubePortForward.Codec.SpdyCodec

/-!
# Header blocks through the zlib streams

`compress_headers` and `decompress_headers` keep one zlib stream each for the whole
session.  A compressor and a decompressor are in step when everything the compressor
gave has been given to the decompressor and came out again.  They stay in step over a
header block: the loop of the one puts the block into the stream, the loop of the other
takes it out, in at most one round for every octet of the block and one for the
dictionary.

## Main results

* `compressHeaders_spec` — what the compressor has given holds the block.
* `decompressHeaders_spec` — the decompressor returns, with what the block says.
-/

namespace KubePortForward.Codec

variable {F : Flate} {valid : Bytes → Prop} {decoded : Bytes → Bytes}
variable {deflated : F.Compress → Bytes → Bytes → Prop}
variable {inflated : Bool → F.Decompress → Bytes → Bytes → Prop}

/-! ## Compression -/

theorem compressLoop_spec (laws : F.Laws SPDY_DICT valid decoded deflated inflated)
    {rounds bufLen : Nat} {block out xs ys compressed : Bytes} {st st' : F.Compress}
    (hst : deflated st xs (ys ++ out)) (hroom : out.length < bufLen)
    (h : compressLoop F rounds block bufLen out st = some (.ok compressed, st')) :
    deflated st' (xs ++ block) (ys ++ compressed) ∧
      decoded (ys ++ compressed) = xs ++ block := by
  induction rounds generalizing block bufLen out xs st with
  | zero => contradiction
  | succ rounds ih =>
      obtain ⟨status, hresult, hend, hconsumed, hproduced, hnext, hdone⟩ :=
        laws.compress_sync st xs (ys ++ out) block (bufLen - out.length) hst (by omega)
      rw [compressLoop] at h
      simp only [hresult] at h
      generalize F.compress st block (bufLen - out.length) = call at *
      rw [List.append_assoc] at hnext
      -- a sync flush ends no stream: both statuses left are treated alike
      have hgoes : (if (block.drop call.consumed).isEmpty && call.produced.isEmpty then
            some (Except.ok (out ++ call.produced), call.state)
          else compressLoop F rounds (block.drop call.consumed)
            (if bufLen - 64 ≤ (out ++ call.produced).length then bufLen * 2 else bufLen)
            (out ++ call.produced) call.state) = some (.ok compressed, st') := by
        cases status with
        | ok => exact h
        | bufError => exact h
        | streamEnd => exact absurd rfl hend
      have hblock : xs ++ block.take call.consumed ++ block.drop call.consumed =
          xs ++ block := by
        rw [List.append_assoc, List.take_append_drop]
      split at hgoes
      · next hstop =>
          simp only [Bool.and_eq_true, List.isEmpty_iff] at hstop
          simp only [Option.some.injEq, Prod.mk.injEq, Except.ok.injEq] at hgoes
          obtain ⟨rfl, rfl⟩ := hgoes
          rw [hstop.1, List.append_nil] at hblock
          rw [hblock] at hnext
          rw [hstop.2, List.append_nil] at hnext ⊢
          exact ⟨hnext, (hdone hstop.2).2⟩
      · have hlater : (out ++ call.produced).length <
            if bufLen - 64 ≤ (out ++ call.produced).length then bufLen * 2 else bufLen := by
          rw [List.length_append]
          split <;> omega
        have hrest := ih hnext hlater hgoes
        rwa [hblock] at hrest

/-- What a codec's compressor was given and has given; it is set up on first use. -/
def SpdyCodec.Compressing (deflated : F.Compress → Bytes → Bytes → Prop)
    (codec : SpdyCodec F) (xs ys : Bytes) : Prop :=
  if codec.dictSetCompress then deflated codec.compressor xs ys
  else codec.compressor = F.newCompress ∧ xs = [] ∧ ys = []

theorem primeCompressor_spec (laws : F.Laws SPDY_DICT valid decoded deflated inflated)
    {codec : SpdyCodec F} {xs ys : Bytes} (h : codec.Compressing deflated xs ys) :
    ∃ st, codec.primeCompressor = .ok { codec with compressor := st, dictSetCompress := true } ∧
      deflated st xs ys := by
  obtain ⟨compressor, decompressor, dictSetCompress, dictSetDecompress, maxFrameSize⟩ := codec
  unfold SpdyCodec.Compressing at h
  unfold SpdyCodec.primeCompressor
  cases dictSetCompress with
  | true => exact ⟨compressor, rfl, h⟩
  | false =>
      obtain ⟨rfl, rfl, rfl⟩ := h
      obtain ⟨st, hset, hst⟩ := laws.compress_new
      exact ⟨st, by simp [hset], hst⟩

/-- Everything the compressor was given is in what it has given. -/
theorem compressHeaders_spec (laws : F.Laws SPDY_DICT valid decoded deflated inflated)
    {rounds : Nat} {headers : Headers} {codec codec' : SpdyCodec F} {xs ys compressed : Bytes}
    (hcodec : codec.Compressing deflated xs ys)
    (h : codec.compressHeaders rounds headers = some (.ok compressed, codec')) :
    codec'.Compressing deflated (xs ++ headerBlock headers) (ys ++ compressed) ∧
      valid (ys ++ compressed) ∧ decoded (ys ++ compressed) = xs ++ headerBlock headers := by
  obtain ⟨st, hprime, hst⟩ := primeCompressor_spec laws hcodec
  unfold SpdyCodec.compressHeaders at h
  rw [hprime] at h
  simp only [Option.map_eq_some_iff, Prod.mk.injEq, Prod.exists] at h
  obtain ⟨result, st', hloop, rfl, rfl⟩ := h
  obtain ⟨hst', hheld⟩ := compressLoop_spec laws (by rwa [List.append_nil]) (by simp) hloop
  exact ⟨hst', laws.deflated_valid _ _ _ hst', hheld⟩

/-! ## Decompression -/

/-- Where the loop of `decompress_headers` stands: of the stream `total`, which holds `xs`
and then the block, `input` has not been taken, and of the block `out` has been given. -/
structure Inflating (inflated : Bool → F.Decompress → Bytes → Bytes → Prop)
    (total xs : Bytes) (input : Bytes) (bufLen : Nat) (out : Bytes) (codec : SpdyCodec F) :
    Prop where
  taken : ∃ ys, ys ++ input = total ∧
    inflated codec.dictSetDecompress codec.decompressor ys (xs ++ out)
  positive : 0 < bufLen
  bounded : bufLen ≤ MAX_HEADER_BLOCK_SIZE
  held : out.length ≤ bufLen

/-- How many rounds can still come: every one but the last gives output or sets the
dictionary. -/
def roundsLeft (block out : Bytes) (codec : SpdyCodec F) : Nat :=
  block.length - out.length + if codec.dictSetDecompress then 0 else 1

/-- The buffer has room in every round. -/
theorem roundBuffer_spec {bufLen : Nat} {out : Bytes} (hpos : 0 < bufLen)
    (hbounded : bufLen ≤ MAX_HEADER_BLOCK_SIZE) (hheld : out.length ≤ bufLen)
    (hout : out.length < MAX_HEADER_BLOCK_SIZE - 256) :
    ∃ len, roundBuffer bufLen out = .ok len ∧ len ≤ MAX_HEADER_BLOCK_SIZE ∧
      out.length < len := by
  unfold roundBuffer
  split
  · next hfull =>
      have hgrow : growHeaderBuffer bufLen = .ok (min (bufLen * 2) MAX_HEADER_BLOCK_SIZE) :=
        if_neg (by omega)
      exact ⟨_, hgrow, Nat.min_le_right _ _, Nat.lt_min.2 ⟨by omega, by omega⟩⟩
  · exact ⟨bufLen, rfl, hbounded, by omega⟩

section Rounds

variable (laws : F.Laws SPDY_DICT valid decoded deflated inflated)
variable {total xs block input out : Bytes} {bufLen : Nat} {codec : SpdyCodec F}

include laws

/-- What has been given is the first part of the block. -/
theorem Inflating.isPrefix (h : Inflating inflated total xs input bufLen out codec)
    (hvalid : valid total) (htotal : decoded total = xs ++ block) : out <+: block := by
  obtain ⟨ys, rfl, hst⟩ := h.taken
  have hgiven := (laws.inflated_prefix _ _ _ _ hst).trans (laws.decoded_prefix _ _ hvalid)
  rw [htotal] at hgiven
  exact (List.prefix_append_right_inj xs).1 hgiven

/-- More output leaves fewer rounds. -/
theorem roundsLeft_lt {produced : Bytes} {st : F.Decompress}
    (h : Inflating inflated total xs input bufLen (out ++ produced)
      { codec with decompressor := st })
    (hvalid : valid total) (htotal : decoded total = xs ++ block) (hsome : produced ≠ []) :
    roundsLeft block (out ++ produced) { codec with decompressor := st } <
      roundsLeft block out codec := by
  have hlen := (h.isPrefix laws hvalid htotal).length_le
  have hpos := List.length_pos_iff.2 hsome
  rw [List.length_append] at hlen
  unfold roundsLeft
  rw [List.length_append]
  exact Nat.add_lt_add_right (by omega) _

/-- A round returns what the block says, or gives some more of it. -/
theorem decompressRound_spec (h : Inflating inflated total xs input bufLen out codec)
    (hvalid : valid total) (htotal : decoded total = xs ++ block)
    (hroom : out.length < bufLen) :
    (∃ codec', decompressRound input bufLen out codec = .done (parseHeaderBlock block) codec' ∧
        inflated codec'.dictSetDecompress codec'.decompressor total (xs ++ block) ∧
        codec'.maxFrameSize = codec.maxFrameSize) ∨
      ∃ input' out' codec', decompressRound input bufLen out codec =
          .again input' bufLen out' codec' ∧
        Inflating inflated total xs input' bufLen out' codec' ∧
        roundsLeft block out' codec' < roundsLeft block out codec ∧
        codec'.maxFrameSize = codec.maxFrameSize := by
  obtain ⟨ys, rfl, hst⟩ := h.taken
  obtain ⟨hconsumed, hproduced, hcall⟩ := laws.decompress_sync _ _ ys (xs ++ out) input
    (bufLen - out.length) hst hvalid (by omega)
  unfold decompressRound
  generalize F.decompress codec.decompressor input (bufLen - out.length) = call at *
  have hsplit : ys ++ input.take call.consumed ++ input.drop call.consumed = ys ++ input := by
    rw [List.append_assoc, List.take_append_drop]
  rcases hcall with ⟨status, hresult, hend, hnext, hstuck, hfull, hall⟩ |
    ⟨hunset, hnothing, ⟨message, hresult⟩, st, hset, hnext⟩
  · rw [List.append_assoc] at hnext hall
    have hheld : (out ++ call.produced).length ≤ bufLen := by
      rw [List.length_append]
      omega
    have hrest : Inflating inflated (ys ++ input) xs (input.drop call.consumed) bufLen
        (out ++ call.produced) { codec with decompressor := call.state } :=
      ⟨⟨_, hsplit, hnext⟩, h.positive, h.bounded, hheld⟩
    -- a call that takes everything and gives nothing has nothing left to give
    have hlast : call.consumed = input.length → call.produced = [] →
        out ++ call.produced = block ∧ inflated codec.dictSetDecompress call.state
          (ys ++ input) (xs ++ block) := by
      intro htaken hempty
      have hgiven := hall htaken (by rw [hempty, List.length_nil]; omega)
      rw [htotal] at hgiven
      rw [hgiven, htaken, List.take_length] at hnext
      exact ⟨List.append_cancel_left hgiven, hnext⟩
    cases status with
    | ok =>
        simp only [hresult]
        split
        · next hstop =>
            simp only [Bool.and_eq_true, List.isEmpty_iff, List.drop_eq_nil_iff] at hstop
            obtain ⟨hblock, hdone⟩ := hlast (by omega) hstop.2
            rw [hblock]
            exact .inl ⟨_, rfl, hdone, rfl⟩
        · next hgoes =>
            have hsome : call.produced ≠ [] := by
              intro hempty
              have htaken : ¬ input.length ≤ call.consumed := by
                simpa [hempty] using hgoes
              have hgave := hfull (by omega)
              rw [hempty, List.length_nil] at hgave
              omega
            exact .inr ⟨_, _, _, rfl, hrest, roundsLeft_lt laws hrest hvalid htotal hsome, rfl⟩
    | bufError =>
        have hempty := hstuck rfl
        have htaken : call.consumed = input.length := by
          by_contra hless
          have hgave := hfull (by omega)
          rw [hempty, List.length_nil] at hgave
          omega
        obtain ⟨hblock, hdone⟩ := hlast htaken hempty
        simp only [hresult]
        rw [if_pos (by rw [htaken, List.drop_length]; rfl), hblock]
        exact .inl ⟨_, rfl, hdone, rfl⟩
    | streamEnd => exact absurd rfl hend
  · right
    refine ⟨_, _, { codec with decompressor := st, dictSetDecompress := true }, ?_,
      ⟨⟨_, hsplit, hnext⟩, h.positive, h.bounded, h.held⟩, ?_, rfl⟩
    · simp only [hresult, decompressFailed, hunset, hset, hnothing, List.append_nil]
      rfl
    · simp [roundsLeft, hunset]

/-- The loop returns what the block says. -/
theorem decompressLoop_spec {rounds : Nat}
    (h : Inflating inflated total xs input bufLen out codec)
    (hvalid : valid total) (htotal : decoded total = xs ++ block)
    (hblock : block.length < MAX_HEADER_BLOCK_SIZE - 256)
    (hrounds : roundsLeft block out codec < rounds) :
    ∃ codec', decompressLoop rounds input bufLen out codec =
        some (parseHeaderBlock block, codec') ∧
      inflated codec'.dictSetDecompress codec'.decompressor total (xs ++ block) ∧
      codec'.maxFrameSize = codec.maxFrameSize := by
  induction rounds generalizing input bufLen out codec with
  | zero => exact absurd hrounds (Nat.not_lt_zero _)
  | succ rounds ih =>
      have hout := (h.isPrefix laws hvalid htotal).length_le
      obtain ⟨len, hbuffer, hbounded, hroom⟩ :=
        roundBuffer_spec h.positive h.bounded h.held (by omega)
      have hround : Inflating inflated total xs input len out codec :=
        ⟨h.taken, by omega, hbounded, by omega⟩
      rw [decompressLoop, hbuffer]
      simp only
      rcases decompressRound_spec laws hround hvalid htotal hroom with
        ⟨codec', hdone, hst, hsize⟩ | ⟨input', out', codec', hagain, hnext, hless, hsize⟩
      · rw [hdone]
        exact ⟨codec', rfl, hst, hsize⟩
      · rw [hagain]
        simp only
        obtain ⟨codec'', hloop, hst, hsize'⟩ := ih hnext (by omega)
        exact ⟨codec'', hloop, hst, hsize'.trans hsize⟩

/-- A block that the stream holds comes out of it. -/
theorem decompressHeaders_spec {ys compressed : Bytes} {headers : Headers}
    (hst : inflated codec.dictSetDecompress codec.decompressor ys xs)
    (hvalid : valid (ys ++ compressed))
    (hbefore : decoded ys = xs) (htotal : decoded (ys ++ compressed) = xs ++ headerBlock headers)
    (hblock : (headerBlock headers).length < MAX_HEADER_BLOCK_SIZE - 256) :
    ∃ codec', codec.decompressHeaders compressed = some (.ok (lowercaseNames headers), codec') ∧
      inflated codec'.dictSetDecompress codec'.decompressor (ys ++ compressed)
        (xs ++ headerBlock headers) ∧
      codec'.maxFrameSize = codec.maxFrameSize := by
  have hmax : MAX_HEADER_BLOCK_SIZE = 2 ^ 20 := rfl
  have hlen := headerBlock_length headers
  have hnil : compressed ≠ [] := by
    rintro rfl
    rw [List.append_nil, hbefore] at htotal
    have hempty := congrArg List.length htotal
    rw [List.length_append] at hempty
    omega
  have hstart : Inflating inflated (ys ++ compressed) xs compressed
      (min (compressed.length * 4 + 1024) MAX_HEADER_BLOCK_SIZE) [] codec :=
    ⟨⟨ys, rfl, by rwa [List.append_nil]⟩, Nat.lt_min.2 ⟨by omega, by omega⟩,
      Nat.min_le_right _ _, Nat.zero_le _⟩
  have hrounds : roundsLeft (headerBlock headers) [] codec < decompressRounds compressed := by
    unfold roundsLeft decompressRounds
    rw [List.length_nil]
    split <;> omega
  obtain ⟨codec', hloop, hst', hsize⟩ :=
    decompressLoop_spec laws hstart hvalid htotal hblock hrounds
  refine ⟨codec', ?_, hst', hsize⟩
  unfold SpdyCodec.decompressHeaders
  rw [if_neg (by simpa using hnil), hloop, parseHeaderBlock_headerBlock (by omega)]

end Rounds

end KubePortForward.Codec
