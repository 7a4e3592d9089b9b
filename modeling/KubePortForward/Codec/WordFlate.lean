import KubePortForward.Codec.Dictionary
import KubePortForward.Codec.Flate
import KubePortForward.Codec.HeaderBlock

/-!
# A zlib stream made of whole words

An instance of `Flate` that satisfies its laws.  The stream starts with the zlib header
that names the SPDY dictionary.  Every octet is a stored block of its own and a flush an
empty stored block, which every zlib stream reads; the header blocks of an error stream
and of a data stream that follows it are the octets zlib writes for them.  The
decompressor takes whole words: what a part of a word holds comes out with the rest of it.

## Main results

* `wordFlate_laws` — what `codec.rs` relies on holds of this stream.
-/

namespace KubePortForward.Codec

/-- The zlib header with a dictionary, and the checksum of the dictionary. -/
def zlibHeader : Bytes := [0x78, 0xF9, 0xE3, 0xC6, 0xA7, 0xC2]

/-- What the stream is made of. -/
inductive Word where
  | octet (x : UInt8)
  | flush
  | errorHeaders
  | dataHeaders
  deriving DecidableEq

/-- The octets of a word in the stream. -/
def Word.code : Word → Bytes
  | .octet x => [0x00, 0x01, 0x00, 0xFE, 0xFF, x]
  | .flush => [0x00, 0x00, 0x00, 0xFF, 0xFF]
  | .errorHeaders =>
      [0x02, 0xA6, 0x23, 0x46, 0x70, 0x3A, 0x2B, 0x29, 0x4A, 0x4D, 0xCC, 0x85, 0x16, 0x25,
        0xAC, 0xA9, 0xA0, 0x80, 0x06, 0x00, 0x00, 0x00, 0xFF, 0xFF]
  | .dataHeaders => [0xC2, 0x2A, 0x05, 0x2A, 0x65, 0x12, 0x01, 0x00, 0x00, 0x00, 0xFF, 0xFF]

/-- What a word stands for. -/
def Word.meaning : Word → Bytes
  | .octet x => [x]
  | .flush => []
  | .errorHeaders => headerBlock [("streamtype", "error")]
  | .dataHeaders => headerBlock [("streamtype", "data")]

theorem Word.code_ne_nil (w : Word) : w.code ≠ [] := by
  cases w <;> exact List.cons_ne_nil _ _

/-- No word starts another one. -/
theorem Word.code_prefixFree {w w' : Word} (h : w.code <+: w'.code) : w = w' := by
  cases w <;> cases w' <;> simp_all [Word.code]

/-- The words that the octets can start with. -/
def Word.candidates (bs : Bytes) : List Word :=
  [.flush, .errorHeaders, .dataHeaders] ++ ((bs.drop 5).head?.map Word.octet).toList

/-- The word the octets start with. -/
def readWord (bs : Bytes) : Option Word :=
  (Word.candidates bs).find? fun w => w.code.isPrefixOf bs

/-- What the octets stand for, as far as the words are whole. -/
def readWords : Nat → Bytes → Bytes
  | 0, _ => []
  | n + 1, bs =>
      match readWord bs with
      | none => []
      | some w => w.meaning ++ readWords n (bs.drop w.code.length)

/-- What a stream stands for. -/
def wordsDecoded (ys : Bytes) : Bytes := readWords ys.length (ys.drop 6)

theorem readWord_isPrefix {bs : Bytes} {w : Word} (h : readWord bs = some w) :
    w.code <+: bs := by
  have hstarts := List.find?_some h
  exact List.isPrefixOf_iff_prefix.1 hstarts

/-- A word that is there is the one that is read. -/
theorem readWord_of_isPrefix {bs : Bytes} {w : Word} (h : w.code <+: bs) :
    readWord bs = some w := by
  have hmem : w ∈ Word.candidates bs := by
    obtain ⟨rest, rfl⟩ := h
    cases w <;> simp [Word.candidates, Word.code]
  have hsome : (readWord bs).isSome = true :=
    List.find?_isSome.2 ⟨w, hmem, List.isPrefixOf_iff_prefix.2 h⟩
  obtain ⟨w', hread⟩ := Option.isSome_iff_exists.1 hsome
  rw [hread]
  rcases List.prefix_or_prefix_of_prefix (readWord_isPrefix hread) h with hle | hle
  · rw [Word.code_prefixFree hle]
  · rw [Word.code_prefixFree hle]

theorem readWord_nil : readWord [] = none := by decide

theorem readWords_nil (n : Nat) : readWords n [] = [] := by
  cases n with
  | zero => rfl
  | succ n => rw [readWords, readWord_nil]

theorem readWords_cons (n : Nat) (w : Word) (bs : Bytes) :
    readWords (n + 1) (w.code ++ bs) = w.meaning ++ readWords n bs := by
  rw [readWords, readWord_of_isPrefix (List.prefix_append _ _)]
  simp only [List.drop_left]

/-- Whole words are read. -/
theorem readWords_flatMap (ws : List Word) {n : Nat} (h : ws.length ≤ n) :
    readWords n (ws.flatMap Word.code) = ws.flatMap Word.meaning := by
  induction ws generalizing n with
  | nil => exact readWords_nil n
  | cons w ws ih =>
      obtain ⟨n, rfl⟩ : ∃ m, n = m + 1 := ⟨n - 1, by simp at h; omega⟩
      rw [List.flatMap_cons, readWords_cons, ih (by simpa using h), List.flatMap_cons]

/-- More octets stand for more. -/
theorem readWords_isPrefix {n m : Nat} (h : n ≤ m) (bs more : Bytes) :
    readWords n bs <+: readWords m (bs ++ more) := by
  induction n generalizing m bs with
  | zero => exact List.nil_prefix
  | succ n ih =>
      obtain ⟨m, rfl⟩ : ∃ k, m = k + 1 := ⟨m - 1, by omega⟩
      cases hread : readWord bs with
      | none =>
          rw [readWords, hread]
          exact List.nil_prefix
      | some w =>
          have hstarts := readWord_isPrefix hread
          have hmore := readWord_of_isPrefix (hstarts.trans (List.prefix_append bs more))
          rw [readWords, readWords, hread, hmore]
          simp only
          rw [List.drop_append_of_le_length hstarts.length_le]
          exact (List.prefix_append_right_inj _).2 (ih (by omega) _)

theorem wordsDecoded_isPrefix (ys more : Bytes) :
    wordsDecoded ys <+: wordsDecoded (ys ++ more) := by
  unfold wordsDecoded
  rw [List.drop_append]
  exact readWords_isPrefix (by rw [List.length_append]; omega) _ _

theorem wordsDecoded_short {ys : Bytes} (h : ys.length ≤ 6) : wordsDecoded ys = [] := by
  rw [wordsDecoded, List.drop_eq_nil_of_le h, readWords_nil]

theorem length_le_code (ws : List Word) : ws.length ≤ (ws.flatMap Word.code).length := by
  induction ws with
  | nil => simp
  | cons w ws ih =>
      have hpos := List.length_pos_iff.2 w.code_ne_nil
      rw [List.flatMap_cons, List.length_append, List.length_cons]
      omega

theorem wordsDecoded_words (ws : List Word) :
    wordsDecoded (zlibHeader ++ ws.flatMap Word.code) = ws.flatMap Word.meaning := by
  have hlen := length_le_code ws
  have hdrop : (zlibHeader ++ ws.flatMap Word.code).drop 6 = ws.flatMap Word.code :=
    List.drop_left' rfl
  rw [wordsDecoded, hdrop]
  exact readWords_flatMap ws (by rw [List.length_append]; omega)

/-! ## The two streams -/

/-- A compressor: the octets it has still to give, and whether it has flushed since it was
last given any. -/
structure WordCompress where
  pending : Bytes
  flushed : Bool

/-- The words of an input and of the flush after it. -/
def wordsFor (input : Bytes) : List Word :=
  if input = Word.errorHeaders.meaning then [.errorHeaders]
  else if input = Word.dataHeaders.meaning then [.dataHeaders]
  else input.map .octet ++ [.flush]

/-- The octets that an input and a flush add to those to be given. -/
def WordCompress.added (st : WordCompress) (input : Bytes) : Bytes :=
  if input.isEmpty && st.flushed then [] else (wordsFor input).flatMap Word.code

/-- All the input is taken, and what fits is given. -/
def WordCompress.compress (st : WordCompress) (input : Bytes) (room : Nat) :
    FlateCall WordCompress String where
  result := .ok (if ((st.pending ++ st.added input).take room).isEmpty then .bufError else .ok)
  consumed := input.length
  produced := (st.pending ++ st.added input).take room
  state := ⟨(st.pending ++ st.added input).drop room, true⟩

/-- A decompressor: the octets it has taken, how many it has given for them and whether it
has the dictionary. -/
structure WordDecompress where
  taken : Bytes
  given : Nat
  primed : Bool

/-- The header is taken first, and the dictionary asked for; then all the input is taken,
and what fits is given. -/
def WordDecompress.decompress (st : WordDecompress) (input : Bytes) (room : Nat) :
    FlateCall WordDecompress DecompressError :=
  if st.primed then
    let produced := ((wordsDecoded (st.taken ++ input)).drop st.given).take room
    ⟨.ok (if input.isEmpty && produced.isEmpty then .bufError else .ok), input.length, produced,
      { st with taken := st.taken ++ input, given := st.given + produced.length }⟩
  else if (st.taken ++ input).length < 6 then
    ⟨.ok (if input.isEmpty then .bufError else .ok), input.length, [],
      { st with taken := st.taken ++ input }⟩
  else if (st.taken ++ input).take 6 = zlibHeader then
    ⟨.error ⟨true, "requires a dictionary"⟩, 6 - st.taken.length, [],
      { st with taken := zlibHeader }⟩
  else ⟨.error ⟨false, "deflate decompression error"⟩, 0, [], st⟩

/-- The dictionary is the one the header names. -/
@[irreducible]
def WordCompress.setDictionary (st : WordCompress) (dict : Bytes) : Except String WordCompress :=
  if dict = SPDY_DICT then .ok { st with pending := zlibHeader } else .error "stream error"

/-- The dictionary can be set when it has been asked for. -/
@[irreducible]
def WordDecompress.setDictionary (st : WordDecompress) (dict : Bytes) :
    Except String WordDecompress :=
  if st.taken = zlibHeader ∧ dict = SPDY_DICT then .ok { st with primed := true }
  else .error "stream error"

/-- Streams of words. -/
def wordFlate : Flate where
  Compress := WordCompress
  Decompress := WordDecompress
  newCompress := ⟨[], false⟩
  newDecompress := ⟨[], 0, false⟩
  setCompressDictionary := WordCompress.setDictionary
  setDecompressDictionary := WordDecompress.setDictionary
  compress := WordCompress.compress
  decompress := WordDecompress.decompress

/-- The octets start a stream of words. -/
def WordsValid (ys : Bytes) : Prop :=
  ∃ ws : List Word, ys <+: zlibHeader ++ ws.flatMap Word.code

/-- What the compressor has given and has still to give are the words of its input. -/
def WordsDeflated (st : WordCompress) (xs ys : Bytes) : Prop :=
  ∃ ws : List Word, ys ++ st.pending = zlibHeader ++ ws.flatMap Word.code ∧
    ws.flatMap Word.meaning = xs

/-- What the decompressor has given is part of what it has taken. -/
structure WordsInflated (b : Bool) (st : WordDecompress) (ys xs : Bytes) : Prop where
  taken : st.taken = ys
  given : st.given = xs.length
  primed : st.primed = b
  isPrefix : xs <+: wordsDecoded ys
  header : b = false → ys.length < 6

theorem wordsFor_meaning (input : Bytes) : (wordsFor input).flatMap Word.meaning = input := by
  have hoctets : (input.map Word.octet).flatMap Word.meaning = input := by
    induction input with
    | nil => rfl
    | cons x input ih => rw [List.map_cons, List.flatMap_cons, ih]; rfl
  unfold wordsFor
  split
  · next h => rw [h]; simp
  · split
    · next h => rw [h]; simp
    · rw [List.flatMap_append, hoctets]
      simp [Word.meaning]

/-! ## The laws -/

theorem status_ne_streamEnd (c : Prop) [Decidable c] :
    (if c then Status.bufError else .ok) ≠ .streamEnd := by
  split <;> simp

theorem WordsDeflated.added {st : WordCompress} {xs ys : Bytes} (h : WordsDeflated st xs ys)
    (input : Bytes) :
    ∃ ws : List Word, ys ++ (st.pending ++ st.added input) =
      zlibHeader ++ ws.flatMap Word.code ∧ ws.flatMap Word.meaning = xs ++ input := by
  obtain ⟨ws, hwords, rfl⟩ := h
  unfold WordCompress.added
  split
  · next hnone =>
      simp only [Bool.and_eq_true, List.isEmpty_iff] at hnone
      exact ⟨ws, by rw [List.append_nil, hwords], by rw [hnone.1, List.append_nil]⟩
  · refine ⟨ws ++ wordsFor input, ?_, ?_⟩
    · rw [← List.append_assoc, hwords, List.flatMap_append, List.append_assoc]
    · rw [List.flatMap_append, wordsFor_meaning]

/-- A flush that gives nothing has nothing more to give. -/
theorem compress_spec {st : WordCompress} {xs ys : Bytes} (input : Bytes) {room : Nat}
    (h : WordsDeflated st xs ys) (hroom : 0 < room) :
    ∃ status, (st.compress input room).result = .ok status ∧ status ≠ .streamEnd ∧
      (st.compress input room).consumed ≤ input.length ∧
      (st.compress input room).produced.length ≤ room ∧
      WordsDeflated (st.compress input room).state
        (xs ++ input.take (st.compress input room).consumed)
        (ys ++ (st.compress input room).produced) ∧
      ((st.compress input room).produced = [] →
        (st.compress input room).consumed = input.length ∧ wordsDecoded ys = xs ++ input) := by
  obtain ⟨ws, hwords, hmeaning⟩ := h.added input
  refine ⟨_, rfl, status_ne_streamEnd _, Nat.le_refl _, List.length_take_le _ _, ?_, ?_⟩
  · refine ⟨ws, ?_, ?_⟩
    · simp only [WordCompress.compress]
      rw [List.append_assoc, List.take_append_drop, hwords]
    · simp only [WordCompress.compress]
      rw [List.take_length, hmeaning]
  · intro hnothing
    have hall := (List.take_eq_nil_iff.1 hnothing).resolve_left (by omega)
    rw [hall, List.append_nil] at hwords
    exact ⟨rfl, by rw [hwords, wordsDecoded_words, hmeaning]⟩

/-- With the dictionary everything that has been taken comes out, as far as there is
room. -/
theorem decompress_primed {st : WordDecompress} {xs ys : Bytes} (input : Bytes) {room : Nat}
    (h : WordsInflated true st ys xs) :
    (st.decompress input room).consumed = input.length ∧
      (st.decompress input room).produced.length ≤ room ∧
      ∃ status, (st.decompress input room).result = .ok status ∧ status ≠ .streamEnd ∧
        WordsInflated true (st.decompress input room).state (ys ++ input)
          (xs ++ (st.decompress input room).produced) ∧
        (status = .bufError → (st.decompress input room).produced = []) ∧
        ((st.decompress input room).produced.length < room →
          xs ++ (st.decompress input room).produced = wordsDecoded (ys ++ input)) := by
  obtain ⟨rfl, hgiven, hprimed, hstarts, -⟩ := h
  obtain ⟨rest, hrest⟩ := hstarts.trans (wordsDecoded_isPrefix st.taken input)
  unfold WordDecompress.decompress
  rw [if_pos hprimed, hgiven, ← hrest, List.drop_left]
  refine ⟨rfl, List.length_take_le _ _, _, rfl, ?_, ⟨rfl, ?_, hprimed, ?_, nofun⟩, ?_, ?_⟩
  · exact status_ne_streamEnd _
  · rw [List.length_append]
  · rw [← hrest]
    exact (List.prefix_append_right_inj _).2 (List.take_prefix _ _)
  · intro hstatus
    simp only at hstatus ⊢
    split at hstatus
    · next hnone => exact List.isEmpty_iff.1 (Bool.and_eq_true_iff.1 hnone).2
    · contradiction
  · intro hless
    simp only at hless ⊢
    rw [List.length_take] at hless
    rw [List.take_of_length_le (by omega)]

theorem WordsInflated.nothing {st : WordDecompress} {xs ys : Bytes}
    (h : WordsInflated false st ys xs) : xs = [] := by
  have hstarts := h.isPrefix
  rw [wordsDecoded_short (Nat.le_of_lt (h.header rfl))] at hstarts
  exact List.prefix_nil.1 hstarts

/-- A valid stream of six octets or more starts with the header. -/
theorem WordsValid.header {ys : Bytes} (h : WordsValid ys) (hlen : 6 ≤ ys.length) :
    ys.take 6 = zlibHeader := by
  obtain ⟨ws, more, hys⟩ := h
  have htake := congrArg (List.take 6) hys
  have hheader : (zlibHeader ++ ws.flatMap Word.code).take 6 = zlibHeader := List.take_left' rfl
  rwa [List.take_append_of_le_length hlen, hheader] at htake

/-- Before it has the dictionary the decompressor takes the header, and asks for the
dictionary once the header is whole. -/
theorem decompress_unprimed {st : WordDecompress} {xs ys input : Bytes} (room : Nat)
    (h : WordsInflated false st ys xs) (hvalid : WordsValid (ys ++ input)) :
    (∃ status, (ys ++ input).length < 6 ∧
        st.decompress input room = ⟨.ok status, input.length, [], ⟨ys ++ input, 0, false⟩⟩ ∧
        status ≠ .streamEnd) ∨
      6 ≤ (ys ++ input).length ∧ ys ++ input.take (6 - ys.length) = zlibHeader ∧
        st.decompress input room =
          ⟨.error ⟨true, "requires a dictionary"⟩, 6 - ys.length, [], ⟨zlibHeader, 0, false⟩⟩ := by
  have hnothing := h.nothing
  obtain ⟨rfl, hgiven, hprimed, -, hheader⟩ := h
  subst hnothing
  obtain ⟨taken, given, primed⟩ := st
  cases hgiven
  cases hprimed
  rcases Nat.lt_or_ge (taken ++ input).length 6 with hshort | hlong
  · exact .inl ⟨_, hshort, by
      rw [WordDecompress.decompress, if_neg (by simp), if_pos hshort], status_ne_streamEnd _⟩
  · have htake := hvalid.header hlong
    refine .inr ⟨hlong, ?_, ?_⟩
    · rw [List.take_append, List.take_of_length_le (Nat.le_of_lt (hheader rfl))] at htake
      exact htake
    · rw [WordDecompress.decompress, if_neg (by simp), if_neg (by simpa using hlong),
        if_pos htake]

theorem compress_setDictionary (st : WordCompress) :
    st.setDictionary SPDY_DICT = .ok { st with pending := zlibHeader } := by
  rw [WordCompress.setDictionary, if_pos rfl]

theorem decompress_setDictionary (given : Nat) :
    WordDecompress.setDictionary ⟨zlibHeader, given, false⟩ SPDY_DICT =
      .ok ⟨zlibHeader, given, true⟩ := by
  rw [WordDecompress.setDictionary, if_pos ⟨rfl, rfl⟩]

/-- The laws of a zlib stream hold. -/
theorem wordFlate_laws : wordFlate.Laws SPDY_DICT WordsValid wordsDecoded WordsDeflated
    WordsInflated where
  decoded_nil := rfl
  decoded_prefix := fun ys more _ => wordsDecoded_isPrefix ys more
  compress_new := ⟨_, compress_setDictionary ⟨[], false⟩, [], rfl, rfl⟩
  deflated_valid := fun st xs ys ⟨ws, hwords, _⟩ => ⟨ws, st.pending, hwords⟩
  compress_sync := fun st xs ys input room h hroom => compress_spec input h hroom
  decompress_new := ⟨rfl, rfl, rfl, List.nil_prefix, fun _ => by decide⟩
  inflated_prefix := fun b st ys xs h => h.isPrefix
  decompress_sync := by
    intro b st ys xs input room h hvalid hroom
    cases b with
    | true =>
        obtain ⟨hconsumed, hproduced, status, hresult, hend, hnext, hstuck, hall⟩ :=
          decompress_primed input h
        have hnext' : WordsInflated true (st.decompress input room).state
            (ys ++ input.take (st.decompress input room).consumed)
            (xs ++ (st.decompress input room).produced) := by
          rwa [hconsumed, List.take_length]
        exact ⟨Nat.le_of_eq hconsumed, hproduced, .inl ⟨status, hresult, hend, hnext', hstuck,
          fun hless => absurd hconsumed (Nat.ne_of_lt hless), fun _ => hall⟩⟩
    | false =>
        obtain rfl := h.nothing
        have hheader := h.header rfl
        rcases decompress_unprimed room h hvalid with
          ⟨status, hshort, hcall, hend⟩ | ⟨hlong, htaken, hcall⟩
        · have hnext : WordsInflated false ⟨ys ++ input, 0, false⟩ (ys ++ input) [] :=
            ⟨rfl, rfl, rfl, List.nil_prefix, fun _ => hshort⟩
          rw [show wordFlate.decompress st input room = _ from hcall]
          refine ⟨Nat.le_refl _, Nat.zero_le _, .inl ⟨status, rfl, hend, ?_, fun _ => rfl,
            fun hless => absurd hless (Nat.lt_irrefl _), fun _ _ => ?_⟩⟩
          · simpa only [List.take_length, List.append_nil] using hnext
          · exact (wordsDecoded_short (Nat.le_of_lt hshort)).symm
        · have hnext : WordsInflated true ⟨zlibHeader, 0, true⟩ zlibHeader [] :=
            ⟨rfl, rfl, rfl, List.nil_prefix, nofun⟩
          rw [List.length_append] at hlong
          rw [show wordFlate.decompress st input room = _ from hcall]
          refine ⟨?_, Nat.zero_le _, .inr ⟨rfl, rfl, ⟨_, rfl⟩, _,
            decompress_setDictionary 0, ?_⟩⟩
          · simp only
            omega
          · simpa only [htaken] using hnext

end KubePortForward.Codec
