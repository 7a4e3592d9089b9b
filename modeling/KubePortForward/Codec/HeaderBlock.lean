import KubePortForward.Codec.Frame

/-!
# Uncompressed header blocks

The block that `compress_headers` builds and `parse_header_block` reads: a count, and
for every header the length and the octets of its name and of its value.  Names are
lowercased when they are written.  Text is UTF-8; octets that are not UTF-8 are read as
`String::from_utf8_lossy` reads them, one replacement character for every maximal
part of a character.

## Main results

* `fromUtf8Lossy_asBytes` — text is read back as it was written.
* `parseHeaderBlock_headerBlock` — and so is a header block, names lowercased.
-/

namespace KubePortForward.Codec

open KubePortForward.Verified.BigEndian

/-- The errors of `codec.rs`. -/
inductive CodecError where
  | invalidFrame (message : String)
  | compression (message : String)
  | frameTooLarge (streamId : StreamId) (size max : Nat)
  deriving DecidableEq, Repr

/-! ## Text -/

/-- `str::as_bytes`. -/
def asBytes (s : String) : Bytes := s.toList.flatMap String.utf8EncodeChar

/-- `str::to_ascii_lowercase`. -/
def toAsciiLowercase (s : String) : String := String.ofList (s.toList.map Char.toLower)

/-- A byte that continues a character. -/
def isContinuation (b : UInt8) : Bool := b &&& 0xC0 == 0x80

/-- Whether `second` may follow `first` in a character of three octets. -/
def secondOfThree (first second : UInt8) : Bool :=
  (first == 0xE0 && 0xA0 ≤ second && second ≤ 0xBF) ||
    (0xE1 ≤ first && first ≤ 0xEC && isContinuation second) ||
    (first == 0xED && 0x80 ≤ second && second ≤ 0x9F) ||
    (0xEE ≤ first && first ≤ 0xEF && isContinuation second)

/-- Whether `second` may follow `first` in a character of four octets. -/
def secondOfFour (first second : UInt8) : Bool :=
  (first == 0xF0 && 0x90 ≤ second && second ≤ 0xBF) ||
    (0xF1 ≤ first && first ≤ 0xF3 && isContinuation second) ||
    (first == 0xF4 && 0x80 ≤ second && second ≤ 0x8F)

/-- How many octets one replacement character stands for: the octets that could have
started a character. -/
def invalidLength : Bytes → Nat
  | first :: second :: third :: _ =>
      if secondOfThree first second then 2
      else if secondOfFour first second then if isContinuation third then 3 else 2
      else 1
  | [first, second] => if secondOfThree first second || secondOfFour first second then 2 else 1
  | _ => 1

/-- The characters of `from_utf8_lossy`; every round takes at least one octet. -/
def lossyChars : Nat → Bytes → List Char
  | 0, _ => []
  | _ + 1, [] => []
  | fuel + 1, b :: bs =>
      match (b :: bs).toByteArray.utf8DecodeChar? 0 with
      | some c => c :: lossyChars fuel ((b :: bs).drop c.utf8Size)
      | none => '\uFFFD' :: lossyChars fuel ((b :: bs).drop (invalidLength (b :: bs)))

/-- `String::from_utf8_lossy`. -/
def fromUtf8Lossy (bs : Bytes) : String := String.ofList (lossyChars bs.length bs)

theorem utf8EncodeChar_ne_nil (c : Char) : String.utf8EncodeChar c ≠ [] := by
  intro h
  have hlen := String.length_utf8EncodeChar c
  have hpos := c.utf8Size_pos
  rw [h, List.length_nil] at hlen
  omega

theorem lossyChars_encode (chars : List Char) (fuel : Nat) (h : chars.length ≤ fuel) :
    lossyChars fuel (chars.flatMap String.utf8EncodeChar) = chars := by
  induction chars generalizing fuel with
  | nil => cases fuel <;> rfl
  | cons c chars ih =>
      obtain ⟨fuel, rfl⟩ : ∃ n, fuel = n + 1 := ⟨fuel - 1, by simp at h; omega⟩
      have hdecode : (String.utf8EncodeChar c ++
          chars.flatMap String.utf8EncodeChar).toByteArray.utf8DecodeChar? 0 = some c := by
        rw [List.toByteArray_append]
        exact ByteArray.utf8DecodeChar?_utf8EncodeChar_append
      have hdrop : (String.utf8EncodeChar c ++ chars.flatMap String.utf8EncodeChar).drop
          c.utf8Size = chars.flatMap String.utf8EncodeChar := by
        rw [← String.length_utf8EncodeChar]
        exact List.drop_left
      rw [List.flatMap_cons]
      cases hbytes : String.utf8EncodeChar c ++ chars.flatMap String.utf8EncodeChar with
      | nil => exact absurd (List.append_eq_nil_iff.1 hbytes).1 (utf8EncodeChar_ne_nil c)
      | cons b bs =>
          rw [hbytes] at hdecode hdrop
          rw [lossyChars, hdecode]
          simp only [hdrop]
          rw [ih fuel (by simp at h; omega)]

theorem length_le_encode (chars : List Char) :
    chars.length ≤ (chars.flatMap String.utf8EncodeChar).length := by
  induction chars with
  | nil => simp
  | cons c chars ih =>
      have hpos := List.length_pos_iff.2 (utf8EncodeChar_ne_nil c)
      rw [List.flatMap_cons, List.length_append, List.length_cons]
      omega

theorem fromUtf8Lossy_asBytes (s : String) : fromUtf8Lossy (asBytes s) = s := by
  rw [fromUtf8Lossy, asBytes, lossyChars_encode _ _ (length_le_encode _), String.ofList_toList]

example : fromUtf8Lossy [0x61, 0xE2, 0x82, 0x62, 0xFF] = "a\uFFFDb\uFFFD" := by decide +kernel

/-! ## Blocks -/

/-- One header as it is written. -/
def headerEntry (header : String × String) : Bytes :=
  beField 4 (asBytes (toAsciiLowercase header.1)).length ++
    asBytes (toAsciiLowercase header.1) ++
    beField 4 (asBytes header.2).length ++ asBytes header.2

/-- The block `compress_headers` compresses. -/
def headerBlock (headers : Headers) : Bytes :=
  beField 4 headers.length ++ headers.flatMap headerEntry

/-- One length-prefixed text; the messages are those for a missing length and for
missing text. -/
def parseText (noLength noText : String) (bs : Bytes) : Except CodecError (String × Bytes) :=
  if bs.length < 4 then .error (.invalidFrame noLength)
  else
    let len := ofBe (bs.take 4)
    let rest := bs.drop 4
    if rest.length < len then .error (.invalidFrame noText)
    else .ok (fromUtf8Lossy (rest.take len), rest.drop len)

/-- A name and its value. -/
def parseEntry (bs : Bytes) : Except CodecError ((String × String) × Bytes) :=
  match parseText "header block truncated at name length" "header block truncated at name"
    bs with
  | .error e => .error e
  | .ok (name, bs) =>
      match parseText "header block truncated at value length"
        "header block truncated at value" bs with
      | .error e => .error e
      | .ok (value, bs) => .ok ((name, value), bs)

/-- `num_headers` entries. -/
def parseEntries : Nat → Bytes → Except CodecError Headers
  | 0, _ => .ok []
  | n + 1, bs =>
      match parseEntry bs with
      | .error e => .error e
      | .ok (header, bs) =>
          match parseEntries n bs with
          | .error e => .error e
          | .ok headers => .ok (header :: headers)

/-- `parse_header_block`. -/
def parseHeaderBlock (block : Bytes) : Except CodecError Headers :=
  if block.length < 4 then .error (.invalidFrame "header block too short")
  else
    let numHeaders := ofBe (block.take 4)
    if (block.length - 4) / 8 < numHeaders then
      .error (.invalidFrame "header count exceeds header block")
    else parseEntries numHeaders (block.drop 4)

/-- The headers the other side is to see. -/
def lowercaseNames (headers : Headers) : Headers :=
  headers.map fun h => (toAsciiLowercase h.1, h.2)

theorem parseText_field (noLength noText : String) {s : String} (rest : Bytes)
    (h : (asBytes s).length < 2 ^ 32) :
    parseText noLength noText (beField 4 (asBytes s).length ++ asBytes s ++ rest) =
      .ok (s, rest) := by
  have htake : (beField 4 (asBytes s).length ++ asBytes s ++ rest).take 4 =
      beField 4 (asBytes s).length := by
    rw [List.append_assoc]
    exact List.take_left' (beField_length _ _)
  have hdrop : (beField 4 (asBytes s).length ++ asBytes s ++ rest).drop 4 =
      asBytes s ++ rest := by
    rw [List.append_assoc]
    exact List.drop_left' (beField_length _ _)
  unfold parseText
  rw [htake, hdrop, ofBe_beField_of_lt (by omega), if_neg ?_]
  · simp only
    rw [if_neg (by simp), List.take_left, List.drop_left, fromUtf8Lossy_asBytes]
  · simp only [List.length_append, beField_length]
    omega

theorem headerEntry_length (header : String × String) :
    (headerEntry header).length =
      8 + (asBytes (toAsciiLowercase header.1)).length + (asBytes header.2).length := by
  simp only [headerEntry, List.length_append, beField_length]
  omega

theorem parseEntry_eq {bs bs' rest : Bytes} {name value : String}
    (hname : parseText "header block truncated at name length"
      "header block truncated at name" bs = .ok (name, bs'))
    (hvalue : parseText "header block truncated at value length"
      "header block truncated at value" bs' = .ok (value, rest)) :
    parseEntry bs = .ok ((name, value), rest) := by
  unfold parseEntry
  rw [hname]
  dsimp only
  rw [hvalue]

theorem parseEntry_headerEntry {header : String × String} (rest : Bytes)
    (h : (headerEntry header).length < 2 ^ 32) :
    parseEntry (headerEntry header ++ rest) =
      .ok ((toAsciiLowercase header.1, header.2), rest) := by
  rw [headerEntry_length] at h
  have hsplit : headerEntry header ++ rest =
      beField 4 (asBytes (toAsciiLowercase header.1)).length ++
        asBytes (toAsciiLowercase header.1) ++
        (beField 4 (asBytes header.2).length ++ asBytes header.2 ++ rest) := by
    simp only [headerEntry, List.append_assoc]
  rw [hsplit]
  exact parseEntry_eq (parseText_field _ _ _ (by omega)) (parseText_field _ _ _ (by omega))

theorem parseEntries_succ {n : Nat} {bs bs' : Bytes} {header : String × String}
    {headers : Headers} (hentry : parseEntry bs = .ok (header, bs'))
    (hrest : parseEntries n bs' = .ok headers) :
    parseEntries (n + 1) bs = .ok (header :: headers) := by
  rw [parseEntries, hentry]
  dsimp only
  rw [hrest]

theorem parseEntries_flatMap (headers : Headers) (rest : Bytes)
    (h : (headers.flatMap headerEntry).length < 2 ^ 32) :
    parseEntries headers.length (headers.flatMap headerEntry ++ rest) =
      .ok (lowercaseNames headers) := by
  induction headers with
  | nil => rfl
  | cons header headers ih =>
      rw [List.flatMap_cons, List.length_append] at h
      rw [List.length_cons, List.flatMap_cons, List.append_assoc]
      exact parseEntries_succ (parseEntry_headerEntry _ (by omega)) (ih (by omega))

theorem headerBlock_entries (headers : Headers) :
    8 * headers.length ≤ (headers.flatMap headerEntry).length := by
  induction headers with
  | nil => simp
  | cons header headers ih =>
      rw [List.flatMap_cons, List.length_append, headerEntry_length, List.length_cons]
      omega

theorem headerBlock_length (headers : Headers) :
    (headerBlock headers).length = 4 + (headers.flatMap headerEntry).length := by
  rw [headerBlock, List.length_append, beField_length]

/-- A header block is read back with its names lowercased. -/
theorem parseHeaderBlock_headerBlock {headers : Headers}
    (h : (headerBlock headers).length < 2 ^ 32) :
    parseHeaderBlock (headerBlock headers) = .ok (lowercaseNames headers) := by
  have hlen := headerBlock_length headers
  have hcount := headerBlock_entries headers
  have htake : (headerBlock headers).take 4 = beField 4 headers.length :=
    List.take_left' (beField_length _ _)
  have hdrop : (headerBlock headers).drop 4 = headers.flatMap headerEntry :=
    List.drop_left' (beField_length _ _)
  have hentries := parseEntries_flatMap headers [] (by omega)
  unfold parseHeaderBlock
  rw [htake, hdrop, ofBe_beField_of_lt (by omega), if_neg (by omega), if_neg (by omega)]
  rwa [List.append_nil] at hentries

end KubePortForward.Codec
