import KubePortForward.Codec.HeaderBlock

/-!
# The grammar of header blocks

`parse_header_block` walks over its input with an offset: it compares before every
read, and reads octets by their index.  `parseHeaderBlockAt` is that walk.  An index
or a range outside the block is a panic, and so is a `usize` sum above its range; both
are `none` here.

A block is well formed when it is a count, that many entries and anything.  Both
functions of the source that know the format agree with that: `parse_header_block`
accepts exactly the well-formed blocks, and `compress_headers` writes one.

## Main results

* `parseHeaderBlockAt_eq` — the walk never panics, and consumes what
  `parseHeaderBlock` consumes.
* `parseHeaderBlock_iff` — the blocks that are accepted.
* `header_block_grammar` — the two together, and the block `compress_headers` builds.
-/

namespace KubePortForward.Codec

open KubePortForward.Verified.BigEndian

/-! ## The walk -/

/-- A sum of two `usize`. -/
def usizeAdd (a b : Nat) : Option Nat := if a + b < 2 ^ 64 then some (a + b) else none

/-- `&block_bytes[start..stop]`. -/
def sliceAt (block : Bytes) (start stop : Nat) : Option Bytes :=
  if start ≤ stop ∧ stop ≤ block.length then some ((block.take stop).drop start) else none

/-- `u32::from_be_bytes` of the octets at `offset` to `offset + 3`. -/
def lengthAt (block : Bytes) (offset : Nat) : Option Nat := do
  let b₀ ← block[offset]?
  let b₁ ← block[offset + 1]?
  let b₂ ← block[offset + 2]?
  let b₃ ← block[offset + 3]?
  return ofBe [b₀, b₁, b₂, b₃]

/-- The text at `offset` and the offset behind it. -/
def textAt (noLength noText : String) (block : Bytes) (offset : Nat) :
    Option (Except CodecError (String × Nat)) := do
  let start ← usizeAdd offset 4
  if block.length < start then return .error (.invalidFrame noLength)
  let len ← lengthAt block offset
  let stop ← usizeAdd start len
  if block.length < stop then return .error (.invalidFrame noText)
  let text ← sliceAt block start stop
  return .ok (fromUtf8Lossy text, stop)

/-- The loop over `num_headers` entries. -/
def entriesAt (block : Bytes) : Nat → Nat → Option (Except CodecError Headers)
  | 0, _ => some (.ok [])
  | n + 1, offset => do
      match ← textAt "header block truncated at name length" "header block truncated at name"
        block offset with
      | .error e => return .error e
      | .ok (name, offset) =>
          match ← textAt "header block truncated at value length"
            "header block truncated at value" block offset with
          | .error e => return .error e
          | .ok (value, offset) =>
              match ← entriesAt block n offset with
              | .error e => return .error e
              | .ok headers => return .ok ((name, value) :: headers)

/-- `parse_header_block`, index by index. -/
def parseHeaderBlockAt (block : Bytes) : Option (Except CodecError Headers) := do
  if block.length < 4 then return .error (.invalidFrame "header block too short")
  let numHeaders ← lengthAt block 0
  if (block.length - 4) / 8 < numHeaders then
    return .error (.invalidFrame "header count exceeds header block")
  entriesAt block numHeaders 4

/-! ## The walk stays inside the block -/

theorem lengthAt_eq {block : Bytes} {offset : Nat} (h : offset + 4 ≤ block.length) :
    lengthAt block offset = some (ofBe ((block.drop offset).take 4)) := by
  have htake : (block.drop offset).take 4 = [block.get ⟨offset, by omega⟩,
      block.get ⟨offset + 1, by omega⟩, block.get ⟨offset + 2, by omega⟩,
      block.get ⟨offset + 3, by omega⟩] := by
    rw [List.drop_eq_getElem_cons (by omega), List.drop_eq_getElem_cons (by omega),
      List.drop_eq_getElem_cons (by omega), List.drop_eq_getElem_cons (by omega)]
    rfl
  rw [htake]
  simp [lengthAt, List.getElem?_eq_getElem (show offset < block.length by omega),
    List.getElem?_eq_getElem (show offset + 1 < block.length by omega),
    List.getElem?_eq_getElem (show offset + 2 < block.length by omega),
    List.getElem?_eq_getElem (show offset + 3 < block.length by omega)]

/-- What is read at an offset is what is read off the rest of the block. -/
def ReadsAs (block : Bytes) (offset : Nat) :
    Except CodecError (String × Bytes) → Except CodecError (String × Nat) → Prop
  | .error e, r => r = .error e
  | .ok (text, rest), r => ∃ stop, r = .ok (text, stop) ∧ offset ≤ stop ∧
      stop ≤ block.length ∧ rest = block.drop stop

theorem textAt_eq (noLength noText : String) {block : Bytes} {offset : Nat}
    (hblock : block.length < 2 ^ 63) (h : offset ≤ block.length) :
    ∃ r, textAt noLength noText block offset = some r ∧
      ReadsAs block offset (parseText noLength noText (block.drop offset)) r := by
  have hstart : usizeAdd offset 4 = some (offset + 4) := by
    rw [usizeAdd, if_pos (by omega)]
  unfold textAt parseText
  simp only [hstart, Option.bind_eq_bind, Option.bind_some, List.length_drop, List.drop_drop]
  by_cases hshort : block.length < offset + 4
  · rw [if_pos hshort, if_pos (by omega)]
    exact ⟨_, rfl, rfl⟩
  · have hlen : lengthAt block offset = some (ofBe ((block.drop offset).take 4)) :=
      lengthAt_eq (by omega)
    have hlt := ofBe_lt ((block.drop offset).take 4)
    have hsize : ((block.drop offset).take 4).length = 4 := by
      rw [List.length_take, List.length_drop]
      omega
    rw [hsize] at hlt
    rw [if_neg hshort, if_neg (by omega)]
    generalize hn : ofBe ((block.drop offset).take 4) = n at hlen hlt
    have hstop : usizeAdd (offset + 4) n = some (offset + 4 + n) := by
      rw [usizeAdd, if_pos (by omega)]
    simp only [hlen, hstop, Option.bind_some]
    by_cases hcut : block.length < offset + 4 + n
    · rw [if_pos hcut, if_pos (by omega)]
      exact ⟨_, rfl, rfl⟩
    · have hslice : sliceAt block (offset + 4) (offset + 4 + n) =
          some ((block.drop (offset + 4)).take n) := by
        rw [sliceAt, if_pos (by omega), List.drop_take, Nat.add_sub_cancel_left]
      rw [if_neg hcut, if_neg (by omega), hslice]
      exact ⟨_, rfl, offset + 4 + n, rfl, by omega, by omega, rfl⟩

theorem entriesAt_eq {block : Bytes} (hblock : block.length < 2 ^ 63) (n : Nat) {offset : Nat}
    (h : offset ≤ block.length) :
    entriesAt block n offset = some (parseEntries n (block.drop offset)) := by
  induction n generalizing offset with
  | zero => rfl
  | succ n ih =>
      obtain ⟨r, hname, hreads⟩ := textAt_eq "header block truncated at name length"
        "header block truncated at name" hblock h
      rw [entriesAt, parseEntries, parseEntry]
      simp only [hname, Option.bind_eq_bind, Option.bind_some]
      cases hp : parseText "header block truncated at name length"
          "header block truncated at name" (block.drop offset) with
      | error e =>
          rw [hp] at hreads
          cases hreads
          rfl
      | ok x =>
          obtain ⟨name, rest⟩ := x
          rw [hp] at hreads
          obtain ⟨stop, rfl, -, hstop, rfl⟩ := hreads
          obtain ⟨r', hvalue, hreads'⟩ := textAt_eq "header block truncated at value length"
            "header block truncated at value" hblock hstop
          simp only [hvalue, Option.bind_some]
          cases hp' : parseText "header block truncated at value length"
              "header block truncated at value" (block.drop stop) with
          | error e =>
              rw [hp'] at hreads'
              cases hreads'
              rfl
          | ok x' =>
              obtain ⟨value, rest'⟩ := x'
              rw [hp'] at hreads'
              obtain ⟨stop', rfl, -, hstop', rfl⟩ := hreads'
              simp only [ih hstop', Option.bind_some]
              cases parseEntries n (block.drop stop') with
              | error e => rfl
              | ok headers => rfl

/-- The walk never panics, and reads what is read off the front of the block. -/
theorem parseHeaderBlockAt_eq {block : Bytes} (h : block.length < 2 ^ 63) :
    parseHeaderBlockAt block = some (parseHeaderBlock block) := by
  unfold parseHeaderBlockAt parseHeaderBlock
  by_cases hshort : block.length < 4
  · rw [if_pos hshort, if_pos hshort]
    rfl
  · have hcount : lengthAt block 0 = some (ofBe (block.take 4)) := lengthAt_eq (by omega)
    rw [if_neg hshort, if_neg hshort, hcount]
    simp only [Option.bind_eq_bind, Option.bind_some]
    by_cases hmany : (block.length - 4) / 8 < ofBe (block.take 4)
    · rw [if_pos hmany, if_pos hmany]
      rfl
    · rw [if_neg hmany, if_neg hmany, entriesAt_eq h _ (by omega)]

/-! ## The grammar -/

/-- A text of a block: its length in four octets, and its octets. -/
def textField (text : Bytes) : Bytes := beField 4 text.length ++ text

/-- An entry: a name and a value. -/
def entryField (entry : Bytes × Bytes) : Bytes := textField entry.1 ++ textField entry.2

/-- The octets are a count, this list of entries, and anything. -/
structure IsHeaderBlock (block : Bytes) (entries : List (Bytes × Bytes)) : Prop where
  count : entries.length < 2 ^ 32
  lengths : ∀ entry ∈ entries, entry.1.length < 2 ^ 32 ∧ entry.2.length < 2 ^ 32
  octets : ∃ trailing, block =
    beField 4 entries.length ++ entries.flatMap entryField ++ trailing

/-- What `parse_header_block` makes of an entry. -/
def lossyEntry (entry : Bytes × Bytes) : String × String :=
  (fromUtf8Lossy entry.1, fromUtf8Lossy entry.2)

theorem parseText_textField (noLength noText : String) {text : Bytes} (rest : Bytes)
    (h : text.length < 2 ^ 32) :
    parseText noLength noText (textField text ++ rest) = .ok (fromUtf8Lossy text, rest) := by
  have htake : (textField text ++ rest).take 4 = beField 4 text.length := by
    rw [textField, List.append_assoc]
    exact List.take_left' (beField_length _ _)
  have hdrop : (textField text ++ rest).drop 4 = text ++ rest := by
    rw [textField, List.append_assoc]
    exact List.drop_left' (beField_length _ _)
  have hlen : ¬ (textField text ++ rest).length < 4 := by
    simp only [textField, List.length_append, beField_length]
    omega
  unfold parseText
  rw [if_neg hlen, htake, hdrop, ofBe_beField_of_lt (by omega)]
  simp only
  rw [if_neg (by simp), List.take_left, List.drop_left]

/-- A text that was read is a field of the block. -/
theorem textField_of_parseText {noLength noText : String} {bs rest : Bytes} {s : String}
    (h : parseText noLength noText bs = .ok (s, rest)) :
    ∃ text, text.length < 2 ^ 32 ∧ bs = textField text ++ rest ∧ s = fromUtf8Lossy text := by
  unfold parseText at h
  split at h
  · contradiction
  · next hlen =>
      simp only at h
      split at h
      · contradiction
      · next hcut =>
          cases h
          have hsize : (bs.take 4).length = 4 := by
            rw [List.length_take]
            omega
          have hlt := ofBe_lt (bs.take 4)
          rw [hsize] at hlt
          have htext : ((bs.drop 4).take (ofBe (bs.take 4))).length = ofBe (bs.take 4) := by
            rw [List.length_take]
            omega
          refine ⟨(bs.drop 4).take (ofBe (bs.take 4)), by omega, ?_, rfl⟩
          have hfield : beField 4 (ofBe (bs.take 4)) = bs.take 4 := by
            have hback := beField_ofBe (bs.take 4)
            rwa [hsize] at hback
          rw [textField, htext, hfield, List.append_assoc, List.take_append_drop,
            List.take_append_drop]

theorem parseEntry_iff {bs rest : Bytes} {header : String × String} :
    parseEntry bs = .ok (header, rest) ↔ ∃ entry : Bytes × Bytes, entry.1.length < 2 ^ 32 ∧
      entry.2.length < 2 ^ 32 ∧ bs = entryField entry ++ rest ∧ header = lossyEntry entry := by
  constructor
  · intro h
    unfold parseEntry at h
    split at h
    · contradiction
    · next name bs' hname =>
        split at h
        · contradiction
        · next value bs'' hvalue =>
            cases h
            obtain ⟨n, hn, rfl, rfl⟩ := textField_of_parseText hname
            obtain ⟨v, hv, rfl, rfl⟩ := textField_of_parseText hvalue
            exact ⟨(n, v), hn, hv, by rw [entryField, List.append_assoc], rfl⟩
  · rintro ⟨⟨n, v⟩, hn, hv, rfl, rfl⟩
    rw [entryField, List.append_assoc]
    exact parseEntry_eq (parseText_textField _ _ _ hn) (parseText_textField _ _ _ hv)

theorem parseEntries_iff {n : Nat} {bs : Bytes} {headers : Headers} :
    parseEntries n bs = .ok headers ↔ ∃ entries : List (Bytes × Bytes), entries.length = n ∧
      (∀ entry ∈ entries, entry.1.length < 2 ^ 32 ∧ entry.2.length < 2 ^ 32) ∧
      (∃ trailing, bs = entries.flatMap entryField ++ trailing) ∧
      headers = entries.map lossyEntry := by
  induction n generalizing bs headers with
  | zero =>
      constructor
      · intro h
        cases h
        exact ⟨[], rfl, by simp, ⟨bs, rfl⟩, rfl⟩
      · rintro ⟨entries, hlen, -, -, rfl⟩
        rw [List.length_eq_zero_iff.1 hlen]
        rfl
  | succ n ih =>
      constructor
      · intro h
        rw [parseEntries] at h
        split at h
        · contradiction
        · next header bs' hentry =>
            split at h
            · contradiction
            · next headers' hrest =>
                cases h
                obtain ⟨entry, hn, hv, rfl, rfl⟩ := parseEntry_iff.1 hentry
                obtain ⟨entries, hlen, hall, ⟨trailing, rfl⟩, rfl⟩ := ih.1 hrest
                refine ⟨entry :: entries, by simp [hlen], ?_, ⟨trailing, ?_⟩, rfl⟩
                · intro e he
                  rcases List.mem_cons.1 he with rfl | he
                  · exact ⟨hn, hv⟩
                  · exact hall e he
                · rw [List.flatMap_cons, List.append_assoc]
      · rintro ⟨entries, hlen, hall, ⟨trailing, rfl⟩, rfl⟩
        cases entries with
        | nil => contradiction
        | cons entry entries =>
            have hentry := hall entry (by simp)
            have hrest : parseEntries n (entries.flatMap entryField ++ trailing) =
                .ok (entries.map lossyEntry) :=
              ih.2 ⟨entries, by simpa using hlen, fun e he => hall e (by simp [he]),
                ⟨trailing, rfl⟩, rfl⟩
            refine parseEntries_succ ?_ hrest
            rw [List.flatMap_cons, List.append_assoc]
            exact parseEntry_iff.2 ⟨entry, hentry.1, hentry.2, rfl, rfl⟩

theorem entryField_length (entry : Bytes × Bytes) :
    (entryField entry).length = 8 + entry.1.length + entry.2.length := by
  simp only [entryField, textField, List.length_append, beField_length]
  omega

theorem entries_le_octets (entries : List (Bytes × Bytes)) :
    8 * entries.length ≤ (entries.flatMap entryField).length := by
  induction entries with
  | nil => simp
  | cons entry entries ih =>
      rw [List.flatMap_cons, List.length_append, entryField_length, List.length_cons]
      omega

/-- A count that the loop gets through is never too large for the block. -/
theorem parseHeaderBlock_of_entries {block : Bytes} {headers : Headers}
    (hlen : 4 ≤ block.length)
    (h : parseEntries (ofBe (block.take 4)) (block.drop 4) = .ok headers) :
    parseHeaderBlock block = .ok headers := by
  obtain ⟨entries, hcount, -, ⟨trailing, hoctets⟩, -⟩ := parseEntries_iff.1 h
  have hle := entries_le_octets entries
  have htotal := congrArg List.length hoctets
  rw [List.length_drop, List.length_append] at htotal
  unfold parseHeaderBlock
  rw [if_neg (by omega)]
  simp only
  rw [if_neg (by omega), h]

/-- The blocks that are accepted, and what is made of them. -/
theorem parseHeaderBlock_iff {block : Bytes} {headers : Headers} :
    parseHeaderBlock block = .ok headers ↔
      ∃ entries, IsHeaderBlock block entries ∧ headers = entries.map lossyEntry := by
  constructor
  · intro h
    have hlen : ¬ block.length < 4 := by
      intro hshort
      rw [parseHeaderBlock, if_pos hshort] at h
      contradiction
    unfold parseHeaderBlock at h
    rw [if_neg hlen] at h
    simp only at h
    split at h
    · contradiction
    · have hsize : (block.take 4).length = 4 := by
        rw [List.length_take]
        omega
      have hlt := ofBe_lt (block.take 4)
      have hback := beField_ofBe (block.take 4)
      rw [hsize] at hlt hback
      obtain ⟨entries, hcount, hall, ⟨trailing, hoctets⟩, rfl⟩ := parseEntries_iff.1 h
      refine ⟨entries, ⟨by omega, hall, trailing, ?_⟩, rfl⟩
      rw [hcount, hback, List.append_assoc, ← hoctets, List.take_append_drop]
  · rintro ⟨entries, ⟨hcount, hall, trailing, rfl⟩, rfl⟩
    have htake : (beField 4 entries.length ++ entries.flatMap entryField ++ trailing).take 4 =
        beField 4 entries.length := by
      rw [List.append_assoc]
      exact List.take_left' (beField_length _ _)
    have hdrop : (beField 4 entries.length ++ entries.flatMap entryField ++ trailing).drop 4 =
        entries.flatMap entryField ++ trailing := by
      rw [List.append_assoc]
      exact List.drop_left' (beField_length _ _)
    refine parseHeaderBlock_of_entries ?_ ?_
    · simp only [List.length_append, beField_length]
      omega
    · rw [htake, hdrop, ofBe_beField_of_lt (by omega)]
      exact parseEntries_iff.2 ⟨entries, rfl, hall, ⟨trailing, rfl⟩, rfl⟩

/-! ## The block that `compress_headers` builds -/

/-- The octets of a header as they are written. -/
def writtenEntry (header : String × String) : Bytes × Bytes :=
  (asBytes (toAsciiLowercase header.1), asBytes header.2)

theorem headerBlock_isHeaderBlock {headers : Headers} (hcount : headers.length < 2 ^ 32)
    (hall : ∀ h ∈ headers, (asBytes (toAsciiLowercase h.1)).length < 2 ^ 32 ∧
      (asBytes h.2).length < 2 ^ 32) :
    IsHeaderBlock (headerBlock headers) (headers.map writtenEntry) where
  count := by rwa [List.length_map]
  lengths := by
    intro entry hentry
    obtain ⟨header, hin, rfl⟩ := List.mem_map.1 hentry
    exact hall header hin
  octets := by
    refine ⟨[], ?_⟩
    have hentry : (fun header => entryField (writtenEntry header)) = headerEntry := by
      funext header
      simp only [entryField, textField, writtenEntry, headerEntry, List.append_assoc]
    rw [List.append_nil, List.length_map, List.flatMap_map, headerBlock, hentry]

theorem lossyEntry_writtenEntry (headers : Headers) :
    (headers.map writtenEntry).map lossyEntry = lowercaseNames headers := by
  rw [List.map_map, lowercaseNames]
  refine List.map_congr_left fun header _ => ?_
  simp only [Function.comp_apply, lossyEntry, writtenEntry, fromUtf8Lossy_asBytes]

/-- Over a block that fits in memory: the walk returns without a panic; it accepts
exactly the well-formed blocks, as the lossy readings of their entries; whatever the
loop gets through passes the check of the count; and the block built from a header list
is read back with its names lowercased. -/
theorem header_block_grammar (block : Bytes) (h : block.length < 2 ^ 63) :
    (∃ result, parseHeaderBlockAt block = some result) ∧
    (∀ headers, parseHeaderBlockAt block = some (.ok headers) ↔
      ∃ entries, IsHeaderBlock block entries ∧ headers = entries.map lossyEntry) ∧
    (∀ numHeaders headers, lengthAt block 0 = some numHeaders →
      entriesAt block numHeaders 4 = some (.ok headers) →
        parseHeaderBlockAt block = some (.ok headers)) ∧
    (∀ headers : Headers, block = headerBlock headers → headers.length < 2 ^ 32 →
      (∀ h ∈ headers, (asBytes (toAsciiLowercase h.1)).length < 2 ^ 32 ∧
        (asBytes h.2).length < 2 ^ 32) →
      parseHeaderBlockAt block = some (.ok (lowercaseNames headers))) := by
  rw [parseHeaderBlockAt_eq h]
  refine ⟨⟨_, rfl⟩, ?_, ?_, ?_⟩
  · intro headers
    rw [Option.some.injEq]
    exact parseHeaderBlock_iff
  · intro numHeaders headers hcount hentries
    have hlen : 4 ≤ block.length := by
      by_contra hshort
      have hlast : block[3]? = none := List.getElem?_eq_none (by omega)
      simp [lengthAt, hlast] at hcount
    rw [lengthAt_eq (by omega), Option.some.injEq] at hcount
    rw [entriesAt_eq h _ hlen, Option.some.injEq, ← hcount] at hentries
    rw [parseHeaderBlock_of_entries hlen hentries]
  · rintro headers rfl hcount hall
    rw [parseHeaderBlock_iff.2 ⟨_, headerBlock_isHeaderBlock hcount hall,
      (lossyEntry_writtenEntry headers).symm⟩]

/-- Two entries, the second with an octet that is not UTF-8, and two octets behind them. -/
def grammarBlock : Bytes :=
  [0, 0, 0, 2, 0, 0, 0, 1, 0x61, 0, 0, 0, 0, 0, 0, 0, 1, 0xFF, 0, 0, 0, 1, 0x62, 9, 9]

theorem header_block_grammar_lossy :
    grammarBlock.length < 2 ^ 63 ∧
      parseHeaderBlockAt grammarBlock = some (.ok [("a", ""), ("\uFFFD", "b")]) := by
  refine ⟨by decide, (header_block_grammar grammarBlock (by decide)).2.1 _ |>.2
    ⟨[([0x61], []), ([0xFF], [0x62])], ⟨by decide, by decide, [9, 9], by decide⟩, ?_⟩⟩
  decide +kernel

end KubePortForward.Codec
