import Mathlib.Data.Nat.Bitwise
import KubePortForward.Codec.SpdyCodec

/-!
# The two header words of a frame

Every frame starts with two 32-bit words: a stream id or the version and the type, and
the flags with the payload length.  What `decode_frame` reads off the header of a frame
is what its encoder put into the words.

## Main results

* `flagsWord_toNat` — flags and length do not touch, for a length below `2 ^ 24`.
* `decodeFrame_dataWords` — the DATA frame that is read off two words and what follows.
-/

namespace KubePortForward.Codec

open KubePortForward.Verified.BigEndian

variable {F : Flate}

/-! ## Reading words -/

theorem ofNat_ofBe_word (a : UInt32) : UInt32.ofNat (ofBe (beField 4 a.toNat)) = a := by
  rw [ofBe_beField_of_lt a.toNat_lt, UInt32.ofNat_toNat]

theorem take_word (a : UInt32) (rest : Bytes) :
    (beField 4 a.toNat ++ rest).take 4 = beField 4 a.toNat :=
  List.take_left' (beField_length _ _)

theorem drop_word (a : UInt32) (rest : Bytes) : (beField 4 a.toNat ++ rest).drop 4 = rest :=
  List.drop_left' (beField_length _ _)

theorem firstWord_word (a : UInt32) (rest : Bytes) :
    firstWord (beField 4 a.toNat ++ rest) = a := by
  rw [firstWord, take_word, ofNat_ofBe_word]

theorem flagsLen_words {first : Bytes} (h : first.length = 4) (w : UInt32) (rest : Bytes) :
    flagsLen (first ++ (beField 4 w.toNat ++ rest)) = w := by
  rw [flagsLen, List.drop_left' h, take_word, ofNat_ofBe_word]

/-- A word whose top bit is clear starts a DATA frame. -/
theorem isControl_word {a : UInt32} (h : a.toNat < 2 ^ 31) (rest : Bytes) :
    isControl (beField 4 a.toNat ++ rest) = false := by
  have htake : (beField 4 a.toNat ++ rest).take 2 =
      [UInt8.ofNat (a.toNat / 256 ^ 3), UInt8.ofNat (a.toNat / 256 ^ 2)] := rfl
  have hvalue : ofBe ((beField 4 a.toNat ++ rest).take 2) = a.toNat / 2 ^ 16 := by
    rw [htake]
    simp only [ofBe, List.length_cons, List.length_nil, UInt8.toNat_ofNat']
    omega
  have hclear : (UInt16.ofNat (a.toNat / 2 ^ 16) &&& 0x8000) = 0 := by
    apply UInt16.toNat_inj.1
    rw [UInt16.toNat_and, UInt16.toNat_ofNat', Nat.mod_eq_of_lt (by omega)]
    show a.toNat / 2 ^ 16 &&& 2 ^ 15 = 0
    rw [Nat.and_two_pow, Nat.testBit_lt_two_pow (by omega)]
    rfl
  rw [isControl, hvalue, hclear]
  rfl

/-! ## Flags and length -/

/-- The flags in the top octet, the length below them. -/
def flagsWord (flags : UInt8) (len : Nat) : UInt32 :=
  (flags.toUInt32 <<< 24) ||| UInt32.ofNat len

theorem flagsWord_toNat {flags : UInt8} {len : Nat} (h : len < 2 ^ 24) :
    (flagsWord flags len).toNat = 2 ^ 24 * flags.toNat + len := by
  have hflags : flags.toNat < 2 ^ 8 := flags.toNat_lt
  have hshift : (flags.toUInt32 <<< 24).toNat = 2 ^ 24 * flags.toNat := by
    rw [UInt32.toNat_shiftLeft, UInt8.toNat_toUInt32]
    show flags.toNat <<< 24 % 2 ^ 32 = _
    rw [Nat.shiftLeft_eq]
    omega
  have hlen : (UInt32.ofNat len).toNat = len := by
    rw [UInt32.toNat_ofNat']
    omega
  rw [flagsWord, UInt32.toNat_or, hshift, hlen, Nat.two_pow_add_eq_or_of_lt h]

theorem lowWord_toNat (w : UInt32) : (w &&& 0x00FFFFFF).toNat = w.toNat % 2 ^ 24 := by
  rw [UInt32.toNat_and]
  show w.toNat &&& (2 ^ 24 - 1) = _
  rw [Nat.and_two_pow_sub_one_eq_mod]

theorem payloadLen_words {first : Bytes} (h : first.length = 4) (w : UInt32) (rest : Bytes) :
    payloadLen (first ++ (beField 4 w.toNat ++ rest)) = w.toNat % 2 ^ 24 := by
  rw [payloadLen, flagsLen_words h, lowWord_toNat]

theorem frameFlags_words {first : Bytes} (h : first.length = 4) (w : UInt32) (rest : Bytes) :
    frameFlags (first ++ (beField 4 w.toNat ++ rest)) = UInt8.ofNat (w.toNat / 2 ^ 24) := by
  rw [frameFlags, flagsLen_words h]
  apply UInt8.toNat_inj.1
  rw [UInt32.toNat_toUInt8, UInt32.toNat_shiftRight, UInt8.toNat_ofNat']
  show w.toNat >>> 24 % 2 ^ 8 = _
  rw [Nat.shiftRight_eq_div_pow]

theorem hasFin_finFlag (fin : Bool) : hasFin (finFlag fin) = fin := by
  cases fin <;> rfl

/-! ## DATA frames -/

theorem dataId_toNat (id : StreamId) : (id &&& 0x7FFFFFFF).toNat = id.toNat % 2 ^ 31 := by
  rw [UInt32.toNat_and]
  show id.toNat &&& (2 ^ 31 - 1) = _
  rw [Nat.and_two_pow_sub_one_eq_mod]

theorem dataId_eq {id : StreamId} (h : id.toNat < 2 ^ 31) : id &&& 0x7FFFFFFF = id := by
  apply UInt32.toNat_inj.1
  rw [dataId_toNat, Nat.mod_eq_of_lt h]

/-- What is read off the words of a DATA frame and what follows them. -/
theorem decodeFrame_dataWords {codec : SpdyCodec F} {id : StreamId} (hid : id.toNat < 2 ^ 31)
    {w : UInt32} {rest : Bytes} (hlimit : w.toNat % 2 ^ 24 ≤ codec.maxFrameSize.toNat)
    (hlen : w.toNat % 2 ^ 24 ≤ rest.length) :
    codec.decodeFrame (beField 4 id.toNat ++ (beField 4 w.toNat ++ rest)) =
      some ⟨.ok (some (.data id (rest.take (w.toNat % 2 ^ 24))
          (hasFin (UInt8.ofNat (w.toNat / 2 ^ 24))))),
        rest.drop (w.toNat % 2 ^ 24), codec⟩ := by
  have hfour : (beField 4 id.toNat).length = 4 := beField_length _ _
  have hpayload := payloadLen_words hfour w rest
  have hflags := frameFlags_words hfour w rest
  have hcontrol := isControl_word hid (beField 4 w.toNat ++ rest)
  have hstream : headerStreamId (beField 4 id.toNat ++ (beField 4 w.toNat ++ rest)) = id := by
    rw [headerStreamId, firstWord_word, dataId_eq hid]
  have hsize : (beField 4 id.toNat ++ (beField 4 w.toNat ++ rest)).length = 8 + rest.length := by
    simp only [List.length_append, beField_length]
    omega
  have htotal : frameTotal (beField 4 id.toNat ++ (beField 4 w.toNat ++ rest)) =
      8 + w.toNat % 2 ^ 24 := by
    rw [frameTotal, hpayload]
  have hbody : (beField 4 id.toNat ++ (beField 4 w.toNat ++ rest)).drop 8 = rest := by
    rw [← List.append_assoc]
    exact List.drop_left' (by simp only [List.length_append, beField_length])
  unfold SpdyCodec.decodeFrame
  rw [if_neg (by omega), frameLimit, hcontrol, hpayload]
  simp only [Bool.false_eq_true, if_false]
  rw [if_neg (by omega), if_neg (by omega), htotal, hflags, hstream, List.drop_take,
    Nat.add_sub_cancel_left, hbody, ← List.drop_drop, hbody]

end KubePortForward.Codec
