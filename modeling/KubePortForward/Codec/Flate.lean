import KubePortForward.Codec.Frame

/-!
# The zlib streams under the header compression

`flate2` is a dependency: its `Compress` and `Decompress` are parameters here, with
the calls that `codec.rs` makes.  Both are zlib streams that keep their state from
call to call, and every call flushes with `Sync`.

`Laws` is what the codec relies on, as the documentation of zlib has it: a call takes
input and gives output until one of the two runs out; a flush that has nothing more
to give has put everything it was given into the stream; a decompressor that has
taken all its input and has room left has given everything the input holds; a
stream that was compressed with a dictionary asks for it once.
-/

namespace KubePortForward.Codec

/-- `flate2::Status`. -/
inductive Status where
  | ok
  | bufError
  | streamEnd
  deriving DecidableEq, Repr

/-- `flate2::DecompressError`; `needsDictionary` is whether it asks for one. -/
structure DecompressError where
  needsDictionary : Bool
  message : String
  deriving DecidableEq, Repr

/-- What one call returned, by how much `total_in` grew, what was written to the output,
and the stream afterwards. -/
structure FlateCall (σ ε : Type) where
  result : Except ε Status
  consumed : Nat
  produced : Bytes
  state : σ

/-- The two stream types and what is called on them.  A call gets its input and the
room there is for its output. -/
structure Flate where
  Compress : Type
  Decompress : Type
  newCompress : Compress
  newDecompress : Decompress
  setCompressDictionary : Compress → Bytes → Except String Compress
  setDecompressDictionary : Decompress → Bytes → Except String Decompress
  compress : Compress → Bytes → Nat → FlateCall Compress String
  decompress : Decompress → Bytes → Nat → FlateCall Decompress DecompressError

/-- The behaviour of `F` with the dictionary `dict`.  `valid` says which octets can be
the first ones of a compressed stream and `decoded` what they hold; `deflated` that a
compressor was given the first octets and gave the second, `inflated` that a
decompressor was, with the dictionary or without. -/
structure Flate.Laws (F : Flate) (dict : Bytes) (valid : Bytes → Prop)
    (decoded : Bytes → Bytes) (deflated : F.Compress → Bytes → Bytes → Prop)
    (inflated : Bool → F.Decompress → Bytes → Bytes → Prop) : Prop where
  decoded_nil : decoded [] = []
  decoded_prefix : ∀ ys more, valid (ys ++ more) → decoded ys <+: decoded (ys ++ more)
  compress_new : ∃ st, F.setCompressDictionary F.newCompress dict = .ok st ∧ deflated st [] []
  deflated_valid : ∀ st xs ys, deflated st xs ys → valid ys
  /-- A sync flush ends no stream, and goes on until it has nothing more to give. -/
  compress_sync : ∀ st xs ys input room, deflated st xs ys → 0 < room →
    ∃ status, (F.compress st input room).result = .ok status ∧ status ≠ .streamEnd ∧
      (F.compress st input room).consumed ≤ input.length ∧
      (F.compress st input room).produced.length ≤ room ∧
      deflated (F.compress st input room).state
        (xs ++ input.take (F.compress st input room).consumed)
        (ys ++ (F.compress st input room).produced) ∧
      ((F.compress st input room).produced = [] →
        (F.compress st input room).consumed = input.length ∧ decoded ys = xs ++ input)
  decompress_new : inflated false F.newDecompress [] []
  inflated_prefix : ∀ b st ys xs, inflated b st ys xs → xs <+: decoded ys
  /-- A call stops for want of input or of room, or to ask for the dictionary. -/
  decompress_sync : ∀ b st ys xs input room, inflated b st ys xs → valid (ys ++ input) →
    0 < room → (F.decompress st input room).consumed ≤ input.length ∧
    (F.decompress st input room).produced.length ≤ room ∧
    ((∃ status, (F.decompress st input room).result = .ok status ∧ status ≠ .streamEnd ∧
        inflated b (F.decompress st input room).state
          (ys ++ input.take (F.decompress st input room).consumed)
          (xs ++ (F.decompress st input room).produced) ∧
        (status = .bufError → (F.decompress st input room).produced = []) ∧
        ((F.decompress st input room).consumed < input.length →
          (F.decompress st input room).produced.length = room) ∧
        ((F.decompress st input room).consumed = input.length →
          (F.decompress st input room).produced.length < room →
          xs ++ (F.decompress st input room).produced = decoded (ys ++ input))) ∨
      (b = false ∧ (F.decompress st input room).produced = [] ∧
        (∃ message, (F.decompress st input room).result = .error ⟨true, message⟩) ∧
        ∃ st', F.setDecompressDictionary (F.decompress st input room).state dict = .ok st' ∧
          inflated true st' (ys ++ input.take (F.decompress st input room).consumed) xs))

end KubePortForward.Codec
