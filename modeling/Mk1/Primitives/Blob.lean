import Mk1.Library.FieldElements
import Mk1.Library.Window
import Mk1.Primitives.Basic

/-!
# Encoding data into blobs

The encoder and the decoder of `blob.rs`. Bytes are `UInt8`, and slices and fixed
arrays are lists, whose accesses are checked as in the source. The mutable
buffers and offsets are passed along as a state.
-/

namespace Mk1

open Window (slice store copyFromSlice)

/-- The version byte of the encoding. -/
def ENCODING_VERSION : UInt8 := 0

/-- The position of the version byte in a blob. -/
def VERSION_OFFSET : Nat := 1

/-- The number of rounds, each of which handles four field elements. -/
def ROUNDS : Nat := 1024

/-- The size of a blob, in bytes. -/
def BYTES_PER_BLOB : Nat := 131072

/-- The maximum size of a blob's data, in bytes. -/
def MAX_BLOB_DATA_SIZE : Nat := (4 * 31 + 3) * 1024 - 4

/-- The errors of encoding and decoding a blob. -/
inductive BlobError where
  | inputTooLarge (len : Nat)
  | dataDidNotFit (readOffset dataLen : Nat)
  | invalidVersion (want got : UInt8)
  | invalidLength (got maximum : Nat)
  | extraneousData (message : String)
  | invalidFieldElement
  deriving DecidableEq, Repr

/-- Why a function on blobs has no value: it returns an error, or it panics. -/
inductive BlobFailure where
  | error (e : BlobError)
  | panic (p : Panic)
  deriving DecidableEq, Repr

/-- The result of a function on blobs. -/
abbrev BlobResult := Except BlobFailure

/-- Panic without a value. -/
def orPanic {α : Type} (value : Option α) (message : String) : BlobResult α :=
  match value with
  | some value => pure value
  | none => throw (.panic ⟨message⟩)

/-- `assert!`. -/
def assert (condition : Bool) (message : String) : BlobResult Unit :=
  if condition then pure () else throw (.panic ⟨message⟩)

/-- Return an error early, if a condition holds. -/
def rejectIf (condition : Bool) (e : BlobError) : BlobResult Unit :=
  if condition then throw (.error e) else pure ()

/-- Access of an element of a slice. -/
def index (bytes : List UInt8) (position : Nat) : BlobResult UInt8 :=
  orPanic bytes[position]? "index out of bounds"

/-- Subtraction on `usize`. -/
def subUsize (a b : Nat) : BlobResult Nat :=
  orPanic (if b ≤ a then some (a - b) else none) "attempt to subtract with overflow"

/-! ## Encoding -/

/-- Read a byte of the input data, if there is one left. -/
def readOneByte (data : List UInt8) (readOffset : Nat) : UInt8 × Nat :=
  if h : readOffset < data.length then (data[readOffset], readOffset + 1) else (0, readOffset)

/-- Read as many of the input data as there are left, up to 31, into a buffer. -/
def read31Bytes (data : List UInt8) (readOffset : Nat) : BlobResult (List UInt8 × Nat) := do
  let buf := List.replicate 31 0
  if readOffset < data.length then
    let n := min 31 (data.length - readOffset)
    let source ← orPanic (slice data readOffset (readOffset + n)) "range end index out of range"
    let buf ← orPanic (copyFromSlice buf 0 n source) "source slice length does not match"
    pure (buf, readOffset + n)
  else pure (buf, readOffset)

/-- The binary digits of a byte, `{:08b}`. -/
def binaryDigits (v : UInt8) : String :=
  String.ofList ((List.range 8).map fun i => if v.toNat.testBit (7 - i) then '1' else '0')

/-- Write one byte to the output blob, at the start of a field element. -/
def writeOneByte (out : List UInt8) (writeOffset : Nat) (v : UInt8) :
    BlobResult (List UInt8 × Nat) := do
  assert (writeOffset % 32 = 0) s!"blob encoding: invalid byte write offset: {writeOffset}"
  let digits := binaryDigits v
  assert (v &&& 0b11000000 = 0) s!"blob encoding: invalid 6-bit value: {digits}"
  let out ← orPanic (store out writeOffset v) "index out of bounds"
  pure (out, writeOffset + 1)

/-- Write a chunk of 31 bytes to the output blob, after the first byte of a field element. -/
def write31Bytes (out : List UInt8) (writeOffset : Nat) (buf : List UInt8) :
    BlobResult (List UInt8 × Nat) := do
  assert (writeOffset % 32 = 1) s!"blob encoding: invalid bytes31 write offset: {writeOffset}"
  let out ← orPanic (copyFromSlice out writeOffset (writeOffset + 31) buf)
    "range end index out of range"
  pure (out, writeOffset + 31)

/-- The output blob and the offsets of the encoder. -/
structure Encoder where
  out : List UInt8
  readOffset : Nat
  writeOffset : Nat

/-- The first buffer of round 0: the version, the length of the data and the first 27 bytes. -/
def readHeader (data : List UInt8) (readOffset : Nat) : BlobResult (List UInt8 × Nat) := do
  let ilen := data.length % 2 ^ 32
  let buf := List.replicate 31 0
  let buf := buf.set 0 ENCODING_VERSION
  let buf := buf.set 1 (UInt8.ofNat (ilen >>> 16 &&& 0xFF))
  let buf := buf.set 2 (UInt8.ofNat (ilen >>> 8 &&& 0xFF))
  let buf := buf.set 3 (UInt8.ofNat (ilen &&& 0xFF))
  let available := 31 - 4
  let n := min available (data.length - readOffset)
  let source ← orPanic (slice data readOffset (readOffset + n)) "range end index out of range"
  let buf ← orPanic (copyFromSlice buf 4 (4 + n) source) "source slice length does not match"
  pure (buf, readOffset + n)

/-- The buffer of the first field element of a round. -/
def readFirst (data : List UInt8) (round readOffset : Nat) : BlobResult (List UInt8 × Nat) :=
  if round = 0 then readHeader data readOffset else read31Bytes data readOffset

/-- Write a field element: its first byte and its chunk. -/
def writeFieldElement (out : List UInt8) (writeOffset : Nat) (v : UInt8) (buf : List UInt8) :
    BlobResult (List UInt8 × Nat) := do
  let (out, writeOffset) ← writeOneByte out writeOffset v
  write31Bytes out writeOffset buf

/-- One round of `createBlobFromData`. -/
def encodeRound (data : List UInt8) (round : Nat) (s : Encoder) : BlobResult Encoder := do
  let (buf, readOffset) ← readFirst data round s.readOffset
  let (x, readOffset) := readOneByte data readOffset
  let sixBitsOfX := x &&& 0b00111111
  let (out, writeOffset) ← writeFieldElement s.out s.writeOffset sixBitsOfX buf
  -- second field element: combine bits from x and a new byte
  let (buf, readOffset) ← read31Bytes data readOffset
  let (y, readOffset) := readOneByte data readOffset
  let b := (y &&& 0b00001111) ||| ((x &&& 0b11000000) >>> (2 : UInt8))
  let (out, writeOffset) ← writeFieldElement out writeOffset b buf
  -- third field element: encode another 6-bit value
  let (buf, readOffset) ← read31Bytes data readOffset
  let (z, readOffset) := readOneByte data readOffset
  let sixBitsOfZ := z &&& 0b00111111
  let (out, writeOffset) ← writeFieldElement out writeOffset sixBitsOfZ buf
  -- fourth field element: combine bits from y and z
  let (buf, readOffset) ← read31Bytes data readOffset
  let d := ((z &&& 0b11000000) >>> (2 : UInt8)) ||| ((y &&& 0b11110000) >>> (4 : UInt8))
  let (out, writeOffset) ← writeFieldElement out writeOffset d buf
  pure ⟨out, readOffset, writeOffset⟩

/-- The rounds of `createBlobFromData`, until the data has been read. -/
def encodeRounds (data : List UInt8) : List Nat → Encoder → BlobResult Encoder
  | [], s => pure s
  | round :: rounds, s =>
      if data.length ≤ s.readOffset then pure s
      else do
        let s ← encodeRound data round s
        encodeRounds data rounds s

/-- Encode the input data into a blob. -/
def createBlobFromData (data : List UInt8) : BlobResult (List UInt8) := do
  let out := List.replicate BYTES_PER_BLOB 0
  rejectIf (MAX_BLOB_DATA_SIZE < data.length) (.inputTooLarge data.length)
  let s ← encodeRounds data (List.range ROUNDS) ⟨out, 0, 0⟩
  rejectIf (s.readOffset < data.length) (.dataDidNotFit s.readOffset data.length)
  pure s.out

/-- `[T]::chunks`: consecutive parts of a size, the last of which may be shorter. -/
def chunks {α : Type} (size : Nat) (list : List α) : List (List α) :=
  (List.range ((list.length + size - 1) / size)).map fun i => (list.drop (size * i)).take size

/-- The blobs of `create_blob_sidecar_from_data_blocking`, before they become a sidecar. -/
def createBlobsFromData (data : List UInt8) : BlobResult (List (List UInt8)) :=
  (chunks MAX_BLOB_DATA_SIZE data).mapM createBlobFromData

/-! ## Decoding -/

/-- The output buffer and the positions of the decoder. -/
structure Decoder where
  outputPos : Nat
  inputPos : Nat
  output : List UInt8

/-- Decode a field element: its first byte is returned, and its chunk is copied. -/
def decodeFieldElement (blob : List UInt8) (s : Decoder) : BlobResult (UInt8 × Decoder) := do
  let result ← index blob s.inputPos
  rejectIf (result &&& 0b11000000 ≠ 0) .invalidFieldElement
  let source ←
    orPanic (slice blob (s.inputPos + 1) (s.inputPos + 32)) "range end index out of range"
  let output ← orPanic (copyFromSlice s.output s.outputPos (s.outputPos + 31) source)
    "range end index out of range"
  pure (result, ⟨s.outputPos + 32, s.inputPos + 32, output⟩)

/-- Store a value into the output, this far before a position. -/
def storeBefore (output : List UInt8) (outputPos distance : Nat) (value : UInt8) :
    BlobResult (List UInt8) := do
  let position ← subUsize outputPos distance
  orPanic (store output position value) "index out of bounds"

/-- Put the bytes together that are held by the first bytes of four field elements. -/
def reassembleBytes (first second third fourth : UInt8) (s : Decoder) : BlobResult Decoder := do
  let outputPos ← subUsize s.outputPos 1
  let x := (first &&& 0b00111111) ||| ((second &&& 0b00110000) <<< (2 : UInt8))
  let y := (second &&& 0b00001111) ||| ((fourth &&& 0b00001111) <<< (4 : UInt8))
  let z := (third &&& 0b00111111) ||| ((fourth &&& 0b00110000) <<< (2 : UInt8))
  let output ← storeBefore s.output outputPos 32 z
  let output ← storeBefore output outputPos (32 * 2) y
  let output ← storeBefore output outputPos (32 * 3) x
  pure ⟨outputPos, s.inputPos, output⟩

/-- The last three field elements of a round, whose first one has been handled. -/
def decodeRest (blob : List UInt8) (first : UInt8) (s : Decoder) : BlobResult Decoder := do
  let (second, s) ← decodeFieldElement blob s
  let (third, s) ← decodeFieldElement blob s
  let (fourth, s) ← decodeFieldElement blob s
  reassembleBytes first second third fourth s

/-- The first round of the decoder, whose first field element starts with the version and the
length and is not checked. -/
def decodeFirstRound (blob : List UInt8) (output : List UInt8) : BlobResult Decoder := do
  let source ← orPanic (slice blob 5 32) "range end index out of range"
  let output ← orPanic (copyFromSlice output 0 27 source) "range end index out of range"
  let first ← index blob 0
  decodeRest blob first ⟨28, 32, output⟩

/-- One later round of the decoder. -/
def decodeRound (blob : List UInt8) (s : Decoder) : BlobResult Decoder := do
  let (first, s) ← decodeFieldElement blob s
  decodeRest blob first s

/-- Up to this many later rounds of the decoder, until the output has the length. -/
def decodeRounds (blob : List UInt8) (outputLen : Nat) : Nat → Decoder → BlobResult Decoder
  | 0, s => pure s
  | rounds + 1, s =>
      if outputLen ≤ s.outputPos then pure s
      else do
        let s ← decodeRound blob s
        decodeRounds blob outputLen rounds s

/-- Decode a blob into its original data. -/
def decodeBlobData (blob : List UInt8) : BlobResult (List UInt8) := do
  let output := List.replicate MAX_BLOB_DATA_SIZE 0
  let version ← index blob VERSION_OFFSET
  rejectIf (version ≠ ENCODING_VERSION) (.invalidVersion ENCODING_VERSION version)
  -- the length is a big-endian integer of three bytes
  let high ← index blob 2
  let middle ← index blob 3
  let low ← index blob 4
  let outputLen := high.toNat * 2 ^ 16 + middle.toNat * 2 ^ 8 + low.toNat
  rejectIf (MAX_BLOB_DATA_SIZE < outputLen) (.invalidLength outputLen MAX_BLOB_DATA_SIZE)
  let s ← decodeFirstRound blob output
  let s ← decodeRounds blob outputLen (ROUNDS - 1) s
  let element := s.outputPos / 32
  rejectIf (((s.output.take MAX_BLOB_DATA_SIZE).drop outputLen).any (· ≠ 0))
    (.extraneousData s!"field element {element}")
  let output := s.output.take outputLen
  let position := s.inputPos
  rejectIf ((blob.drop s.inputPos).any (· ≠ 0)) (.extraneousData s!"input position {position}")
  pure output

end Mk1
