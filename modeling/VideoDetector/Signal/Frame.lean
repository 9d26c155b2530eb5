import VideoDetector.Lib.Memory
import VideoDetector.Lib.Loop
import VideoDetector.Lib.Stuffing

/-!
# Signal-machine frames (`fvd-new/sig_service.c`)

The `externalProtocol*` functions work in place on a buffer at address `buff` and update `*size`.
The escape and unescape loops insert or delete a byte while they scan and move their own bound;
`Cursor` is their loop state. The `#else` branches are modelled, as in the source.
-/

namespace VideoDetector.Signal
set_option autoImplicit false
open Lib

/-- State of the two scanning loops: the buffer, `i` and `*size`. -/
structure Cursor where
  mem : Mem
  i : Nat
  size : Nat

/-- `externalProtocolAddHeader`: the delimiters around the `size` bytes at `buff+1`. -/
def externalProtocolAddHeader (m : Mem) (buff size : Nat) : Mem × Nat :=
  (setByte (setByte m buff 0xC0) (buff + size + 1) 0xC0, size + 2)

/-- The body of a branch of `externalProtocolEncode`: write `0xDB` over byte `i`, make room behind
it and put the second code byte there. -/
def escapeAt (buff : Nat) (second : UInt8) (s : Cursor) : Cursor :=
  let m := setByte s.mem (buff + s.i) 0xDB
  let size := s.size + 1
  let m := shiftUp m (buff + s.i + 1) (size - 1 - (s.i + 1))
  ⟨setByte m (buff + s.i + 1) second, s.i + 1, size⟩

/-- One test and iteration of the loop of `externalProtocolEncode`. -/
def encodeStep (buff : Nat) (s : Cursor) : Option Cursor :=
  if s.i < s.size then
    if s.mem (buff + s.i) = 0xC0 then some (escapeAt buff 0xDC s)
    else if s.mem (buff + s.i) = 0xDB then some (escapeAt buff 0xDD s)
    else some { s with i := s.i + 1 }
  else none

/-- `externalProtocolEncode`. -/
def externalProtocolEncode (m : Mem) (buff size : Nat) : Option (Mem × Nat) :=
  (iterate (encodeStep buff) (2 * size + 1) ⟨m, 0, size⟩).map fun s => (s.mem, s.size)

/-- The body of a branch of `externalProtocolDecode`: write the decoded byte and close the gap. The
last byte moved comes from just past the window. -/
def unescapeAt (buff : Nat) (decoded : UInt8) (s : Cursor) : Cursor :=
  let m := setByte s.mem (buff + s.i) decoded
  ⟨shiftDown m (buff + s.i + 1) (s.size - (s.i + 1)), s.i + 1, s.size - 1⟩

/-- One test and iteration of the loop of `externalProtocolDecode`. -/
def decodeStep (buff : Nat) (s : Cursor) : Option Cursor :=
  if s.i < s.size then
    if s.mem (buff + s.i) = 0xDB ∧ s.mem (buff + s.i + 1) = 0xDC then some (unescapeAt buff 0xC0 s)
    else if s.mem (buff + s.i) = 0xDB ∧ s.mem (buff + s.i + 1) = 0xDD then some (unescapeAt buff 0xDB s)
    else some { s with i := s.i + 1 }
  else none

/-- `externalProtocolDecode`. -/
def externalProtocolDecode (m : Mem) (buff size : Nat) : Option (Mem × Nat) :=
  (iterate (decodeStep buff) (size + 1) ⟨m, 0, size⟩).map fun s => (s.mem, s.size)

/-- The checksum loops: exclusive or of a byte string. -/
def xorBytes (bs : List UInt8) : UInt8 := bs.foldl (· ^^^ ·) 0

/-- `externalProtocolAddCrcCode`. -/
def externalProtocolAddCrcCode (m : Mem) (buff size : Nat) : Mem × Nat :=
  (setByte m (buff + size) (xorBytes (bytesAt m buff size)), size + 1)

/-- The value of a byte held in a (signed) `char` when C promotes it to `int`. -/
def charToInt (b : UInt8) : Int := if b.toNat < 128 then b.toNat else b.toNat - 256

/-- `externalProtocolCheckCrc`: the sum of `size` bytes, kept in a `char`, against the byte behind
them. The result is nonzero when they agree. -/
def externalProtocolCheckCrc (m : Mem) (buff size : Nat) : Bool :=
  charToInt (xorBytes (bytesAt m buff size)) = (m (buff + size)).toNat

/-- The three calls that turn the `size` bytes at `buff+1` into a frame at `buff`, in the order of
every sender in `sig_service.c`. -/
def buildFrame (m : Mem) (buff size : Nat) : Option (Mem × Nat) := do
  let (m, size) := externalProtocolAddCrcCode m (buff + 1) size
  let (m, size) ← externalProtocolEncode m (buff + 1) size
  return externalProtocolAddHeader m buff size

end VideoDetector.Signal
