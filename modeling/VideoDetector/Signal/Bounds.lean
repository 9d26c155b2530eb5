import VideoDetector.Lib.Bounded
import VideoDetector.Signal.RoundTrip

/-!
# Frames in a buffer with an end

The three building calls of `sig_service.c` write into a buffer on the stack. Here every write of theirs is checked;
`buildFrameIn_ok` says that none is outside if the finished frame fits.
-/

namespace VideoDetector.Signal
set_option autoImplicit false
open Lib

/-- A write behind the buffer, or an entry that `Eachchannel` does not have. -/
inductive ReportFault where
  | write (address : Nat)
  | channel (index : Nat)
  deriving DecidableEq, Repr

section
variable (room : Nat)

/-- `externalProtocolAddHeader`. -/
def externalProtocolAddHeaderIn (m : Mem) (buff size : Nat) : Except ReportFault (Mem × Nat) := do
  let m ← putByte .write room m buff 0xC0
  let m ← putByte .write room m (buff + size + 1) 0xC0
  return (m, size + 2)

/-- `externalProtocolAddCrcCode`. -/
def externalProtocolAddCrcCodeIn (m : Mem) (buff size : Nat) : Except ReportFault (Mem × Nat) := do
  let m ← putByte .write room m (buff + size) (xorBytes (bytesAt m buff size))
  return (m, size + 1)

/-- The body of a branch of `externalProtocolEncode`. -/
def escapeAtIn (buff : Nat) (second : UInt8) (s : Cursor) : Except ReportFault Cursor := do
  let m ← putByte .write room s.mem (buff + s.i) 0xDB
  let size := s.size + 1
  let m ← shiftUpIn .write room m (buff + s.i + 1) (size - 1 - (s.i + 1))
  let m ← putByte .write room m (buff + s.i + 1) second
  return ⟨m, s.i + 1, size⟩

/-- One test and iteration of the loop of `externalProtocolEncode`. -/
def encodeStepIn (buff : Nat) (s : Cursor) : Except ReportFault (Option Cursor) :=
  if s.i < s.size then
    if s.mem (buff + s.i) = 0xC0 then some <$> escapeAtIn room buff 0xDC s
    else if s.mem (buff + s.i) = 0xDB then some <$> escapeAtIn room buff 0xDD s
    else .ok (some { s with i := s.i + 1 })
  else .ok none

/-- `externalProtocolEncode`. -/
def externalProtocolEncodeIn (m : Mem) (buff size : Nat) : Except ReportFault (Option (Mem × Nat)) := do
  let final ← iterateM (encodeStepIn room buff) (2 * size + 1) ⟨m, 0, size⟩
  return final.map fun s => (s.mem, s.size)

/-- The three building calls. -/
def buildFrameIn (m : Mem) (buff size : Nat) : Except ReportFault (Option (Mem × Nat)) := do
  let (m, size) ← externalProtocolAddCrcCodeIn room m (buff + 1) size
  match ← externalProtocolEncodeIn room m (buff + 1) size with
  | some (m, size) => some <$> externalProtocolAddHeaderIn room m buff size
  | none => return none

variable {room}

theorem escapeAtIn_ok {buff : Nat} {second : UInt8} {s : Cursor} (more : s.i < s.size) (inside : buff + s.size < room) :
    escapeAtIn room buff second s = .ok (escapeAt buff second s) := by
  rw [escapeAtIn, putByte_ok _ (by omega), ok_bind]
  dsimp only
  rw [shiftUpIn_ok _ (by omega), ok_bind, putByte_ok _ (by omega)]
  rfl

/-- While the loop runs, the text has not grown beyond the escaped body. -/
theorem Encoding.size_le {m : Mem} {buff : Nat} {p : List UInt8} {s : Cursor} (inv : Encoding m buff p s) :
    s.size ≤ (slip.escape p).length := by
  have inside := inv.inside
  have body := congrArg List.length inv.body
  rw [List.length_append, slip.escape_length] at body
  simp only [Cursor.done, Cursor.ahead, bytesAt_length] at body
  omega

/-- A step that inserts a code stays inside if the escaped body does. -/
theorem encodeStepIn_ok {m : Mem} {buff : Nat} {p : List UInt8} (fits : buff + (slip.escape p).length ≤ room) {s : Cursor}
    (inv : Encoding m buff p s) : encodeStepIn room buff s = .ok (encodeStep buff s) := by
  have escaped {second : UInt8} (more : s.i < s.size) (taken : encodeStep buff s = some (escapeAt buff second s)) :
      escapeAtIn room buff second s = .ok (escapeAt buff second s) := by
    have grown : s.size + 1 ≤ (slip.escape p).length := (inv.step taken).1.size_le
    exact escapeAtIn_ok more (by omega)
  unfold encodeStepIn
  by_cases more : s.i < s.size
  · rw [if_pos more]
    by_cases delim : s.mem (buff + s.i) = 0xC0
    · have taken : encodeStep buff s = some (escapeAt buff 0xDC s) := by rw [encodeStep, if_pos more, if_pos delim]
      rw [if_pos delim, escaped more taken, taken]
      rfl
    · rw [if_neg delim]
      by_cases esc : s.mem (buff + s.i) = 0xDB
      · have taken : encodeStep buff s = some (escapeAt buff 0xDD s) := by
          rw [encodeStep, if_pos more, if_neg delim, if_pos esc]
        rw [if_pos esc, escaped more taken, taken]
        rfl
      · rw [if_neg esc, encodeStep, if_pos more, if_neg delim, if_neg esc]
  · rw [if_neg more, encodeStep, if_neg more]

theorem externalProtocolEncodeIn_ok {m : Mem} {buff size : Nat}
    (fits : buff + (slip.escape (bytesAt m buff size)).length ≤ room) :
    externalProtocolEncodeIn room m buff size = .ok (externalProtocolEncode m buff size) := by
  have start : Encoding m buff (bytesAt m buff size) ⟨m, 0, size⟩ :=
    ⟨Nat.zero_le _, by simp [Cursor.done, Cursor.ahead], fun _ _ => rfl⟩
  have run := iterateM_ok (Encoding m buff (bytesAt m buff size)) (fun s inv => encodeStepIn_ok fits inv)
    (fun s next inv taken => (inv.step taken).1) (2 * size + 1) start
  rw [externalProtocolEncodeIn, run]
  rfl

theorem externalProtocolAddCrcCodeIn_ok {m : Mem} {buff size : Nat} (inside : buff + size < room) :
    externalProtocolAddCrcCodeIn room m buff size = .ok (externalProtocolAddCrcCode m buff size) := by
  rw [externalProtocolAddCrcCodeIn, putByte_ok _ inside]
  rfl

theorem externalProtocolAddHeaderIn_ok {m : Mem} {buff size : Nat} (inside : buff + size + 1 < room) :
    externalProtocolAddHeaderIn room m buff size = .ok (externalProtocolAddHeader m buff size) := by
  rw [externalProtocolAddHeaderIn, putByte_ok _ (by omega), ok_bind, putByte_ok _ inside]
  rfl

/-- **No write of the building calls is outside** if the frame fits. -/
theorem buildFrameIn_ok {m : Mem} {size : Nat} (fits : (wireFrame (bytesAt m 1 size)).length ≤ room) :
    buildFrameIn room m 0 size = .ok (buildFrame m 0 size) := by
  have window := addCrc_window m 1 size
  have longer := slip.escape_length (withCrc (bytesAt m 1 size))
  rw [withCrc_length, bytesAt_length] at longer
  rw [wireFrame_length] at fits
  obtain ⟨m', n, run, length, _, _⟩ :=
    externalProtocolEncode_spec (externalProtocolAddCrcCode m 1 size).1 1 (size + 1)
  rw [window] at length
  have encoded : externalProtocolEncodeIn room (externalProtocolAddCrcCode m 1 size).1 1 (size + 1) = .ok (some (m', n)) := by
    rw [externalProtocolEncodeIn_ok (by rw [window]; omega), run]
  rw [buildFrameIn, externalProtocolAddCrcCodeIn_ok (by omega), ok_bind]
  show (do let final ← externalProtocolEncodeIn room (externalProtocolAddCrcCode m 1 size).1 1 (size + 1); _) = _
  rw [encoded, ok_bind]
  dsimp only
  have built : buildFrame m 0 size = some (externalProtocolAddHeader m' 0 n) := by
    simp only [buildFrame, externalProtocolAddCrcCode] at run ⊢
    rw [run]
    rfl
  rw [externalProtocolAddHeaderIn_ok (by omega), built]
  rfl

theorem buildFrameIn_spec {m : Mem} {size : Nat} (fits : (wireFrame (bytesAt m 1 size)).length ≤ room) :
    ∃ m' len, buildFrameIn room m 0 size = .ok (some (m', len)) ∧ len = (wireFrame (bytesAt m 1 size)).length ∧
      bytesAt m' 0 len = wireFrame (bytesAt m 1 size) := by
  obtain ⟨m', len, built, length, window⟩ := buildFrame_spec m 0 size
  exact ⟨m', len, by rw [buildFrameIn_ok fits, built], length, window⟩

end

end VideoDetector.Signal
