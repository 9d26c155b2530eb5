import VideoDetector.Signal.FrameCodec

/-!
# Frames on the wire

`wireFrame p` is the frame of body `p` as a byte string. `buildFrame_spec` says that the three
building calls leave exactly that string in the buffer; `decode_wireFrame` that the receiver's call
of `externalProtocolDecode` recovers the body and its checksum from it.
-/

namespace VideoDetector.Signal
set_option autoImplicit false
open Lib

/-- The body and its checksum byte. -/
def withCrc (p : List UInt8) : List UInt8 := p ++ [xorBytes p]

/-- The bytes sent for the body `p`. -/
def wireFrame (p : List UInt8) : List UInt8 := 0xC0 :: slip.escape (withCrc p) ++ [0xC0]

@[simp] theorem withCrc_length (p : List UInt8) : (withCrc p).length = p.length + 1 := by
  simp [withCrc]

theorem wireFrame_length (p : List UInt8) : (wireFrame p).length = (slip.escape (withCrc p)).length + 2 := by
  simp [wireFrame]

theorem wireFrame_length_le (p : List UInt8) : (wireFrame p).length ≤ 2 * p.length + 4 := by
  have short := slip.escape_length_le (withCrc p)
  rw [withCrc_length] at short
  rw [wireFrame_length]
  omega

theorem addCrc_window (m : Mem) (buff size : Nat) :
    bytesAt (externalProtocolAddCrcCode m buff size).1 buff (size + 1) = withCrc (bytesAt m buff size) := by
  simp only [externalProtocolAddCrcCode, withCrc]
  rw [bytesAt_snoc, setByte_same]
  congr 1
  apply bytesAt_congr
  intro k bound
  exact setByte_other (by omega)

/-- The delimiters around a body leave the body alone. -/
theorem addHeader_window (m : Mem) (buff size : Nat) :
    bytesAt (externalProtocolAddHeader m buff size).1 buff (size + 2) =
      0xC0 :: bytesAt m (buff + 1) size ++ [0xC0] := by
  simp only [externalProtocolAddHeader]
  rw [bytesAt_snoc, show buff + (size + 1) = buff + size + 1 by omega, setByte_same, bytesAt_succ,
    setByte_other (by omega), setByte_same]
  congr 2
  apply bytesAt_congr
  intro k bound
  rw [setByte_other (by omega), setByte_other (by omega)]

/-- **The three building calls leave the frame of the body at `buff+1`.** -/
theorem buildFrame_spec (m : Mem) (buff size : Nat) :
    ∃ m' len, buildFrame m buff size = some (m', len) ∧
      len = (wireFrame (bytesAt m (buff + 1) size)).length ∧
      bytesAt m' buff len = wireFrame (bytesAt m (buff + 1) size) := by
  obtain ⟨m', n, run, length, window, _⟩ :=
    externalProtocolEncode_spec (externalProtocolAddCrcCode m (buff + 1) size).1 (buff + 1) (size + 1)
  rw [addCrc_window] at length window
  have built : buildFrame m buff size = some ((externalProtocolAddHeader m' buff n).1, n + 2) := by
    simp only [buildFrame, externalProtocolAddCrcCode] at run ⊢
    rw [run]
    rfl
  refine ⟨_, n + 2, built, by rw [wireFrame_length, length], ?_⟩
  rw [addHeader_window, window, wireFrame]

/-- The receiver's view of a frame at `buff`: delimiters at both ends of `len` bytes. -/
theorem wireFrame_window {m : Mem} {buff len : Nat} {p : List UInt8} (length : len = (wireFrame p).length)
    (window : bytesAt m buff len = wireFrame p) :
    m buff = 0xC0 ∧ bytesAt m (buff + 1) (len - 2) = slip.escape (withCrc p) ∧ m (buff + 1 + (len - 2)) = 0xC0 := by
  rw [wireFrame_length] at length
  rw [show len = 1 + (len - 2) + 1 by omega, bytesAt_snoc, bytesAt_add, bytesAt_succ, bytesAt_zero] at window
  have parts := List.append_inj' window rfl
  have heads := List.cons.inj parts.1
  refine ⟨heads.1, heads.2, ?_⟩
  rw [show buff + 1 + (len - 2) = buff + (1 + (len - 2)) by omega]
  exact (List.cons.inj parts.2).1

/-- A delimiter behind a window is no code byte. -/
theorem noCode_of_delim {m : Mem} {buff size : Nat} (closing : m (buff + size) = 0xC0) : NoCode m buff size := by
  unfold NoCode
  rw [closing]
  decide

/-- The receiver's decoding of a frame is its body and the checksum. -/
theorem decodedBody_wireFrame {m : Mem} {buff len : Nat} {p : List UInt8} (length : len = (wireFrame p).length)
    (window : bytesAt m buff len = wireFrame p) : decodedBody m (buff + 1) (len - 2) = withCrc p := by
  obtain ⟨_, inner, _⟩ := wireFrame_window length window
  rw [decodedBody, inner, slip.unescape_escape]

/-- **Decoding a received frame in place** gives the body and its checksum. -/
theorem decode_wireFrame {m : Mem} {buff len : Nat} {p : List UInt8} (length : len = (wireFrame p).length)
    (window : bytesAt m buff len = wireFrame p) :
    externalProtocolDecode m (buff + 1) (len - 2) =
      some (decodedBuffer m (buff + 1) (len - 2), p.length + 1) := by
  obtain ⟨_, _, closing⟩ := wireFrame_window length window
  rw [externalProtocolDecode_spec _ _ _ (noCode_of_delim closing), decodedBody_wireFrame length window,
    withCrc_length]

/-- The receiver finds every byte of the body at its place in the decoded buffer. -/
theorem decodedBuffer_wireFrame {m : Mem} {buff len k : Nat} {p : List UInt8} (length : len = (wireFrame p).length)
    (window : bytesAt m buff len = wireFrame p) (bound : k < p.length) :
    p[k]? = some (decodedBuffer m (buff + 1) (len - 2) (buff + 1 + k)) := by
  have decoded := decodedBody_wireFrame length window
  have inside : k < (decodedBody m (buff + 1) (len - 2)).length := by
    rw [decoded, withCrc_length]
    omega
  have same : (decodedBody m (buff + 1) (len - 2))[k]? = p[k]? := by
    rw [decoded, withCrc, List.getElem?_append_left bound]
  rw [← same, decodedBuffer_body inside, List.getElem?_eq_getElem inside]

/-- No byte strictly inside a frame is a delimiter. -/
theorem wireFrame_inner {m : Mem} {buff len k : Nat} {p : List UInt8} (length : len = (wireFrame p).length)
    (window : bytesAt m buff len = wireFrame p) (low : 0 < k) (high : k < len - 1) : m (buff + k) ≠ 0xC0 := by
  obtain ⟨_, inner, _⟩ := wireFrame_window length window
  have byte := byte_of_bytesAt inner (k := k - 1) (by omega)
  rw [show buff + 1 + (k - 1) = buff + k by omega] at byte
  intro delim
  rw [delim] at byte
  exact slip.delim_not_mem_escape _ (List.mem_of_getElem? byte)

theorem wireFrame_size (p : List UInt8) :
    (wireFrame p).length = p.length + 3 + (withCrc p).countP fun b => b = 0xC0 || b = 0xDB := by
  rw [wireFrame_length, slip.escape_length, withCrc_length]
  have same : slip.special = fun b => b = 0xC0 || b = 0xDB := rfl
  rw [same]
  omega

/-- **Frame round trip.** Build a frame from the byte string `p` placed at `buff+1`: it starts and
ends with `0xC0`, has no `0xC0` in between, is longer than `p` by three bytes and one for each byte
that needs a code, and decoding it in place as the receiver does gives back `p` and its checksum. -/
theorem frame_round_trip (m : Mem) (buff : Nat) (p : List UInt8) :
    ∃ m' len m'', buildFrame (storeBytes m (buff + 1) p) buff p.length = some (m', len) ∧
      m' buff = 0xC0 ∧ m' (buff + (len - 1)) = 0xC0 ∧
      (∀ k, 0 < k → k < len - 1 → m' (buff + k) ≠ 0xC0) ∧
      len = p.length + 3 + ((p ++ [xorBytes p]).countP fun b => b = 0xC0 || b = 0xDB) ∧
      externalProtocolDecode m' (buff + 1) (len - 2) = some (m'', p.length + 1) ∧
      bytesAt m'' (buff + 1) (p.length + 1) = p ++ [xorBytes p] ∧
      m'' (buff + 1 + (p.length + 1)) = 0xC0 := by
  obtain ⟨m', len, built, length, window⟩ := buildFrame_spec (storeBytes m (buff + 1) p) buff p.length
  rw [bytesAt_storeBytes] at length window
  obtain ⟨opening, _, closing⟩ := wireFrame_window length window
  have decoded := decodedBody_wireFrame length window
  have count := congrArg List.length decoded
  rw [withCrc_length] at count
  have less := decodedBody_length_le m' (buff + 1) (len - 2)
  have size := wireFrame_size p
  refine ⟨m', len, _, built, opening, ?_, ?_, by rw [length, size]; rfl, decode_wireFrame length window, ?_, ?_⟩
  · rw [show buff + (len - 1) = buff + 1 + (len - 2) by omega]
    exact closing
  · intro k low high
    exact wireFrame_inner length window low high
  · rw [← count, bytesAt_decodedBuffer, decoded, withCrc]
  · rw [decodedBuffer_tail (by omega) (by omega), closing]

/-- A body with both special bytes, whose checksum is the escape byte itself. -/
example : (buildFrame (storeBytes (fun _ => 0) 1 [0xC0, 0xDB, 0xC0]) 0 3).map (fun r => bytesAt r.1 0 r.2) =
    some [0xC0, 0xDB, 0xDC, 0xDB, 0xDD, 0xDB, 0xDC, 0xDB, 0xDD, 0xC0] := by decide

/-! ## Any bytes -/

/-- **Decoding any byte string in place.** Whatever the bytes `w` are, if no code byte follows them the loop ends
and leaves the one-pass decoding of `w`. Encoding that again gives `w` back exactly if `w` has no delimiter and
each escape byte of it begins a code. -/
theorem decode_any_bytes (m : Mem) (buff : Nat) (w : List UInt8) (held : bytesAt m buff w.length = w)
    (free : NoCode m buff w.length) :
    ∃ m' n m'' k, externalProtocolDecode m buff w.length = some (m', n) ∧
      n = (slip.unescape w).length ∧ bytesAt m' buff n = slip.unescape w ∧
      externalProtocolEncode m' buff n = some (m'', k) ∧
      (bytesAt m'' buff k = w ↔
        0xC0 ∉ w ∧ ∀ i : Nat, w[i]? = some 0xDB → w[i + 1]? = some 0xDC ∨ w[i + 1]? = some 0xDD) := by
  have body : decodedBody m buff w.length = slip.unescape w := by rw [decodedBody, held]
  have decoded := externalProtocolDecode_spec m buff w.length free
  have window := bytesAt_decodedBuffer m buff w.length
  rw [body] at decoded window
  obtain ⟨m'', k, encoded, _, text, _⟩ :=
    externalProtocolEncode_spec (decodedBuffer m buff w.length) buff (slip.unescape w).length
  rw [window] at text
  refine ⟨_, _, m'', k, decoded, rfl, window, encoded, ?_⟩
  rw [text]
  exact slip.escape_unescape_iff w

/-- A lone escape byte in front of a code comes out of the decoding and is not found again by the encoding. -/
theorem decode_any_bytes_malformed :
    ∃ m' n m'' k, externalProtocolDecode (storeBytes (fun _ => 0) 4 [0xDB, 0xDB, 0xDC]) 4 3 = some (m', n) ∧
      n = 2 ∧ bytesAt m' 4 n = [0xDB, 0xC0] ∧ externalProtocolEncode m' 4 n = some (m'', k) ∧ bytesAt m'' 4 k ≠ [0xDB, 0xDB, 0xDC] := by
  obtain ⟨m', n, m'', k, decoded, length, window, encoded, back⟩ :=
    decode_any_bytes (storeBytes (fun _ => 0) 4 [0xDB, 0xDB, 0xDC]) 4 [0xDB, 0xDB, 0xDC] (by decide)
      (by unfold NoCode; decide)
  refine ⟨m', n, m'', k, decoded, length, window, encoded, ?_⟩
  rw [Ne, back]
  rintro ⟨_, coded⟩
  exact absurd (coded 0 rfl) (by decide)

end VideoDetector.Signal
