import VideoDetector.Signal.Frame

/-!
# The in-place frame codec refines the one-pass codec

Each scanning loop keeps the invariant that the bytes already scanned followed by the pass over the
bytes still ahead are the pass over the original body. The escape loop meets each byte it inserted
once more, and copies it; the unescape loop never pairs a byte it produced with its successor.
-/

namespace VideoDetector.Signal
set_option autoImplicit false
open Lib

/-- The stuffing code of the signal-machine protocol. -/
def slip : Stuffing UInt8 where
  delim := 0xC0
  esc := 0xDB
  escDelim := 0xDC
  escEsc := 0xDD
  delim_ne_esc := by decide
  escDelim_ne_delim := by decide
  escDelim_ne_esc := by decide
  escEsc_ne_delim := by decide
  escEsc_ne_esc := by decide
  escEsc_ne_escDelim := by decide

/-- The bytes a scanning loop still has ahead. -/
def Cursor.ahead (buff : Nat) (s : Cursor) : List UInt8 := bytesAt s.mem (buff + s.i) (s.size - s.i)

/-- The bytes a scanning loop has left behind. -/
def Cursor.done (buff : Nat) (s : Cursor) : List UInt8 := bytesAt s.mem buff s.i

theorem Cursor.ahead_cons {buff : Nat} {s : Cursor} (more : s.i < s.size) :
    s.ahead buff = s.mem (buff + s.i) :: bytesAt s.mem (buff + s.i + 1) (s.size - (s.i + 1)) := by
  unfold Cursor.ahead
  rw [show s.size - s.i = s.size - (s.i + 1) + 1 by omega, bytesAt_succ]

theorem Cursor.done_next {buff : Nat} {s : Cursor} :
    ({ s with i := s.i + 1 } : Cursor).done buff = s.done buff ++ [s.mem (buff + s.i)] :=
  bytesAt_snoc s.mem buff s.i

/-! ## Encoding -/

theorem escapeAt_apply (buff : Nat) (second : UInt8) (s : Cursor) (more : s.i < s.size) (k : Nat) :
    (escapeAt buff second s).mem k =
      if k = buff + s.i then 0xDB
      else if k = buff + s.i + 1 then second
      else if buff + s.i + 1 < k ∧ k ≤ buff + s.size then s.mem (k - 1)
      else s.mem k := by
  simp only [escapeAt]
  by_cases next : k = buff + s.i + 1
  · subst next
    rw [setByte_same, if_neg (by omega), if_pos rfl]
  · rw [setByte_other next, shiftUp_apply, if_neg next]
    by_cases here : k = buff + s.i
    · subst here
      rw [if_neg (by omega), setByte_same, if_pos rfl]
    · rw [if_neg here]
      by_cases moved : buff + s.i + 1 < k ∧ k ≤ buff + s.size
      · rw [if_pos moved, if_pos (by omega), setByte_other (by omega)]
      · rw [if_neg moved, if_neg (by omega), setByte_other here]

theorem escapeAt_done {buff : Nat} {second : UInt8} {s : Cursor} (more : s.i < s.size) :
    (escapeAt buff second s).done buff = s.done buff ++ [0xDB] := by
  show bytesAt _ buff (s.i + 1) = _
  rw [bytesAt_snoc, escapeAt_apply buff second s more, if_pos rfl]
  congr 1
  apply bytesAt_congr
  intro k bound
  rw [escapeAt_apply buff second s more, if_neg (by omega), if_neg (by omega), if_neg (by omega)]

theorem escapeAt_ahead {buff : Nat} {second : UInt8} {s : Cursor} (more : s.i < s.size) :
    (escapeAt buff second s).ahead buff = second :: bytesAt s.mem (buff + s.i + 1) (s.size - (s.i + 1)) := by
  rw [Cursor.ahead_cons (show s.i + 1 < s.size + 1 by omega)]
  congr 1
  · show (escapeAt buff second s).mem (buff + (s.i + 1)) = second
    rw [escapeAt_apply buff second s more, if_neg (by omega), if_pos (by omega)]
  · show bytesAt (escapeAt buff second s).mem (buff + (s.i + 1) + 1) (s.size + 1 - (s.i + 1 + 1)) = _
    rw [show s.size + 1 - (s.i + 1 + 1) = s.size - (s.i + 1) by omega]
    apply bytesAt_congr
    intro k bound
    rw [escapeAt_apply buff second s more, if_neg (by omega), if_neg (by omega), if_pos (by omega)]
    congr 1
    omega

/-- Invariant of the escape loop started on memory `m` with body `p`. -/
structure Encoding (m : Mem) (buff : Nat) (p : List UInt8) (s : Cursor) : Prop where
  inside : s.i ≤ s.size
  body : s.done buff ++ slip.escape (s.ahead buff) = slip.escape p
  frame : ∀ a, a < buff ∨ buff + s.size ≤ a → s.mem a = m a

/-- A branch of the loop that inserts a code: the invariant stays, and one code byte is left behind. -/
theorem Encoding.escaped {m : Mem} {buff : Nat} {p : List UInt8} {s : Cursor} {second : UInt8}
    (inv : Encoding m buff p s) (more : s.i < s.size)
    (plain : ∀ rest, slip.escape (second :: rest) = second :: slip.escape rest)
    (byte : ∀ rest, slip.escape (s.mem (buff + s.i) :: rest) = 0xDB :: second :: slip.escape rest) :
    Encoding m buff p (escapeAt buff second s) ∧
      (slip.escape ((escapeAt buff second s).ahead buff)).length < (slip.escape (s.ahead buff)).length := by
  refine ⟨⟨?_, ?_, ?_⟩, ?_⟩
  · show s.i + 1 ≤ s.size + 1
    omega
  · rw [escapeAt_done more, escapeAt_ahead more, ← inv.body, Cursor.ahead_cons more, plain, byte]
    simp
  · intro a outside
    have outside : a < buff ∨ buff + (s.size + 1) ≤ a := outside
    rw [escapeAt_apply buff second s more, if_neg (by omega), if_neg (by omega), if_neg (by omega)]
    exact inv.frame a (by omega)
  · rw [escapeAt_ahead more, Cursor.ahead_cons more, plain, byte]
    simp

/-- One iteration keeps the invariant and shortens the code still to be produced. -/
theorem Encoding.step {m : Mem} {buff : Nat} {p : List UInt8} {s next : Cursor}
    (inv : Encoding m buff p s) (taken : encodeStep buff s = some next) :
    Encoding m buff p next ∧
      (slip.escape (next.ahead buff)).length < (slip.escape (s.ahead buff)).length := by
  unfold encodeStep at taken
  split at taken
  case isFalse => cases taken
  case isTrue more =>
  split at taken
  case isTrue delim =>
    cases taken
    apply inv.escaped more
    · intro rest
      exact slip.escape_plain rest (by decide) (by decide)
    · intro rest
      rw [delim]
      exact slip.escape_delim rest
  case isFalse notDelim =>
  split at taken
  case isTrue esc =>
    cases taken
    apply inv.escaped more
    · intro rest
      exact slip.escape_plain rest (by decide) (by decide)
    · intro rest
      rw [esc]
      exact slip.escape_esc rest
  case isFalse notEsc =>
    cases taken
    have plain := slip.escape_plain (bytesAt s.mem (buff + s.i + 1) (s.size - (s.i + 1))) notDelim notEsc
    refine ⟨⟨more, ?_, inv.frame⟩, ?_⟩
    · rw [Cursor.done_next, ← inv.body, Cursor.ahead_cons more, plain]
      simp [Cursor.ahead, Nat.add_assoc]
    · rw [Cursor.ahead_cons more, plain]
      simp [Cursor.ahead, Nat.add_assoc]

/-- **`externalProtocolEncode` terminates and leaves the escaped body.** -/
theorem externalProtocolEncode_spec (m : Mem) (buff size : Nat) :
    ∃ m' n, externalProtocolEncode m buff size = some (m', n) ∧
      n = (slip.escape (bytesAt m buff size)).length ∧
      bytesAt m' buff n = slip.escape (bytesAt m buff size) ∧
      ∀ a, a < buff ∨ buff + n ≤ a → m' a = m a := by
  have start : Encoding m buff (bytesAt m buff size) ⟨m, 0, size⟩ :=
    ⟨Nat.zero_le _, by simp [Cursor.done, Cursor.ahead], fun _ _ => rfl⟩
  have budget : (slip.escape ((⟨m, 0, size⟩ : Cursor).ahead buff)).length < 2 * size + 1 := by
    have short := slip.escape_length_le ((⟨m, 0, size⟩ : Cursor).ahead buff)
    rw [Cursor.ahead, bytesAt_length, Nat.sub_zero] at short
    exact Nat.lt_succ_of_le short
  obtain ⟨final, run, inv, stop⟩ := iterate_total (encodeStep buff) _
    (fun s => (slip.escape (s.ahead buff)).length) (fun _ _ inv taken => inv.step taken) _ start budget
  have ended : final.i = final.size := by
    have inside := inv.inside
    unfold encodeStep at stop
    split at stop
    · split at stop
      · cases stop
      · split at stop <;> cases stop
    · omega
  have body := inv.body
  rw [show final.ahead buff = [] by simp [Cursor.ahead, ended], slip.escape_nil, List.append_nil] at body
  have window : bytesAt final.mem buff final.size = slip.escape (bytesAt m buff size) := by
    rw [← ended]
    exact body
  refine ⟨final.mem, final.size, by simp [externalProtocolEncode, run], ?_, window, inv.frame⟩
  rw [← window, bytesAt_length]

/-! ## Decoding -/

theorem unescapeAt_apply (buff : Nat) (decoded : UInt8) (s : Cursor) (more : s.i < s.size) (k : Nat) :
    (unescapeAt buff decoded s).mem k =
      if k = buff + s.i then decoded
      else if buff + s.i < k ∧ k < buff + s.size then s.mem (k + 1)
      else s.mem k := by
  simp only [unescapeAt]
  rw [shiftDown_apply]
  by_cases here : k = buff + s.i
  · subst here
    rw [if_neg (by omega), setByte_same, if_pos rfl]
  · rw [if_neg here]
    by_cases moved : buff + s.i < k ∧ k < buff + s.size
    · rw [if_pos moved, if_pos (by omega), setByte_other (by omega)]
    · rw [if_neg moved, if_neg (by omega), setByte_other here]

theorem unescapeAt_done {buff : Nat} {decoded : UInt8} {s : Cursor} (more : s.i < s.size) :
    (unescapeAt buff decoded s).done buff = s.done buff ++ [decoded] := by
  show bytesAt _ buff (s.i + 1) = _
  rw [bytesAt_snoc, unescapeAt_apply buff decoded s more, if_pos rfl]
  congr 1
  apply bytesAt_congr
  intro k bound
  rw [unescapeAt_apply buff decoded s more, if_neg (by omega), if_neg (by omega)]

theorem unescapeAt_ahead {buff : Nat} {decoded : UInt8} {s : Cursor} (more : s.i + 1 < s.size) :
    (unescapeAt buff decoded s).ahead buff = bytesAt s.mem (buff + s.i + 2) (s.size - (s.i + 2)) := by
  show bytesAt _ (buff + (s.i + 1)) (s.size - 1 - (s.i + 1)) = _
  rw [show s.size - 1 - (s.i + 1) = s.size - (s.i + 2) by omega]
  apply bytesAt_congr
  intro k bound
  rw [unescapeAt_apply buff decoded s (by omega), if_neg (by omega), if_pos (by omega)]
  congr 1
  omega

/-- Invariant of the unescape loop started on memory `m` with body `w` of `size` bytes. Every
iteration that closes a gap leaves one more copy of the byte `tail` behind the window. -/
structure Decoding (m : Mem) (buff size : Nat) (w : List UInt8) (s : Cursor) : Prop where
  inside : s.i ≤ s.size
  shrinks : s.size ≤ size
  body : s.done buff ++ slip.unescape (s.ahead buff) = slip.unescape w
  tail : ∀ a, buff + s.size ≤ a → a ≤ buff + size → s.mem a = m (buff + size)
  frame : ∀ a, a < buff ∨ buff + size ≤ a → s.mem a = m a

/-- The byte just past the window is neither of the second code bytes. -/
def NoCode (m : Mem) (buff size : Nat) : Prop := m (buff + size) ≠ 0xDC ∧ m (buff + size) ≠ 0xDD

/-- A code byte behind a `0xDB` lies inside the window. -/
theorem Decoding.code_inside {m : Mem} {buff size : Nat} {w : List UInt8} {s : Cursor}
    (inv : Decoding m buff size w s) (free : NoCode m buff size) (more : s.i < s.size)
    (code : s.mem (buff + s.i + 1) = 0xDC ∨ s.mem (buff + s.i + 1) = 0xDD) : s.i + 1 < s.size := by
  by_contra last
  have past := inv.tail (buff + s.i + 1) (by omega) (by have := inv.shrinks; omega)
  rw [past] at code
  exact code.elim free.1 free.2

theorem Decoding.unescaped {m : Mem} {buff size : Nat} {w : List UInt8} {s : Cursor} {decoded second : UInt8}
    (inv : Decoding m buff size w s) (more : s.i + 1 < s.size) (esc : s.mem (buff + s.i) = 0xDB)
    (code : s.mem (buff + s.i + 1) = second)
    (pair : ∀ rest, slip.unescape (0xDB :: second :: rest) = decoded :: slip.unescape rest) :
    Decoding m buff size w (unescapeAt buff decoded s) := by
  have shrinks := inv.shrinks
  constructor
  · show s.i + 1 ≤ s.size - 1
    omega
  · show s.size - 1 ≤ size
    omega
  · rw [unescapeAt_done (by omega), unescapeAt_ahead more, ← inv.body, Cursor.ahead_cons (by omega), esc,
      show s.size - (s.i + 1) = s.size - (s.i + 2) + 1 by omega, bytesAt_succ, code, pair]
    simp
  · intro a low high
    have low : buff + (s.size - 1) ≤ a := low
    rw [unescapeAt_apply buff decoded s (by omega), if_neg (by omega)]
    split
    · exact inv.tail _ (by omega) (by omega)
    · exact inv.tail _ (by omega) high
  · intro a outside
    rw [unescapeAt_apply buff decoded s (by omega), if_neg (by omega), if_neg (by omega)]
    exact inv.frame a outside

/-- One iteration keeps the invariant and leaves fewer bytes ahead. -/
theorem Decoding.step {m : Mem} {buff size : Nat} {w : List UInt8} {s next : Cursor}
    (inv : Decoding m buff size w s) (free : NoCode m buff size) (taken : decodeStep buff s = some next) :
    Decoding m buff size w next ∧ next.size - next.i < s.size - s.i := by
  unfold decodeStep at taken
  split at taken
  case isFalse => cases taken
  case isTrue more =>
  split at taken
  case isTrue pair =>
    cases taken
    have inside := inv.code_inside free more (Or.inl pair.2)
    refine ⟨inv.unescaped inside pair.1 pair.2 slip.unescape_escDelim, ?_⟩
    show s.size - 1 - (s.i + 1) < s.size - s.i
    omega
  case isFalse notDelim =>
  split at taken
  case isTrue pair =>
    cases taken
    have inside := inv.code_inside free more (Or.inr pair.2)
    refine ⟨inv.unescaped inside pair.1 pair.2 slip.unescape_escEsc, ?_⟩
    show s.size - 1 - (s.i + 1) < s.size - s.i
    omega
  case isFalse notEsc =>
    cases taken
    refine ⟨⟨more, inv.shrinks, ?_, inv.tail, inv.frame⟩, by dsimp only; omega⟩
    rw [Cursor.done_next, ← inv.body, Cursor.ahead_cons more, slip.unescape_plain]
    · simp [Cursor.ahead, Nat.add_assoc]
    · intro esc
      constructor
      · intro head
        exact notDelim ⟨esc, first_of_bytesAt head⟩
      · intro head
        exact notEsc ⟨esc, first_of_bytesAt head⟩
where
  first_of_bytesAt {m : Mem} {a n : Nat} {b : UInt8} (head : (bytesAt m a n).head? = some b) : m a = b := by
    cases n with
    | zero => cases head
    | succ n => simpa [bytesAt_succ] using head

/-! ## The decoded buffer -/

/-- The one-pass decoding of the `size` bytes at `buff`. -/
def decodedBody (m : Mem) (buff size : Nat) : List UInt8 := slip.unescape (bytesAt m buff size)

/-- The buffer a decoded window leaves: the decoding, and copies of the byte that followed the
window up to its old end. -/
def decodedBuffer (m : Mem) (buff size : Nat) : Mem :=
  storeBytes m buff
    (decodedBody m buff size ++ List.replicate (size - (decodedBody m buff size).length) (m (buff + size)))

theorem decodedBody_length_le (m : Mem) (buff size : Nat) : (decodedBody m buff size).length ≤ size := by
  have less := slip.unescape_length_le (bytesAt m buff size)
  rwa [bytesAt_length] at less

/-- A byte of the decoding. -/
theorem decodedBuffer_body {m : Mem} {buff size k : Nat} (bound : k < (decodedBody m buff size).length) :
    decodedBuffer m buff size (buff + k) = (decodedBody m buff size)[k] := by
  unfold decodedBuffer
  rw [storeBytes_inside (by simp; omega), List.getElem_append_left]

/-- A byte behind the decoding. -/
theorem decodedBuffer_tail {m : Mem} {buff size k : Nat} (behind : (decodedBody m buff size).length ≤ k)
    (high : k ≤ size) : decodedBuffer m buff size (buff + k) = m (buff + size) := by
  have less := decodedBody_length_le m buff size
  unfold decodedBuffer
  by_cases last : k = size
  · rw [storeBytes_outside (by simp; omega), last]
  · rw [storeBytes_inside (by simp; omega), List.getElem_append_right behind, List.getElem_replicate]

/-- A byte off the window. -/
theorem decodedBuffer_outside {m : Mem} {buff size a : Nat} (outside : a < buff ∨ buff + size ≤ a) :
    decodedBuffer m buff size a = m a := by
  have less := decodedBody_length_le m buff size
  exact storeBytes_outside (by simp; omega)

theorem bytesAt_decodedBuffer (m : Mem) (buff size : Nat) :
    bytesAt (decodedBuffer m buff size) buff (decodedBody m buff size).length = decodedBody m buff size :=
  bytesAt_eq fun _ bound => decodedBuffer_body bound

/-- **`externalProtocolDecode` terminates and leaves the one-pass decoding**, with the byte that
followed the window just behind the result. -/
theorem externalProtocolDecode_spec (m : Mem) (buff size : Nat) (free : NoCode m buff size) :
    externalProtocolDecode m buff size =
      some (decodedBuffer m buff size, (decodedBody m buff size).length) := by
  have start : Decoding m buff size (bytesAt m buff size) ⟨m, 0, size⟩ := by
    refine ⟨Nat.zero_le _, Nat.le_refl _, by simp [Cursor.done, Cursor.ahead], ?_, fun _ _ => rfl⟩
    intro a low high
    rw [show a = buff + size from Nat.le_antisymm high low]
  obtain ⟨final, run, inv, stop⟩ := iterate_total (decodeStep buff) _ (fun s => s.size - s.i)
    (fun _ _ inv taken => inv.step free taken) (size + 1) start (by dsimp only; omega)
  have ended : final.i = final.size := by
    have inside := inv.inside
    unfold decodeStep at stop
    split at stop
    · split at stop
      · cases stop
      · split at stop <;> cases stop
    · omega
  have body := inv.body
  rw [show final.ahead buff = [] by simp [Cursor.ahead, ended], slip.unescape_nil, List.append_nil] at body
  have window : bytesAt final.mem buff final.size = decodedBody m buff size := by
    rw [← ended]
    exact body
  have length : final.size = (decodedBody m buff size).length := by rw [← window, bytesAt_length]
  have memory : final.mem = decodedBuffer m buff size := by
    funext a
    by_cases outside : a < buff ∨ buff + size ≤ a
    · rw [inv.frame a outside, decodedBuffer_outside outside]
    · obtain ⟨k, rfl⟩ := Nat.exists_eq_add_of_le (show buff ≤ a by omega)
      by_cases decoded : k < (decodedBody m buff size).length
      · have byte := byte_of_bytesAt window (length ▸ decoded)
        rw [List.getElem?_eq_getElem decoded] at byte
        rw [decodedBuffer_body decoded]
        exact (Option.some.inj byte).symm
      · rw [inv.tail _ (by omega) (by omega), decodedBuffer_tail (by omega) (by omega)]
  rw [externalProtocolDecode, run, ← memory, ← length]
  rfl

end VideoDetector.Signal
