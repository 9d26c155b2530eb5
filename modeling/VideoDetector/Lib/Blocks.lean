import Mathlib.Data.List.Basic
import Mathlib.Tactic.Common

/-!
# Records in a byte file

`overlay` writes bytes over a file at a position and `readAt` reads some back. Inside the file a
write is seen by exactly the reads that overlap it, which is all a file of records needs.
-/

namespace VideoDetector.Lib
set_option autoImplicit false

/-- Write `bs` at `pos`; a gap behind the old end is filled with zeros. -/
def overlay (f : List UInt8) (pos : Nat) (bs : List UInt8) : List UInt8 :=
  (f ++ List.replicate (pos - f.length) 0).take pos ++ bs ++ f.drop (pos + bs.length)

/-- Read at most `n` bytes from `pos` on. -/
def readAt (f : List UInt8) (pos n : Nat) : List UInt8 := (f.drop pos).take n

theorem readAt_getElem? (f : List UInt8) {pos n k : Nat} (bound : k < n) : (readAt f pos n)[k]? = f[pos + k]? := by
  rw [readAt, List.getElem?_take_of_lt bound, List.getElem?_drop]

theorem readAt_length {f : List UInt8} {pos n : Nat} (fits : pos + n ≤ f.length) : (readAt f pos n).length = n := by
  rw [readAt, List.length_take, List.length_drop]
  omega

/-- A write changes no byte behind its last, also where it makes the file longer. -/
theorem overlay_behind (f bs : List UInt8) {pos k : Nat} (behind : pos + bs.length ≤ k) :
    (overlay f pos bs)[k]? = f[k]? := by
  have length : ((f ++ List.replicate (pos - f.length) 0).take pos).length = pos := by
    rw [List.length_take, List.length_append, List.length_replicate]
    omega
  rw [overlay, List.getElem?_append_right (by rw [List.length_append, length]; exact behind), List.getElem?_drop,
    List.length_append, length]
  congr 1
  omega

section
variable {f bs : List UInt8} {pos : Nat} (fits : pos + bs.length ≤ f.length)
include fits

theorem overlay_inside : overlay f pos bs = f.take pos ++ bs ++ f.drop (pos + bs.length) := by
  rw [overlay, Nat.sub_eq_zero_of_le (by omega), List.replicate_zero, List.append_nil]

theorem overlay_length : (overlay f pos bs).length = f.length := by
  rw [overlay_inside fits]
  simp
  omega

theorem overlay_getElem? (k : Nat) :
    (overlay f pos bs)[k]? = if pos ≤ k ∧ k < pos + bs.length then bs[k - pos]? else f[k]? := by
  have length : (f.take pos).length = pos := by
    rw [List.length_take]
    omega
  rw [overlay_inside fits, List.append_assoc]
  by_cases before : k < pos
  · rw [if_neg (by omega), List.getElem?_append_left (by omega), List.getElem?_take_of_lt before]
  · rw [List.getElem?_append_right (by omega), length]
    by_cases inside : k < pos + bs.length
    · rw [if_pos (by omega), List.getElem?_append_left (by omega)]
    · rw [if_neg (by omega), List.getElem?_append_right (by omega), List.getElem?_drop]
      congr 1
      omega

/-- A read of what was written. -/
theorem readAt_overlay_same : readAt (overlay f pos bs) pos bs.length = bs := by
  apply List.ext_getElem?
  intro k
  by_cases inside : k < bs.length
  · rw [readAt_getElem? _ inside, overlay_getElem? fits, if_pos (by omega), Nat.add_sub_cancel_left]
  · rw [List.getElem?_eq_none (by rw [readAt_length (by rw [overlay_length fits]; omega)]; omega),
      List.getElem?_eq_none (by omega)]

/-- A read beside what was written. -/
theorem readAt_overlay_apart {pos' n : Nat} (apart : pos' + n ≤ pos ∨ pos + bs.length ≤ pos') :
    readAt (overlay f pos bs) pos' n = readAt f pos' n := by
  apply List.ext_getElem?
  intro k
  by_cases inside : k < n
  · rw [readAt_getElem? _ inside, readAt_getElem? _ inside, overlay_getElem? fits, if_neg (by omega)]
  · rw [List.getElem?_eq_none (by rw [readAt, List.length_take]; omega),
      List.getElem?_eq_none (by rw [readAt, List.length_take]; omega)]

end

end VideoDetector.Lib
