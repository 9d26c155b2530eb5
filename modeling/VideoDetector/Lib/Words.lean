import VideoDetector.Lib.Memory

/-!
# Little-endian words

Values of unsigned C integers are natural numbers. `leVal` and `leBytes` are the little-endian
bytes of a value, `loadWord` and `storeWord` the accesses of a little-endian host, and `swapBytes`
the byte reversal that `htons`, `ntohs`, `htonl` and `ntohl` perform there. `uint16`, `int16`,
`uint32` and `int32` are the conversions to integers of a fixed width.
-/

namespace VideoDetector.Lib
set_option autoImplicit false

/-- The value of little-endian bytes. -/
def leVal : List UInt8 → Nat
  | [] => 0
  | b :: bs => b.toNat + 256 * leVal bs

/-- The `w` little-endian bytes of a value. -/
def leBytes : Nat → Nat → List UInt8
  | 0, _ => []
  | w + 1, v => UInt8.ofNat (v % 256) :: leBytes w (v / 256)

/-- Load an unsigned `w`-byte integer. -/
def loadWord (m : Mem) (a w : Nat) : Nat := leVal (bytesAt m a w)

/-- Store an unsigned `w`-byte integer. -/
def storeWord (m : Mem) (a w v : Nat) : Mem := storeBytes m a (leBytes w v)

/-- Reverse the `w` bytes of a value. -/
def swapBytes (w v : Nat) : Nat := leVal (leBytes w v).reverse

/-- Reverse the `w` bytes at `a` in place. -/
def reverseAt (m : Mem) (a w : Nat) : Mem :=
  fun k => if a ≤ k ∧ k < a + w then m (a + (w - 1 - (k - a))) else m k

@[simp] theorem leBytes_length (w v : Nat) : (leBytes w v).length = w := by
  induction w generalizing v with
  | zero => rfl
  | succ w ih => simp [leBytes, ih]

/-- Bytes are determined by their value. -/
theorem leBytes_leVal (bs : List UInt8) : leBytes bs.length (leVal bs) = bs := by
  induction bs with
  | nil => rfl
  | cons b bs ih =>
    have small := b.toNat_lt
    simp only [leVal, leBytes, List.length_cons]
    rw [show (b.toNat + 256 * leVal bs) % 256 = b.toNat by omega,
      show (b.toNat + 256 * leVal bs) / 256 = leVal bs by omega, ih, UInt8.ofNat_toNat]

/-- A value that fits is determined by its bytes. -/
theorem leVal_leBytes {w v : Nat} (fits : v < 256 ^ w) : leVal (leBytes w v) = v := by
  induction w generalizing v with
  | zero =>
    rw [Nat.pow_zero] at fits
    exact (Nat.lt_one_iff.mp fits).symm
  | succ w ih =>
    rw [leBytes, leVal, ih (Nat.div_lt_of_lt_mul (by rwa [Nat.pow_succ'] at fits)), UInt8.toNat_ofNat']
    omega

theorem loadWord_storeWord {w v : Nat} (m : Mem) (a : Nat) (fits : v < 256 ^ w) :
    loadWord (storeWord m a w v) a w = v := by
  have window := bytesAt_storeBytes m a (leBytes w v)
  rw [leBytes_length] at window
  rw [loadWord, storeWord, window, leVal_leBytes fits]

/-- Loading, reversing and storing a word reverses its bytes in memory. -/
theorem store_swap_load (m : Mem) (a w : Nat) :
    storeWord m a w (swapBytes w (loadWord m a w)) = reverseAt m a w := by
  have bytes : leBytes w (loadWord m a w) = bytesAt m a w := by
    have back := leBytes_leVal (bytesAt m a w)
    rwa [bytesAt_length] at back
  have back := leBytes_leVal (bytesAt m a w).reverse
  rw [List.length_reverse, bytesAt_length] at back
  unfold storeWord swapBytes
  rw [bytes, back]
  funext k
  unfold reverseAt
  by_cases inside : a ≤ k ∧ k < a + w
  · rw [if_pos inside]
    obtain ⟨j, rfl⟩ := Nat.exists_eq_add_of_le inside.1
    rw [storeBytes_inside (by simp; omega), List.getElem_reverse, bytesAt_getElem]
    congr 1
    simp
  · rw [if_neg inside, storeBytes_outside (by simp; omega)]

/-! ## Conversions -/

/-- The value that an unsigned 16-bit integer takes. -/
def uint16 (n : Int) : Int := n % 65536

/-- The value that a signed 16-bit integer takes. -/
def int16 (n : Int) : Int := n.bmod 65536

/-- The value that an unsigned 32-bit integer takes. -/
def uint32 (n : Int) : Int := n % 4294967296

/-- The value that a signed 32-bit integer takes. -/
def int32 (n : Int) : Int := n.bmod 4294967296

theorem uint32_of_lt {n : Int} (nonneg : 0 ≤ n) (small : n < 4294967296) : uint32 n = n := Int.emod_eq_of_lt nonneg small

theorem uint16_of_lt {n : Int} (nonneg : 0 ≤ n) (small : n < 65536) : uint16 n = n := Int.emod_eq_of_lt nonneg small

theorem int16_of_lt {n : Int} (nonneg : 0 ≤ n) (small : n < 32768) : int16 n = n :=
  Int.bmod_eq_of_le (by omega) (by omega)

theorem int16_of_high {n : Int} (low : 32768 ≤ n) (small : n < 65536) : int16 n = n - 65536 := by
  have rest : n % 65536 = n := Int.emod_eq_of_lt (by omega) small
  have high : ¬ n < (65536 + 1) / 2 := by omega
  simp only [int16, Int.bmod, Nat.cast_ofNat, rest, if_neg high]

theorem uint32_add_one_ne (n : Int) : uint32 (n + 1) ≠ n := by
  unfold uint32
  omega

end VideoDetector.Lib
