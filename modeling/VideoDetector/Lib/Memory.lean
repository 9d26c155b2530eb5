import Mathlib.Data.List.Basic
import Mathlib.Tactic.Ring

/-!
# Byte memory

A C buffer is a byte function of the address. `bytesAt` reads a window of it as a list,
`setByte` and `storeBytes` write it, and the two in-place shift loops (`shiftUp`, `shiftDown`)
are characterised address by address, so that a proof about a buffer never unfolds a loop.
-/

namespace VideoDetector.Lib
set_option autoImplicit false

/-- Byte memory: every address holds a byte. -/
abbrev Mem := Nat → UInt8

/-- Store one byte. -/
def setByte (m : Mem) (a : Nat) (b : UInt8) : Mem := fun k => if k = a then b else m k

/-- The `n` bytes from address `a` on. -/
def bytesAt (m : Mem) (a : Nat) : Nat → List UInt8
  | 0 => []
  | n + 1 => m a :: bytesAt m (a + 1) n

/-- Store a byte string at address `a` (`memcpy` from a separate object). -/
def storeBytes (m : Mem) (a : Nat) (bs : List UInt8) : Mem :=
  fun k => if a ≤ k ∧ k < a + bs.length then bs.getD (k - a) 0 else m k

@[simp] theorem setByte_same (m : Mem) (a : Nat) (b : UInt8) : setByte m a b a = b := by
  simp [setByte]

theorem setByte_other {m : Mem} {a k : Nat} {b : UInt8} (different : k ≠ a) : setByte m a b k = m k := by
  simp [setByte, different]

@[simp] theorem bytesAt_zero (m : Mem) (a : Nat) : bytesAt m a 0 = [] := rfl

theorem bytesAt_succ (m : Mem) (a n : Nat) : bytesAt m a (n + 1) = m a :: bytesAt m (a + 1) n := rfl

@[simp] theorem bytesAt_length (m : Mem) (a n : Nat) : (bytesAt m a n).length = n := by
  induction n generalizing a with
  | zero => rfl
  | succ n ih => simp [bytesAt_succ, ih]

theorem bytesAt_getElem? (m : Mem) (a : Nat) {n k : Nat} (bound : k < n) :
    (bytesAt m a n)[k]? = some (m (a + k)) := by
  induction n generalizing a k with
  | zero => omega
  | succ n ih =>
    cases k with
    | zero => simp [bytesAt_succ]
    | succ k =>
      rw [bytesAt_succ, List.getElem?_cons_succ, ih (a + 1) (by omega)]
      congr 2
      omega

theorem bytesAt_getElem (m : Mem) (a : Nat) {n k : Nat} (bound : k < (bytesAt m a n).length) :
    (bytesAt m a n)[k] = m (a + k) := by
  have read := bytesAt_getElem? m a (by simpa using bound : k < n)
  rw [List.getElem?_eq_getElem bound] at read
  exact Option.some.inj read

/-- Windows that agree byte by byte are equal, also at different addresses. -/
theorem bytesAt_congr {m m' : Mem} {a a' n : Nat} (same : ∀ k, k < n → m' (a' + k) = m (a + k)) :
    bytesAt m' a' n = bytesAt m a n := by
  apply List.ext_getElem (by simp)
  intro k here there
  rw [bytesAt_getElem, bytesAt_getElem]
  exact same k (by simpa using here)

/-- A window splits at any length. -/
theorem bytesAt_add (m : Mem) (a n k : Nat) : bytesAt m a (n + k) = bytesAt m a n ++ bytesAt m (a + n) k := by
  induction n generalizing a with
  | zero => simp
  | succ n ih =>
    rw [show n + 1 + k = n + k + 1 by omega, bytesAt_succ, bytesAt_succ, ih, List.cons_append,
      show a + 1 + n = a + (n + 1) by omega]

theorem bytesAt_snoc (m : Mem) (a n : Nat) : bytesAt m a (n + 1) = bytesAt m a n ++ [m (a + n)] := by
  rw [bytesAt_add, bytesAt_succ, bytesAt_zero]

/-- A window is the byte string `bs` exactly when every byte of it is. -/
theorem bytesAt_eq {m : Mem} {a : Nat} {bs : List UInt8}
    (same : ∀ k (bound : k < bs.length), m (a + k) = bs[k]) : bytesAt m a bs.length = bs := by
  apply List.ext_getElem (by simp)
  intro k here there
  rw [bytesAt_getElem]
  exact same k there

/-- A byte of a window is a byte of the memory. -/
theorem byte_of_bytesAt {m : Mem} {a n k : Nat} {bs : List UInt8} (window : bytesAt m a n = bs)
    (bound : k < n) : bs[k]? = some (m (a + k)) := by
  rw [← window]
  exact bytesAt_getElem? m a bound

theorem storeBytes_inside {m : Mem} {a k : Nat} {bs : List UInt8} (bound : k < bs.length) :
    storeBytes m a bs (a + k) = bs[k] := by
  simp [storeBytes, bound]

theorem storeBytes_outside {m : Mem} {a k : Nat} {bs : List UInt8} (outside : k < a ∨ a + bs.length ≤ k) :
    storeBytes m a bs k = m k := by
  unfold storeBytes
  rw [if_neg (by omega)]

/-- Reading back what was stored. -/
@[simp] theorem bytesAt_storeBytes (m : Mem) (a : Nat) (bs : List UInt8) :
    bytesAt (storeBytes m a bs) a bs.length = bs :=
  bytesAt_eq fun _ bound => storeBytes_inside bound

/-- A window with a store at its end. -/
theorem bytesAt_storeBytes_behind (m : Mem) (a n : Nat) (bs : List UInt8) :
    bytesAt (storeBytes m (a + n) bs) a (n + bs.length) = bytesAt m a n ++ bs := by
  rw [bytesAt_add, bytesAt_storeBytes]
  congr 1
  apply bytesAt_congr
  intro k bound
  exact storeBytes_outside (.inl (by omega))

/-- The first part of a window. -/
theorem bytesAt_left {m : Mem} {a n : Nat} {bs cs : List UInt8} (window : bytesAt m a n = bs ++ cs) :
    bytesAt m a bs.length = bs := by
  have length := congrArg List.length window
  rw [bytesAt_length, List.length_append] at length
  rw [length, bytesAt_add] at window
  exact (List.append_inj window (bytesAt_length _ _ _)).1

/-- Two stores one behind the other. -/
theorem storeBytes_append (m : Mem) (a : Nat) (bs cs : List UInt8) :
    storeBytes (storeBytes m a bs) (a + bs.length) cs = storeBytes m a (bs ++ cs) := by
  funext k
  unfold storeBytes
  rw [List.length_append]
  by_cases second : a + bs.length ≤ k ∧ k < a + bs.length + cs.length
  · rw [if_pos second, if_pos (by omega), List.getD_eq_getElem?_getD, List.getD_eq_getElem?_getD,
      List.getElem?_append_right (by omega), show k - a - bs.length = k - (a + bs.length) by omega]
  · rw [if_neg second]
    by_cases first : a ≤ k ∧ k < a + bs.length
    · rw [if_pos first, if_pos (by omega), List.getD_eq_getElem?_getD, List.getD_eq_getElem?_getD,
        List.getElem?_append_left (by omega)]
    · rw [if_neg first, if_neg (by omega)]

/-! ## In-place shifts -/

/-- `for(j=lo+n;j>lo;j--) buff[j]=buff[j-1];` -/
def shiftUp (m : Mem) (lo : Nat) : Nat → Mem
  | 0 => m
  | n + 1 => shiftUp (setByte m (lo + n + 1) (m (lo + n))) lo n

/-- `for(j=lo;j<lo+n;j++) buff[j]=buff[j+1];` -/
def shiftDown (m : Mem) (lo : Nat) : Nat → Mem
  | 0 => m
  | n + 1 => shiftDown (setByte m lo (m (lo + 1))) (lo + 1) n

/-- Shifting up moves each byte of `[lo, lo + n)` one address higher and touches nothing else. -/
theorem shiftUp_apply (m : Mem) (lo n k : Nat) :
    shiftUp m lo n k = if lo < k ∧ k ≤ lo + n then m (k - 1) else m k := by
  induction n generalizing m with
  | zero => rw [shiftUp, if_neg (by omega)]
  | succ n ih =>
    rw [shiftUp, ih]
    by_cases inside : lo < k ∧ k ≤ lo + n
    · rw [if_pos inside, if_pos (by omega), setByte_other (by omega)]
    · rw [if_neg inside]
      by_cases top : k = lo + n + 1
      · subst top
        rw [setByte_same, if_pos (by omega)]
        rfl
      · rw [setByte_other top, if_neg (by omega)]

/-- Shifting down moves each byte of `(lo, lo + n]` one address lower and touches nothing else. -/
theorem shiftDown_apply (m : Mem) (lo n k : Nat) :
    shiftDown m lo n k = if lo ≤ k ∧ k < lo + n then m (k + 1) else m k := by
  induction n generalizing m lo with
  | zero => rw [shiftDown, if_neg (by omega)]
  | succ n ih =>
    rw [shiftDown, ih]
    by_cases inside : lo + 1 ≤ k ∧ k < lo + 1 + n
    · rw [if_pos inside, if_pos (by omega), setByte_other (by omega)]
    · rw [if_neg inside]
      by_cases bottom : k = lo
      · subst bottom
        rw [setByte_same, if_pos (by omega)]
      · rw [setByte_other bottom, if_neg (by omega)]

end VideoDetector.Lib
