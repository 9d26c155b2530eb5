import VideoDetector.Lib.Words

/-!
# Packed layouts and byte-order conversion

A packed C object is a sequence of scalars without padding. `Layout` describes it, `scalars` lists
every scalar with its offset and width, and `convert` reverses the bytes of each of them in place.
`perm` is the byte permutation `convert` performs; being an involution that maps every scalar onto
its own bytes, it gives the frame, the field-by-field specification and the round trip at once.
-/

namespace VideoDetector.Lib
set_option autoImplicit false

/-- The layout of a packed object. -/
inductive Layout where
  | empty
  | scalar (width : Nat)
  | seq (first rest : Layout)
  | array (count : Nat) (elem : Layout)

namespace Layout

/-- The layout of a packed structure with the given members. -/
def struct (members : List Layout) : Layout := members.foldr seq empty

/-- `sizeof` of a packed object. -/
def size : Layout → Nat
  | empty => 0
  | scalar w => w
  | seq x y => x.size + y.size
  | array n e => n * e.size

/-- `offsetof` the `i`-th member of a packed structure. -/
def offset (members : List Layout) (i : Nat) : Nat := ((members.take i).map size).sum

/-- Every scalar of an object placed at `a`, as its address and width. -/
def scalars : Layout → Nat → List (Nat × Nat)
  | empty, _ => []
  | scalar w, a => [(a, w)]
  | seq x y, a => x.scalars a ++ y.scalars (a + x.size)
  | array n e, a => (List.range n).flatMap fun i => e.scalars (a + i * e.size)

/-- Convert the byte order of every scalar of the object at `a`, in place. -/
def convert : Layout → Mem → Nat → Mem
  | empty, m, _ => m
  | scalar w, m, a => reverseAt m a w
  | seq x y, m, a => y.convert (x.convert m a) (a + x.size)
  | array n e, m, a => (List.range n).foldl (fun m i => e.convert m (a + i * e.size)) m

/-- Where the byte at offset `k` of a converted object comes from. -/
def perm : Layout → Nat → Nat
  | empty, k => k
  | scalar w, k => w - 1 - k
  | seq x y, k => if k < x.size then x.perm k else x.size + y.perm (k - x.size)
  | array _ e, k => k / e.size * e.size + e.perm (k % e.size)

theorem size_seq (x y : Layout) : (seq x y).size = x.size + y.size := rfl

theorem size_array (n : Nat) (e : Layout) : (array n e).size = n * e.size := rfl

/-! Structures, member by member. -/

@[simp] theorem size_nil : (struct []).size = 0 := rfl

@[simp] theorem size_cons (l : Layout) (ls : List Layout) : (struct (l :: ls)).size = l.size + (struct ls).size := rfl

@[simp] theorem offset_zero (ls : List Layout) : offset ls 0 = 0 := rfl

@[simp] theorem offset_succ (l : Layout) (ls : List Layout) (i : Nat) :
    offset (l :: ls) (i + 1) = l.size + offset ls i := rfl

@[simp] theorem convert_nil (m : Mem) (a : Nat) : (struct []).convert m a = m := rfl

@[simp] theorem convert_cons (l : Layout) (ls : List Layout) (m : Mem) (a : Nat) :
    (struct (l :: ls)).convert m a = (struct ls).convert (l.convert m a) (a + l.size) := rfl

/-! The byte permutation of a conversion. -/

theorem perm_first {x y : Layout} {k : Nat} (first : k < x.size) : (seq x y).perm k = x.perm k := if_pos first

theorem perm_rest {x y : Layout} {k : Nat} (rest : x.size ≤ k) :
    (seq x y).perm k = x.size + y.perm (k - x.size) := if_neg (Nat.not_lt.mpr rest)

theorem perm_array (n : Nat) (e : Layout) (k : Nat) :
    (array n e).perm k = k / e.size * e.size + e.perm (k % e.size) := rfl

/-! Rows and columns of an array of `n` elements of `s` bytes. -/

theorem row_col {n s k : Nat} (bound : k < n * s) : k / s < n ∧ k % s < s := by
  have pos : 0 < s := by
    rcases Nat.eq_zero_or_pos s with zero | pos
    · subst zero; simp at bound
    · exact pos
  exact ⟨Nat.div_lt_of_lt_mul (by rwa [Nat.mul_comm]), Nat.mod_lt k pos⟩

theorem row_col_lt {n s i j : Nat} (row : i < n) (col : j < s) : i * s + j < n * s := by
  have rows : (i + 1) * s ≤ n * s := Nat.mul_le_mul_right s row
  rw [Nat.add_mul, Nat.one_mul] at rows
  omega

theorem row_div {s i j : Nat} (col : j < s) : (i * s + j) / s = i := by
  rw [Nat.mul_comm i s, Nat.mul_add_div (by omega), Nat.div_eq_of_lt col, Nat.add_zero]

theorem col_mod {s i j : Nat} (col : j < s) : (i * s + j) % s = j := by
  rw [Nat.mul_comm i s, Nat.mul_add_mod, Nat.mod_eq_of_lt col]

/-- The permutation moves every element of an array as the element's own does. -/
theorem perm_elem {n : Nat} {e : Layout} {i j : Nat} (col : j < e.size) :
    (array n e).perm (i * e.size + j) = i * e.size + e.perm j := by
  rw [perm_array, row_div col, col_mod col]

theorem perm_lt (l : Layout) {k : Nat} (bound : k < l.size) : l.perm k < l.size := by
  induction l generalizing k with
  | empty => exact bound
  | scalar w => simp only [perm, size] at *; omega
  | seq x y ihx ihy =>
    rw [size_seq] at *
    by_cases first : k < x.size
    · rw [perm_first first]
      have := ihx first
      omega
    · rw [perm_rest (by omega)]
      have := ihy (show k - x.size < y.size by omega)
      omega
  | array n e ih =>
    obtain ⟨row, col⟩ := row_col bound
    exact row_col_lt row (ih col)

/-- The permutation is its own inverse. -/
theorem perm_perm (l : Layout) {k : Nat} (bound : k < l.size) : l.perm (l.perm k) = k := by
  induction l generalizing k with
  | empty => rfl
  | scalar w => simp only [perm, size] at *; omega
  | seq x y ihx ihy =>
    rw [size_seq] at bound
    by_cases first : k < x.size
    · rw [perm_first first, perm_first (x.perm_lt first), ihx first]
    · rw [perm_rest (k := k) (by omega), perm_rest (by omega), Nat.add_sub_cancel_left, ihy (by omega)]
      omega
  | array n e ih =>
    obtain ⟨_, col⟩ := row_col bound
    rw [perm_array n e k, perm_elem (e.perm_lt col), ih col, Nat.mul_comm, Nat.div_add_mod]

/-- Conversion of an array, one element at a time. -/
theorem convert_array_succ (n : Nat) (e : Layout) (m : Mem) (a : Nat) :
    (array (n + 1) e).convert m a = e.convert ((array n e).convert m a) (a + n * e.size) := by
  show (List.range (n + 1)).foldl _ m = _
  rw [List.range_succ, List.foldl_append]
  rfl

/-- Reversing a single byte changes nothing. -/
theorem convert_byte (m : Mem) (a : Nat) : (scalar 1).convert m a = m := by
  funext k
  show reverseAt m a 1 k = m k
  unfold reverseAt
  split
  · next here => rw [show a + (1 - 1 - (k - a)) = k by omega]
  · rfl

theorem convert_array_id {e : Layout} (same : ∀ m a, e.convert m a = m) (n : Nat) (m : Mem) (a : Nat) :
    (array n e).convert m a = m := by
  induction n with
  | zero => rfl
  | succ n ih => rw [convert_array_succ, ih, same]

/-- **Conversion is the permutation** on the object, and changes nothing else. -/
theorem convert_spec (l : Layout) (m : Mem) (a : Nat) :
    (∀ k, k < l.size → l.convert m a (a + k) = m (a + l.perm k)) ∧
      ∀ k, k < a ∨ a + l.size ≤ k → l.convert m a k = m k := by
  induction l generalizing m a with
  | empty => exact ⟨fun k _ => rfl, fun k _ => rfl⟩
  | scalar w =>
    constructor
    · intro k bound
      show reverseAt m a w (a + k) = _
      unfold reverseAt
      rw [if_pos (by simp only [size] at bound; omega), Nat.add_sub_cancel_left]
      rfl
    · intro k outside
      exact if_neg (by simp only [size] at outside; omega)
  | seq x y ihx ihy =>
    obtain ⟨insideX, outsideX⟩ := ihx m a
    obtain ⟨insideY, outsideY⟩ := ihy (x.convert m a) (a + x.size)
    constructor
    · intro k bound
      rw [size_seq] at bound
      by_cases first : k < x.size
      · rw [perm_first first, ← insideX k first]
        exact outsideY _ (by omega)
      · have moved := insideY (k - x.size) (by omega)
        rw [show a + x.size + (k - x.size) = a + k by omega, outsideX _ (by omega)] at moved
        rw [perm_rest (by omega), ← Nat.add_assoc, ← moved]
        rfl
    · intro k outside
      rw [size_seq] at outside
      rw [← outsideX k (by omega)]
      exact outsideY k (by omega)
  | array n e ih =>
    induction n with
    | zero => exact ⟨fun k bound => by simp [size_array] at bound, fun k _ => rfl⟩
    | succ n prev =>
      obtain ⟨inside, outside⟩ := prev
      obtain ⟨insideE, outsideE⟩ := ih ((array n e).convert m a) (a + n * e.size)
      rw [size_array] at inside outside
      have rows : (array (n + 1) e).size = n * e.size + e.size := by
        rw [size_array, Nat.add_mul, Nat.one_mul]
      rw [convert_array_succ, rows]
      constructor
      · intro k bound
        by_cases before : k < n * e.size
        · rw [outsideE _ (by omega), inside k before]
          rfl
        · have moved := insideE (k - n * e.size) (by omega)
          rw [show a + n * e.size + (k - n * e.size) = a + k by omega, outside _ (by omega)] at moved
          have col := perm_elem (n := n + 1) (i := n) (show k - n * e.size < e.size by omega)
          rw [show n * e.size + (k - n * e.size) = k by omega] at col
          rw [moved, col, Nat.add_assoc]
      · intro k away
        rw [outsideE k (by omega), outside k (by omega)]

theorem convert_inside {l : Layout} {m : Mem} {a k : Nat} (bound : k < l.size) :
    l.convert m a (a + k) = m (a + l.perm k) := (l.convert_spec m a).1 k bound

theorem convert_outside {l : Layout} {m : Mem} {a k : Nat} (outside : k < a ∨ a + l.size ≤ k) :
    l.convert m a k = m k := (l.convert_spec m a).2 k outside

/-- **Round trip**: converting twice changes nothing. -/
theorem convert_convert (l : Layout) (m : Mem) (a : Nat) : l.convert (l.convert m a) a = m := by
  funext k
  by_cases inside : a ≤ k ∧ k < a + l.size
  · obtain ⟨j, rfl⟩ := Nat.exists_eq_add_of_le inside.1
    have bound : j < l.size := by omega
    rw [convert_inside bound, convert_inside (l.perm_lt bound), l.perm_perm bound]
  · rw [convert_outside (by omega), convert_outside (by omega)]

/-- Conversions of objects that do not overlap commute. -/
theorem convert_comm {l l' : Layout} (m : Mem) {a a' : Nat} (apart : a + l.size ≤ a' ∨ a' + l'.size ≤ a) :
    l'.convert (l.convert m a) a' = l.convert (l'.convert m a') a := by
  funext k
  by_cases inside : a ≤ k ∧ k < a + l.size
  · obtain ⟨j, rfl⟩ := Nat.exists_eq_add_of_le inside.1
    have bound : j < l.size := by omega
    have moved := l.perm_lt bound
    rw [convert_outside (by omega), convert_inside bound, convert_inside bound, convert_outside (by omega)]
  · rw [convert_outside (l := l) (by omega)]
    by_cases inside' : a' ≤ k ∧ k < a' + l'.size
    · obtain ⟨j, rfl⟩ := Nat.exists_eq_add_of_le inside'.1
      have bound : j < l'.size := by omega
      have moved := l'.perm_lt bound
      rw [convert_inside bound, convert_inside bound, convert_outside (by omega)]
    · rw [convert_outside (by omega), convert_outside (by omega), convert_outside (by omega)]

/-- A converted object depends on its own bytes only. -/
theorem convert_window_congr {l : Layout} {m m' : Mem} {a a' : Nat}
    (same : bytesAt m' a' l.size = bytesAt m a l.size) :
    bytesAt (l.convert m' a') a' l.size = bytesAt (l.convert m a) a l.size := by
  apply bytesAt_congr
  intro k bound
  rw [convert_inside bound, convert_inside bound]
  have byte := byte_of_bytesAt same (l.perm_lt bound)
  rw [bytesAt_getElem? m a (l.perm_lt bound)] at byte
  exact (Option.some.inj byte).symm

/-- The bytes of a converted object, from its bytes. -/
def convertBytes (l : Layout) (bs : List UInt8) : List UInt8 :=
  bytesAt (l.convert (storeBytes (fun _ => 0) 0 bs) 0) 0 l.size

@[simp] theorem convertBytes_length (l : Layout) (bs : List UInt8) : (l.convertBytes bs).length = l.size :=
  bytesAt_length _ _ _

theorem bytesAt_convert (l : Layout) (m : Mem) (a : Nat) :
    bytesAt (l.convert m a) a l.size = l.convertBytes (bytesAt m a l.size) := by
  apply convert_window_congr
  have back := bytesAt_storeBytes (fun _ => 0) 0 (bytesAt m a l.size)
  rw [bytesAt_length] at back
  exact back.symm

theorem convertBytes_convertBytes {l : Layout} {bs : List UInt8} (length : bs.length = l.size) :
    l.convertBytes (l.convertBytes bs) = bs := by
  have back := bytesAt_storeBytes (fun _ => 0) 0 bs
  rw [length] at back
  conv_lhs => rw [convertBytes.eq_def l bs]
  rw [← bytesAt_convert, convert_convert, back]

/-! ## Scalars -/

/-- Every scalar of an object lies inside it, and the permutation reverses its bytes. -/
theorem scalars_perm (l : Layout) {a off w : Nat} (member : (off, w) ∈ l.scalars a) :
    a ≤ off ∧ off + w ≤ a + l.size ∧ ∀ j, j < w → l.perm (off - a + j) = off - a + (w - 1 - j) := by
  induction l generalizing a off w with
  | empty => cases member
  | scalar width =>
    obtain ⟨rfl, rfl⟩ := Prod.mk.inj (List.mem_singleton.mp member)
    refine ⟨Nat.le_refl _, Nat.le_refl _, fun j _ => ?_⟩
    rw [Nat.sub_self, Nat.zero_add, Nat.zero_add]
    rfl
  | seq x y ihx ihy =>
    rw [size_seq]
    rcases List.mem_append.mp member with first | rest
    · obtain ⟨low, high, moved⟩ := ihx first
      refine ⟨low, by omega, fun j bound => ?_⟩
      rw [perm_first (by omega), moved j bound]
    · obtain ⟨low, high, moved⟩ := ihy rest
      refine ⟨by omega, by omega, fun j bound => ?_⟩
      have inner := moved j bound
      rw [perm_rest (by omega), show off - a + j - x.size = off - (a + x.size) + j by omega, inner]
      omega
  | array n e ih =>
    obtain ⟨i, row, elem⟩ := List.mem_flatMap.mp member
    obtain ⟨low, high, moved⟩ := ih elem
    have rows : i * e.size + e.size ≤ n * e.size := by
      have := Nat.mul_le_mul_right e.size (List.mem_range.mp row : i < n)
      rwa [Nat.succ_mul] at this
    rw [size_array]
    refine ⟨by omega, by omega, fun j bound => ?_⟩
    have inner := moved j bound
    rw [show off - a + j = i * e.size + (off - (a + i * e.size) + j) by omega, perm_elem (by omega), inner]
    omega

/-- **Field by field**: conversion reverses the bytes of every scalar, exactly once. -/
theorem convert_scalar {l : Layout} (m : Mem) {a off w : Nat} (member : (off, w) ∈ l.scalars a) :
    bytesAt (l.convert m a) off w = (bytesAt m off w).reverse := by
  obtain ⟨low, high, moved⟩ := l.scalars_perm member
  apply List.ext_getElem (by simp)
  intro k here there
  have bound : k < w := by simpa using here
  have byte := convert_inside (m := m) (a := a) (show off - a + k < l.size by omega)
  rw [moved k bound, show a + (off - a + k) = off + k by omega,
    show a + (off - a + (w - 1 - k)) = off + (w - 1 - k) by omega] at byte
  rw [bytesAt_getElem, List.getElem_reverse, bytesAt_getElem, byte, bytesAt_length]

/-- The scalars of an object leave no byte of it out. -/
theorem scalars_cover (l : Layout) {a k : Nat} (low : a ≤ k) (high : k < a + l.size) :
    ∃ f ∈ l.scalars a, f.1 ≤ k ∧ k < f.1 + f.2 := by
  induction l generalizing a with
  | empty => simp only [size] at high; omega
  | scalar w => exact ⟨(a, w), List.mem_singleton_self _, low, high⟩
  | seq x y ihx ihy =>
    rw [size_seq] at high
    by_cases first : k < a + x.size
    · obtain ⟨f, member, inside⟩ := ihx low first
      exact ⟨f, List.mem_append_left _ member, inside⟩
    · obtain ⟨f, member, inside⟩ := ihy (a := a + x.size) (by omega) (by omega)
      exact ⟨f, List.mem_append_right _ member, inside⟩
  | array n e ih =>
    rw [size_array] at high
    obtain ⟨row, col⟩ := row_col (show k - a < n * e.size by omega)
    have split := Nat.div_add_mod (k - a) e.size
    rw [Nat.mul_comm] at split
    obtain ⟨f, member, inside⟩ := ih (a := a + (k - a) / e.size * e.size) (by omega) (by omega)
    exact ⟨f, List.mem_flatMap.mpr ⟨_, List.mem_range.mpr row, member⟩, inside⟩

end Layout

end VideoDetector.Lib
