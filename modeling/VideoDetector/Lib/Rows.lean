import VideoDetector.Lib.CString

/-!
# The rows of a text

The rows of a text are its lines without their newlines. `strtok` with the newline as its delimiter goes through the rows that
are not empty (`strtoks_rows`), and `rowsOf_join` reads back what was written row by row.
-/

namespace VideoDetector.Lib
set_option autoImplicit false

/-- The rows of a text, after the bytes of a row that has begun. -/
def rowsFrom : List UInt8 → List UInt8 → List (List UInt8)
  | row, [] => if row = [] then [] else [row]
  | row, b :: bs => if b = 10 then row :: rowsFrom [] bs else rowsFrom (row ++ [b]) bs

def rowsOf (text : List UInt8) : List (List UInt8) := rowsFrom [] text

theorem rowsFrom_row {row : List UInt8} (unbroken : (10 : UInt8) ∉ row) (begun rest : List UInt8) :
    rowsFrom begun (row ++ 10 :: rest) = (begun ++ row) :: rowsOf rest := by
  induction row generalizing begun with
  | nil => rw [List.nil_append, rowsFrom, if_pos rfl, List.append_nil, rowsOf]
  | cons b row ih =>
    rw [List.mem_cons, not_or] at unbroken
    rw [List.cons_append, rowsFrom, if_neg fun newline => unbroken.1 newline.symm, ih unbroken.2, List.append_assoc,
      List.singleton_append]

theorem rowsFrom_last {row : List UInt8} (unbroken : (10 : UInt8) ∉ row) (begun : List UInt8) :
    rowsFrom begun row = if begun ++ row = [] then [] else [begun ++ row] := by
  induction row generalizing begun with
  | nil => rw [rowsFrom, List.append_nil]
  | cons b row ih =>
    rw [List.mem_cons, not_or] at unbroken
    rw [rowsFrom, if_neg fun newline => unbroken.1 newline.symm, ih unbroken.2, List.append_assoc, List.singleton_append]

theorem rowsOf_row {row : List UInt8} (unbroken : (10 : UInt8) ∉ row) (rest : List UInt8) :
    rowsOf (row ++ 10 :: rest) = row :: rowsOf rest := rowsFrom_row unbroken [] rest

/-- A text row by row. -/
def joinRows (rows : List (List UInt8)) : List UInt8 := (rows.map (· ++ [10])).flatten

@[simp] theorem joinRows_cons (row : List UInt8) (rows : List (List UInt8)) : joinRows (row :: rows) = row ++ [10] ++ joinRows rows := rfl

theorem rowsOf_join {rows : List (List UInt8)} (unbroken : ∀ row ∈ rows, (10 : UInt8) ∉ row) : rowsOf (joinRows rows) = rows := by
  induction rows with
  | nil => rfl
  | cons row rows ih =>
    rw [joinRows_cons, List.append_assoc, List.singleton_append, rowsOf_row (unbroken row List.mem_cons_self),
      ih fun row member => unbroken row (List.mem_cons_of_mem _ member)]

theorem mem_joinRows {rows : List (List UInt8)} {b : UInt8} (other : b ≠ 10) : b ∈ joinRows rows ↔ ∃ row ∈ rows, b ∈ row := by
  simp [joinRows, other]

/-- A row has no newline, and only bytes of the text. -/
theorem mem_rowsFrom {begun text row : List UInt8} (unbroken : (10 : UInt8) ∉ begun) (member : row ∈ rowsFrom begun text) :
    (10 : UInt8) ∉ row ∧ row ⊆ begun ++ text := by
  induction text generalizing begun with
  | nil =>
    unfold rowsFrom at member
    split at member
    · cases member
    · rw [List.mem_singleton.mp member, List.append_nil]
      exact ⟨unbroken, List.Subset.refl _⟩
  | cons b text ih =>
    unfold rowsFrom at member
    split at member
    next newline =>
      rcases List.mem_cons.mp member with rfl | member
      · exact ⟨unbroken, List.subset_append_left _ _⟩
      · obtain ⟨unbroken', inside⟩ := ih List.not_mem_nil member
        exact ⟨unbroken', fun c there => List.mem_append_right _ (List.mem_cons_of_mem b (inside there))⟩
    next other =>
      obtain ⟨unbroken', inside⟩ := ih (by simp [unbroken, Ne.symm other]) member
      rw [List.append_assoc, List.singleton_append] at inside
      exact ⟨unbroken', inside⟩

theorem mem_rowsOf {text row : List UInt8} (member : row ∈ rowsOf text) : (10 : UInt8) ∉ row ∧ row ⊆ text :=
  mem_rowsFrom List.not_mem_nil member

/-! ## Rows as tokens -/

theorem strtoks_newline (n : Nat) (text : List UInt8) : strtoks 10 n (10 :: text) = strtoks 10 n text := by
  have same : strtok 10 (10 :: text) = strtok 10 text := by
    unfold strtok
    rw [List.dropWhile_cons_of_pos (by decide)]
  cases n with
  | zero => rfl
  | succ n => rw [strtoks, strtoks, same]

theorem cString_token {token : List UInt8} (nonzero : (0 : UInt8) ∉ token) (rest : List UInt8) : cString (token ++ 0 :: rest) = token := by
  rw [cString, List.takeWhile_append_of_pos (List.takeWhile_eq_self_iff.mp (cString_of_nonzero nonzero)),
    List.takeWhile_cons_of_neg (by decide), List.append_nil]

/-- **The tokens of a text** are its rows but the empty ones. -/
theorem strtoks_rows {text : List UInt8} (nonzero : (0 : UInt8) ∉ text) {n : Nat} (enough : text.length < n) :
    (strtoks 10 n (text ++ [0])).map cString = (rowsOf text).filter (· ≠ []) := by
  induction size : text.length using Nat.strong_induction_on generalizing text n with
  | h m ih =>
    obtain ⟨k, rfl⟩ := Nat.exists_eq_add_of_lt (Nat.zero_lt_of_lt enough)
    by_cases member : (10 : UInt8) ∈ text
    · obtain ⟨row, rest, rfl, unbroken⟩ := List.eq_append_cons_of_mem member
      rw [List.mem_append, List.mem_cons, not_or, not_or] at nonzero
      rw [List.length_append, List.length_cons] at size enough
      rw [rowsOf_row unbroken]
      by_cases none : row = []
      · rw [none, List.nil_append, List.cons_append, strtoks_newline, List.filter_cons_of_neg (by simp)]
        exact ih rest.length (by omega) nonzero.2.2 (by omega) rfl
      · have plain : ∀ c ∈ row, c ≠ 0 ∧ c ≠ 10 := fun c there => ⟨fun zero => nonzero.1 (zero ▸ there), fun newline => unbroken (newline ▸ there)⟩
        have some := List.length_pos_iff.mpr none
        rw [List.append_assoc, List.cons_append, strtoks_cons (strtok_token none plain (.inr rfl) _), if_pos rfl, List.map_cons,
          cString_token nonzero.1, List.filter_cons_of_pos (by simpa using none), ih rest.length (by omega) nonzero.2.2 (by omega) rfl]
    · rw [rowsOf, rowsFrom_last member, List.nil_append]
      by_cases none : text = []
      · rw [if_pos none, none, List.nil_append, strtoks_none (strtok_zero (by decide) _)]
        rfl
      · have plain : ∀ c ∈ text, c ≠ 0 ∧ c ≠ 10 := fun c there => ⟨fun zero => nonzero (zero ▸ there), fun newline => member (newline ▸ there)⟩
        rw [if_neg none, strtoks_cons (strtok_token none plain (.inl rfl) _), if_neg (by decide), strtoks_none (strtok_zero (by decide) _),
          List.map_singleton, cString_token nonzero, List.filter_cons_of_pos (by simpa using none), List.filter_nil]

end VideoDetector.Lib
