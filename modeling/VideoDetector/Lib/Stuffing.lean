import Mathlib.Data.List.Basic
import Mathlib.Tactic.Common

/-!
# Byte stuffing

A stuffed frame marks its ends with a delimiter and replaces the delimiter and the escape symbol
inside the body by two-symbol codes. `escape` and `unescape` are the two one-pass functions on
lists over any alphabet; `unescape_escape` is the round trip and `delim_not_mem_escape` the reason
a delimiter can only be an end of the frame.
-/

namespace VideoDetector.Lib
set_option autoImplicit false

/-- The four symbols of a stuffing code, with the inequalities that make it decodable. -/
structure Stuffing (α : Type) where
  delim : α
  esc : α
  escDelim : α
  escEsc : α
  delim_ne_esc : delim ≠ esc
  escDelim_ne_delim : escDelim ≠ delim
  escDelim_ne_esc : escDelim ≠ esc
  escEsc_ne_delim : escEsc ≠ delim
  escEsc_ne_esc : escEsc ≠ esc
  escEsc_ne_escDelim : escEsc ≠ escDelim

namespace Stuffing

variable {α : Type} [DecidableEq α] (code : Stuffing α)

/-- A symbol that has to be replaced inside a frame. -/
def special (b : α) : Bool := b = code.delim || b = code.esc

/-- The code of one symbol. -/
def escapeSymbol (b : α) : List α :=
  if b = code.delim then [code.esc, code.escDelim]
  else if b = code.esc then [code.esc, code.escEsc]
  else [b]

/-- Replace every delimiter and escape symbol by its code. -/
def escape (p : List α) : List α := p.flatMap code.escapeSymbol

/-- One left-to-right pass that undoes the codes and copies every other symbol. -/
def unescape : List α → List α
  | [] => []
  | [b] => [b]
  | b :: c :: rest =>
    if b = code.esc ∧ c = code.escDelim then code.delim :: unescape rest
    else if b = code.esc ∧ c = code.escEsc then code.esc :: unescape rest
    else b :: unescape (c :: rest)

@[simp] theorem escape_nil : code.escape [] = [] := rfl

theorem escape_cons (b : α) (p : List α) : code.escape (b :: p) = code.escapeSymbol b ++ code.escape p := by
  simp [escape]

theorem escape_delim (p : List α) :
    code.escape (code.delim :: p) = code.esc :: code.escDelim :: code.escape p := by
  simp [escape_cons, escapeSymbol]

theorem escape_esc (p : List α) :
    code.escape (code.esc :: p) = code.esc :: code.escEsc :: code.escape p := by
  simp [escape_cons, escapeSymbol, code.delim_ne_esc.symm]

theorem escape_plain {b : α} (p : List α) (notDelim : b ≠ code.delim) (notEsc : b ≠ code.esc) :
    code.escape (b :: p) = b :: code.escape p := by
  simp [escape_cons, escapeSymbol, notDelim, notEsc]

theorem escape_append (p q : List α) : code.escape (p ++ q) = code.escape p ++ code.escape q := List.flatMap_append

/-- A text without special symbols is its own code. -/
theorem escape_of_plain {p : List α} (plain : ∀ b ∈ p, code.special b = false) : code.escape p = p := by
  induction p with
  | nil => rfl
  | cons b p ih =>
    have first := plain b List.mem_cons_self
    simp only [special, Bool.or_eq_false_iff, decide_eq_false_iff_not] at first
    rw [escape_plain code p first.1 first.2, ih fun c there => plain c (List.mem_cons_of_mem _ there)]

/-- The escaped body grows by one symbol for each symbol that needs a code. -/
theorem escape_length (p : List α) : (code.escape p).length = p.length + p.countP code.special := by
  induction p with
  | nil => rfl
  | cons b p ih =>
    rw [escape_cons, List.length_append, ih, List.countP_cons]
    unfold escapeSymbol special
    by_cases delim : b = code.delim
    · simp [delim]; omega
    · by_cases esc : b = code.esc
      · simp [esc, code.delim_ne_esc.symm]; omega
      · simp [delim, esc]; omega

theorem escape_length_le (p : List α) : (code.escape p).length ≤ 2 * p.length := by
  have codes : p.countP code.special ≤ p.length := List.countP_le_length
  rw [escape_length]
  omega

/-- No delimiter is left inside an escaped body. -/
theorem delim_not_mem_escape (p : List α) : code.delim ∉ code.escape p := by
  induction p with
  | nil => simp
  | cons b p ih =>
    rw [escape_cons, List.mem_append]
    rintro (here | there)
    · unfold escapeSymbol at here
      split at here
      · simp [code.delim_ne_esc, code.escDelim_ne_delim.symm] at here
      · split at here
        · simp [code.delim_ne_esc, code.escEsc_ne_delim.symm] at here
        · next notDelim _ => exact notDelim (List.mem_singleton.mp here).symm
    · exact ih there

@[simp] theorem unescape_nil : code.unescape [] = [] := rfl

theorem unescape_escDelim (rest : List α) :
    code.unescape (code.esc :: code.escDelim :: rest) = code.delim :: code.unescape rest := by
  simp [unescape]

theorem unescape_escEsc (rest : List α) :
    code.unescape (code.esc :: code.escEsc :: rest) = code.esc :: code.unescape rest := by
  simp [unescape, code.escEsc_ne_escDelim]

/-- A symbol that does not begin a code is copied. -/
theorem unescape_plain {b : α} {rest : List α}
    (plain : b = code.esc → rest.head? ≠ some code.escDelim ∧ rest.head? ≠ some code.escEsc) :
    code.unescape (b :: rest) = b :: code.unescape rest := by
  cases rest with
  | nil => rfl
  | cons c rest =>
    rw [unescape]
    rw [if_neg, if_neg]
    · rintro ⟨isEsc, isCode⟩
      exact (plain isEsc).2 (by rw [isCode]; rfl)
    · rintro ⟨isEsc, isCode⟩
      exact (plain isEsc).1 (by rw [isCode]; rfl)

theorem unescape_length_le (p : List α) : (code.unescape p).length ≤ p.length := by
  fun_induction unescape code p with
  | case1 => simp
  | case2 b => simp
  | case3 c rest pair ih => simp only [List.length_cons]; omega
  | case4 c rest notDelim pair ih => simp only [List.length_cons]; omega
  | case5 b c rest notDelim notEsc ih => simp only [List.length_cons] at *; omega

/-- **Round trip.** -/
theorem unescape_escape (p : List α) : code.unescape (code.escape p) = p := by
  induction p with
  | nil => rfl
  | cons b p ih =>
    by_cases delim : b = code.delim
    · rw [delim, escape_delim, unescape_escDelim, ih]
    · by_cases esc : b = code.esc
      · rw [esc, escape_esc, unescape_escEsc, ih]
      · rw [escape_plain code p delim esc, unescape_plain code (fun isEsc => absurd isEsc esc), ih]

/-! ## Texts that are codes -/

/-- Every escape symbol begins a code. -/
def Coded (w : List α) : Prop := ∀ i, w[i]? = some code.esc → w[i + 1]? = some code.escDelim ∨ w[i + 1]? = some code.escEsc

omit [DecidableEq α] in
theorem coded_cons {b : α} {rest : List α} :
    code.Coded (b :: rest) ↔
      (b = code.esc → rest.head? = some code.escDelim ∨ rest.head? = some code.escEsc) ∧ code.Coded rest := by
  constructor
  · intro coded
    refine ⟨fun isEsc => ?_, fun i => ?_⟩
    · have first := coded 0 (by rw [isEsc]; rfl)
      rwa [List.getElem?_cons_succ, ← List.head?_eq_getElem?] at first
    · have later := coded (i + 1)
      rwa [List.getElem?_cons_succ, List.getElem?_cons_succ] at later
  · rintro ⟨first, later⟩ i isEsc
    cases i with
    | zero =>
      rw [List.getElem?_cons_zero, Option.some.injEq] at isEsc
      rw [List.getElem?_cons_succ, ← List.head?_eq_getElem?]
      exact first isEsc
    | succ i =>
      rw [List.getElem?_cons_succ] at isEsc ⊢
      exact later i isEsc

omit [DecidableEq α] in
/-- A symbol that is no escape symbol needs nothing behind it. -/
theorem coded_plain {b : α} {rest : List α} (notEsc : b ≠ code.esc) : code.Coded (b :: rest) ↔ code.Coded rest := by
  rw [coded_cons]
  exact and_iff_right fun isEsc => absurd isEsc notEsc

omit [DecidableEq α] in
/-- A code in front of a text. -/
theorem coded_pair {second : α} {rest : List α} (isCode : second = code.escDelim ∨ second = code.escEsc) :
    code.Coded (code.esc :: second :: rest) ↔ code.Coded rest := by
  have notEsc : second ≠ code.esc := by
    rcases isCode with rfl | rfl
    · exact code.escDelim_ne_esc
    · exact code.escEsc_ne_esc
  rw [coded_cons, coded_plain code notEsc]
  refine and_iff_right fun _ => ?_
  rcases isCode with rfl | rfl
  · exact .inl rfl
  · exact .inr rfl

/-- **What comes back from the decoding**: escaping the decoding of a text gives the text exactly if it has no
delimiter and each of its escape symbols begins a code. -/
theorem escape_unescape_iff (w : List α) : code.escape (code.unescape w) = w ↔ code.delim ∉ w ∧ code.Coded w := by
  fun_induction unescape code w with
  | case1 => simp [Coded]
  | case2 b =>
    by_cases delim : b = code.delim
    · simp [delim, escape_delim]
    · by_cases esc : b = code.esc
      · simp [esc, escape_esc, coded_cons]
      · rw [escape_plain code [] delim esc, coded_plain code esc]
        simp [Ne.symm delim, Coded]
  | case3 b c rest pair ih =>
    obtain ⟨rfl, rfl⟩ := pair
    rw [escape_delim, coded_pair code (.inl rfl), List.cons.injEq, List.cons.injEq, ih]
    simp [code.delim_ne_esc, code.escDelim_ne_delim.symm]
  | case4 b c rest notDelim pair ih =>
    obtain ⟨rfl, rfl⟩ := pair
    rw [escape_esc, coded_pair code (.inr rfl), List.cons.injEq, List.cons.injEq, ih]
    simp [code.delim_ne_esc, code.escEsc_ne_delim.symm]
  | case5 b c rest notDelim notEsc ih =>
    by_cases delim : b = code.delim
    · rw [delim, escape_delim, List.cons.injEq]
      simp [code.delim_ne_esc.symm]
    · by_cases esc : b = code.esc
      · rw [esc, escape_esc, List.cons.injEq, List.cons.injEq, coded_cons]
        simp only [esc, true_and] at notDelim notEsc
        simp [notDelim, notEsc, Ne.symm notEsc]
      · rw [escape_plain code _ delim esc, coded_plain code esc, List.cons.injEq, ih]
        simp [Ne.symm delim]

end Stuffing

end VideoDetector.Lib
