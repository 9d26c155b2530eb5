import VideoDetector.Lib.Loop
import VideoDetector.Lib.Machine

/-!
# The JSON command stream (`JsonStr` in `Pvd/tool.h`, `App::process_data` in `Pvd/app.h`)

Received bytes are collected in `str_stream` and objects are taken from it by matching braces.
`getValidBuf` and `processData` follow the source; `processData_spec` says what a call does.
-/

namespace VideoDetector.Json
set_option autoImplicit false
open Lib

/-- A `std::string`. -/
abbrev Str := List UInt8

/-- The characters of a string literal. -/
def ascii (s : String) : Str := s.toList.map fun c => UInt8.ofNat c.toNat

def openBrace : UInt8 := 0x7B
def closeBrace : UInt8 := 0x7D
def newline : UInt8 := 0x0A

/-- `count_begin_symbol`. -/
def countBeginSymbol (ba : Str) : Nat := ba.countP fun b => b = openBrace

/-- `stack` after a character. -/
def nextStack (b : UInt8) (stack : Int) : Int :=
  let stack := if b = openBrace then stack + 1 else stack
  if b = closeBrace then stack - 1 else stack

/-- `flg` after a character. -/
def nextFlg (b : UInt8) (flg : Bool) : Bool := if b = openBrace then true else flg

/-- The scan of `try_get_obj_buf`: the index at which it stops, which is the length of the text
when no object is complete. -/
def scanObj : Str → Int → Bool → Nat
  | [], _, _ => 0
  | b :: rest, stack, flg =>
    if nextStack b stack = 0 ∧ nextFlg b flg then 0 else scanObj rest (nextStack b stack) (nextFlg b flg) + 1

/-- `try_get_obj_buf`: the verdict and `dst`. The results of the two `substr` calls are not
assigned to anything. -/
def tryGetObjBuf (src : Str) : Bool × Str :=
  let dst := src
  if 0 < countBeginSymbol src then
    let i := scanObj src 0 false
    if i < src.length then
      if src[i + 1]? = some newline then
        let _ := dst.take (i + 2)
        (true, dst)
      else
        let _ := dst.take (i + 1)
        (true, dst)
    else (false, dst)
  else (false, dst)

/-- `get_valid_buf`: the verdict, `src` and `dst`. -/
def getValidBuf (src : Str) : Bool × Str × Str :=
  if (tryGetObjBuf src).1 then (true, src.drop (tryGetObjBuf src).2.length, (tryGetObjBuf src).2)
  else (false, src, (tryGetObjBuf src).2)

/-- One test of the loop of `process_data` on `str_stream` and the objects taken so far. -/
def processStep (s : Str × List Str) : Option (Str × List Str) :=
  match getValidBuf s.1 with
  | (true, src, dst) => some (src, s.2 ++ [dst])
  | (false, _, _) => none

/-- `App::process_data`: `str_stream` after the call and the objects taken. -/
def processData (strStream data : Str) : Option (Str × List Str) :=
  iterate processStep ((strStream ++ data).length + 2) (strStream ++ data, [])

/-! ## What a call does -/

/-- A complete object ends somewhere in the text. -/
def Complete (text : Str) : Prop := scanObj text 0 false < text.length

instance (text : Str) : Decidable (Complete text) := inferInstanceAs (Decidable (_ < _))

/-- Without an opening brace the scan runs to the end. -/
theorem scanObj_no_begin {text : Str} (none : countBeginSymbol text = 0) (stack : Int) :
    scanObj text stack false = text.length := by
  induction text generalizing stack with
  | nil => rfl
  | cons b rest ih =>
    obtain ⟨notOpen, later⟩ : b ≠ openBrace ∧ countBeginSymbol rest = 0 := by
      unfold countBeginSymbol at none ⊢
      rw [List.countP_cons] at none
      constructor
      · intro isOpen
        simp [isOpen] at none
      · omega
    simp [scanObj, nextFlg, notOpen, ih later]

theorem tryGetObjBuf_spec (src : Str) : tryGetObjBuf src = (decide (Complete src), src) := by
  unfold tryGetObjBuf Complete
  by_cases begins : 0 < countBeginSymbol src
  · by_cases ends : scanObj src 0 false < src.length
    · simp [begins, ends]
    · simp [begins, ends]
  · have runs := scanObj_no_begin (show countBeginSymbol src = 0 by omega) 0
    simp [begins, runs]

/-- The whole text is handed out as the object. -/
theorem getValidBuf_complete {src : Str} (complete : Complete src) : getValidBuf src = (true, [], src) := by
  simp [getValidBuf, tryGetObjBuf_spec, complete]

theorem getValidBuf_incomplete {src : Str} (incomplete : ¬ Complete src) : getValidBuf src = (false, src, src) := by
  simp [getValidBuf, tryGetObjBuf_spec, incomplete]

/-- The step of the stream machine: a chunk completes the text, which is then one object, or it is
kept. -/
def takeChunk (strStream data : Str) : Str × List Str :=
  if Complete (strStream ++ data) then ([], [strStream ++ data]) else (strStream ++ data, [])

/-- **`process_data` terminates and hands out at most one object, the whole text.** -/
theorem processData_spec (strStream data : Str) :
    processData strStream data = some (takeChunk strStream data) := by
  unfold processData takeChunk
  by_cases complete : Complete (strStream ++ data)
  · rw [if_pos complete, iterate_next (by simp only [processStep, getValidBuf_complete complete]; rfl),
      iterate_exit (by simp [processStep, getValidBuf_incomplete, Complete])]
    rfl
  · rw [if_neg complete, iterate_exit (by simp only [processStep, getValidBuf_incomplete complete])]

/-! ## Runs -/

/-- A command of `process_data`. -/
inductive Command where
  | setConfig (payload : Str)
  | getConfig
  deriving DecidableEq, Repr

/-- The commands executed for an object; `getString` is `DataPacket::get_string` of the parsed
object. -/
def commandsOf (getString : Str → String → Str) (object : Str) : List Command :=
  let cmd := getString object "cmd"
  (if cmd = ascii "set config" then [.setConfig (getString object "data")] else []) ++
    (if cmd = ascii "get config" then [.getConfig] else [])

/-- Calls of `process_data` with the given chunks: `str_stream` at the end and the objects taken. -/
def processChunks (strStream : Str) : List Str → Option (Str × List Str)
  | [] => some (strStream, [])
  | data :: chunks => do
    let (strStream, objects) ← processData strStream data
    let (strStream, more) ← processChunks strStream chunks
    return (strStream, objects ++ more)

theorem processChunks_spec (strStream : Str) (chunks : List Str) :
    processChunks strStream chunks = some (feed takeChunk strStream chunks) := by
  induction chunks generalizing strStream with
  | nil => rfl
  | cons data chunks ih =>
    simp only [processChunks, processData_spec, ih]
    rfl

/-! ## Where an object ends -/

theorem scanObj_cons (b : UInt8) (rest : Str) (stack : Int) (flg : Bool) :
    scanObj (b :: rest) stack flg =
      if nextStack b stack = 0 ∧ nextFlg b flg then 0 else scanObj rest (nextStack b stack) (nextFlg b flg) + 1 := rfl

theorem scanObj_le (text : Str) (stack : Int) (flg : Bool) : scanObj text stack flg ≤ text.length := by
  induction text generalizing stack flg with
  | nil => simp [scanObj]
  | cons b text ih =>
    rw [scanObj_cons, List.length_cons]
    split
    · omega
    · exact Nat.succ_le_succ (ih _ _)

/-- An end that was found stays where it is when more bytes follow. -/
theorem scanObj_append {text : Str} {stack : Int} {flg : Bool} (found : scanObj text stack flg < text.length)
    (more : Str) : scanObj (text ++ more) stack flg = scanObj text stack flg := by
  induction text generalizing stack flg with
  | nil => simp at found
  | cons b text ih =>
    rw [List.cons_append, scanObj_cons, scanObj_cons]
    rw [scanObj_cons, List.length_cons] at found
    split
    · rfl
    · next pending =>
      rw [if_neg pending] at found
      rw [ih (by omega)]

/-- An end is not found before it has come. -/
theorem scanObj_append_open {text : Str} {stack : Int} {flg : Bool} (missing : scanObj text stack flg = text.length)
    (more : Str) : text.length ≤ scanObj (text ++ more) stack flg := by
  induction text generalizing stack flg with
  | nil => simp
  | cons b text ih =>
    rw [List.cons_append, scanObj_cons, List.length_cons]
    rw [scanObj_cons, List.length_cons] at missing
    split
    · next closed => rw [if_pos closed] at missing; omega
    · next pending =>
      rw [if_neg pending] at missing
      exact Nat.succ_le_succ (ih (by omega))

/-- The text up to the end of its first object ends with that object. -/
theorem scanObj_take {text : Str} (complete : Complete text) :
    scanObj (text.take (scanObj text 0 false + 1)) 0 false = scanObj text 0 false := by
  unfold Complete at complete
  have whole := List.take_append_drop (scanObj text 0 false + 1) text
  have length : (text.take (scanObj text 0 false + 1)).length = scanObj text 0 false + 1 := by
    rw [List.length_take]
    omega
  have bound := scanObj_le (text.take (scanObj text 0 false + 1)) 0 false
  rcases Nat.lt_or_eq_of_le bound with found | missing
  · have same := scanObj_append found (text.drop (scanObj text 0 false + 1))
    rw [whole] at same
    exact same.symm
  · have late := scanObj_append_open missing (text.drop (scanObj text 0 false + 1))
    rw [whole, length] at late
    omega

theorem complete_take {text : Str} (complete : Complete text) : Complete (text.take (scanObj text 0 false + 1)) := by
  have ends := scanObj_take complete
  unfold Complete at *
  rw [ends, List.length_take]
  omega

/-! ## Cutting a stream -/

/-- `chunks` are non-empty and make up `text`. -/
def Cutting (text : Str) (chunks : List Str) : Prop := (∀ c ∈ chunks, c ≠ []) ∧ chunks.flatten = text

/-- The first object of the text, if there is one, ends with the text. -/
def EndsWithFirst (text : Str) : Prop := text.length ≤ scanObj text 0 false + 1

/-- The objects of a text taken one after the other, each up to its closing brace, and the rest:
what the stream is meant to be cut into. -/
def extractObjects (text : Str) : Str × List Str :=
  if Complete text then
    let rest := extractObjects (text.drop (scanObj text 0 false + 1))
    (rest.1, text.take (scanObj text 0 false + 1) :: rest.2)
  else (text, [])
termination_by text.length
decreasing_by
  next complete =>
  unfold Complete at complete
  rw [List.length_drop]
  omega

theorem extractObjects_incomplete {text : Str} (incomplete : ¬ Complete text) : extractObjects text = (text, []) := by
  rw [extractObjects, if_neg incomplete]

theorem extractObjects_complete {text : Str} (complete : Complete text) :
    extractObjects text = ((extractObjects (text.drop (scanObj text 0 false + 1))).1,
      text.take (scanObj text 0 false + 1) :: (extractObjects (text.drop (scanObj text 0 false + 1))).2) := by
  rw [extractObjects, if_pos complete]

/-- A text that ends with its first object is that object. -/
theorem extractObjects_single {text : Str} (last : EndsWithFirst text) :
    extractObjects text = if Complete text then ([], [text]) else (text, []) := by
  by_cases complete : Complete text
  · rw [if_pos complete, extractObjects_complete complete, List.drop_eq_nil_of_le last, List.take_of_length_le last,
      extractObjects_incomplete (by simp [Complete])]
  · rw [if_neg complete, extractObjects_incomplete complete]

/-- However a text that ends with its first object is cut, it is collected until it is whole. -/
theorem feed_cutting {strStream : Str} {chunks : List Str} (fill : ∀ c ∈ chunks, c ≠ [])
    (pending : ¬ Complete strStream) (last : EndsWithFirst (strStream ++ chunks.flatten)) :
    feed takeChunk strStream chunks = extractObjects (strStream ++ chunks.flatten) := by
  induction chunks generalizing strStream with
  | nil => rw [List.flatten_nil, List.append_nil, extractObjects_incomplete pending, feed_nil]
  | cons c chunks ih =>
    rw [List.flatten_cons, ← List.append_assoc] at last ⊢
    have later : ∀ c ∈ chunks, c ≠ [] := fun d member => fill d (List.mem_cons_of_mem _ member)
    by_cases complete : Complete (strStream ++ c)
    · have none : chunks.flatten = [] := by
        unfold EndsWithFirst at last
        rw [scanObj_append complete, List.length_append] at last
        unfold Complete at complete
        exact List.eq_nil_of_length_eq_zero (by omega)
      have done : chunks = [] := by
        cases chunks with
        | nil => rfl
        | cons d more => exact absurd (List.flatten_eq_nil_iff.mp none d List.mem_cons_self) (later d List.mem_cons_self)
      subst done
      rw [List.flatten_nil, List.append_nil] at last ⊢
      rw [extractObjects_single last, if_pos complete, feed_cons, takeChunk, if_pos complete]
      rfl
    · rw [← ih later complete last, feed_cons, takeChunk, if_neg complete]
      rfl

/-- A text that goes on behind its first object comes out differently when it is cut there. -/
theorem feed_cut_differs {text : Str} (more : ¬ EndsWithFirst text) :
    feed takeChunk [] [text] ≠
      feed takeChunk [] [text.take (scanObj text 0 false + 1), text.drop (scanObj text 0 false + 1)] := by
  unfold EndsWithFirst at more
  have complete : Complete text := by
    unfold Complete
    omega
  intro same
  have objects := congrArg (fun r => r.2.head?.map List.length) same
  simp only [feed_cons, takeChunk, List.nil_append, if_pos complete, if_pos (complete_take complete)] at objects
  simp at objects
  omega

/-- **When cutting does not matter.** All ways of cutting a stream into non-empty chunks give the
same `str_stream`, objects and commands, namely the objects of the stream one after the other, if
and only if the first object of the stream, should there be one, is also its end. -/
theorem chunking_independent_iff (getString : Str → String → Str) (text : Str) :
    ((∀ a b, Cutting text a → Cutting text b →
        ∃ strStream objects, processChunks [] a = some (strStream, objects) ∧
          processChunks [] b = some (strStream, objects)) ∧
      (∀ a, Cutting text a → ∃ strStream objects, processChunks [] a = some (strStream, objects) ∧
        (strStream, objects) = extractObjects text ∧
        objects.flatMap (commandsOf getString) = (extractObjects text).2.flatMap (commandsOf getString))) ↔
      EndsWithFirst text := by
  simp only [processChunks_spec]
  constructor
  · rintro ⟨agree, _⟩
    by_contra more
    have nonempty : text ≠ [] := by
      rintro rfl
      exact more (by simp [EndsWithFirst])
    have whole : Cutting text [text] := ⟨by simpa using nonempty, by simp⟩
    have halves : Cutting text [text.take (scanObj text 0 false + 1), text.drop (scanObj text 0 false + 1)] := by
      unfold EndsWithFirst at more
      refine ⟨?_, by simp⟩
      simp only [List.mem_cons, List.not_mem_nil, or_false, forall_eq_or_imp, forall_eq]
      refine ⟨?_, ?_⟩
      · simpa [List.take_eq_nil_iff] using nonempty
      · rw [Ne, List.drop_eq_nil_iff]
        omega
    obtain ⟨strStream, objects, first, second⟩ := agree _ _ whole halves
    exact feed_cut_differs more (Option.some.inj (first.trans second.symm))
  · intro last
    have every {a : List Str} (cut : Cutting text a) : feed takeChunk [] a = extractObjects text := by
      obtain ⟨fill, rfl⟩ := cut
      exact feed_cutting fill (by simp [Complete]) last
    refine ⟨fun a b cutA cutB => ⟨_, _, congrArg some (every cutA), congrArg some (every cutB)⟩, fun a cut => ?_⟩
    exact ⟨_, _, congrArg some (every cut), rfl, rfl⟩

/-- Two objects in one chunk are taken as one. -/
theorem two_objects_cut :
    Cutting (ascii "\x7b\x7d\x7b\x7d") [ascii "\x7b\x7d\x7b\x7d"] ∧
      Cutting (ascii "\x7b\x7d\x7b\x7d") [ascii "\x7b\x7d", ascii "\x7b\x7d"] ∧
      processChunks [] [ascii "\x7b\x7d\x7b\x7d"] = some ([], [ascii "\x7b\x7d\x7b\x7d"]) ∧
      processChunks [] [ascii "\x7b\x7d", ascii "\x7b\x7d"] =
        some ([], [ascii "\x7b\x7d", ascii "\x7b\x7d"]) ∧
      [ascii "\x7b\x7d\x7b\x7d"] ≠ [ascii "\x7b\x7d", ascii "\x7b\x7d"] := by
  unfold Cutting
  decide

end VideoDetector.Json
