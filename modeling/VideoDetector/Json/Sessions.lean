import VideoDetector.Json.Stream

/-!
# Several sessions on one stream (`App::process_data` in `Pvd/app.h`)

Every session hands its chunks to the one `process_data` of the application, which collects them in
the one `str_stream`. The run below keeps, for each object, the session it is executed for.
-/

namespace VideoDetector.Json
set_option autoImplicit false
open Lib

section
variable {Session : Type}

/-- Calls `process_data(clt, data)` in the order of the run: `str_stream` at the end and the
objects taken, each with the session on whose behalf it is executed. -/
def processSessions (strStream : Str) : List (Session × Str) → Option (Str × List (Session × Str))
  | [] => some (strStream, [])
  | (clt, data) :: run => do
    let (strStream, objects) ← processData strStream data
    let (strStream, more) ← processSessions strStream run
    return (strStream, objects.map (fun object => (clt, object)) ++ more)

theorem processSessions_spec (strStream : Str) (run : List (Session × Str)) :
    processSessions strStream run = some (feed (shared takeChunk) strStream run) := by
  induction run generalizing strStream with
  | nil => rfl
  | cons call run ih =>
    simp only [processSessions, processData_spec, ih]
    rfl

variable [DecidableEq Session]

/-- **Isolation of exclusive runs.** If every chunk finds `str_stream` empty or filled by its own
session, then at every moment of the run the objects and commands executed for a session are those
its own chunks give when no other session is there. -/
theorem sessions_isolated (getString : Str → String → Str) (run : List (Session × Str))
    (exclusive : Exclusive takeChunk [] none [] run) :
    ∀ before after, run = before ++ after → ∀ clt : Session, ∃ strStream objects own alone,
      processSessions [] before = some (strStream, objects) ∧
      processChunks [] (ofSession clt before) = some (own, alone) ∧
      ofSession clt objects = alone ∧
      (ofSession clt objects).flatMap (commandsOf getString) = alone.flatMap (commandsOf getString) := by
  rintro before after rfl clt
  have apart := shared_isolated exclusive.initial clt
  rw [if_neg (by simp)] at apart
  refine ⟨_, _, _, _, processSessions_spec [] before, processChunks_spec [] (ofSession clt before), apart, ?_⟩
  rw [apart]

end

/-- `get_string` on the one object the runs below carry. -/
def sampleGetString (object : Str) (key : String) : Str :=
  if object = ascii "\x7b\"cmd\":\"get config\"\x7d" ∧ key = "cmd" then ascii "get config" else []

/-- Session 1 sends its object in two chunks and session 2 follows. -/
def exclusiveRun : List (Nat × Str) :=
  [(1, ascii "\x7b\"cmd\":\"ge"), (1, ascii "t config\"\x7d"), (2, ascii "\x7b\"cmd\":\"ge")]

theorem sessions_isolated_exclusiveRun :
    Exclusive takeChunk [] none [] exclusiveRun ∧
      ∀ before after, exclusiveRun = before ++ after → ∀ clt, ∃ strStream objects own alone,
        processSessions [] before = some (strStream, objects) ∧
        processChunks [] (ofSession clt before) = some (own, alone) ∧
        ofSession clt objects = alone ∧
        (ofSession clt objects).flatMap (commandsOf sampleGetString) = alone.flatMap (commandsOf sampleGetString) := by
  have exclusive : Exclusive takeChunk [] none [] exclusiveRun :=
    ⟨.inl rfl, .inr rfl, .inl (by decide), trivial⟩
  exact ⟨exclusive, sessions_isolated sampleGetString exclusiveRun exclusive⟩

/-- Two sessions send the same object in chunks of ten bytes, in turn. -/
def crossedRun : List (Nat × Str) :=
  [(1, ascii "\x7b\"cmd\":\"ge"), (2, ascii "\x7b\"cmd\":\"ge"), (1, ascii "t config\"\x7d"), (2, ascii "t config\"\x7d")]

/-- The chunks of session 2 take the command of session 1 away. -/
theorem crossedRun_loses_command :
    (processSessions [] crossedRun).map (fun r => (ofSession 1 r.2).flatMap (commandsOf sampleGetString)) = some [] ∧
      (processChunks [] (ofSession 1 crossedRun)).map (fun r => r.2.flatMap (commandsOf sampleGetString)) =
        some [.getConfig] := by
  decide

end VideoDetector.Json
