import VideoDetector.Json.RoundTrip
import VideoDetector.Lib.Registers
import VideoDetector.Pvd.ConfigStore

/-!
# Setting and getting the configuration (`App::process_data` in `Pvd/app.h`, `DataPacket` in `Pvd/pvd.h`)

An object of the stream is parsed, its command is executed on the file, and the answer is a text again. `config_commands` says that
the clients see a single value: what is set last is what is got, as it is read from its text.
-/

namespace VideoDetector.Json
set_option autoImplicit false
open Lib

/-- How the handling of an object fails: by the parser, by `asString`, by `operator[]`, or when the file is written. -/
inductive ConfigFault where
  | read (fault : ReadFault)
  | notConvertible
  | requiresObject
  | store (fault : Pvd.StoreFault)
  deriving DecidableEq

/-- An object that was taken out of the stream, and what becomes of the file if it is written. -/
structure ConfigMessage where
  object : Str
  writing : Pvd.Writing

section
variable {R : Type} (doubles : Doubles R) (slack : Str → Str)

/-- The constructor of `DataPacket` from a text. The result of `parse` is not looked at. -/
def packetOf (text : Str) : Except ConfigFault (Value R) :=
  match parse doubles text (slack text) .null with
  | .ok r => .ok r.value
  | .error fault => .error (.read fault)

/-- `Value::asString`. -/
def Value.asString : Value R → Except ConfigFault Str
  | .null => .ok []
  | .string s => .ok s
  | .bool b => .ok (ascii (if b then "true" else "false"))
  | .int n => .ok (valueToString n)
  | .uint n => .ok (uintToString n)
  | .real r => .ok (doubles.print r)
  | _ => .error .notConvertible

/-- `get_value`. -/
def Value.getValue (v : Value R) (name : Str) : Except ConfigFault (Value R) :=
  match v with
  | .null => .ok .null
  | .object members => .ok (memberAt name members)
  | _ => .error .requiresObject

/-- `get_string`. -/
def Value.getString (v : Value R) (name : Str) : Except ConfigFault Str := do
  let member ← v.getValue name
  member.asString doubles

/-- The packet of `ConfigManager::get_config`. -/
def configPacket (files : Pvd.Files) : Except ConfigFault (Value R) := Pvd.getConfig (packetOf doubles slack) (.ok .null) files

/-- `set_config` with the text of a packet. -/
def storeData (packet : Value R) (writing : Pvd.Writing) (files : Pvd.Files) : Except ConfigFault Pvd.Files := do
  let cfg ← packet.getString doubles (ascii "data")
  (Pvd.setConfig files ⟨cfg, writing⟩).mapError .store

/-- The test for `set config`. -/
def setCommand (packet : Value R) (cmd : Str) (writing : Pvd.Writing) (files : Pvd.Files) : Except ConfigFault Pvd.Files :=
  if cmd = ascii "set config" then storeData doubles packet writing files else .ok files

/-- The test for `get config`, with the texts that are sent. -/
def getCommand (cmd : Str) (files : Pvd.Files) : Except ConfigFault (List Str) :=
  if cmd = ascii "get config" then (configPacket doubles slack files).map fun config => [fastWriter doubles config] else .ok []

/-- The body of the loop of `process_data`: the files, and the texts that are sent. -/
def handleObject (files : Pvd.Files) (message : ConfigMessage) : Except ConfigFault (Pvd.Files × List Str) := do
  let packet ← packetOf doubles slack message.object
  let cmd ← packet.getString doubles (ascii "cmd")
  let files ← setCommand doubles packet cmd message.writing files
  let sent ← getCommand doubles slack cmd files
  return (files, sent)

end

/-! ## Requests -/

/-- What a client asks for. A configuration that is set is written to the file up to so many bytes. -/
inductive ConfigRequest (R : Type) where
  | set (config : Value R) (room : Nat)
  | get

section
variable {R : Type} (doubles : Doubles R)

/-- The packet of a request; the configuration is a text in it. -/
def ConfigRequest.packet : ConfigRequest R → Value R
  | .set config _ => .object [(ascii "cmd", .string (ascii "set config")), (ascii "data", .string (fastWriter doubles config))]
  | .get => .object [(ascii "cmd", .string (ascii "get config"))]

/-- What becomes of the file. -/
def ConfigRequest.writing : ConfigRequest R → Pvd.Writing
  | .set _ room => .writes room
  | .get => .fails

/-- The message of a request. -/
def ConfigRequest.message (request : ConfigRequest R) : ConfigMessage :=
  ⟨fastWriter doubles (request.packet doubles), request.writing⟩

/-- The configuration is a value of the library with at most `stackLimit` levels, and there is room for its text. -/
def ConfigRequest.Settable : ConfigRequest R → Prop
  | .set config room => config.Proper doubles ∧ config.depth ≤ stackLimit ∧ (fastWriter doubles config).length ≤ room
  | .get => True

/-- What the clients see: a single value that is set and got. -/
def answer (config : Value R) : ConfigRequest R → Value R × List Str
  | .set new _ => (new.reread doubles, [])
  | .get => (config, [fastWriter doubles config])

/-- The answers to a sequence of requests. -/
def answers (config : Value R) : List (ConfigRequest R) → List (List Str)
  | [] => []
  | request :: later => (answer doubles config request).2 :: answers (answer doubles config request).1 later

end

section
variable {R : Type} {doubles : Doubles R} {slack : Str → Str}

theorem packetOf_written {v : Value R} (proper : v.Proper doubles) (shallow : v.depth ≤ stackLimit) :
    packetOf doubles slack (fastWriter doubles v) = .ok (v.reread doubles) := by
  rw [packetOf, parse_written proper, if_pos shallow]

theorem fastWriter_nonzero {v : Value R} (proper : v.Proper doubles) : (0 : UInt8) ∉ fastWriter doubles v := by
  intro member
  rcases List.mem_append.mp member with inside | last
  · exact absurd (write_graphic proper 0 inside) (by decide)
  · exact absurd (List.mem_singleton.mp last) (by decide)

theorem packet_written (request : ConfigRequest R) :
    packetOf doubles slack (fastWriter doubles (request.packet doubles)) = .ok (request.packet doubles) := by
  cases request with
  | set config room =>
    apply packetOf_written
    · refine .object ?_ ?_
      · refine List.pairwise_cons.mpr ⟨fun m member => ?_, List.pairwise_singleton _ _⟩
        rw [List.mem_singleton.mp member]
        show ascii "cmd" < ascii "data"
        decide
      · simp only [List.forall_mem_cons]
        exact ⟨.string _, .string _, List.forall_mem_nil _⟩
    · show 2 ≤ 1000
      decide
  | get =>
    apply packetOf_written
    · refine .object (List.pairwise_singleton _ _) ?_
      simp only [List.forall_mem_cons]
      exact ⟨.string _, List.forall_mem_nil _⟩
    · show 2 ≤ 1000
      decide

/-- The file has what was set. -/
theorem configPacket_set (slack : Str → Str) (files : Pvd.Files) {v : Value R} {room : Nat} (proper : v.Proper doubles)
    (shallow : v.depth ≤ stackLimit) (fits : (fastWriter doubles v).length ≤ room) :
    ∃ files', Pvd.setConfig files ⟨fastWriter doubles v, .writes room⟩ = .ok files' ∧
      configPacket doubles slack files' = .ok (v.reread doubles) := by
  refine ⟨_, rfl, ?_⟩
  rw [configPacket, Pvd.getConfig, Pvd.loadConfig_set, Pvd.take_filter_eq_iff.mpr ⟨fastWriter_nonzero proper, fits⟩]
  exact packetOf_written proper shallow

/-- A request is answered as by the single value. -/
theorem handleObject_answer {files : Pvd.Files} {config : Value R} {request : ConfigRequest R} (settable : request.Settable doubles)
    (now : configPacket doubles slack files = .ok config) :
    ∃ files', handleObject doubles slack files (request.message doubles) = .ok (files', (answer doubles config request).2) ∧
      configPacket doubles slack files' = .ok (answer doubles config request).1 := by
  rw [handleObject, ConfigRequest.message, packet_written, ok_bind]
  cases request with
  | set new room =>
    obtain ⟨proper, shallow, fits⟩ := settable
    obtain ⟨files', stored, read⟩ := configPacket_set slack files proper shallow fits
    refine ⟨files', ?_, read⟩
    have cmd : ((ConfigRequest.set new room).packet doubles).getString doubles (ascii "cmd") = .ok (ascii "set config") := rfl
    have data : ((ConfigRequest.set new room).packet doubles).getString doubles (ascii "data") = .ok (fastWriter doubles new) :=
      rfl
    have written : setCommand doubles ((ConfigRequest.set new room).packet doubles) (ascii "set config") (.writes room) files =
        .ok files' := by
      rw [setCommand, if_pos rfl, storeData, data, ok_bind, stored]
      rfl
    have silent : getCommand doubles slack (ascii "set config") files' = .ok [] := if_neg (by decide)
    rw [cmd, ok_bind]
    dsimp only [ConfigRequest.writing]
    rw [written, ok_bind, silent, ok_bind]
    rfl
  | get =>
    refine ⟨files, ?_, now⟩
    have cmd : ((.get : ConfigRequest R).packet doubles).getString doubles (ascii "cmd") = .ok (ascii "get config") := rfl
    have same : setCommand doubles ((.get : ConfigRequest R).packet doubles) (ascii "get config") .fails files = .ok files :=
      if_neg (by decide)
    have sent : getCommand doubles slack (ascii "get config") files = .ok [fastWriter doubles config] := by
      rw [getCommand, if_pos rfl, now]
      rfl
    rw [cmd, ok_bind]
    dsimp only [ConfigRequest.writing]
    rw [same, ok_bind, sent, ok_bind]
    rfl

/-- **The clients see a single value.** From any file whose configuration can be read, every sequence of requests is served
without a fault, and answered as if one value were set and got: a set value is the one that is read from its text. -/
theorem config_commands {files : Pvd.Files} {config : Value R} {requests : List (ConfigRequest R)}
    (settable : ∀ request ∈ requests, request.Settable doubles) (now : configPacket doubles slack files = .ok config) :
    ∃ files' outcomes, serveAll (handleObject doubles slack) Prod.fst files (requests.map (ConfigRequest.message doubles)) =
        .ok (files', outcomes) ∧
      outcomes.map Prod.snd = answers doubles config requests := by
  induction requests generalizing files config with
  | nil => exact ⟨files, [], rfl, rfl⟩
  | cons request later ih =>
    obtain ⟨first, others⟩ := List.forall_mem_cons.mp settable
    obtain ⟨between, done, next⟩ := handleObject_answer first now
    obtain ⟨files', outcomes, run, sent⟩ := ih others next
    refine ⟨files', _, serveAll_cons done run, ?_⟩
    rw [List.map_cons, sent, answers]

end

/-- A packet is set and got, where there was no file. -/
def packetRequests : List (ConfigRequest Unit) := [.get, .set packet (fastWriter halves packet).length, .get]

theorem packet_served :
    ∃ files' outcomes,
      serveAll (handleObject halves fun _ => [0]) Prod.fst (fun _ => none) (packetRequests.map (ConfigRequest.message halves)) =
          .ok (files', outcomes) ∧
        outcomes.map Prod.snd = answers halves .null packetRequests := by
  refine config_commands ?_ rfl
  simp only [packetRequests, List.forall_mem_cons]
  exact ⟨trivial, ⟨packet_proper, by decide, Nat.le_refl _⟩, trivial, List.forall_mem_nil _⟩

end VideoDetector.Json
