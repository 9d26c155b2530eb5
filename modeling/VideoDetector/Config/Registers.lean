import VideoDetector.Config.Steps
import VideoDetector.Lib.Registers

/-!
# The configuration server as a register file

The registers are the stored objects in network encoding. A set request writes the register it
names with the object bytes of its own message, a get request reads one, and no other request
writes any.
-/

namespace VideoDetector.Config
set_option autoImplicit false
open Lib

/-- A request with the answers of the system during it. -/
structure Request where
  env : Env
  buf : Mem
  len : Int
  ip : Ip

def Request.handle (s : State) (r : Request) : Except Fault Outcome := handleBuffer r.env s r.buf r.len r.ip

/-- Calls of `handle_buffer` with the requests in order. -/
def handleAll (s : State) (reqs : List Request) : Except Fault (State × List Outcome) :=
  serveAll Request.handle Outcome.state s reqs

/-- The network encoding of a stored object. -/
def State.wire (s : State) (k : Key) : List UInt8 := k.layout.convertBytes (s.bytes k)

/-- The object bytes of the last request that sets `k`. -/
def lastSet (k : Key) (reqs : List Request) : Option (List UInt8) :=
  lastWrite (fun r => (setKey r.buf).map fun k => (k, payload r.buf k.cls)) k reqs

theorem payload_length (buf : Mem) (k : Key) : (payload buf k.cls).length = k.layout.size := by
  rw [payload, bytesAt_length, getObjLen_size]
  rfl

/-- A request writes the register it sets. -/
theorem Stepped.wire {s : State} {buf : Mem} {o : Outcome} (stepped : Stepped s buf o) (k : Key) :
    o.state.wire k = if setKey buf = some k then payload buf k.cls else s.wire k := by
  unfold State.wire
  rw [stepped.store k]
  split
  · rw [Layout.convertBytes_convertBytes (payload_length buf k)]
  · rfl

/-- The effect of a valid request that was carried out. -/
theorem Request.stepped {r : Request} {s : State} {o : Outcome} (valid : Valid r.buf) (done : r.handle s = .ok o) :
    Stepped s r.buf o := (ok_iff done).mp (handleBuffer_step r.env s r.buf r.len r.ip valid)

/-- The step of the register file. -/
theorem Request.writes (s : State) (r : Request) (valid : Valid r.buf) :
    ∃ o, r.handle s = .ok o ∧ ∀ k, o.state.wire k =
      (((setKey r.buf).map fun k => (k, payload r.buf k.cls)).bind
        fun w => if w.1 = k then some w.2 else none).getD (s.wire k) := by
  obtain ⟨o, done, stepped⟩ := handleBuffer_step r.env s r.buf r.len r.ip valid
  refine ⟨o, done, fun k => ?_⟩
  rw [stepped.wire k]
  cases setKey r.buf with
  | none => simp
  | some k' =>
    by_cases same : k' = k
    · simp [same]
    · simp [same]

/-- **The server is a register file.** In every run of valid requests from a state that
`init_config` made, the reply to a get request carries the bytes of the last set request for the
same object, or the network encoding of the object that was loaded; and a request changes the
answers about no other object than the one it sets. -/
theorem register_file (env : Env) (files : StoredClass → Option (List UInt8)) (reqs : List Request)
    (valid : ∀ r ∈ reqs, Valid r.buf) :
    ∃ final outcomes, handleAll (initConfig env files) reqs = .ok (final, outcomes) ∧
      outcomes.length = reqs.length ∧
      ∀ i r o, reqs[i]? = some r → outcomes[i]? = some o →
        (∀ k, getKey r.buf = some k →
          payload o.buf k.cls = (lastSet k (reqs.take i)).getD ((initConfig env files).wire k)) ∧
        ∃ before outs, handleAll (initConfig env files) (reqs.take i) = .ok (before, outs) ∧
          r.handle before = .ok o ∧ ∀ k, setKey r.buf ≠ some k → o.state.wire k = before.wire k := by
  obtain ⟨final, outcomes, run, length, met⟩ :=
    serveAll_registers (fun s r => Request.writes s r) valid (initConfig env files)
  refine ⟨final, outcomes, run, length, fun i r o there here => ?_⟩
  obtain ⟨before, outs, reached, done, held⟩ := met i r o there here
  have stepped := Request.stepped (valid r (List.mem_of_getElem? there)) done
  refine ⟨fun k asked => (stepped.reply k asked).trans (held k), before, outs, reached, done, fun k other => ?_⟩
  rw [stepped.wire k, if_neg other]

/-- An address of zeros. -/
def zeroIp : Ip := ⟨List.replicate ipAddrMax 0, List.length_replicate⟩

/-- A request for the parameters of camera 5. -/
def getCamParam5 : Request :=
  { env := default
    buf := storeBytes (fun _ => 0) 0 [0x01, 0x02, 0x00, 0x05, 0x00, 0x02]
    len := 10
    ip := zeroIp }

theorem register_file_getCamParam5 :
    (∀ r ∈ [getCamParam5], Valid r.buf) ∧
      ∃ final outcomes, handleAll (initConfig default fun _ => none) [getCamParam5] = .ok (final, outcomes) ∧
        outcomes.length = 1 ∧
        ∀ i r o, [getCamParam5][i]? = some r → outcomes[i]? = some o →
          (∀ k, getKey r.buf = some k →
            payload o.buf k.cls =
              (lastSet k ([getCamParam5].take i)).getD ((initConfig default fun _ => none).wire k)) ∧
          ∃ before outs, handleAll (initConfig default fun _ => none) ([getCamParam5].take i) = .ok (before, outs) ∧
            r.handle before = .ok o ∧ ∀ k, setKey r.buf ≠ some k → o.state.wire k = before.wire k := by
  have valid : ∀ r ∈ [getCamParam5], Valid r.buf := by
    intro r member
    cases List.mem_singleton.mp member
    unfold Valid
    rw [indexOf_bytes]
    intro _
    decide
  exact ⟨valid, register_file default (fun _ => none) [getCamParam5] valid⟩

end VideoDetector.Config
