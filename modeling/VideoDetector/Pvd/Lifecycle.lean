import VideoDetector.Lib.Runs

/-!
# Sessions of the TCP server (`Session` and `Tcpserver` in `Pvd/server.h`)

The constructor of a `Session` starts its receive thread; only then does `Tcpserver::listen` install the two
callbacks and put the session into `clients`. The listener and the threads of the sessions are interleaved in any
way, each assignment, call and return of a `recv` being one step. `lifecycle_iff` says which runs treat every session
as they should.
-/

namespace VideoDetector.Pvd
set_option autoImplicit false
open Lib

/-- `BUF_SIZE`. -/
def bufSize : Nat := 10

/-- What `RecvDataByTcp1` returns when it does not return 0. -/
abbrev Chunk := { bytes : List UInt8 // 0 < bytes.length ∧ bytes.length ≤ bufSize }

/-- Where the receive thread of a session is. -/
inductive Phase where
  | unborn
  | waiting
  | got (chunk : Chunk)
  | ending
  | ended
  deriving DecidableEq

/-- What `process_data` is: the function a session is born with, or the handler of the server. -/
inductive ProcessData where
  | printOnly | fct
  deriving DecidableEq

/-- What `end_this` is. -/
inductive EndThis where
  | canQuit | quitSession
  deriving DecidableEq

/-- A session: its thread, its callbacks, the chunks received, those given to the handler of the server, and how often
it was erased from `clients`. -/
structure Session where
  phase : Phase
  processData : ProcessData
  endThis : EndThis
  received : List Chunk
  delivered : List Chunk
  erased : Nat

/-- Where `listen` is, with the session it is working on. -/
inductive Listener where
  | waiting
  | constructed (i : Nat)
  | endInstalled (i : Nat)
  | dataInstalled (i : Nat)
  deriving DecidableEq

/-- The server. Sessions are numbered in the order of their construction; `fault` is set by an `erase` of `end()`. -/
structure Server where
  listener : Listener
  sessions : Nat → Session
  next : Nat
  clients : List Nat
  fault : Bool

inductive Action where
  | accept
  | installEnd
  | installData
  | push
  | recv (i : Nat) (chunk : Chunk)
  | deliver (i : Nat)
  | eof (i : Nat)
  | finish (i : Nat)

def Session.absent : Session :=
  { phase := .unborn, processData := .printOnly, endThis := .canQuit, received := [], delivered := [], erased := 0 }

/-- The server before the first connection. -/
def Server.start : Server :=
  { listener := .waiting, sessions := fun _ => Session.absent, next := 0, clients := [], fault := false }

def Server.set (s : Server) (i : Nat) (x : Session) : Server := { s with sessions := Function.update s.sessions i x }

/-- `quit_session`. An absent session is looked for in vain and `end()` is erased. -/
def quitSession (s : Server) (i : Nat) : Server :=
  if i ∈ s.clients then
    { s.set i { s.sessions i with erased := (s.sessions i).erased + 1 } with clients := s.clients.erase i }
  else { s with fault := true }

/-- A step of the listener or of the thread of a session; nothing happens if it is elsewhere. -/
def step (s : Server) : Action → Server
  | .accept =>
    match s.listener with
    | .waiting =>
      { s.set s.next { Session.absent with phase := .waiting } with listener := .constructed s.next, next := s.next + 1 }
    | _ => s
  | .installEnd =>
    match s.listener with
    | .constructed i => { s.set i { s.sessions i with endThis := .quitSession } with listener := .endInstalled i }
    | _ => s
  | .installData =>
    match s.listener with
    | .endInstalled i => { s.set i { s.sessions i with processData := .fct } with listener := .dataInstalled i }
    | _ => s
  | .push =>
    match s.listener with
    | .dataInstalled i => { s with clients := s.clients ++ [i], listener := .waiting }
    | _ => s
  | .recv i chunk =>
    match (s.sessions i).phase with
    | .waiting =>
      s.set i { s.sessions i with phase := .got chunk, received := (s.sessions i).received ++ [chunk] }
    | _ => s
  | .deliver i =>
    match (s.sessions i).phase with
    | .got chunk =>
      match (s.sessions i).processData with
      | .printOnly => s.set i { s.sessions i with phase := .waiting }
      | .fct => s.set i { s.sessions i with phase := .waiting, delivered := (s.sessions i).delivered ++ [chunk] }
    | _ => s
  | .eof i =>
    match (s.sessions i).phase with
    | .waiting => s.set i { s.sessions i with phase := .ending }
    | _ => s
  | .finish i =>
    match (s.sessions i).phase with
    | .ending =>
      let s' := s.set i { s.sessions i with phase := .ended }
      match (s.sessions i).endThis with
      | .canQuit => s'
      | .quitSession => quitSession s' i
    | _ => s

/-- The state after a run. -/
def run (actions : List Action) : Server := actions.foldl step Server.start

/-! ## What a session is to be treated like -/

/-- A chunk that the thread has and has not handed on. -/
def Phase.pending : Phase → List Chunk
  | got chunk => [chunk]
  | _ => []

/-- All chunks so far were delivered in order; the session was erased exactly once if its thread has ended, and then it
is no longer a client. -/
structure Session.Right (x : Session) (here : Prop) : Prop where
  delivered : x.delivered ++ x.phase.pending = x.received
  erased : x.erased = if x.phase = .ended then 1 else 0
  gone : x.phase = .ended → ¬ here

/-- Every session is treated right and nothing absent was erased. -/
structure Lifecycle (s : Server) : Prop where
  sessions : ∀ i, (s.sessions i).Right (i ∈ s.clients)
  sound : s.fault = false

/-- The callbacks are there when they are called, and the session is a client when its thread ends. -/
def Timely (s : Server) : Action → Prop
  | .deliver i => (∃ chunk, (s.sessions i).phase = .got chunk) → (s.sessions i).processData = .fct
  | .finish i => (s.sessions i).phase = .ending → i ∈ s.clients
  | _ => True

/-- The session that the listener has not put into `clients` yet. -/
def Listener.current : Listener → Option Nat
  | waiting => none
  | constructed i | endInstalled i | dataInstalled i => some i

/-- What holds in every state of a timely run. -/
structure LifecycleInv (s : Server) : Prop where
  lifecycle : Lifecycle s
  future : ∀ i, s.next ≤ i → s.sessions i = Session.absent ∧ i ∉ s.clients
  current : ∀ i, s.listener.current = some i → i < s.next ∧ i ∉ s.clients ∧ (s.sessions i).phase ≠ .ended
  ends : ∀ i, s.listener = .endInstalled i ∨ s.listener = .dataInstalled i → (s.sessions i).endThis = .quitSession
  clients : ∀ i ∈ s.clients, (s.sessions i).endThis = .quitSession
  distinct : s.clients.Nodup

/-! ## Steps -/

@[simp] theorem Server.set_same (s : Server) (i : Nat) (x : Session) : (s.set i x).sessions i = x := by
  simp [Server.set]

theorem Server.set_other (s : Server) {i k : Nat} (x : Session) (other : k ≠ i) :
    (s.set i x).sessions k = s.sessions k := by
  simp [Server.set, other]

theorem lifecycleInv_start : LifecycleInv Server.start where
  lifecycle := ⟨fun _ => ⟨rfl, rfl, nofun⟩, rfl⟩
  future := fun _ _ => ⟨rfl, List.not_mem_nil⟩
  current := nofun
  ends := by rintro i (isEnd | isData) <;> contradiction
  clients := nofun
  distinct := List.nodup_nil

/-- A session with a thread has been constructed. -/
theorem LifecycleInv.born {s : Server} (inv : LifecycleInv s) {i : Nat} (alive : (s.sessions i).phase ≠ .unborn) :
    i < s.next := by
  by_contra late
  apply alive
  rw [(inv.future i (Nat.le_of_not_lt late)).1]
  rfl

/-- A change to a single session. -/
theorem LifecycleInv.set {s : Server} (inv : LifecycleInv s) {i : Nat} {x : Session} (born : i < s.next)
    (right : x.Right (i ∈ s.clients)) (endThis : x.endThis = (s.sessions i).endThis ∨ x.endThis = .quitSession)
    (alive : s.listener.current = some i → x.phase ≠ .ended) : LifecycleInv (s.set i x) := by
  have installed {k : Nat} (before : (s.sessions k).endThis = .quitSession) :
      ((s.set i x).sessions k).endThis = .quitSession := by
    by_cases same : k = i
    · subst same
      rw [Server.set_same]
      exact endThis.elim (fun kept => kept.trans before) id
    · rwa [Server.set_other s x same]
  refine ⟨⟨fun k => ?_, inv.lifecycle.sound⟩, fun k late => ?_, fun k now => ?_, fun k now => installed (inv.ends k now),
    fun k there => installed (inv.clients k there), inv.distinct⟩
  · by_cases same : k = i
    · subst same
      rwa [Server.set_same]
    · rw [Server.set_other s x same]
      exact inv.lifecycle.sessions k
  · have late' : s.next ≤ k := late
    rw [Server.set_other s x (by omega)]
    exact inv.future k late
  · obtain ⟨young, absent, running⟩ := inv.current k now
    refine ⟨young, absent, ?_⟩
    by_cases same : k = i
    · subst same
      rw [Server.set_same]
      exact alive now
    · rwa [Server.set_other s x same]

theorem LifecycleInv.recv {s : Server} (inv : LifecycleInv s) (i : Nat) (chunk : Chunk) :
    LifecycleInv (step s (.recv i chunk)) := by
  simp only [step]
  split
  · next waiting =>
    have right := inv.lifecycle.sessions i
    refine inv.set (inv.born (by rw [waiting]; decide)) ⟨?_, ?_, nofun⟩ (.inl rfl) (fun _ => nofun)
    · have before := right.delivered
      rw [waiting] at before
      simpa [Phase.pending] using before
    · have before := right.erased
      rw [waiting] at before
      simpa using before
  · exact inv

theorem LifecycleInv.eof {s : Server} (inv : LifecycleInv s) (i : Nat) : LifecycleInv (step s (.eof i)) := by
  simp only [step]
  split
  · next waiting =>
    have right := inv.lifecycle.sessions i
    refine inv.set (inv.born (by rw [waiting]; decide)) ⟨?_, ?_, nofun⟩ (.inl rfl) (fun _ => nofun)
    · have before := right.delivered
      rw [waiting] at before
      exact before
    · have before := right.erased
      rw [waiting] at before
      exact before
  · exact inv

theorem LifecycleInv.deliver {s : Server} (inv : LifecycleInv s) (i : Nat) (timely : Timely s (.deliver i)) :
    LifecycleInv (step s (.deliver i)) := by
  simp only [step]
  split
  · next chunk got =>
    rw [timely ⟨chunk, got⟩]
    have right := inv.lifecycle.sessions i
    refine inv.set (inv.born (by rw [got]; nofun)) ⟨?_, ?_, nofun⟩ (.inl rfl) (fun _ => nofun)
    · have before := right.delivered
      rw [got] at before
      simpa [Phase.pending] using before
    · have before := right.erased
      rw [got] at before
      exact before
  · exact inv

/-- Another position of the listener, on the same session. -/
theorem LifecycleInv.listen {s : Server} (inv : LifecycleInv s) {l : Listener} (same : l.current = s.listener.current)
    (ends : ∀ i, l = .endInstalled i ∨ l = .dataInstalled i → (s.sessions i).endThis = .quitSession) :
    LifecycleInv { s with listener := l } :=
  ⟨⟨inv.lifecycle.sessions, inv.lifecycle.sound⟩, inv.future, fun k now => inv.current k (same.symm.trans now), ends,
    inv.clients, inv.distinct⟩

theorem LifecycleInv.installEnd {s : Server} (inv : LifecycleInv s) : LifecycleInv (step s .installEnd) := by
  simp only [step]
  split
  · next i constructed =>
    have now : s.listener.current = some i := by rw [constructed]; rfl
    obtain ⟨born, _, running⟩ := inv.current i now
    have right := inv.lifecycle.sessions i
    have changed := inv.set (x := { s.sessions i with endThis := .quitSession }) born
      ⟨right.delivered, right.erased, right.gone⟩ (.inr rfl) (fun _ => running)
    refine changed.listen now.symm ?_
    rintro k (isEnd | isData)
    · cases isEnd
      rw [Server.set_same]
    · cases isData
  · exact inv

theorem LifecycleInv.installData {s : Server} (inv : LifecycleInv s) : LifecycleInv (step s .installData) := by
  simp only [step]
  split
  · next i installed =>
    have now : s.listener.current = some i := by rw [installed]; rfl
    obtain ⟨born, _, running⟩ := inv.current i now
    have right := inv.lifecycle.sessions i
    have changed := inv.set (x := { s.sessions i with processData := .fct }) born
      ⟨right.delivered, right.erased, right.gone⟩ (.inl rfl) (fun _ => running)
    refine changed.listen now.symm ?_
    rintro k (isEnd | isData)
    · cases isEnd
    · cases isData
      rw [Server.set_same]
      exact inv.ends i (.inl installed)
  · exact inv

theorem LifecycleInv.push {s : Server} (inv : LifecycleInv s) : LifecycleInv (step s .push) := by
  simp only [step]
  split
  · next i installed =>
    obtain ⟨born, absent, running⟩ := inv.current i (by rw [installed]; rfl)
    refine ⟨⟨fun k => ?_, inv.lifecycle.sound⟩, fun k late => ?_, nofun, ?_, fun k there => ?_, ?_⟩
    · have right := inv.lifecycle.sessions k
      refine ⟨right.delivered, right.erased, fun ended there => ?_⟩
      rcases List.mem_append.mp there with before | now
      · exact right.gone ended before
      · cases List.mem_singleton.mp now
        exact running ended
    · obtain ⟨unborn, away⟩ := inv.future k late
      refine ⟨unborn, fun there => ?_⟩
      rcases List.mem_append.mp there with before | now
      · exact away before
      · cases List.mem_singleton.mp now
        exact Nat.not_lt_of_le late born
    · rintro k (isEnd | isData) <;> contradiction
    · rcases List.mem_append.mp there with before | now
      · exact inv.clients k before
      · cases List.mem_singleton.mp now
        exact inv.ends i (.inr installed)
    · exact List.nodup_append.mpr ⟨inv.distinct, by simp, fun a before b now same => by
        cases List.mem_singleton.mp now
        exact absent (same ▸ before)⟩
  · exact inv

theorem LifecycleInv.accept {s : Server} (inv : LifecycleInv s) : LifecycleInv (step s .accept) := by
  simp only [step]
  split
  · next waiting =>
    obtain ⟨unborn, absent⟩ := inv.future s.next (Nat.le_refl _)
    have elsewhere {k : Nat} (old : k ≠ s.next) :
        (s.set s.next { Session.absent with phase := .waiting }).sessions k = s.sessions k := Server.set_other s _ old
    refine ⟨⟨fun k => ?_, inv.lifecycle.sound⟩, fun k late => ?_, fun k now => ?_, ?_, fun k there => ?_, inv.distinct⟩
    · by_cases new : k = s.next
      · subst new
        rw [Server.set_same]
        exact ⟨rfl, rfl, nofun⟩
      · rw [elsewhere new]
        exact inv.lifecycle.sessions k
    · have late' : s.next + 1 ≤ k := late
      rw [elsewhere (by omega)]
      exact inv.future k (by omega)
    · cases now
      refine ⟨Nat.lt_succ_self _, absent, ?_⟩
      rw [Server.set_same]
      nofun
    · rintro k (isEnd | isData) <;> contradiction
    · have old : k ≠ s.next := by
        rintro rfl
        exact absent there
      rw [elsewhere old]
      exact inv.clients k there
  · exact inv

/-- A timely end takes the session out of `clients`. -/
theorem LifecycleInv.finish {s : Server} (inv : LifecycleInv s) (i : Nat) (timely : Timely s (.finish i)) :
    LifecycleInv (step s (.finish i)) := by
  simp only [step]
  split
  · next ending =>
    have there := timely ending
    have right := inv.lifecycle.sessions i
    have notYet : (s.sessions i).erased = 0 := by
      have before := right.erased
      rwa [ending] at before
    rw [inv.clients i there]
    simp only [quitSession]
    rw [if_pos (show i ∈ (s.set i _).clients from there)]
    have elsewhere {k : Nat} (other : k ≠ i) (x y : Session) : ((s.set i x).set i y).sessions k = s.sessions k := by
      rw [Server.set_other _ y other, Server.set_other s x other]
    have remaining {k : Nat} (member : k ∈ s.clients.erase i) : k ≠ i ∧ k ∈ s.clients := inv.distinct.mem_erase_iff.mp member
    have apart {k : Nat} (absent : k ∉ s.clients) : k ≠ i := fun same => absent (same ▸ there)
    refine ⟨⟨fun k => ?_, inv.lifecycle.sound⟩, fun k late => ?_, fun k now => ?_, fun k now => ?_, fun k member => ?_,
      inv.distinct.erase i⟩
    · by_cases same : k = i
      · subst same
        rw [Server.set_same]
        refine ⟨?_, ?_, fun _ member => (remaining member).1 rfl⟩
        · have before := right.delivered
          rw [ending] at before
          rw [Server.set_same]
          exact before
        · simp [notYet]
      · rw [elsewhere same]
        have before := inv.lifecycle.sessions k
        exact ⟨before.delivered, before.erased, fun ended member => before.gone ended (remaining member).2⟩
    · obtain ⟨unborn, away⟩ := inv.future k late
      rw [elsewhere (apart away)]
      exact ⟨unborn, fun member => away (remaining member).2⟩
    · obtain ⟨young, absent, running⟩ := inv.current k now
      rw [elsewhere (apart absent)]
      exact ⟨young, fun member => absent (remaining member).2, running⟩
    · have absent : k ∉ s.clients := by
        apply (inv.current k ?_).2.1
        rcases now with isEnd | isData
        · rw [show s.listener = _ from isEnd]; rfl
        · rw [show s.listener = _ from isData]; rfl
      rw [elsewhere (apart absent)]
      exact inv.ends k now
    · obtain ⟨other, before⟩ := remaining member
      rw [elsewhere other]
      exact inv.clients k before
  · exact inv

/-- **A timely step** keeps what holds. -/
theorem LifecycleInv.step {s : Server} (inv : LifecycleInv s) {a : Action} (timely : Timely s a) :
    LifecycleInv (step s a) := by
  cases a with
  | accept => exact inv.accept
  | installEnd => exact inv.installEnd
  | installData => exact inv.installData
  | push => exact inv.push
  | recv i chunk => exact inv.recv i chunk
  | deliver i => exact inv.deliver i timely
  | eof i => exact inv.eof i
  | finish i => exact inv.finish i timely

/-! ## Runs -/

/-- A chunk for the function that a session is born with is lost. -/
theorem deliver_timely {s : Server} (inv : LifecycleInv s) {i : Nat} (after : Lifecycle (step s (.deliver i))) :
    Timely s (.deliver i) := by
  rintro ⟨chunk, got⟩
  cases installed : (s.sessions i).processData with
  | fct => rfl
  | printOnly =>
    have before := (inv.lifecycle.sessions i).delivered
    have now := (after.sessions i).delivered
    simp only [Pvd.step, got, installed, Server.set_same] at before now
    rw [← before] at now
    simp [Phase.pending] at now

/-- The end of a session that is no client yet goes unnoticed or erases `end()`. -/
theorem finish_timely {s : Server} (inv : LifecycleInv s) {i : Nat} (after : Lifecycle (step s (.finish i))) :
    Timely s (.finish i) := by
  intro ending
  by_contra absent
  have none := (inv.lifecycle.sessions i).erased
  rw [ending] at none
  cases installed : (s.sessions i).endThis with
  | canQuit =>
    have once := (after.sessions i).erased
    simp only [Pvd.step, ending, installed, Server.set_same] at once
    simp [none] at once
  | quitSession =>
    have sound := after.sound
    simp only [Pvd.step, ending, installed, quitSession] at sound
    rw [if_neg (show i ∉ (s.set i _).clients from absent)] at sound
    cases sound

/-- **When every session is treated right.** In all states of a run every chunk received so far was delivered in order
or is about to be, every session whose thread has ended was erased once and is no client, and nothing absent was
erased, exactly if each call of `process_data` comes after its installation and each call of `end_this` after the
session was put into `clients`. -/
theorem lifecycle_iff (actions : List Action) :
    (∀ before a after, actions = before ++ a :: after → Lifecycle (run (before ++ [a]))) ↔
      ∀ before a after, actions = before ++ a :: after → Timely (run before) a := by
  have exact_step : ∀ s a, LifecycleInv s → (Lifecycle (step s a) ↔ Timely s a) := by
    intro s a inv
    refine ⟨fun after => ?_, fun timely => (inv.step timely).lifecycle⟩
    cases a with
    | deliver i => exact deliver_timely inv after
    | finish i => exact finish_timely inv after
    | accept | installEnd | installData | push | recv i chunk | eof i => trivial
  have snoc (before : List Action) (a : Action) : run (before ++ [a]) = step (run before) a := by
    simp [run]
  simp only [snoc]
  exact foldl_iff (fun _ => LifecycleInv) (fun _ s a => Lifecycle (step s a)) (fun _ => Timely)
    (fun _ s a inv timely => inv.step timely) (fun _ s a inv => exact_step s a inv) lifecycleInv_start

/-- The chunk that a peer sends at once. -/
def firstChunk : Chunk := ⟨[0x7B], Nat.zero_lt_one, Nat.le_add_left 1 9⟩

/-- A chunk comes before `process_data` is installed. -/
def earlyChunk : List Action := [.accept, .recv 0 firstChunk, .deliver 0]

/-- The peer closes before the session is a client. -/
def earlyEnd : List Action := [.accept, .installEnd, .eof 0, .finish 0]

/-- A chunk that comes too early is lost, and a session that ends too early makes `quit_session` erase `end()`. -/
theorem lifecycle_broken : ¬ Lifecycle (run earlyChunk) ∧ ¬ Lifecycle (run earlyEnd) := by
  constructor
  · intro after
    exact absurd (after.sessions 0).delivered (by decide)
  · intro after
    exact absurd after.sound (by decide)

end VideoDetector.Pvd
