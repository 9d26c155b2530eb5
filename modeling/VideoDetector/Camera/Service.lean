import VideoDetector.Camera.Net
import VideoDetector.Config.Server

/-!
# The camera service (`fvd-new/camera_service.c`)

One camera: its `m_camera_info`, its network session, the memory of its algorithm, and the functions
that change them. Clients open and close it, the watchdog and clients post commands into the one slot
`cmd`, and `camera_main` empties the slot. Each function is one step.

`closed_stays_closed_iff` and `commands_not_lost` say when a closed camera stays closed and when no
command is lost: `camera_main` does not look at `open_flg`, and a command overwrites the one that
waits.
-/

namespace VideoDetector.Camera
set_option autoImplicit false
open Lib
open Config (CameraInfo CameraControl RunningState)

inductive Watchdog where
  | hungry | full
  deriving DecidableEq, Repr

/-- The memory of the algorithm: whether `alg_arg` points to an instance, and how many instances were
allocated and not freed. -/
structure AlgMemory where
  held : Bool
  live : Nat
  deriving DecidableEq, Repr

/-- `open_alg`; an instance that was held before is not freed. -/
def openAlg (alg : AlgMemory) : AlgMemory := { held := true, live := alg.live + 1 }

/-- `release_alg`. -/
def releaseAlg (alg : AlgMemory) : AlgMemory := if alg.held then { held := false, live := alg.live - 1 } else alg

/-- `reset_alg`. -/
def resetAlg (alg : AlgMemory) : AlgMemory := openAlg (releaseAlg alg)

structure CameraState where
  info : CameraInfo
  watchdogValue : Watchdog
  net : Net
  alg : AlgMemory
  deriving DecidableEq

/-- `camera_ctrl`. -/
def cameraCtrl (cmd : CameraControl) (c : CameraState) : CameraState := { c with info := { c.info with cmd := cmd } }

/-- `camera_open`. A camera that is open is only reset. -/
def cameraOpen (answer : LoginAnswer) (c : CameraState) (ip : List UInt8) (port : Nat) (username passwd : List UInt8) :
    CameraState :=
  if c.info.openFlg then cameraCtrl .reset c
  else
    let (net, ret) := netOpenCamera answer c.net ip port username passwd
    { c with
      alg := openAlg c.alg
      net := net
      info :=
        { c.info with
          ip := ip
          name := username
          passwd := passwd
          port := port
          camRunningState := if ret = 0 then .camRunning else .camStoped
          openFlg := true } }

/-- `camera_close`. -/
def cameraClose (c : CameraState) : CameraState :=
  { c with
    net := netCloseCamera c.net
    alg := releaseAlg c.alg
    info := { c.info with openFlg := false, camRunningState := .camStoped } }

/-- The watchdog finds an open camera without a frame. -/
def CameraState.starved (c : CameraState) : Bool := c.watchdogValue = .hungry && c.info.openFlg

/-- `watchdog_func`. -/
def watchdogFunc (c : CameraState) : CameraState :=
  let c :=
    if c.starved then
      let c := cameraCtrl .reset c
      { c with info := { c.info with camRunningState := .camStoped } }
    else { c with info := { c.info with camRunningState := .camRunning } }
  { c with watchdogValue := .hungry }

/-- What `camera_main` does for a command. -/
inductive Effect where
  | netClose | netOpen | resetAlg
  deriving DecidableEq, Repr

/-- The `switch` of `camera_main`. -/
def effects : CameraControl → List Effect
  | .reset => [.netClose, .netOpen, .resetAlg]
  | .resetAlg => [.resetAlg]
  | .null | .open | .close | .setNtp => []

def carryOut (answer : LoginAnswer) (c : CameraState) : Effect → CameraState
  | .netClose => { c with net := netCloseCamera c.net }
  | .netOpen =>
    { c with net := (netOpenCamera answer c.net c.info.ip c.info.port c.info.name c.info.passwd).1 }
  | .resetAlg => { c with alg := resetAlg c.alg }

/-- `camera_main`. -/
def cameraMain (answer : LoginAnswer) (c : CameraState) : CameraState :=
  cameraCtrl .null ((effects c.info.cmd).foldl (carryOut answer) c)

/-- A camera after `camera_service_init`. -/
def CameraState.initial : CameraState :=
  { info := Config.idleCamera, watchdogValue := .hungry, net := Net.initial, alg := ⟨false, 0⟩ }

/-! ## The configuration server's view -/

/-- The server's `camera_open`, `camera_close` and `camera_ctrl` do the same to `m_camera_info`. -/
theorem cameraOpen_info {env : Config.Env} {s : Config.State} {i : Fin Config.activeCamNum} {c : CameraState}
    {answer : LoginAnswer} {ip name passwd : List UInt8} {port : Nat} (same : s.camInfo i = c.info)
    (result : env.netOpenCamera i = (netOpenCamera answer c.net ip port name passwd).2) :
    (Config.cameraOpen env s i ip port name passwd).camInfo i = (cameraOpen answer c ip port name passwd).info := by
  unfold Config.cameraOpen cameraOpen
  rw [same, result]
  split <;> exact Function.update_self i _ _

theorem cameraClose_info {s : Config.State} {i : Fin Config.activeCamNum} {c : CameraState} (same : s.camInfo i = c.info) :
    (Config.cameraClose s i).camInfo i = (cameraClose c).info := by
  unfold Config.cameraClose cameraClose
  rw [same]
  exact Function.update_self i _ _

theorem cameraCtrl_info {s t : Config.State} {i : Fin Config.activeCamNum} {c : CameraState} {cmd : CameraControl}
    (same : s.camInfo i = c.info) (done : Config.cameraCtrl s cmd i = .ok t) :
    t.camInfo i = (cameraCtrl cmd c).info := by
  rw [Config.cameraCtrl, dif_pos i.isLt] at done
  cases done
  rw [same]
  exact Function.update_self i _ _

/-! ## Runs -/

inductive Action where
  | openCamera (answer : LoginAnswer) (ip : List UInt8) (port : Nat) (username passwd : List UInt8)
  | closeCamera
  | ctrl (cmd : CameraControl)
  | watchdog
  | main (answer : LoginAnswer)
  deriving DecidableEq

def step (c : CameraState) : Action → CameraState
  | .openCamera answer ip port username passwd => cameraOpen answer c ip port username passwd
  | .closeCamera => cameraClose c
  | .ctrl cmd => cameraCtrl cmd c
  | .watchdog => watchdogFunc c
  | .main answer => cameraMain answer c

/-! ## A closed camera stays closed -/

/-- A closed camera has no session and no algorithm. -/
def Quiet (c : CameraState) : Prop :=
  c.info.openFlg = false → c.net.sdk.servers = ∅ ∧ c.net.sdk.channels = ∅ ∧ c.alg.live = 0

/-- The step is not `camera_main` with a reset for a closed camera. -/
def NoLateReset (c : CameraState) : Action → Prop
  | .main _ => c.info.openFlg = false → c.info.cmd ≠ .reset ∧ c.info.cmd ≠ .resetAlg
  | _ => True

/-- Only the stored handles are open. -/
def Net.OnlyStored (net : Net) : Prop :=
  (∀ h ∈ net.sdk.servers, net.ctx.serverHangle = some h) ∧ ∀ h ∈ net.sdk.channels, net.ctx.channelHandle = some h

/-- The session and the algorithm follow `open_flg`. -/
structure Follows (c : CameraState) : Prop where
  stored : c.net.OnlyStored
  noSession : c.info.openFlg = false → c.net.sdk.servers = ∅ ∧ c.net.sdk.channels = ∅
  alg : c.alg = if c.info.openFlg then ⟨true, 1⟩ else ⟨false, 0⟩

theorem netCloseCamera_empty {net : Net} (stored : net.OnlyStored) :
    (netCloseCamera net).sdk.servers = ∅ ∧ (netCloseCamera net).sdk.channels = ∅ := by
  obtain ⟨servers, channels⟩ := stored
  have closed := netCloseCamera_closed net
  obtain ⟨fewerServers, fewerChannels⟩ := netCloseCamera_fewer net
  constructor
  · apply Finset.eq_empty_of_forall_notMem
    intro h member
    exact closed.2 h (servers h (fewerServers member)) member
  · apply Finset.eq_empty_of_forall_notMem
    intro h member
    exact closed.1 h (channels h (fewerChannels member)) member

theorem netOpenCamera_stored {net : Net} (empty : net.sdk.servers = ∅ ∧ net.sdk.channels = ∅) (answer : LoginAnswer)
    (ip : List UInt8) (port : Nat) (name passwd : List UInt8) :
    (netOpenCamera answer net ip port name passwd).1.OnlyStored := by
  obtain ⟨noServer, noChannel⟩ := empty
  rw [netOpenCamera_eq]
  obtain ⟨logon, channel⟩ := answer
  cases logon with
  | none => simp [Net.OnlyStored, loginCamera, Net.aim, noServer, noChannel]
  | some server => cases channel <;> simp [Net.OnlyStored, loginCamera, Net.aim, noServer, noChannel]

theorem Follows.quiet {c : CameraState} (follows : Follows c) : Quiet c := by
  intro closed
  obtain ⟨noServer, noChannel⟩ := follows.noSession closed
  refine ⟨noServer, noChannel, ?_⟩
  rw [follows.alg, closed]
  rfl

/-- A step that changes neither the session, nor the algorithm, nor `open_flg`. -/
theorem Follows.keep {c d : CameraState} (follows : Follows c) (net : d.net = c.net) (alg : d.alg = c.alg)
    (flag : d.info.openFlg = c.info.openFlg) : Follows d := by
  obtain ⟨stored, noSession, memory⟩ := follows
  rw [← net, ← flag] at *
  exact ⟨stored, noSession, by rw [alg, memory]⟩

theorem cameraOpen_follows {c : CameraState} (follows : Follows c) (answer : LoginAnswer) (ip : List UInt8) (port : Nat)
    (username passwd : List UInt8) : Follows (cameraOpen answer c ip port username passwd) := by
  unfold cameraOpen
  split
  · exact follows.keep rfl rfl rfl
  · next closed =>
    rw [Bool.not_eq_true] at closed
    have alg := follows.alg
    rw [closed] at alg
    refine ⟨netOpenCamera_stored (follows.noSession closed) answer ip port username passwd, ?_, ?_⟩
    · intro impossible
      cases impossible
    · simp [openAlg, alg]

theorem cameraClose_follows {c : CameraState} (follows : Follows c) : Follows (cameraClose c) := by
  have empty := netCloseCamera_empty follows.stored
  refine ⟨?_, fun _ => empty, ?_⟩
  · constructor
    · intro h member
      rw [cameraClose, empty.1] at member
      simp at member
    · intro h member
      rw [cameraClose, empty.2] at member
      simp at member
  · have alg := follows.alg
    cases flag : c.info.openFlg <;> rw [flag] at alg <;> simp [cameraClose, releaseAlg, alg]

theorem watchdogFunc_follows {c : CameraState} (follows : Follows c) : Follows (watchdogFunc c) := by
  unfold watchdogFunc
  split <;> exact follows.keep rfl rfl rfl

theorem effects_cases (cmd : CameraControl) : cmd = .reset ∨ cmd = .resetAlg ∨ effects cmd = [] := by
  cases cmd <;> simp [effects]

theorem cameraMain_reset {c : CameraState} (answer : LoginAnswer) (pending : c.info.cmd = .reset) :
    cameraMain answer c =
      { c with
        net := (netOpenCamera answer (netCloseCamera c.net) c.info.ip c.info.port c.info.name c.info.passwd).1
        alg := resetAlg c.alg
        info := { c.info with cmd := .null } } := by
  rw [cameraMain, pending]
  rfl

theorem cameraMain_resetAlg {c : CameraState} (answer : LoginAnswer) (pending : c.info.cmd = .resetAlg) :
    cameraMain answer c = { c with alg := resetAlg c.alg, info := { c.info with cmd := .null } } := by
  rw [cameraMain, pending]
  rfl

theorem cameraMain_idle {c : CameraState} (answer : LoginAnswer) (nothing : effects c.info.cmd = []) :
    cameraMain answer c = cameraCtrl .null c := by
  rw [cameraMain, nothing]
  rfl

/-- Where a reset is no late one, the camera is open and has its algorithm. -/
theorem Follows.opened {c : CameraState} (follows : Follows c) {answer : LoginAnswer} (noLate : NoLateReset c (.main answer))
    (pending : c.info.cmd = .reset ∨ c.info.cmd = .resetAlg) : c.info.openFlg = true ∧ c.alg = ⟨true, 1⟩ := by
  have opened : c.info.openFlg = true := by
    cases flag : c.info.openFlg with
    | false => exact absurd pending (not_or.mpr (noLate flag))
    | true => rfl
  have alg := follows.alg
  rw [opened] at alg
  exact ⟨opened, alg⟩

theorem cameraMain_follows {c : CameraState} (follows : Follows c) (answer : LoginAnswer)
    (noLate : NoLateReset c (.main answer)) : Follows (cameraMain answer c) := by
  rcases effects_cases c.info.cmd with pending | pending | nothing
  · obtain ⟨opened, alg⟩ := follows.opened noLate (.inl pending)
    rw [cameraMain_reset answer pending]
    refine ⟨netOpenCamera_stored (netCloseCamera_empty follows.stored) answer _ _ _ _, ?_, ?_⟩
    · intro closed
      cases opened.symm.trans closed
    · simp only [opened, if_true, alg]
      rfl
  · obtain ⟨_, alg⟩ := follows.opened noLate (.inr pending)
    have same : resetAlg c.alg = c.alg := by
      rw [alg]
      rfl
    rw [cameraMain_resetAlg answer pending, same]
    exact follows.keep rfl rfl rfl
  · rw [cameraMain_idle answer nothing]
    exact follows.keep rfl rfl rfl

theorem step_follows {c : CameraState} (follows : Follows c) {a : Action} (noLate : NoLateReset c a) :
    Follows (step c a) := by
  cases a with
  | openCamera answer ip port username passwd => exact cameraOpen_follows follows answer ip port username passwd
  | closeCamera => exact cameraClose_follows follows
  | ctrl cmd => exact follows.keep rfl rfl rfl
  | watchdog => exact watchdogFunc_follows follows
  | main answer => exact cameraMain_follows follows answer noLate

/-- A reset of a closed camera leaves it with an algorithm. -/
theorem lateReset_breaks {c : CameraState} (follows : Follows c) {a : Action} (late : ¬ NoLateReset c a) :
    ¬ Quiet (step c a) := by
  cases a with
  | openCamera | closeCamera | ctrl | watchdog => exact absurd trivial late
  | main answer =>
    simp only [NoLateReset, Classical.not_imp, not_and_or, not_not] at late
    obtain ⟨closed, pending⟩ := late
    have alg := follows.alg
    rw [closed] at alg
    intro quiet
    rcases pending with reset | resetAlg
    · rw [step, cameraMain_reset answer reset] at quiet
      have none := (quiet closed).2.2
      rw [alg] at none
      cases none
    · rw [step, cameraMain_resetAlg answer resetAlg] at quiet
      have none := (quiet closed).2.2
      rw [alg] at none
      cases none

theorem follows_initial : Follows CameraState.initial :=
  ⟨⟨by simp [CameraState.initial, Net.initial], by simp [CameraState.initial, Net.initial]⟩, fun _ => ⟨rfl, rfl⟩, rfl⟩

/-- **When a closed camera stays closed**: after every step of a run a closed camera has no session and
no algorithm, exactly if `camera_main` finds no reset for a camera that is closed. -/
theorem closed_stays_closed_iff (run : List Action) :
    (∀ before a after, run = before ++ a :: after → Quiet (step (before.foldl step CameraState.initial) a)) ↔
      ∀ before a after, run = before ++ a :: after → NoLateReset (before.foldl step CameraState.initial) a :=
  foldl_iff (fun _ => Follows) (fun _ c a => Quiet (step c a)) (fun _ => NoLateReset)
    (fun _ _ _ follows noLate => step_follows follows noLate)
    (fun _ _ _ follows => ⟨fun quiet => by_contra fun late => lateReset_breaks follows late quiet,
      fun noLate => (step_follows follows noLate).quiet⟩) follows_initial

/-- A reset that still waits when the camera is closed. -/
def lateReset : List Action := [.openCamera ⟨some 1, some 2⟩ [] 0 [] [], .watchdog, .closeCamera, .main ⟨some 3, some 4⟩]

/-- The closed camera has a session and an algorithm again. -/
theorem lateReset_reopens :
    (lateReset.foldl step CameraState.initial).info.openFlg = false ∧
      (lateReset.foldl step CameraState.initial).net.sdk.channels = {4} ∧
      (lateReset.foldl step CameraState.initial).alg.live = 1 ∧
      ¬ ∀ before a after, lateReset = before ++ a :: after →
        Quiet (step (before.foldl step CameraState.initial) a) := by
  refine ⟨rfl, by decide, rfl, fun quiet => ?_⟩
  have none := (quiet (lateReset.take 3) _ [] rfl rfl).2.2
  cases none

/-! ## No command is lost -/

/-- The command that a step posts. -/
def posts (c : CameraState) : Action → Option CameraControl
  | .openCamera _ _ _ _ _ => if c.info.openFlg then some .reset else none
  | .ctrl cmd => some cmd
  | .watchdog => if c.starved then some .reset else none
  | .closeCamera | .main _ => none

/-- A step between a post and the next `camera_main`, the camera staying open. -/
def Between : Action → Prop
  | .closeCamera | .main _ => False
  | _ => True

/-- At the next `camera_main` after a reset was posted the session is closed and opened again, and after
a reset of the algorithm was posted the algorithm is reset. -/
def CommandsRun (start : CameraState) (run : List Action) : Prop :=
  ∀ before post mid answer after, run = before ++ post :: mid ++ .main answer :: after → (∀ a ∈ mid, Between a) →
    (posts (before.foldl step start) post = some .reset →
      effects ((before ++ post :: mid).foldl step start).info.cmd = [.netClose, .netOpen, .resetAlg]) ∧
    (posts (before.foldl step start) post = some .resetAlg →
      Effect.resetAlg ∈ effects ((before ++ post :: mid).foldl step start).info.cmd)

/-- A step does not replace a waiting reset by another command, and a waiting reset of the algorithm
only by one of the two resets. -/
def KeepsPending (c : CameraState) (a : Action) : Prop :=
  ∀ cmd, posts c a = some cmd →
    (c.info.cmd = .reset → cmd = .reset) ∧ (c.info.cmd = .resetAlg → cmd = .reset ∨ cmd = .resetAlg)

/-- A step posts a command or leaves the slot alone. -/
theorem step_cmd {c : CameraState} {a : Action} (between : Between a) :
    (step c a).info.cmd = (posts c a).getD c.info.cmd := by
  cases a with
  | openCamera answer ip port username passwd =>
    simp only [step, cameraOpen, posts]
    split <;> rfl
  | ctrl cmd => rfl
  | watchdog =>
    simp only [step, watchdogFunc, posts]
    split <;> rfl
  | closeCamera | main => exact absurd between id

theorem posts_between {c : CameraState} {a : Action} {cmd : CameraControl} (post : posts c a = some cmd) : Between a := by
  cases a with
  | openCamera | ctrl | watchdog => trivial
  | closeCamera | main => cases post

/-- A waiting command waits on while nothing replaces it. -/
theorem pending_kept (Waiting : CameraControl → Prop) {start : CameraState} {mid : List Action}
    (between : ∀ a ∈ mid, Between a)
    (kept : ∀ before a after, mid = before ++ a :: after → ∀ cmd, posts (before.foldl step start) a = some cmd →
      Waiting (before.foldl step start).info.cmd → Waiting cmd)
    (pending : Waiting start.info.cmd) : Waiting (mid.foldl step start).info.cmd := by
  apply foldl_invariant (fun _ c => Waiting c.info.cmd)
    (fun _ c a => Between a ∧ ∀ cmd, posts c a = some cmd → Waiting c.info.cmd → Waiting cmd) _ pending _
    (List.append_nil mid).symm
  · rintro _ c a waiting ⟨inside, kept⟩
    rw [step_cmd inside]
    cases post : posts c a with
    | none => exact waiting
    | some cmd => exact kept cmd post waiting
  · intro before a after split
    refine ⟨between a ?_, kept before a after split⟩
    rw [split]
    simp

/-- **No command is lost** in a run in which no step replaces a waiting reset by a lesser command. -/
theorem commands_not_lost (start : CameraState) (run : List Action)
    (kept : ∀ before a after, run = before ++ a :: after → KeepsPending (before.foldl step start) a) :
    CommandsRun start run := by
  intro before post mid answer after split between
  have posted : ∀ cmd, posts (before.foldl step start) post = some cmd →
      ((before ++ [post]).foldl step start).info.cmd = cmd := by
    intro cmd posted
    rw [List.foldl_append, List.foldl_cons, List.foldl_nil, step_cmd (posts_between posted), posted]
    rfl
  have keeps : ∀ before' a after', mid = before' ++ a :: after' →
      KeepsPending (before'.foldl step ((before ++ [post]).foldl step start)) a := by
    intro before' a after' split'
    have all := kept (before ++ post :: before') a (after' ++ .main answer :: after) (by simp [split, split'])
    rw [List.append_cons, List.foldl_append] at all
    exact all
  rw [List.append_cons, List.foldl_append]
  constructor
  · intro reset
    have pending := pending_kept (fun cmd => cmd = .reset) between
      (fun before' a after' split' cmd post' waiting => (keeps before' a after' split' cmd post').1 waiting)
      (posted .reset reset)
    rw [pending]
    rfl
  · intro resetAlg
    have pending := pending_kept (fun cmd => cmd = .reset ∨ cmd = .resetAlg) between ?_ (.inr (posted .resetAlg resetAlg))
    · rcases pending with reset | resetAlg
      · rw [reset]
        decide
      · rw [resetAlg]
        decide
    · rintro before' a after' split' cmd post' (reset | resetAlg)
      · exact .inl ((keeps before' a after' split' cmd post').1 reset)
      · exact (keeps before' a after' split' cmd post').2 resetAlg

/-- The watchdog's reset and a tick. -/
def watchdogTick : List Action := [.openCamera ⟨none, none⟩ [] 0 [] [], .watchdog, .main ⟨some 1, some 2⟩]

theorem commands_not_lost_watchdogTick : CommandsRun CameraState.initial watchdogTick := by
  apply commands_not_lost
  intro before a after split cmd post
  rcases before with _ | ⟨a₁, _ | ⟨a₂, _ | ⟨a₃, before⟩⟩⟩
  · cases split
    cases post
  · cases split
    cases post
    exact ⟨fun _ => rfl, fun _ => .inl rfl⟩
  · cases split
    cases post
  · simp [watchdogTick] at split

/-- The watchdog's reset, and a client that sets the detection parameters before the next tick. -/
def lostReset : List Action :=
  [.openCamera ⟨none, none⟩ [] 0 [] [], .watchdog, .ctrl .resetAlg, .main ⟨some 1, some 2⟩]

/-- The reset of the session is never carried out. -/
theorem lostReset_lost : ¬ CommandsRun CameraState.initial lostReset := by
  intro runs
  have reset := (runs (lostReset.take 1) .watchdog [.ctrl .resetAlg] ⟨some 1, some 2⟩ [] rfl (by simp [Between])).1 rfl
  cases reset

end VideoDetector.Camera
