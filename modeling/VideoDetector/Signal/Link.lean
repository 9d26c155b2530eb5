import VideoDetector.Config.Server
import VideoDetector.Lib.Runs

/-!
# The link to the signal machine (`fvd-new/sig_service.c`)

`sig_state`, `sig_fd`, `sig_ip` and `sig_port` are shared by the service thread, which connects, the two
timed callbacks, which report, and the thread of the client requests, which resets and reboots. None of
them takes a lock. Each thread is a program counter over its single sends and assignments, and a run is
any interleaving of their steps, with every outcome of creating, connecting and sending.

`link_connected` says when `SIG_CONNECTED` can be relied on.
-/

namespace VideoDetector.Signal
set_option autoImplicit false
open Lib
open Config (SigState SigLink)

inductive Socket where
  | closed
  | opened
  | connected (ip : List UInt8) (port : Nat)
  deriving DecidableEq

/-- Where `sig_service_thread` is. -/
inductive ServicePc where
  | top | testFd | create | testCreated | testConnect | connect
  | send2 | send3 | sendStatus | setConnected
  | close | clear
  deriving DecidableEq, Repr

/-- Where `report_data_callback_fun` is; while it sends it uses the descriptor it was called with. -/
inductive ReportPc where
  | test | read | send (sock : Int) | close | clear | setState
  deriving DecidableEq, Repr

/-- Where the thread of the client requests is in `reset_sig_machine` or `reboot_cmd`. -/
inductive ClientPc where
  | idle
  | resetNull | resetClose | resetClear | resetIp | resetPort | resetPre
  | reboot1 | close1 | clear1 | reboot4 | close4 | clear4
  deriving DecidableEq, Repr

structure Link where
  sig : SigLink
  sockets : Int → Socket
  service : ServicePc
  report : ReportPc
  client : ClientPc

/-! ## Statements -/

/-- `sig_set_state`. -/
def setState (state : SigState) (l : Link) : Link := { l with sig := { l.sig with sigState := state } }

/-- The `close` of `close_socket(&sig_fd)`. -/
def closeFd (l : Link) : Link := { l with sockets := Function.update l.sockets l.sig.sigFd .closed }

/-- The assignment of `close_socket(&sig_fd)`. -/
def clearFd (l : Link) : Link := { l with sig := { l.sig with sigFd := -1 } }

/-- `sig_fd = CreateTcpClientSock(0, 0)`: a descriptor that is not in use, or -1. -/
def createFd (fd : Int) (l : Link) : Link :=
  if 0 ≤ fd ∧ l.sockets fd = .closed then
    { l with sockets := Function.update l.sockets fd .opened, sig := { l.sig with sigFd := fd } }
  else clearFd l

/-- A `connect` of `sig_fd` to the current address that succeeds. -/
def connectFd (l : Link) : Link :=
  { l with sockets := Function.update l.sockets l.sig.sigFd (.connected l.sig.sigIp l.sig.sigPort) }

/-- A send can succeed on a connected socket only. -/
def canSend (l : Link) (sock : Int) : Bool :=
  match l.sockets sock with
  | .connected _ _ => true
  | _ => false

/-! ## Threads -/

/-- A step of `sig_service_thread`, with the descriptor it may get and the outcome of a connect or a
send. Without a descriptor `connect_sig` returns what its variable happens to hold. -/
def serviceStep (fd : Int) (ok : Bool) (l : Link) : Link :=
  match l.service with
  | .top => if l.sig.sigState = .preConnect then { l with service := .testFd } else l
  | .testFd => { l with service := if l.sig.sigFd ≤ 0 then .create else .send2 }
  | .create => { createFd fd l with service := .testCreated }
  | .testCreated => { l with service := if l.sig.sigFd < 0 then .top else .testConnect }
  | .testConnect =>
    { l with service := if 0 < l.sig.sigFd then .connect else if ok then .send2 else .top }
  | .connect =>
    if ok ∧ l.sockets l.sig.sigFd = .opened then { connectFd l with service := .send2 }
    else { l with service := .close }
  | .send2 => { l with service := if ok ∧ canSend l l.sig.sigFd then .send3 else .close }
  | .send3 => { l with service := if ok ∧ canSend l l.sig.sigFd then .sendStatus else .close }
  | .sendStatus => { l with service := if ok ∧ canSend l l.sig.sigFd then .setConnected else .close }
  | .setConnected => { setState .connected l with service := .top }
  | .close => { closeFd l with service := .clear }
  | .clear => { clearFd l with service := .top }

/-- The sends of `ReportedRealStatic`, one for each camera that is enabled. -/
inductive ReportResult where
  | sent | last | failed
  deriving DecidableEq, Repr

/-- A step of `report_data_callback_fun`. -/
def reportStep (result : ReportResult) (l : Link) : Link :=
  match l.report with
  | .test => if l.sig.sigState = .connected then { l with report := .read } else l
  | .read => { l with report := .send l.sig.sigFd }
  | .send sock =>
    if result = .failed ∨ canSend l sock = false then { l with report := .close }
    else if result = .last then { l with report := .test }
    else l
  | .close => { closeFd l with report := .clear }
  | .clear => { clearFd l with report := .setState }
  | .setState => { setState .preConnect l with report := .test }

inductive ClientCall where
  | resetSigMachine | rebootCmd
  deriving DecidableEq, Repr

/-- A step of `reset_sig_machine` or `reboot_cmd`, with the address that is stored and the outcome of a
send. -/
def clientStep (call : ClientCall) (ip : List UInt8) (port : Nat) (ok : Bool) (l : Link) : Link :=
  match l.client with
  | .idle => { l with client := if call = .resetSigMachine then .resetNull else .reboot1 }
  | .resetNull => { setState .null l with client := .resetClose }
  | .resetClose => { closeFd l with client := .resetClear }
  | .resetClear => { clearFd l with client := .resetIp }
  | .resetIp => { l with sig := { l.sig with sigIp := ip }, client := .resetPort }
  | .resetPort => { l with sig := { l.sig with sigPort := port }, client := .resetPre }
  | .resetPre => { setState .preConnect l with client := .idle }
  | .reboot1 => { l with client := if ok ∧ canSend l l.sig.sigFd then .reboot4 else .close1 }
  | .close1 => { closeFd l with client := .clear1 }
  | .clear1 => { clearFd l with client := .reboot4 }
  | .reboot4 => { l with client := if ok ∧ canSend l l.sig.sigFd then .idle else .close4 }
  | .close4 => { closeFd l with client := .clear4 }
  | .clear4 => { clearFd l with client := .idle }

/-- A step of some thread. `check_event_callback_fun` only sends. -/
inductive LinkAction where
  | service (fd : Int) (ok : Bool)
  | report (result : ReportResult)
  | check
  | client (call : ClientCall) (ip : List UInt8) (port : Nat) (ok : Bool)
  deriving DecidableEq

def linkStep (l : Link) : LinkAction → Link
  | .service fd ok => serviceStep fd ok l
  | .report result => reportStep result l
  | .check => l
  | .client call ip port ok => clientStep call ip port ok l

/-- A reset that no other thread interrupts is the `reset_sig_machine` of the request handler. -/
theorem resetSigMachine_uninterrupted (s : Config.State) {l : Link} (idle : l.client = .idle) (ok : Bool) :
    ((List.replicate 7 (LinkAction.client .resetSigMachine (Config.signalIp (s.gCamCfg 0).camParam)
      (Config.signalport (s.gCamCfg 0).camParam) ok)).foldl linkStep l).sig = (Config.resetSigMachine s).sig := by
  obtain ⟨sig, sockets, service, report, client⟩ := l
  cases idle
  rfl

/-- The link after `init_sig_service`: it connects only if there is an address. -/
def Link.initial (connects : Bool) (ip : List UInt8) (port : Nat) : Link :=
  { sig := { sigState := if connects then .preConnect else .null, sigFd := -1, sigIp := ip, sigPort := port }
    sockets := fun _ => .closed
    service := .top
    report := .test
    client := .idle }

/-- `sig_fd` is connected to the current address. -/
def Link.Connected (l : Link) : Prop := l.sockets l.sig.sigFd = .connected l.sig.sigIp l.sig.sigPort

/-! ## `SIG_CONNECTED` -/

/-- Neither is the link connected nor is the service about to say so. -/
def Link.Quiet (l : Link) : Prop := l.sig.sigState ≠ .connected ∧ l.service ≠ .setConnected

/-- A step that closes `sig_fd` outside the service finds the link quiet, and the address is not changed
under a socket that is connected. -/
def LinkAction.Safe (l : Link) : LinkAction → Prop
  | .service _ _ => True
  | .report _ => l.report = .close ∨ l.report = .clear → l.Quiet
  | .check => True
  | .client _ ip port _ =>
    match l.client with
    | .resetClose | .resetClear | .close1 | .clear1 | .close4 | .clear4 => l.Quiet
    | .resetIp => ∀ ip' port', l.sockets l.sig.sigFd = .connected ip' port' → ip' = ip
    | .resetPort => ∀ ip' port', l.sockets l.sig.sigFd = .connected ip' port' → port' = port
    | _ => True

/-- What the threads keep together as long as their steps are safe. -/
structure LinkInv (l : Link) : Prop where
  connected : l.sig.sigState = .connected → l.Connected
  ready : l.service = .setConnected → l.Connected
  branch : l.service ≠ .top → l.sig.sigState ≠ .connected
  address : ∀ ip port, l.sockets l.sig.sigFd = .connected ip port → l.sig.sigIp = ip ∧ l.sig.sigPort = port
  negative : ∀ fd < 0, l.sockets fd = .closed

theorem canSend_iff {l : Link} {sock : Int} : canSend l sock = true ↔ ∃ ip port, l.sockets sock = .connected ip port := by
  unfold canSend
  split <;> simp_all

/-- A send that succeeds was made to the current address. -/
theorem LinkInv.connected_of_canSend {l : Link} (inv : LinkInv l) (can : canSend l l.sig.sigFd = true) : l.Connected := by
  obtain ⟨ip, port, there⟩ := canSend_iff.mp can
  obtain ⟨rfl, rfl⟩ := inv.address ip port there
  exact there

theorem LinkInv.sigFd_nonneg {l : Link} (inv : LinkInv l) (opened : l.sockets l.sig.sigFd ≠ .closed) : 0 ≤ l.sig.sigFd := by
  by_contra negative
  exact opened (inv.negative _ (by omega))

theorem LinkInv.at_service {l : Link} (inv : LinkInv l) {pc : ServicePc} (ready : pc = .setConnected → l.Connected)
    (branch : pc ≠ .top → l.sig.sigState ≠ .connected) : LinkInv { l with service := pc } :=
  ⟨inv.connected, ready, branch, inv.address, inv.negative⟩

theorem LinkInv.at_report {l : Link} (inv : LinkInv l) (pc : ReportPc) : LinkInv { l with report := pc } :=
  ⟨inv.connected, inv.ready, inv.branch, inv.address, inv.negative⟩

theorem LinkInv.at_client {l : Link} (inv : LinkInv l) (pc : ClientPc) : LinkInv { l with client := pc } :=
  ⟨inv.connected, inv.ready, inv.branch, inv.address, inv.negative⟩

theorem setState_inv {l : Link} (inv : LinkInv l) {state : SigState} (other : state ≠ .connected) : LinkInv (setState state l) :=
  ⟨fun same => absurd same other, inv.ready, fun _ => other, inv.address, inv.negative⟩

theorem closeFd_inv {l : Link} (inv : LinkInv l) (quiet : l.Quiet) : LinkInv (closeFd l) where
  connected state := absurd state quiet.1
  ready pc := absurd pc quiet.2
  branch := inv.branch
  address ip port there := by simp [closeFd] at there
  negative fd below := by
    by_cases same : fd = l.sig.sigFd
    · rw [same]
      exact Function.update_self ..
    · exact (Function.update_of_ne same ..).trans (inv.negative fd below)

theorem clearFd_inv {l : Link} (inv : LinkInv l) (quiet : l.Quiet) : LinkInv (clearFd l) where
  connected state := absurd state quiet.1
  ready pc := absurd pc quiet.2
  branch := inv.branch
  address ip port there := by
    have none : l.sockets (-1) = .closed := inv.negative (-1) (by decide)
    cases none.symm.trans there
  negative := inv.negative

theorem createFd_inv {l : Link} (inv : LinkInv l) (quiet : l.Quiet) (fd : Int) : LinkInv (createFd fd l) := by
  unfold createFd
  split
  next fresh =>
    refine ⟨fun state => absurd state quiet.1, fun pc => absurd pc quiet.2, inv.branch, ?_, ?_⟩
    · intro ip port there
      simp at there
    · intro fd' below
      have apart : fd' ≠ fd := by omega
      exact (Function.update_of_ne apart ..).trans (inv.negative fd' below)
  next => exact clearFd_inv inv quiet

theorem connectFd_inv {l : Link} (inv : LinkInv l) (quiet : l.Quiet) (opened : l.sockets l.sig.sigFd = .opened) :
    LinkInv (connectFd l) where
  connected state := absurd state quiet.1
  ready pc := absurd pc quiet.2
  branch := inv.branch
  address ip port there := by simpa [connectFd] using there
  negative fd below := by
    have nonneg := inv.sigFd_nonneg (by rw [opened]; simp)
    have apart : fd ≠ l.sig.sigFd := by omega
    exact (Function.update_of_ne apart ..).trans (inv.negative fd below)

/-- A new address that the connected socket already has. -/
theorem address_inv {l : Link} (inv : LinkInv l) {ip : List UInt8} {port : Nat}
    (same : ∀ ip' port', l.sockets l.sig.sigFd = .connected ip' port' → ip' = ip ∧ port' = port) :
    LinkInv { l with sig := { l.sig with sigIp := ip, sigPort := port } } := by
  have kept : l.Connected → l.sockets l.sig.sigFd = .connected ip port := by
    intro connected
    obtain ⟨rfl, rfl⟩ := same _ _ connected
    exact connected
  refine ⟨fun state => kept (inv.connected state), fun pc => kept (inv.ready pc), inv.branch, ?_, inv.negative⟩
  intro ip' port' there
  obtain ⟨rfl, rfl⟩ := same ip' port' there
  exact ⟨rfl, rfl⟩

/-! ## Steps -/

theorem LinkInv.quiet {l : Link} (inv : LinkInv l) (busy : l.service ≠ .top) (early : l.service ≠ .setConnected) : l.Quiet :=
  ⟨inv.branch busy, early⟩

theorem LinkInv.service_next {l : Link} (inv : LinkInv l) (busy : l.service ≠ .top) {pc : ServicePc}
    (early : pc ≠ .setConnected) : LinkInv { l with service := pc } :=
  inv.at_service (fun ready => absurd ready early) (fun _ => inv.branch busy)

theorem LinkInv.service_send {l : Link} (inv : LinkInv l) (busy : l.service ≠ .top) (ok : Bool) (pc : ServicePc) :
    LinkInv { l with service := if ok ∧ canSend l l.sig.sigFd then pc else .close } := by
  refine inv.at_service ?_ (fun _ => inv.branch busy)
  intro ready
  split at ready
  next sent => exact inv.connected_of_canSend sent.2
  next => cases ready

theorem serviceStep_inv {l : Link} (inv : LinkInv l) (fd : Int) (ok : Bool) : LinkInv (serviceStep fd ok l) := by
  cases pc : l.service with
  | top =>
    simp only [serviceStep, pc]
    split
    next pre => exact inv.at_service (fun ready => nomatch ready) (fun _ => by simp [pre])
    next => exact inv
  | testFd =>
    simp only [serviceStep, pc]
    exact inv.service_next (by simp [pc]) (by split <;> simp)
  | create =>
    have quiet := inv.quiet (by simp [pc]) (by simp [pc])
    have created := createFd_inv inv quiet fd
    have busy : (createFd fd l).service ≠ .top := by
      unfold createFd clearFd
      split <;> simp [pc]
    simp only [serviceStep, pc]
    exact created.service_next busy (by simp)
  | testCreated =>
    simp only [serviceStep, pc]
    exact inv.service_next (by simp [pc]) (by split <;> simp)
  | testConnect =>
    simp only [serviceStep, pc]
    exact inv.service_next (by simp [pc]) (by split <;> [skip; split] <;> simp)
  | connect =>
    simp only [serviceStep, pc]
    split
    next done =>
      have quiet := inv.quiet (by simp [pc]) (by simp [pc])
      exact (connectFd_inv inv quiet done.2).service_next (by simp [connectFd, pc]) (by simp)
    next => exact inv.service_next (by simp [pc]) (by simp)
  | send2 =>
    simp only [serviceStep, pc]
    exact inv.service_send (by simp [pc]) ok .send3
  | send3 =>
    simp only [serviceStep, pc]
    exact inv.service_send (by simp [pc]) ok .sendStatus
  | sendStatus =>
    simp only [serviceStep, pc]
    exact inv.service_send (by simp [pc]) ok .setConnected
  | setConnected =>
    simp only [serviceStep, pc]
    exact ⟨fun _ => inv.ready pc, fun ready => (nomatch ready), fun busy => absurd rfl busy, inv.address, inv.negative⟩
  | close =>
    have quiet := inv.quiet (by simp [pc]) (by simp [pc])
    simp only [serviceStep, pc]
    exact (closeFd_inv inv quiet).service_next (by simp [closeFd, pc]) (by simp)
  | clear =>
    have quiet := inv.quiet (by simp [pc]) (by simp [pc])
    simp only [serviceStep, pc]
    exact (clearFd_inv inv quiet).service_next (by simp [clearFd, pc]) (by simp)

theorem reportStep_inv {l : Link} (inv : LinkInv l) (result : ReportResult) (safe : LinkAction.Safe l (.report result)) :
    LinkInv (reportStep result l) := by
  cases pc : l.report with
  | test =>
    simp only [reportStep, pc]
    split
    · exact inv.at_report .read
    · exact inv
  | read =>
    simp only [reportStep, pc]
    exact inv.at_report _
  | send sock =>
    simp only [reportStep, pc]
    split
    · exact inv.at_report .close
    · split
      · exact inv.at_report .test
      · exact inv
  | close =>
    simp only [reportStep, pc]
    exact (closeFd_inv inv (safe (.inl pc))).at_report .clear
  | clear =>
    simp only [reportStep, pc]
    exact (clearFd_inv inv (safe (.inr pc))).at_report .setState
  | setState =>
    simp only [reportStep, pc]
    exact (setState_inv inv (by decide)).at_report .test

theorem clientStep_inv {l : Link} (inv : LinkInv l) (call : ClientCall) (ip : List UInt8) (port : Nat) (ok : Bool)
    (safe : LinkAction.Safe l (.client call ip port ok)) : LinkInv (clientStep call ip port ok l) := by
  cases pc : l.client with
  | idle | reboot1 | reboot4 =>
    simp only [clientStep, pc]
    exact inv.at_client _
  | resetNull | resetPre =>
    simp only [clientStep, pc]
    exact (setState_inv inv (by decide)).at_client _
  | resetClose | close1 | close4 =>
    simp only [LinkAction.Safe, pc] at safe
    simp only [clientStep, pc]
    exact (closeFd_inv inv safe).at_client _
  | resetClear | clear1 | clear4 =>
    simp only [LinkAction.Safe, pc] at safe
    simp only [clientStep, pc]
    exact (clearFd_inv inv safe).at_client _
  | resetIp =>
    simp only [LinkAction.Safe, pc] at safe
    simp only [clientStep, pc]
    have same : ∀ ip' port', l.sockets l.sig.sigFd = .connected ip' port' → ip' = ip ∧ port' = l.sig.sigPort :=
      fun ip' port' there => ⟨safe ip' port' there, (inv.address ip' port' there).2.symm⟩
    exact (address_inv inv same).at_client _
  | resetPort =>
    simp only [LinkAction.Safe, pc] at safe
    simp only [clientStep, pc]
    have same : ∀ ip' port', l.sockets l.sig.sigFd = .connected ip' port' → ip' = l.sig.sigIp ∧ port' = port :=
      fun ip' port' there => ⟨(inv.address ip' port' there).1.symm, safe ip' port' there⟩
    exact (address_inv inv same).at_client _

theorem linkStep_inv {l : Link} (inv : LinkInv l) {a : LinkAction} (safe : a.Safe l) : LinkInv (linkStep l a) := by
  cases a with
  | service fd ok => exact serviceStep_inv inv fd ok
  | report result => exact reportStep_inv inv result safe
  | check => exact inv
  | client call ip port ok => exact clientStep_inv inv call ip port ok safe

theorem linkInv_initial (connects : Bool) (ip : List UInt8) (port : Nat) : LinkInv (Link.initial connects ip port) := by
  have state : (Link.initial connects ip port).sig.sigState ≠ .connected := by cases connects <;> simp [Link.initial]
  exact ⟨fun same => absurd same state, fun ready => (nomatch ready), fun _ => state, fun _ _ there => (nomatch there),
    fun _ _ => rfl⟩

/-! ## Runs -/

/-- **`SIG_CONNECTED` means connected**: in every state that a run of safe steps reaches, `sig_fd` is
connected to the current address if the state says so. -/
theorem link_connected (connects : Bool) (ip : List UInt8) (port : Nat) (run : List LinkAction)
    (safe : ∀ before a after, run = before ++ a :: after →
      LinkAction.Safe (before.foldl linkStep (Link.initial connects ip port)) a)
    (before after : List LinkAction) (split : run = before ++ after)
    (state : (before.foldl linkStep (Link.initial connects ip port)).sig.sigState = .connected) :
    (before.foldl linkStep (Link.initial connects ip port)).Connected := by
  have inv := foldl_invariant (fun _ => LinkInv) (fun _ => LinkAction.Safe) (fun _ _ _ inv safe => linkStep_inv inv safe)
    (linkInv_initial connects ip port) safe split
  exact inv.connected state

/-- The service connects at its first attempt. -/
def handshake : List LinkAction := List.replicate 10 (.service 5 true)

theorem link_connected_handshake :
    (handshake.foldl linkStep (Link.initial true [] 5000)).sig.sigState = .connected ∧
      (handshake.foldl linkStep (Link.initial true [] 5000)).Connected := by
  refine ⟨by decide, link_connected true [] 5000 handshake ?_ handshake [] (List.append_nil _).symm (by decide)⟩
  intro before a after split
  have there : a ∈ handshake := by
    rw [split]
    simp
  rw [List.eq_of_mem_replicate there]
  trivial

/-- A report that fails closes the socket before it changes the state. -/
def failedReport : List LinkAction :=
  handshake ++ [.report .sent, .report .sent, .report .failed, .report .sent]

/-- The state still says `SIG_CONNECTED`. -/
theorem failedReport_closed :
    (failedReport.foldl linkStep (Link.initial true [] 5000)).sig.sigState = .connected ∧
      (failedReport.foldl linkStep (Link.initial true [] 5000)).sig.sigFd = 5 ∧
      (failedReport.foldl linkStep (Link.initial true [] 5000)).sockets 5 = .closed ∧
      ¬ (failedReport.foldl linkStep (Link.initial true [] 5000)).Connected := by
  have closed : (failedReport.foldl linkStep (Link.initial true [] 5000)).sockets 5 = .closed := by decide
  have fd : (failedReport.foldl linkStep (Link.initial true [] 5000)).sig.sigFd = 5 := by decide
  refine ⟨by decide, fd, closed, ?_⟩
  rw [Link.Connected, fd, closed]
  simp

end VideoDetector.Signal
