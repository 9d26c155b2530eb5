import Mathlib.Data.Finset.Basic
import Mathlib.Data.Finset.Insert
import Mathlib.Tactic.Common
import VideoDetector.Lib.Runs

/-!
# The network session of a camera (`fvd-new/cam_net.c`)

`net_open_camera` logs in and opens a channel, `net_close_camera` closes both through the handles that
`login_info` keeps. What the camera SDK answers is arbitrary; it keeps the handles that are open. A
failed login leaves the handle it is given as it was, `NULL`, and leaves `channel_handle` alone, and
nothing clears a handle that was closed: `net_reports_iff` says which histories of calls do not see it.
-/

namespace VideoDetector.Camera
set_option autoImplicit false
open Lib

abbrev Handle := Nat

/-- `m_cam_context`; `none` is `NULL`. -/
structure CamContext where
  ip : List UInt8
  port : Nat
  username : List UInt8
  passwd : List UInt8
  serverHangle : Option Handle
  channelHandle : Option Handle
  deriving DecidableEq

/-- The servers and channels that are open in the SDK. -/
structure Sdk where
  servers : Finset Handle
  channels : Finset Handle
  deriving DecidableEq

/-- The context of a camera and the SDK. -/
structure Net where
  ctx : CamContext
  sdk : Sdk
  deriving DecidableEq

/-- What the SDK answers during a `net_open_camera`: the handles of the login and of the channel, or
`none` for an error. -/
structure LoginAnswer where
  logon : Option Handle
  channel : Option Handle
  deriving DecidableEq

/-- The calls that hand a stored handle back to the SDK. -/
inductive SdkCall where
  | closeChannel (handle : Handle)
  | logoffServer (handle : Handle)
  deriving DecidableEq, Repr

/-- The handle is open. -/
def SdkCall.Valid (sdk : Sdk) : SdkCall → Prop
  | closeChannel handle => handle ∈ sdk.channels
  | logoffServer handle => handle ∈ sdk.servers

def Sdk.call (sdk : Sdk) : SdkCall → Sdk
  | .closeChannel handle => { sdk with channels := sdk.channels.erase handle }
  | .logoffServer handle => { sdk with servers := sdk.servers.erase handle }

/-- `login_camera`; the channel is opened only after a login without an error. -/
def loginCamera (answer : LoginAnswer) (net : Net) : Net :=
  match answer.logon with
  | none => { net with ctx := { net.ctx with serverHangle := none } }
  | some server =>
    { ctx := { net.ctx with serverHangle := some server, channelHandle := answer.channel }
      sdk :=
        { servers := insert server net.sdk.servers
          channels := answer.channel.elim net.sdk.channels fun channel => insert channel net.sdk.channels } }

/-- `net_open_camera`: the context and the result. -/
def netOpenCamera (answer : LoginAnswer) (net : Net) (ip : List UInt8) (port : Nat) (name passwd : List UInt8) :
    Net × Int :=
  let net := { net with ctx := { net.ctx with ip := ip, port := port, username := name, passwd := passwd } }
  let net := loginCamera answer net
  if net.ctx.channelHandle = none then (net, -1) else (net, 0)

/-- The SDK calls of `logoff_camera`. -/
def logoffCamera (ctx : CamContext) : List SdkCall :=
  (ctx.channelHandle.map SdkCall.closeChannel).toList ++ (ctx.serverHangle.map SdkCall.logoffServer).toList

/-- `net_close_camera`. The handles stay in the context. -/
def netCloseCamera (net : Net) : Net := { net with sdk := (logoffCamera net.ctx).foldl Sdk.call net.sdk }

def Net.initial : Net :=
  { ctx := { ip := [], port := 0, username := [], passwd := [], serverHangle := none, channelHandle := none }
    sdk := { servers := ∅, channels := ∅ } }

/-! ## Histories of calls -/

inductive NetCall where
  | openCamera (answer : LoginAnswer) (ip : List UInt8) (port : Nat) (name passwd : List UInt8)
  | closeCamera
  deriving DecidableEq

def netStep (net : Net) : NetCall → Net
  | .openCamera answer ip port name passwd => (netOpenCamera answer net ip port name passwd).1
  | .closeCamera => netCloseCamera net

/-- An open reports its own attempt, and a close hands back handles that are open. -/
def ReportsAttempt (net : Net) : NetCall → Prop
  | .openCamera answer ip port name passwd =>
    (netOpenCamera answer net ip port name passwd).2 = 0 ↔ answer.logon.isSome ∧ answer.channel.isSome
  | .closeCamera =>
    ∀ before call after, logoffCamera net.ctx = before ++ call :: after →
      call.Valid (before.foldl Sdk.call net.sdk)

/-- An open whose login fails finds no channel handle, and a close does not come right after another
close, unless there is no handle. -/
def NoStaleHandle (before : List NetCall) (net : Net) : NetCall → Prop
  | .openCamera answer _ _ _ _ => answer.logon = none → net.ctx.channelHandle = none
  | .closeCamera =>
    before.getLast? = some .closeCamera → net.ctx.channelHandle = none ∧ net.ctx.serverHangle = none

/-- The stored handles are open. -/
def Net.HandlesOpen (net : Net) : Prop :=
  (∀ h, net.ctx.channelHandle = some h → h ∈ net.sdk.channels) ∧ ∀ h, net.ctx.serverHangle = some h → h ∈ net.sdk.servers

/-- The stored handles are closed. -/
def Net.HandlesClosed (net : Net) : Prop :=
  (∀ h, net.ctx.channelHandle = some h → h ∉ net.sdk.channels) ∧ ∀ h, net.ctx.serverHangle = some h → h ∉ net.sdk.servers

/-- Right after a close the stored handles are closed, else they are open. -/
structure Tracks (before : List NetCall) (net : Net) : Prop where
  closed : before.getLast? = some .closeCamera → net.HandlesClosed
  opened : before.getLast? ≠ some .closeCamera → net.HandlesOpen

/-- A close hands back open handles exactly if the stored ones are open. -/
theorem closeCamera_reports_iff (net : Net) : ReportsAttempt net .closeCamera ↔ net.HandlesOpen := by
  obtain ⟨⟨ip, port, username, passwd, server, channel⟩, sdk⟩ := net
  simp only [ReportsAttempt, Net.HandlesOpen, logoffCamera]
  constructor
  · intro valid
    constructor
    · rintro h rfl
      exact valid [] (.closeChannel h) _ rfl
    · rintro h rfl
      have inside := valid (channel.map SdkCall.closeChannel).toList (.logoffServer h) [] rfl
      cases channel with
      | none => exact inside
      | some c => exact inside
  · rintro ⟨channels, servers⟩ before call after split
    cases channel with
    | none =>
      cases server with
      | none => simp at split
      | some h =>
        obtain ⟨rfl, rfl, rfl⟩ : before = [] ∧ call = .logoffServer h ∧ after = [] := by
          rcases before with _ | ⟨a, before⟩ <;> simp_all
        exact servers h rfl
    | some c =>
      rcases before with _ | ⟨a, before⟩
      · cases split
        exact channels c rfl
      · cases server with
        | none => simp at split
        | some h =>
          obtain ⟨rfl, rfl, rfl, rfl⟩ : a = .closeChannel c ∧ before = [] ∧ call = .logoffServer h ∧ after = [] := by
            rcases before with _ | ⟨b, before⟩ <;> simp_all
          exact servers h rfl

/-- The context with the parameters of an open. -/
def Net.aim (net : Net) (ip : List UInt8) (port : Nat) (name passwd : List UInt8) : Net :=
  { net with ctx := { net.ctx with ip := ip, port := port, username := name, passwd := passwd } }

theorem netOpenCamera_eq (answer : LoginAnswer) (net : Net) (ip : List UInt8) (port : Nat) (name passwd : List UInt8) :
    netOpenCamera answer net ip port name passwd =
      (loginCamera answer (net.aim ip port name passwd),
        if (loginCamera answer (net.aim ip port name passwd)).ctx.channelHandle = none then -1 else 0) := by
  unfold netOpenCamera
  rw [apply_ite (Prod.mk _)]
  rfl

/-- The channel handle after a login. -/
theorem loginCamera_channel (answer : LoginAnswer) (net : Net) :
    (loginCamera answer net).ctx.channelHandle =
      if answer.logon = none then net.ctx.channelHandle else answer.channel := by
  obtain ⟨logon, channel⟩ := answer
  cases logon with
  | none => rfl
  | some server => rfl

/-- An open reports its attempt exactly if a failed login finds no channel handle. -/
theorem openCamera_reports_iff (net : Net) (answer : LoginAnswer) (ip : List UInt8) (port : Nat)
    (name passwd : List UInt8) :
    ReportsAttempt net (.openCamera answer ip port name passwd) ↔
      (answer.logon = none → net.ctx.channelHandle = none) := by
  have stored : (net.aim ip port name passwd).ctx.channelHandle = net.ctx.channelHandle := rfl
  simp only [ReportsAttempt, netOpenCamera_eq, loginCamera_channel, stored]
  obtain ⟨logon, channel⟩ := answer
  cases logon with
  | none => simp
  | some server => cases channel <;> simp

theorem netCloseCamera_closed (net : Net) : (netCloseCamera net).HandlesClosed := by
  obtain ⟨⟨ip, port, username, passwd, server, channel⟩, sdk⟩ := net
  cases channel <;> cases server <;>
    simp [Net.HandlesClosed, netCloseCamera, logoffCamera, Sdk.call]

theorem netCloseCamera_fewer (net : Net) :
    (netCloseCamera net).sdk.servers ⊆ net.sdk.servers ∧ (netCloseCamera net).sdk.channels ⊆ net.sdk.channels := by
  obtain ⟨⟨ip, port, username, passwd, server, channel⟩, sdk⟩ := net
  cases channel <;> cases server <;>
    simp [netCloseCamera, logoffCamera, Sdk.call, Finset.erase_subset]

theorem netOpenCamera_open {net : Net} {answer : LoginAnswer} (ip : List UInt8) (port : Nat) (name passwd : List UInt8)
    (fresh : answer.logon = none → net.ctx.channelHandle = none) :
    (netOpenCamera answer net ip port name passwd).1.HandlesOpen := by
  have stored : (net.aim ip port name passwd).ctx.channelHandle = net.ctx.channelHandle := rfl
  rw [netOpenCamera_eq]
  obtain ⟨logon, channel⟩ := answer
  cases logon with
  | none => simp [Net.HandlesOpen, loginCamera, stored, fresh rfl]
  | some server => cases channel <;> simp [Net.HandlesOpen, loginCamera]

/-- **One call**: it reports its own attempt exactly if it meets no stale handle, and then the handles
are tracked. -/
theorem netCall_exact {before : List NetCall} {net : Net} (tracks : Tracks before net) (call : NetCall) :
    (ReportsAttempt net call ↔ NoStaleHandle before net call) ∧
      (NoStaleHandle before net call → Tracks (before ++ [call]) (netStep net call)) := by
  cases call with
  | openCamera answer ip port name passwd =>
    refine ⟨openCamera_reports_iff net answer ip port name passwd, fun fresh => ⟨?_, fun _ => ?_⟩⟩
    · intro last
      simp at last
    · exact netOpenCamera_open ip port name passwd fresh
  | closeCamera =>
    constructor
    · rw [closeCamera_reports_iff]
      by_cases last : before.getLast? = some .closeCamera
      · obtain ⟨channels, servers⟩ := tracks.closed last
        constructor
        · rintro ⟨channels', servers'⟩ _
          constructor
          · cases stored : net.ctx.channelHandle with
            | none => rfl
            | some h => exact absurd (channels' h stored) (channels h stored)
          · cases stored : net.ctx.serverHangle with
            | none => rfl
            | some h => exact absurd (servers' h stored) (servers h stored)
        · intro fresh
          obtain ⟨noChannel, noServer⟩ := fresh last
          constructor
          · rw [noChannel]
            simp
          · rw [noServer]
            simp
      · exact iff_of_true (tracks.opened last) fun again => absurd again last
    · exact fun _ => ⟨fun _ => netCloseCamera_closed net, fun last => absurd (by simp) last⟩

/-- **When the calls report this attempt**: in every call of a history, exactly if no failed login finds
a channel handle and no close follows another one while there is a handle. -/
theorem net_reports_iff (calls : List NetCall) :
    (∀ before call after, calls = before ++ call :: after →
      ReportsAttempt (before.foldl netStep Net.initial) call) ↔
      ∀ before call after, calls = before ++ call :: after →
        NoStaleHandle before (before.foldl netStep Net.initial) call :=
  foldl_iff Tracks (fun _ => ReportsAttempt) NoStaleHandle (fun _ _ call tracks fresh => (netCall_exact tracks call).2 fresh)
    (fun _ _ call tracks => (netCall_exact tracks call).1)
    ⟨fun last => by simp at last, fun _ => ⟨by simp [Net.initial], by simp [Net.initial]⟩⟩

/-- Success, close, failed login. -/
def staleHistory : List NetCall :=
  [.openCamera ⟨some 1, some 2⟩ [] 0 [] [], .closeCamera, .openCamera ⟨none, none⟩ [] 0 [] []]

/-- The failed login after a close is reported as a success. -/
theorem stale_open_succeeds :
    (netOpenCamera ⟨none, none⟩ ((staleHistory.take 2).foldl netStep Net.initial) [] 0 [] []).2 = 0 ∧
      ¬ ∀ before call after, staleHistory = before ++ call :: after →
        ReportsAttempt (before.foldl netStep Net.initial) call := by
  have success : (netOpenCamera ⟨none, none⟩ ((staleHistory.take 2).foldl netStep Net.initial) [] 0 [] []).2 = 0 := rfl
  refine ⟨success, fun reports => ?_⟩
  have own := (reports (staleHistory.take 2) _ [] rfl).mp success
  exact absurd own.1 (by decide)

end VideoDetector.Camera
