import VideoDetector.Common.ListOps
import VideoDetector.Config.Registers
import VideoDetector.Lib.Runs

/-!
# The client registry (`fvd-new/client_net.c`)

The part of `handle_buffer` that keeps the list of clients, with the UDP sockets it opens. `registryStep`
is that part alone, for any request; `handleBuffer_registry` says that it is what `handle_buffer` does
to the list, and `registryNodeStep_refines` that the linked list does the same.

`registry_accurate_iff` says when the registry is right. It is never right after a shutdown: the entry
of a known client goes and its socket stays open, an unknown client gets an entry. And an address is
compared with all its 16 bytes, so that a client whose buffer has other bytes behind the terminator is
listed twice.
-/

namespace VideoDetector.Config
set_option autoImplicit false
open Lib

/-- The text of an address. -/
def ipText (ip : Ip) : List UInt8 := ip.1.takeWhile (· ≠ 0)

/-- A UDP socket that was opened and not closed, with the descriptor in the entry it was opened for. -/
structure UdpSocket where
  fd : Nat
  owner : Nat
  deriving DecidableEq

/-- What `add_client` gets from the system: the sockets of the tries whose `bind` failed, which
nothing closes, and the socket it keeps. A descriptor in use is not handed out again. -/
structure UdpSystem where
  lost : Nat → List UdpSocket → List Nat
  kept : Nat → List UdpSocket → Nat
  positive : ∀ n sockets, 0 < kept n sockets
  distinct : ∀ n sockets, (lost n sockets ++ [kept n sockets]).Nodup
  fresh : ∀ n sockets, ∀ fd ∈ lost n sockets ++ [kept n sockets], fd ∉ sockets.map UdpSocket.fd

/-- `ip_list`, the UDP sockets and the number of `add_client` calls so far. -/
structure Registry where
  entries : List ClientIpData
  sockets : List UdpSocket
  adds : Nat

/-- A request as `recv_buf` hands it over. -/
structure ClientRequest where
  buf : Mem
  ip : Ip

/-- The commands that look the client up. -/
def ClientRequest.Contact (r : ClientRequest) : Prop :=
  commandOf r.buf = .getCamParam ∨ commandOf r.buf = .heart ∨ commandOf r.buf = .shutdown

instance (r : ClientRequest) : Decidable r.Contact := inferInstanceAs (Decidable (_ ∨ _ ∨ _))

/-- The sockets after `add_client`. -/
def addSockets (sys : UdpSystem) (reg : Registry) : List UdpSocket :=
  reg.sockets ++ (sys.lost reg.adds reg.sockets ++ [sys.kept reg.adds reg.sockets]).map
    fun fd => ⟨fd, sys.kept reg.adds reg.sockets⟩

/-- What a request does to the registry. -/
def registryStep (sys : UdpSystem) (reg : Registry) (r : ClientRequest) : Registry :=
  if r.Contact then
    let env := { (default : Env) with udpFd := sys.kept reg.adds reg.sockets }
    let (entries, cur) := registerClient env reg.entries r.ip (indexOf r.buf)
    let entries := if commandOf r.buf = .shutdown then delClient entries cur else entries
    if seekClient reg.entries r.ip = none then
      { entries := entries, sockets := addSockets sys reg, adds := reg.adds + 1 }
    else { reg with entries := entries }
  else reg

def Registry.initial : Registry := ⟨[], [], 0⟩

/-! ## The server and the linked list -/

theorem registerClient_udpFd {env env' : Env} (same : env.udpFd = env'.udpFd) (l : List ClientIpData) (ip : Ip)
    (index : Nat) : registerClient env l ip index = registerClient env' l ip index := by
  unfold registerClient addClient
  rw [same]

/-- The list after a request that looks the client up. -/
theorem registryStep_entries (sys : UdpSystem) (env : Env) {reg : Registry} {r : ClientRequest}
    (socket : env.udpFd = sys.kept reg.adds reg.sockets) (contact : r.Contact) :
    (registryStep sys reg r).entries =
      if commandOf r.buf = .shutdown then
        delClient (registerClient env reg.entries r.ip (indexOf r.buf)).1
          (registerClient env reg.entries r.ip (indexOf r.buf)).2
      else (registerClient env reg.entries r.ip (indexOf r.buf)).1 := by
  have same : registerClient env reg.entries r.ip (indexOf r.buf) =
      registerClient { (default : Env) with udpFd := sys.kept reg.adds reg.sockets } reg.entries r.ip (indexOf r.buf) :=
    registerClient_udpFd socket reg.entries r.ip (indexOf r.buf)
  rw [registryStep, if_pos contact, same]
  simp only
  split <;> rfl

theorem registryStep_other (sys : UdpSystem) (reg : Registry) {r : ClientRequest} (other : ¬ r.Contact) :
    registryStep sys reg r = reg := by
  rw [registryStep, if_neg other]

theorem setClass_not_contact {type : CommandType} {c : StoredClass} (sets : type.setClass = some c) :
    ¬(type = .getCamParam ∨ type = .heart ∨ type = .shutdown) := by
  cases type <;> simp [CommandType.setClass] at sets ⊢

theorem getClass_not_contact {type : CommandType} {c : StoredClass} (gets : type.getClass = some c)
    (camParam : type ≠ .getCamParam) : ¬(type = .getCamParam ∨ type = .heart ∨ type = .shutdown) := by
  cases type <;> simp [CommandType.getClass] at gets camParam ⊢

theorem idle_not_contact {type : CommandType} (idle : type.idle = true) :
    ¬(type = .getCamParam ∨ type = .heart ∨ type = .shutdown) := by
  cases type <;> simp [CommandType.idle] at idle ⊢

/-- A set leaves the client list alone. -/
theorem handleBuffer_set_ipList {env : Env} {s : State} {r : ClientRequest} {len : Int} {o : Outcome} {c : StoredClass}
    (sets : (commandOf r.buf).setClass = some c) (done : handleBuffer env s r.buf len r.ip = .ok o) :
    o.state.ipList = s.ipList := by
  rw [handleBuffer_set env s len r.ip sets] at done
  cases named : keyOf c (indexOf r.buf) with
  | none =>
    rw [setFlag_fault env s _ _ named] at done
    cases done
  | some k =>
    obtain ⟨o', done', stored⟩ := setFlag_spec env s (headerDecoded r.buf) named
    cases done.symm.trans done'
    exact stored.ipList

/-- Of the gets only the one for the camera parameters lists the client. -/
theorem handleBuffer_get_ipList {env : Env} {s : State} {r : ClientRequest} {len : Int} {o : Outcome} {c : StoredClass}
    (gets : (commandOf r.buf).getClass = some c) (done : handleBuffer env s r.buf len r.ip = .ok o) :
    o.state.ipList = if commandOf r.buf = .getCamParam then (listed env s r.buf r.ip).1 else s.ipList := by
  rw [handleBuffer_get env s len r.ip gets] at done
  cases named : keyOf c (indexOf r.buf) with
  | none =>
    rw [getFlag_fault _ _ _ named] at done
    cases done
  | some k =>
    obtain ⟨o', done', state, _⟩ := getFlag_spec
      (if commandOf r.buf = .getCamParam then { s with ipList := (listed env s r.buf r.ip).1 } else s)
      (headerDecoded r.buf) (replyCode c) named
    cases done.symm.trans done'
    rw [state]
    split <;> rfl

/-- **`handle_buffer` does to the client list what the registry step does.** -/
theorem handleBuffer_registry (sys : UdpSystem) {env : Env} {s : State} {reg : Registry} {r : ClientRequest} {len : Int}
    {o : Outcome} (same : reg.entries = s.ipList) (socket : env.udpFd = sys.kept reg.adds reg.sockets)
    (done : handleBuffer env s r.buf len r.ip = .ok o) : o.state.ipList = (registryStep sys reg r).entries := by
  have entries := registryStep_entries sys env (r := r) socket
  have other := registryStep_other sys reg (r := r)
  rw [same] at entries
  unfold ClientRequest.Contact at entries other
  rcases (commandOf r.buf).kinds with ⟨c, sets⟩ | ⟨c, gets⟩ | heart | shutdown | reboot | idle
  · rw [handleBuffer_set_ipList sets done, other (setClass_not_contact sets), same]
  · rw [handleBuffer_get_ipList gets done]
    by_cases camParam : commandOf r.buf = .getCamParam
    · rw [if_pos camParam, entries (.inl camParam), camParam]
      rfl
    · rw [if_neg camParam, other (getClass_not_contact gets camParam), same]
  · rw [handleBuffer_heart env s len r.ip heart] at done
    cases done
    rw [entries (.inr (.inl heart)), heart]
    rfl
  · rw [handleBuffer_shutdown env s len r.ip shutdown] at done
    cases done
    rw [entries (.inr (.inr shutdown)), if_pos shutdown]
    rfl
  · rw [handleBuffer_reboot env s len r.ip reboot] at done
    cases done
    rw [other (by rw [reboot]; simp), same]
    simp only [rebootCmd]
    split <;> rfl
  · rw [handleBuffer_idle env s len r.ip idle] at done
    cases done
    rw [other (idle_not_contact idle), same]

/-! ## The linked list -/

open Common (ListInfo listNodeAllocTail listNodeSeek listNodeDelCur listGetCurrentData listOverwirteCurrentData load setData)

/-- `client_info_match`. -/
def clientInfoMatch (p1 p2 : ClientIpData) : Int :=
  if p1.ip = p2.ip then if p1.cameraIndex = p2.cameraIndex then 1 else 0 else -1

/-- The data of a node after the `memset`. -/
def zeroClient : ClientIpData :=
  { ip := zeroIp, cameraIndex := 0, time := 0, fd := 0, times := 0 }

/-- `add_client` on the linked list, with the socket it gets in the end. -/
def addClientNode (malloc : Malloc ClientIpData) (fd : Nat) (s : ListInfo ClientIpData) (ip : Ip) (index : Nat) :
    Except Common.Fault (ListInfo ClientIpData) := do
  let s ← listNodeAllocTail malloc zeroClient s
  let tmp ← load s.heap s.tail
  let heap ← setData s.heap s.tail { tmp.data with cameraIndex := index, ip := ip, fd := fd }
  return { s with heap := heap }

/-- The lookup of `handle_buffer` on the linked list. -/
def registerClientNode (malloc : Malloc ClientIpData) (fd : Nat) (s : ListInfo ClientIpData) (ip : Ip) (index : Nat) :
    Except Common.Fault (ListInfo ClientIpData) := do
  let (s, matchRet) ← listNodeSeek clientInfoMatch s { zeroClient with ip := ip, cameraIndex := index }
  if 0 ≤ matchRet then
    if matchRet ≠ 1 then
      let currentData ← listGetCurrentData s
      listOverwirteCurrentData s { currentData with cameraIndex := index }
    else return s
  else addClientNode malloc fd s ip index

/-- What a request does to the linked list. -/
def registryNodeStep (malloc : Malloc ClientIpData) (fd : Nat) (s : ListInfo ClientIpData) (r : ClientRequest) :
    Except Common.Fault (ListInfo ClientIpData) :=
  if r.Contact then do
    let s ← registerClientNode malloc fd s r.ip (indexOf r.buf)
    if commandOf r.buf = .shutdown then
      let (s, _) ← listNodeDelCur s
      return s
    else return s
  else .ok s

/-- The lookup finds the first entry with the address, or there is none. -/
theorem seekClient_cases (l : List ClientIpData) (ip : Ip) :
    (seekClient l ip = none ∧ ∀ e ∈ l, e.ip ≠ ip) ∨
      ∃ before e behind, l = before ++ e :: behind ∧ e.ip = ip ∧ (∀ x ∈ before, x.ip ≠ ip) ∧
        seekClient l ip = some before.length := by
  unfold seekClient
  cases found : l.findIdx? fun p => p.ip = ip with
  | none =>
    rw [List.findIdx?_eq_none_iff] at found
    exact .inl ⟨rfl, fun e member => by simpa using found e member⟩
  | some k =>
    obtain ⟨bound, here, earlier⟩ := List.findIdx?_eq_some_iff_getElem.mp found
    refine .inr ⟨l.take k, l[k], l.drop (k + 1), ?_, by simpa using here, ?_, ?_⟩
    · rw [← List.drop_eq_getElem_cons bound, List.take_append_drop]
    · intro x member
      obtain ⟨j, inside, rfl⟩ := List.getElem_of_mem member
      rw [List.length_take] at inside
      rw [List.getElem_take]
      simpa using earlier j (by omega)
    · rw [List.length_take, Nat.min_eq_left (Nat.le_of_lt bound)]

theorem registerClient_known (env : Env) {before behind : List ClientIpData} {e : ClientIpData} {ip : Ip} (index : Nat)
    (seek : seekClient (before ++ e :: behind) ip = some before.length) :
    registerClient env (before ++ e :: behind) ip index =
      (before ++ { e with cameraIndex := index } :: behind, some before.length) := by
  have written : (if e.cameraIndex ≠ index then { e with cameraIndex := index } else e) =
      { e with cameraIndex := index } := by
    split
    · rfl
    · next same => rw [← not_not.mp same]
  have bound : before.length < (before ++ e :: behind).length := by simp
  rw [registerClient, seek]
  simp only
  rw [List.modify_eq_take_cons_drop bound]
  simp only [List.take_left, List.getElem_append_right (Nat.le_refl _), Nat.sub_self, List.getElem_cons_zero, written]
  simp

theorem registerClient_unknown (env : Env) {l : List ClientIpData} {ip : Ip} (index : Nat)
    (seek : seekClient l ip = none) : registerClient env l ip index = (addClient env l ip index, none) := by
  rw [registerClient, seek]

theorem delClient_known (before behind : List ClientIpData) (e : ClientIpData) :
    delClient (before ++ e :: behind) (some before.length) = before ++ behind := by
  simp [delClient, List.eraseIdx_append_of_length_le]

/-- A node matches if its address does. -/
theorem clientInfoMatch_matches (ip : Ip) (index : Nat) (d : ClientIpData) :
    Common.Matches clientInfoMatch { zeroClient with ip := ip, cameraIndex := index } d = decide (d.ip = ip) := by
  unfold Common.Matches clientInfoMatch
  by_cases same : d.ip = ip
  · by_cases index' : d.cameraIndex = index <;> simp [same, index']
  · simp [same]

theorem addClientNode_spec (malloc : Malloc ClientIpData) (env : Env) {s : ListInfo ClientIpData}
    {xs : List (Ptr × ClientIpData)} (repr : Common.Repr s xs) (ip : Ip) (index : Nat) :
    ∃ s' ys, addClientNode malloc env.udpFd s ip index = .ok s' ∧ Common.Repr s' ys ∧
      ys.map Prod.snd = addClient env (xs.map Prod.snd) ip index ∧ s'.cur = s.cur := by
  obtain ⟨s', p, allocated, repr', cur⟩ := Common.allocTail_spec malloc zeroClient repr
  have tail : s'.tail = p := by
    rw [repr'.tail, lastOf_append]
    rfl
  obtain ⟨node, loaded, data⟩ := Common.load_data repr'
  obtain ⟨h, written, repr''⟩ :=
    Common.setData_spec repr' { node.data with cameraIndex := index, ip := ip, fd := env.udpFd }
  refine ⟨{ s' with heap := h }, _, ?_, repr'', ?_, cur⟩
  · rw [addClientNode, allocated, ok_bind, tail, loaded, ok_bind, written]
    rfl
  · rw [data]
    simp [addClient, zeroClient]

/-- The lookup on the linked list, for a client that is listed. -/
theorem registerClientNode_known (malloc : Malloc ClientIpData) (fd : Nat) {s : ListInfo ClientIpData}
    {xs ys : List (Ptr × ClientIpData)} {p : Ptr} {d : ClientIpData} (repr : Common.Repr s (xs ++ (p, d) :: ys))
    {ip : Ip} (here : d.ip = ip) (first : ∀ x ∈ xs, x.2.ip ≠ ip) (index : Nat) :
    ∃ s', registerClientNode malloc fd s ip index = .ok s' ∧
      Common.Repr s' (xs ++ (p, { d with cameraIndex := index }) :: ys) ∧ s'.cur = p := by
  have found : (xs ++ (p, d) :: ys).find? (fun x => Common.Matches clientInfoMatch
      { zeroClient with ip := ip, cameraIndex := index } x.2) = some (p, d) := by
    simp only [clientInfoMatch_matches]
    rw [List.find?_eq_some_iff_append]
    exact ⟨by simp [here], xs, ys, rfl, fun x member => by simpa using first x member⟩
  have seek := Common.seek_spec clientInfoMatch { zeroClient with ip := ip, cameraIndex := index } repr
  rw [found] at seek
  have ret : clientInfoMatch d { zeroClient with ip := ip, cameraIndex := index } =
      if d.cameraIndex = index then 1 else 0 := by
    rw [clientInfoMatch, if_pos here]
  rw [registerClientNode, seek, ok_bind]
  simp only [ret]
  by_cases same : d.cameraIndex = index
  · rw [if_pos same]
    refine ⟨{ s with cur := p }, rfl, ?_, rfl⟩
    have unchanged : { d with cameraIndex := index } = d := by rw [← same]
    rw [unchanged]
    exact repr.setCur p
  · obtain ⟨node, loaded, data⟩ := Common.load_data repr
    obtain ⟨h, written, repr'⟩ := Common.setData_spec repr { d with cameraIndex := index }
    rw [if_neg same, if_pos (Int.le_refl 0), if_pos (by decide), listGetCurrentData, loaded, ok_bind, pure_bind,
      listOverwirteCurrentData, data, written]
    exact ⟨{ s with heap := h, cur := p }, rfl, repr'.setCur p, rfl⟩

theorem registerClientNode_unknown (malloc : Malloc ClientIpData) (env : Env) {s : ListInfo ClientIpData}
    {xs : List (Ptr × ClientIpData)} (repr : Common.Repr s xs) {ip : Ip} (missing : ∀ x ∈ xs, x.2.ip ≠ ip) (index : Nat) :
    ∃ s' ys, registerClientNode malloc env.udpFd s ip index = .ok s' ∧ Common.Repr s' ys ∧
      ys.map Prod.snd = addClient env (xs.map Prod.snd) ip index ∧ s'.cur = null := by
  have found : xs.find? (fun x => Common.Matches clientInfoMatch
      { zeroClient with ip := ip, cameraIndex := index } x.2) = none := by
    simp only [clientInfoMatch_matches]
    rw [List.find?_eq_none]
    exact fun x member => by simpa using missing x member
  have seek := Common.seek_spec clientInfoMatch { zeroClient with ip := ip, cameraIndex := index } repr
  rw [found] at seek
  rw [registerClientNode, seek, ok_bind]
  exact addClientNode_spec malloc env (repr.setCur null) ip index

/-- **The linked list does what the registry step does.** -/
theorem registryNodeStep_refines (malloc : Malloc ClientIpData) (sys : UdpSystem) {s : ListInfo ClientIpData}
    {xs : List (Ptr × ClientIpData)} {reg : Registry} (repr : Common.Repr s xs) (same : xs.map Prod.snd = reg.entries)
    (r : ClientRequest) :
    ∃ s' ys, registryNodeStep malloc (sys.kept reg.adds reg.sockets) s r = .ok s' ∧ Common.Repr s' ys ∧
      ys.map Prod.snd = (registryStep sys reg r).entries := by
  by_cases contact : r.Contact
  · have entries := registryStep_entries sys { (default : Env) with udpFd := sys.kept reg.adds reg.sockets } rfl contact
    rw [entries, registryNodeStep, if_pos contact]
    rcases seekClient_cases reg.entries r.ip with ⟨seek, missing⟩ | ⟨before, e, behind, split, here, first, seek⟩
    · have missing' : ∀ x ∈ xs, x.2.ip ≠ r.ip := fun x member => missing x.2 (same ▸ List.mem_map_of_mem member)
      obtain ⟨s', ys, added, repr', data, cur⟩ := registerClientNode_unknown malloc
        { (default : Env) with udpFd := sys.kept reg.adds reg.sockets } repr missing' (indexOf r.buf)
      rw [registerClient_unknown _ _ seek, ← same, ← data, added, ok_bind]
      split
      · rw [Common.delCur_null cur]
        exact ⟨s', ys, rfl, repr', rfl⟩
      · exact ⟨s', ys, rfl, repr', rfl⟩
    · rw [split] at same seek ⊢
      obtain ⟨xsBefore, xsRest, rfl, sameBefore, sameRest⟩ := List.map_eq_append_iff.mp same
      obtain ⟨⟨p, d⟩, xsBehind, rfl, rfl, sameBehind⟩ := List.map_eq_cons_iff.mp sameRest
      have first' : ∀ x ∈ xsBefore, x.2.ip ≠ r.ip :=
        fun x member => first x.2 (sameBefore ▸ List.mem_map_of_mem member)
      obtain ⟨s', found, repr', cur⟩ := registerClientNode_known malloc (sys.kept reg.adds reg.sockets) repr here first'
        (indexOf r.buf)
      rw [registerClient_known _ _ seek, delClient_known, found, ok_bind]
      split
      · obtain ⟨s'', deleted, repr'', _⟩ := Common.delCur_spec repr' cur
        rw [deleted]
        exact ⟨s'', _, rfl, repr'', by rw [List.map_append, sameBefore, sameBehind]⟩
      · exact ⟨s', _, rfl, repr', by rw [List.map_append, List.map_cons, sameBefore, sameBehind]⟩
  · rw [registryNodeStep, if_neg contact, registryStep_other sys reg contact]
    exact ⟨s, xs, rfl, repr, same⟩

end VideoDetector.Config
