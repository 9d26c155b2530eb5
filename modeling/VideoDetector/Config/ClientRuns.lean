import VideoDetector.Config.Clients

/-!
# When the client registry is right

`Accurate` is what the registry is for, said of the requests so far. `registry_accurate_iff` gives the
runs in which it holds after every request.
-/

namespace VideoDetector.Config
set_option autoImplicit false
open Lib

/-- The last request with an address text that looked the client up. -/
def lastContact (text : List UInt8) (rs : List ClientRequest) : Option ClientRequest :=
  rs.reverse.find? fun r => decide (r.Contact ∧ ipText r.ip = text)

/-- The registry agrees with the requests so far and with the open sockets. -/
structure Accurate (before : List ClientRequest) (reg : Registry) : Prop where
  unique : (reg.entries.map fun e => ipText e.ip).Nodup
  present : ∀ text, (∃ e ∈ reg.entries, ipText e.ip = text) ↔
    ∃ r, lastContact text before = some r ∧ commandOf r.buf ≠ .shutdown
  index : ∀ e ∈ reg.entries, ∀ r, lastContact (ipText e.ip) before = some r → e.cameraIndex = indexOf r.buf
  opened : ∀ e ∈ reg.entries, e.fd ∈ reg.sockets.map UdpSocket.fd
  own : (reg.entries.map ClientIpData.fd).Nodup
  closed : ∀ socket ∈ reg.sockets, ∃ e ∈ reg.entries, e.fd = socket.owner

/-- The registry is right after a request, and requests of other types left it alone. -/
def KeepsAccurate (sys : UdpSystem) (before : List ClientRequest) (reg : Registry) (r : ClientRequest) : Prop :=
  Accurate (before ++ [r]) (registryStep sys reg r) ∧ (¬ r.Contact → registryStep sys reg r = reg)

/-- A request that is no shutdown, and that brings the same 16 bytes as the earlier requests with the
same address text. -/
def SameBytes (before : List ClientRequest) (r : ClientRequest) : Prop :=
  commandOf r.buf ≠ .shutdown ∧
    (r.Contact → ∀ r' ∈ before, r'.Contact → ipText r'.ip = ipText r.ip → r'.ip = r.ip)

theorem lastContact_snoc (text : List UInt8) (before : List ClientRequest) (r : ClientRequest) :
    lastContact text (before ++ [r]) =
      if r.Contact ∧ ipText r.ip = text then some r else lastContact text before := by
  unfold lastContact
  rw [List.reverse_append, List.reverse_singleton, List.singleton_append, List.find?_cons]
  by_cases here : r.Contact ∧ ipText r.ip = text <;> simp [here]

theorem lastContact_other (text : List UInt8) (before : List ClientRequest) {r : ClientRequest} (other : ¬ r.Contact) :
    lastContact text (before ++ [r]) = lastContact text before := by
  rw [lastContact_snoc, if_neg fun here => other here.1]

theorem accurate_other {before : List ClientRequest} {reg : Registry} {r : ClientRequest} (other : ¬ r.Contact) :
    Accurate (before ++ [r]) reg ↔ Accurate before reg := by
  have same := fun text => lastContact_other text before other
  constructor
  · rintro ⟨unique, present, index, opened, own, closed⟩
    simp only [same] at present index
    exact ⟨unique, present, index, opened, own, closed⟩
  · rintro ⟨unique, present, index, opened, own, closed⟩
    simp only [← same] at present index
    exact ⟨unique, present, index, opened, own, closed⟩

/-- What a run that keeps the registry right knows more: entries and requests have the same bytes, and
the socket of an entry is its own. -/
structure Settled (before : List ClientRequest) (reg : Registry) : Prop where
  accurate : Accurate before reg
  source : ∀ e ∈ reg.entries, ∃ r ∈ before, r.Contact ∧ r.ip = e.ip
  target : ∀ r ∈ before, r.Contact → ∃ e ∈ reg.entries, e.ip = r.ip
  socket : ∀ e ∈ reg.entries, ⟨e.fd, e.fd⟩ ∈ reg.sockets

/-- After a request that stays, its address is listed and the others are as before. -/
theorem present_snoc {before : List ClientRequest} {entries entries' : List ClientIpData} {r : ClientRequest}
    (present : ∀ text, (∃ e ∈ entries, ipText e.ip = text) ↔
      ∃ r', lastContact text before = some r' ∧ commandOf r'.buf ≠ .shutdown)
    (contact : r.Contact) (stays : commandOf r.buf ≠ .shutdown) (listed : ∃ e ∈ entries', ipText e.ip = ipText r.ip)
    (others : ∀ text, ipText r.ip ≠ text →
      ((∃ e ∈ entries', ipText e.ip = text) ↔ ∃ e ∈ entries, ipText e.ip = text)) (text : List UInt8) :
    (∃ e ∈ entries', ipText e.ip = text) ↔
      ∃ r', lastContact text (before ++ [r]) = some r' ∧ commandOf r'.buf ≠ .shutdown := by
  rw [lastContact_snoc]
  by_cases mine : ipText r.ip = text
  · rw [if_pos ⟨contact, mine⟩]
    exact iff_of_true (mine ▸ listed) ⟨r, rfl, stays⟩
  · rw [if_neg fun here => mine here.2, others text mine]
    exact present text

/-- After a request its address has its index and the others have theirs. -/
theorem index_snoc {before : List ClientRequest} {entries entries' : List ClientIpData} {r : ClientRequest}
    (index : ∀ e ∈ entries, ∀ r', lastContact (ipText e.ip) before = some r' → e.cameraIndex = indexOf r'.buf)
    (contact : r.Contact)
    (each : ∀ e ∈ entries', ipText r.ip = ipText e.ip ∧ e.cameraIndex = indexOf r.buf ∨ ipText r.ip ≠ ipText e.ip ∧ e ∈ entries) :
    ∀ e ∈ entries', ∀ r', lastContact (ipText e.ip) (before ++ [r]) = some r' → e.cameraIndex = indexOf r'.buf := by
  intro e member r' last
  rw [lastContact_snoc] at last
  rcases each e member with ⟨mine, same⟩ | ⟨other, old⟩
  · rw [if_pos ⟨contact, mine⟩] at last
    cases last
    exact same
  · rw [if_neg fun here => other here.2] at last
    exact index e old r' last

/-! ## A client that is listed -/

section
variable {sys : UdpSystem} {before : List ClientRequest} {as bs : List ClientIpData} {e : ClientIpData}
  {sockets : List UdpSocket} {adds : Nat} {r : ClientRequest}

/-- The index of the entry with the address of the request is replaced. -/
theorem accurate_known (accurate : Accurate before ⟨as ++ e :: bs, sockets, adds⟩) (contact : r.Contact)
    (stays : commandOf r.buf ≠ .shutdown) (here : e.ip = r.ip) :
    Accurate (before ++ [r]) ⟨as ++ { e with cameraIndex := indexOf r.buf } :: bs, sockets, adds⟩ := by
  obtain ⟨unique, present, index, opened, own, closed⟩ := accurate
  have texts : (as ++ { e with cameraIndex := indexOf r.buf } :: bs).map (fun e => ipText e.ip) =
      (as ++ e :: bs).map fun e => ipText e.ip := by simp
  have fds : (as ++ { e with cameraIndex := indexOf r.buf } :: bs).map ClientIpData.fd =
      (as ++ e :: bs).map ClientIpData.fd := by simp
  have apart : ∀ x, x ∈ as ∨ x ∈ bs → ipText r.ip ≠ ipText x.ip := by
    rw [List.map_append, List.map_cons, List.nodup_middle, ← List.map_append, List.nodup_cons] at unique
    rintro x member same
    apply unique.1
    rw [here, same]
    exact List.mem_map_of_mem (f := fun e => ipText e.ip) (List.mem_append.mpr member)
  have sameTexts : ∀ text, (∃ x ∈ as ++ { e with cameraIndex := indexOf r.buf } :: bs, ipText x.ip = text) ↔
      ∃ x ∈ as ++ e :: bs, ipText x.ip = text := by
    intro text
    simp only [← List.mem_map (f := fun e : ClientIpData => ipText e.ip), texts]
  refine ⟨?_, present_snoc present contact stays ⟨_, List.mem_append_right _ List.mem_cons_self, by rw [here]⟩
    fun text _ => sameTexts text, index_snoc index contact fun x member => ?_, fun x member => ?_, ?_, fun socket member => ?_⟩
  · rw [texts]
    exact unique
  · rcases List.mem_append.mp member with old | new
    · exact .inr ⟨apart x (.inl old), List.mem_append_left _ old⟩
    · rcases List.mem_cons.mp new with rfl | old
      · exact .inl ⟨by rw [← here], rfl⟩
      · exact .inr ⟨apart x (.inr old), List.mem_append_right _ (List.mem_cons_of_mem e old)⟩
  · have inside := List.mem_map_of_mem (f := ClientIpData.fd) member
    rw [fds] at inside
    obtain ⟨y, member', same⟩ := List.mem_map.mp inside
    exact same ▸ opened y member'
  · rw [fds]
    exact own
  · obtain ⟨y, member', same⟩ := closed socket member
    have inside := List.mem_map_of_mem (f := ClientIpData.fd) member'
    rw [← fds] at inside
    obtain ⟨x, member'', same'⟩ := List.mem_map.mp inside
    exact ⟨x, member'', same'.trans same⟩

theorem registryStep_known (sys : UdpSystem) (sockets : List UdpSocket) (adds : Nat) (contact : r.Contact)
    (seek : seekClient (as ++ e :: bs) r.ip = some as.length) :
    registryStep sys ⟨as ++ e :: bs, sockets, adds⟩ r =
      ⟨if commandOf r.buf = .shutdown then as ++ bs else as ++ { e with cameraIndex := indexOf r.buf } :: bs,
        sockets, adds⟩ := by
  rw [registryStep, if_pos contact]
  simp only [registerClient_known _ _ seek, delClient_known, seek, reduceCtorEq, if_false]

/-- After the shutdown of a listed client its socket is open and no entry's. -/
theorem shutdown_known (settled : Settled before ⟨as ++ e :: bs, sockets, adds⟩) :
    ¬ Accurate (before ++ [r]) ⟨as ++ bs, sockets, adds⟩ := by
  intro accurate
  obtain ⟨x, member, same⟩ := accurate.closed _ (settled.socket e (by simp))
  have own := settled.accurate.own
  rw [List.map_append, List.map_cons, List.nodup_middle, ← List.map_append, List.nodup_cons] at own
  apply own.1
  rw [← show x.fd = e.fd from same]
  exact List.mem_map_of_mem member

/-- All earlier requests with the text of a listed address brought its bytes. -/
theorem sameBytes_known (settled : Settled before ⟨as ++ e :: bs, sockets, adds⟩) (here : e.ip = r.ip) :
    ∀ r' ∈ before, r'.Contact → ipText r'.ip = ipText r.ip → r'.ip = r.ip := by
  intro r' member contact text
  obtain ⟨x, inside, same⟩ := settled.target r' member contact
  have single : x = e := by
    apply List.inj_on_of_nodup_map settled.accurate.unique inside (List.mem_append_right _ List.mem_cons_self)
    rw [same, text, here]
  rw [← same, single, here]

theorem settled_known (settled : Settled before ⟨as ++ e :: bs, sockets, adds⟩) (contact : r.Contact)
    (stays : commandOf r.buf ≠ .shutdown) (here : e.ip = r.ip) :
    Settled (before ++ [r]) ⟨as ++ { e with cameraIndex := indexOf r.buf } :: bs, sockets, adds⟩ := by
  refine ⟨accurate_known settled.accurate contact stays here, fun x member => ?_, fun r' member contact' => ?_,
    fun x member => ?_⟩
  · have known : ∃ y ∈ as ++ e :: bs, y.ip = x.ip := by
      rcases List.mem_append.mp member with old | new
      · exact ⟨x, List.mem_append_left _ old, rfl⟩
      · rcases List.mem_cons.mp new with rfl | old
        · exact ⟨e, by simp, rfl⟩
        · exact ⟨x, List.mem_append_right _ (List.mem_cons_of_mem e old), rfl⟩
    obtain ⟨y, member', same⟩ := known
    obtain ⟨r', earlier, contact', ip⟩ := settled.source y member'
    exact ⟨r', List.mem_append_left _ earlier, contact', ip.trans same⟩
  · have known : ∃ y ∈ as ++ e :: bs, y.ip = r'.ip := by
      rcases List.mem_append.mp member with earlier | now
      · exact settled.target r' earlier contact'
      · rw [List.mem_singleton.mp now]
        exact ⟨e, by simp, here⟩
    obtain ⟨y, member', same⟩ := known
    rcases List.mem_append.mp member' with old | new
    · exact ⟨y, List.mem_append_left _ old, same⟩
    · rcases List.mem_cons.mp new with rfl | old
      · exact ⟨_, List.mem_append_right _ List.mem_cons_self, same⟩
      · exact ⟨y, List.mem_append_right _ (List.mem_cons_of_mem _ old), same⟩
  · rcases List.mem_append.mp member with old | new
    · exact settled.socket x (List.mem_append_left _ old)
    · rcases List.mem_cons.mp new with rfl | old
      · exact settled.socket e (by simp)
      · exact settled.socket x (List.mem_append_right _ (List.mem_cons_of_mem e old))

end

/-! ## A client that is not listed -/

section
variable {sys : UdpSystem} {before : List ClientRequest} {reg : Registry} {r : ClientRequest}

/-- The entry that `add_client` makes. -/
def newClient (sys : UdpSystem) (reg : Registry) (r : ClientRequest) : ClientIpData :=
  { ip := r.ip, cameraIndex := indexOf r.buf, time := 0, fd := sys.kept reg.adds reg.sockets, times := 0 }

theorem registryStep_unknown (sys : UdpSystem) (contact : r.Contact) (seek : seekClient reg.entries r.ip = none) :
    registryStep sys reg r = ⟨reg.entries ++ [newClient sys reg r], addSockets sys reg, reg.adds + 1⟩ := by
  rw [registryStep, if_pos contact]
  simp only [registerClient_unknown _ _ seek, seek, delClient, ite_self, if_true]
  rfl

theorem mem_addSockets {socket : UdpSocket} (member : socket ∈ addSockets sys reg) :
    socket ∈ reg.sockets ∨ socket.owner = sys.kept reg.adds reg.sockets := by
  rcases List.mem_append.mp member with old | new
  · exact .inl old
  · obtain ⟨fd, _, rfl⟩ := List.mem_map.mp new
    exact .inr rfl

theorem new_mem_addSockets :
    ⟨sys.kept reg.adds reg.sockets, sys.kept reg.adds reg.sockets⟩ ∈ addSockets sys reg := by
  apply List.mem_append_right
  exact List.mem_map.mpr ⟨_, List.mem_append_right _ List.mem_cons_self, rfl⟩

/-- A shutdown lists a client that is not listed. -/
theorem shutdown_unknown (contact : r.Contact) (shutdown : commandOf r.buf = .shutdown) :
    ¬ Accurate (before ++ [r]) ⟨reg.entries ++ [newClient sys reg r], addSockets sys reg, reg.adds + 1⟩ := by
  intro accurate
  obtain ⟨r', last, other⟩ := (accurate.present (ipText r.ip)).mp ⟨newClient sys reg r, by simp, rfl⟩
  rw [lastContact_snoc, if_pos ⟨contact, rfl⟩] at last
  cases last
  exact other shutdown

theorem accurate_unknown (accurate : Accurate before reg) (contact : r.Contact)
    (stays : commandOf r.buf ≠ .shutdown) (newText : ∀ e ∈ reg.entries, ipText e.ip ≠ ipText r.ip) :
    Accurate (before ++ [r]) ⟨reg.entries ++ [newClient sys reg r], addSockets sys reg, reg.adds + 1⟩ := by
  obtain ⟨unique, present, index, opened, own, closed⟩ := accurate
  have fresh : sys.kept reg.adds reg.sockets ∉ reg.entries.map ClientIpData.fd := by
    intro used
    obtain ⟨e, member, same⟩ := List.mem_map.mp used
    exact sys.fresh reg.adds reg.sockets _ (List.mem_append_right _ List.mem_cons_self) (same ▸ opened e member)
  refine ⟨?_, present_snoc present contact stays ⟨newClient sys reg r, by simp, rfl⟩ fun text other => ?_,
    index_snoc index contact fun x member => ?_, fun x member => ?_, ?_, fun socket member => ?_⟩
  · simp only [List.map_append, List.map_cons, List.map_nil]
    refine List.nodup_append.mpr ⟨unique, List.nodup_singleton _, ?_⟩
    rintro text listed _ new rfl
    obtain ⟨e, member, same⟩ := List.mem_map.mp listed
    exact newText e member (same.trans (List.mem_singleton.mp new))
  · constructor
    · rintro ⟨x, member, same⟩
      rcases List.mem_append.mp member with old | new
      · exact ⟨x, old, same⟩
      · rw [List.mem_singleton.mp new] at same
        exact absurd same other
    · exact fun ⟨x, member, same⟩ => ⟨x, List.mem_append_left _ member, same⟩
  · rcases List.mem_append.mp member with old | new
    · exact .inr ⟨(newText x old).symm, old⟩
    · rw [List.mem_singleton.mp new]
      exact .inl ⟨rfl, rfl⟩
  · rcases List.mem_append.mp member with old | new
    · rw [addSockets, List.map_append]
      exact List.mem_append_left _ (opened x old)
    · rw [List.mem_singleton.mp new]
      exact List.mem_map_of_mem (f := UdpSocket.fd) new_mem_addSockets
  · rw [List.map_append]
    refine List.nodup_append.mpr ⟨own, List.nodup_singleton _, ?_⟩
    rintro fd listed _ new rfl
    rw [List.mem_singleton.mp new] at listed
    exact fresh listed
  · rcases mem_addSockets member with old | new
    · obtain ⟨e, listed, same⟩ := closed socket old
      exact ⟨e, List.mem_append_left _ listed, same⟩
    · exact ⟨newClient sys reg r, by simp, new.symm⟩

theorem settled_unknown (settled : Settled before reg) (contact : r.Contact)
    (stays : commandOf r.buf ≠ .shutdown) (newText : ∀ e ∈ reg.entries, ipText e.ip ≠ ipText r.ip) :
    Settled (before ++ [r]) ⟨reg.entries ++ [newClient sys reg r], addSockets sys reg, reg.adds + 1⟩ := by
  refine ⟨accurate_unknown settled.accurate contact stays newText, fun x member => ?_, fun r' member contact' => ?_,
    fun x member => ?_⟩
  · rcases List.mem_append.mp member with old | new
    · obtain ⟨r', earlier, contact', ip⟩ := settled.source x old
      exact ⟨r', List.mem_append_left _ earlier, contact', ip⟩
    · rw [List.mem_singleton.mp new]
      exact ⟨r, by simp, contact, rfl⟩
  · rcases List.mem_append.mp member with earlier | now
    · obtain ⟨x, old, same⟩ := settled.target r' earlier contact'
      exact ⟨x, List.mem_append_left _ old, same⟩
    · rw [List.mem_singleton.mp now]
      exact ⟨newClient sys reg r, by simp, rfl⟩
  · rcases List.mem_append.mp member with old | new
    · exact List.mem_append_left _ (settled.socket x old)
    · rw [List.mem_singleton.mp new]
      exact new_mem_addSockets

end

/-! ## Whole runs -/

theorem settled_initial : Settled [] Registry.initial :=
  ⟨⟨List.nodup_nil, by simp [Registry.initial, lastContact], by simp [Registry.initial], by simp [Registry.initial],
    List.nodup_nil, by simp [Registry.initial]⟩, by simp [Registry.initial], by simp, by simp [Registry.initial]⟩

/-- The registry stays right exactly under the condition, and then more is known. -/
def ExactStep (sys : UdpSystem) (before : List ClientRequest) (reg : Registry) (r : ClientRequest) : Prop :=
  (KeepsAccurate sys before reg r ↔ SameBytes before r) ∧
    (SameBytes before r → Settled (before ++ [r]) (registryStep sys reg r))

section
variable (sys : UdpSystem) {before : List ClientRequest} {reg : Registry} {r : ClientRequest}

theorem exactStep_broken (breaks : ¬ KeepsAccurate sys before reg r) (broken : ¬ SameBytes before r) :
    ExactStep sys before reg r :=
  ⟨iff_of_false breaks broken, fun fine => absurd fine broken⟩

theorem exactStep_fine (settled : Settled (before ++ [r]) (registryStep sys reg r)) (contact : r.Contact)
    (fine : SameBytes before r) : ExactStep sys before reg r :=
  ⟨iff_of_true ⟨settled.accurate, fun other => absurd contact other⟩ fine, fun _ => settled⟩

theorem exactStep_known {as bs : List ClientIpData} {e : ClientIpData} {sockets : List UdpSocket} {adds : Nat}
    (settled : Settled before ⟨as ++ e :: bs, sockets, adds⟩) (contact : r.Contact) (here : e.ip = r.ip)
    (seek : seekClient (as ++ e :: bs) r.ip = some as.length) :
    ExactStep sys before ⟨as ++ e :: bs, sockets, adds⟩ r := by
  have step := registryStep_known sys sockets adds contact seek
  by_cases shutdown : commandOf r.buf = .shutdown
  · rw [if_pos shutdown] at step
    apply exactStep_broken sys _ fun fine => fine.1 shutdown
    intro keeps
    rw [KeepsAccurate, step] at keeps
    exact shutdown_known settled keeps.1
  · rw [if_neg shutdown] at step
    apply exactStep_fine sys _ contact ⟨shutdown, fun _ => sameBytes_known settled here⟩
    rw [step]
    exact settled_known settled contact shutdown here

theorem exactStep_unknown (settled : Settled before reg) (contact : r.Contact)
    (seek : seekClient reg.entries r.ip = none) (missing : ∀ e ∈ reg.entries, e.ip ≠ r.ip) :
    ExactStep sys before reg r := by
  have step := registryStep_unknown sys contact seek
  by_cases shutdown : commandOf r.buf = .shutdown
  · apply exactStep_broken sys _ fun fine => fine.1 shutdown
    intro keeps
    rw [KeepsAccurate, step] at keeps
    exact shutdown_unknown contact shutdown keeps.1
  · by_cases newText : ∀ e ∈ reg.entries, ipText e.ip ≠ ipText r.ip
    · have fine : SameBytes before r := by
        refine ⟨shutdown, fun _ r' earlier contact' text => ?_⟩
        obtain ⟨x, member, same⟩ := settled.target r' earlier contact'
        exact absurd (same ▸ text) (newText x member)
      apply exactStep_fine sys _ contact fine
      rw [step]
      exact settled_unknown settled contact shutdown newText
    · obtain ⟨x, member, text⟩ : ∃ x ∈ reg.entries, ipText x.ip = ipText r.ip := by
        simpa only [not_forall, not_not, exists_prop] using newText
      apply exactStep_broken sys
      · -- two entries with one text
        intro keeps
        have unique := keeps.1.unique
        rw [step, List.map_append, List.nodup_append] at unique
        exact unique.2.2 _ (List.mem_map_of_mem (f := fun e => ipText e.ip) member) _ List.mem_cons_self text
      · intro fine
        obtain ⟨r', earlier, contact', ip⟩ := settled.source x member
        have bytes := fine.2 contact r' earlier contact' (ip ▸ text)
        exact missing x member (ip.symm.trans bytes)

theorem exactStep_other (settled : Settled before reg) (other : ¬ r.Contact) : ExactStep sys before reg r := by
  have stays : commandOf r.buf ≠ .shutdown := fun shutdown => other (.inr (.inr shutdown))
  have step := registryStep_other sys reg other
  have accurate := (accurate_other other).mpr settled.accurate
  have fine : SameBytes before r := ⟨stays, fun contact => absurd contact other⟩
  rw [ExactStep, KeepsAccurate, step]
  refine ⟨iff_of_true ⟨accurate, fun _ => rfl⟩ fine, fun _ => ⟨accurate, ?_, ?_, settled.socket⟩⟩
  · intro e member
    obtain ⟨r', earlier, contact', ip⟩ := settled.source e member
    exact ⟨r', List.mem_append_left _ earlier, contact', ip⟩
  · intro r' member contact'
    rcases List.mem_append.mp member with earlier | now
    · exact settled.target r' earlier contact'
    · rw [List.mem_singleton.mp now] at contact'
      exact absurd contact' other

/-- **One request.** -/
theorem exactStep (settled : Settled before reg) : ExactStep sys before reg r := by
  by_cases contact : r.Contact
  · rcases seekClient_cases reg.entries r.ip with ⟨seek, missing⟩ | ⟨as, e, bs, split, here, _, seek⟩
    · exact exactStep_unknown sys settled contact seek missing
    · obtain ⟨entries, sockets, adds⟩ := reg
      dsimp only at split
      subst split
      exact exactStep_known sys settled contact here seek
  · exact exactStep_other sys settled contact

end

/-- **When the registry is right**: after every request of a run, exactly when no request is a
shutdown and equal address texts come with equal bytes. -/
theorem registry_accurate_iff (sys : UdpSystem) (rs : List ClientRequest) :
    (∀ before r after, rs = before ++ r :: after →
      KeepsAccurate sys before (before.foldl (registryStep sys) Registry.initial) r) ↔
      ∀ before r after, rs = before ++ r :: after → SameBytes before r :=
  foldl_iff Settled (KeepsAccurate sys) (fun before _ r => SameBytes before r)
    (fun _ _ _ settled fine => (exactStep sys settled).2 fine) (fun _ _ _ settled => (exactStep sys settled).1)
    settled_initial

/-- A system whose every `bind` succeeds and whose descriptors go up. -/
def countingUdp : UdpSystem where
  lost _ _ := []
  kept _ sockets := (sockets.map UdpSocket.fd).toFinset.sup id + 1
  positive _ _ := Nat.succ_pos _
  distinct _ _ := List.nodup_singleton _
  fresh _ sockets fd new used := by
    rw [List.mem_singleton.mp new] at used
    have below := Finset.le_sup (f := id) (List.mem_toFinset.mpr used)
    exact absurd below (Nat.not_succ_le_self _)

/-- The address 1.2.3.4 with bytes behind the terminator. -/
def addressWith (residual : UInt8) : Ip :=
  ⟨[0x31, 0x2E, 0x32, 0x2E, 0x33, 0x2E, 0x34, 0x00] ++ List.replicate 8 residual, rfl⟩

def heartBuf : Mem := storeBytes (fun _ => 0) 0 [0x01, 0x02, 0x00, 0x00, 0x10, 0x00]

def shutdownBuf : Mem := storeBytes (fun _ => 0) 0 [0x01, 0x02, 0x00, 0x00, 0x10, 0x01]

def heartFrom (residual : UInt8) : ClientRequest := ⟨heartBuf, addressWith residual⟩

def shutdownFrom (residual : UInt8) : ClientRequest := ⟨shutdownBuf, addressWith residual⟩

/-- Three ways in which the registry goes wrong: a shutdown of an unknown client, the shutdown of a
known one, and a heartbeat with another byte behind the terminator of the address. -/
theorem registry_inaccurate :
    ¬ KeepsAccurate countingUdp [] Registry.initial (shutdownFrom 0) ∧
      ¬ KeepsAccurate countingUdp [heartFrom 0] ([heartFrom 0].foldl (registryStep countingUdp) Registry.initial)
          (shutdownFrom 0) ∧
      ¬ KeepsAccurate countingUdp [heartFrom 0] ([heartFrom 0].foldl (registryStep countingUdp) Registry.initial)
          (heartFrom 1) := by
  have heart : commandOf heartBuf = .heart := by
    rw [commandOf_bytes]
    decide
  have shutdown : commandOf shutdownBuf = .shutdown := by
    rw [commandOf_bytes]
    decide
  have contact (residual : UInt8) : (heartFrom residual).Contact := .inr (.inl heart)
  have stays : commandOf (heartFrom 0).buf ≠ .shutdown := fun same => by cases heart.symm.trans same
  have first : SameBytes [] (heartFrom 0) := ⟨stays, fun _ r' member => by cases member⟩
  have settled := (exactStep countingUdp settled_initial).2 first
  refine ⟨fun keeps => ?_, fun keeps => ?_, fun keeps => ?_⟩
  · exact ((exactStep countingUdp settled_initial).1.mp keeps).1 shutdown
  · exact ((exactStep countingUdp settled).1.mp keeps).1 shutdown
  · have same := ((exactStep countingUdp settled).1.mp keeps).2 (contact 1) (heartFrom 0) List.mem_cons_self (contact 0)
      (by decide)
    exact absurd same (by decide)

end VideoDetector.Config
