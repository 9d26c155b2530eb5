import VideoDetector.Config.Registers

/-!
# Replies (`handle_buffer` in `fvd-new/client_net.c`)

A reply is built over the request: `prepare_pkt` writes the type and the object, and the header is encoded again.
`reply_iff` says for every request whether the reply is the one that the protocol asks for.
-/

namespace VideoDetector.Config
set_option autoImplicit false
open Lib

/-- The type of the reply to a command, if there is to be one. -/
def CommandType.replyType : CommandType → Option Nat
  | getCamParam => some 0x0003
  | getDetectDevice => some 0x0006
  | getChechParam => some 0x0009
  | heart => some 0x1002
  | _ => none

/-- The length in the header of a message on the wire. -/
def lengthOf (buf : Mem) : Nat := loadWord (headerDecoded buf) mCommand.objlen 4

/-- The type in the header of a message on the wire. -/
def typeOf (buf : Mem) : Nat := loadWord (headerDecoded buf) mCommand.objtype 2

/-- A reply of the given type to a request: its header names the type, the requested index and the number of
bytes behind it, and it fits into the buffer. -/
structure Answers (request : Mem) (type : Nat) (o : Outcome) : Prop where
  sent : 0 < o.ret
  type_eq : typeOf o.buf = type
  index_eq : indexOf o.buf = indexOf request
  total : o.ret = cmdLen + lengthOf o.buf
  fits : o.ret ≤ bufferMax

/-- What the protocol asks of the outcome of a request. -/
def RightReply (request : Mem) (o : Outcome) : Prop :=
  match (commandOf request).replyType with
  | some type => Answers request type o
  | none => o.ret ≤ 0

/-! ## The header of a reply -/

/-- Words of the header are left alone by what is written behind it. -/
theorem header_of_placed (m : Mem) {c : StoredClass} (obj : Object c) {off w : Nat} (inside : off + w ≤ cmdLen) :
    loadWord (netDecodeObj (storeBytes m cmdLen obj.1) cmdLen c.type true) off w = loadWord m off w := by
  unfold loadWord
  congr 1
  apply bytesAt_congr
  intro k bound
  rw [netDecodeObj_convert, Layout.convert_outside (.inl (by omega)), storeBytes_outside (.inl (by omega))]

/-- The header of a reply is the one of the request with another type. -/
theorem headerDecoded_preparePkt (buf : Mem) (replyType : Nat) {c : StoredClass} (obj : Object c) {off w : Nat}
    (inside : off + w ≤ cmdLen) :
    loadWord (headerDecoded (preparePkt buf replyType obj).1) off w =
      loadWord (storeWord buf mCommand.objtype 2 replyType) off w := by
  have undone := (wire_codec (netDecodeObj (storeBytes (storeWord buf mCommand.objtype 2 replyType) cmdLen obj.1) cmdLen
    c.type true) 0 .mCommand).2.2.2.2.1
  exact (congrArg (loadWord · off w) undone).trans (header_of_placed _ obj inside)

theorem typeOf_preparePkt (buf : Mem) {replyType : Nat} (small : replyType < 65536) {c : StoredClass} (obj : Object c) :
    typeOf (preparePkt buf replyType obj).1 = replyType := by
  rw [typeOf, headerDecoded_preparePkt buf replyType obj (by decide)]
  exact loadWord_storeWord buf _ small

/-- A word of the header that is not the type stays. -/
theorem loadWord_type_set (buf : Mem) (replyType : Nat) {off w : Nat}
    (apart : off + w ≤ mCommand.objtype ∨ mCommand.objtype + 2 ≤ off) :
    loadWord (storeWord buf mCommand.objtype 2 replyType) off w = loadWord buf off w := by
  unfold loadWord storeWord
  congr 1
  apply bytesAt_congr
  intro k bound
  apply storeBytes_outside
  rw [leBytes_length]
  omega

theorem indexOf_preparePkt (buf : Mem) (replyType : Nat) {c : StoredClass} (obj : Object c) :
    indexOf (preparePkt buf replyType obj).1 = loadWord buf mCommand.objnumber 2 := by
  rw [indexOf, headerDecoded_preparePkt buf replyType obj (by decide), loadWord_type_set _ _ (.inl (by decide))]

theorem lengthOf_preparePkt (buf : Mem) (replyType : Nat) {c : StoredClass} (obj : Object c) :
    lengthOf (preparePkt buf replyType obj).1 = loadWord buf mCommand.objlen 4 := by
  rw [lengthOf, headerDecoded_preparePkt buf replyType obj (by decide), loadWord_type_set _ _ (.inr (by decide))]

/-! ## The outcome of a request -/

/-- A get leaves the reply that `prepare_pkt` builds. -/
theorem getFlag_reply (s : State) (buf : Mem) {c : StoredClass} {index : Nat} {k : Key} (replyType : Nat)
    (named : keyOf c index = some k) :
    ∃ obj : Object c, getFlag s buf c index replyType =
      .ok { state := s, buf := (preparePkt buf replyType obj).1, ret := cmdLen + getObjLen c.type, reboot := false } := by
  obtain ⟨obj, found, _⟩ := storedObj_named s named
  refine ⟨obj, ?_⟩
  rw [getFlag, found]
  rfl

theorem replyType_of_get {type : CommandType} {c : StoredClass} (gets : type.getClass = some c) :
    type.replyType = some (replyCode c) := by
  cases type <;> cases gets <;> rfl

theorem replyType_of_set {type : CommandType} {c : StoredClass} (sets : type.setClass = some c) : type.replyType = none := by
  cases type <;> cases sets <;> rfl

theorem replyType_of_idle {type : CommandType} (idle : type.idle = true) : type.replyType = none := by
  cases type <;> cases idle <;> rfl

theorem getClass_of_replyType_none {type : CommandType} (quiet : type.replyType = none) :
    type ≠ .heart ∧ type.getClass = none := by
  cases type <;> simp [CommandType.replyType, CommandType.getClass] at quiet ⊢

theorem replyCode_lt (c : StoredClass) : replyCode c < 65536 := by
  cases c <;> decide

theorem total_le_bufferMax (c : StoredClass) : cmdLen + getObjLen c.type ≤ bufferMax := by
  cases c <;> decide

/-- The length that the request has in its header is the one its reply ought to have. -/
def LengthRight (buf : Mem) : Prop := ∀ c, (commandOf buf).getClass = some c → lengthOf buf = getObjLen c.type

/-- A get is answered, with the length that the request had. -/
theorem preparePkt_answers_iff (buf : Mem) {c : StoredClass} (obj : Object c) (s : State) :
    Answers buf (replyCode c)
        { state := s, buf := (preparePkt (headerDecoded buf) (replyCode c) obj).1, ret := cmdLen + getObjLen c.type,
          reboot := false } ↔
      lengthOf buf = getObjLen c.type := by
  have kept : lengthOf (preparePkt (headerDecoded buf) (replyCode c) obj).1 = lengthOf buf := lengthOf_preparePkt _ _ obj
  have least : 0 < cmdLen := by decide
  have most := total_le_bufferMax c
  constructor
  · intro answers
    have total := answers.total
    rw [kept] at total
    dsimp only at total
    omega
  · intro right
    refine ⟨?_, typeOf_preparePkt _ (replyCode_lt c) obj, indexOf_preparePkt _ _ obj, ?_, ?_⟩
    · dsimp only
      omega
    · rw [kept, right]
    · dsimp only
      omega

/-- **A get**: it is carried out, and its reply is right if the length in the request is. -/
theorem get_iff (env : Env) (s : State) {buf : Mem} (len : Int) (ip : Ip) (valid : Valid buf) {c : StoredClass}
    (gets : (commandOf buf).getClass = some c) :
    ∃ o, handleBuffer env s buf len ip = .ok o ∧ (RightReply buf o ↔ lengthOf buf = getObjLen c.type) := by
  obtain ⟨k, named⟩ := valid.named (Or.inr gets)
  obtain ⟨obj, done⟩ := getFlag_reply
    (if commandOf buf = .getCamParam then { s with ipList := (listed env s buf ip).1 } else s) (headerDecoded buf)
    (replyCode c) named
  refine ⟨_, by rw [handleBuffer_get env s len ip gets, done], ?_⟩
  unfold RightReply
  rw [replyType_of_get gets]
  exact preparePkt_answers_iff buf obj _

/-- A heartbeat is not answered. -/
theorem heart_unanswered (env : Env) (s : State) {buf : Mem} (len : Int) (ip : Ip) (heart : commandOf buf = .heart) :
    ∃ o, handleBuffer env s buf len ip = .ok o ∧ ¬ RightReply buf o := by
  refine ⟨_, handleBuffer_heart env s len ip heart, ?_⟩
  unfold RightReply
  rw [heart]
  intro answers
  exact absurd answers.sent (show ¬ (0 : Int) < -1 by decide)

/-- A command that is not to be answered is not. -/
theorem quiet_iff {buf : Mem} {o : Outcome} (quiet : (commandOf buf).replyType = none) (ret : o.ret = -1) :
    RightReply buf o ↔ commandOf buf ≠ .heart ∧ LengthRight buf := by
  obtain ⟨notHeart, none⟩ := getClass_of_replyType_none quiet
  unfold RightReply LengthRight
  rw [quiet, none]
  simp [ret, notHeart]

/-- **Replies.** Every request with a valid index is carried out, and its reply is the right one exactly if the command
is no heartbeat and a get gives the length of the object that it asks for. -/
theorem reply_iff (env : Env) (s : State) (buf : Mem) (len : Int) (ip : Ip) (valid : Valid buf) :
    ∃ o, handleBuffer env s buf len ip = .ok o ∧
      (RightReply buf o ↔
        commandOf buf ≠ .heart ∧ ∀ c, (commandOf buf).getClass = some c → lengthOf buf = getObjLen c.type) := by
  rcases (commandOf buf).kinds with ⟨c, sets⟩ | ⟨c, gets⟩ | heart | shutdown | reboot | idle
  · obtain ⟨k, named⟩ := valid.named (Or.inl sets)
    obtain ⟨o, done, stored⟩ := setFlag_spec env s (headerDecoded buf) named
    exact ⟨o, by rw [handleBuffer_set env s len ip sets, done], quiet_iff (replyType_of_set sets) stored.ret⟩
  · obtain ⟨o, done, right⟩ := get_iff env s len ip valid gets
    have notHeart : commandOf buf ≠ .heart := by
      intro heart
      rw [heart] at gets
      cases gets
    refine ⟨o, done, right.trans ⟨fun same => ⟨notHeart, fun c' gets' => ?_⟩, fun all => all.2 c gets⟩⟩
    cases gets.symm.trans gets'
    exact same
  · obtain ⟨o, done, wrong⟩ := heart_unanswered env s len ip heart
    exact ⟨o, done, fun right => absurd right wrong, fun right => absurd heart right.1⟩
  · exact ⟨_, handleBuffer_shutdown env s len ip shutdown, quiet_iff (by rw [shutdown]; rfl) rfl⟩
  · exact ⟨_, handleBuffer_reboot env s len ip reboot, quiet_iff (by rw [reboot]; rfl) rfl⟩
  · exact ⟨_, handleBuffer_idle env s len ip idle, quiet_iff (replyType_of_idle idle) rfl⟩

/-- The length is big-endian on the wire. -/
theorem lengthOf_bytes (buf : Mem) : lengthOf buf = leVal (bytesAt buf 6 4).reverse := by
  have word : bytesAt (headerDecoded buf) 6 4 = (bytesAt buf 6 4).reverse := by
    rw [headerDecoded, netDecodeObj_convert]
    exact Layout.convert_scalar buf (show (6, 4) ∈ mCommand.layout.scalars 0 by decide)
  exact congrArg leVal word

/-- A request for the device configuration that gives a length. -/
def askDevice (objlen : UInt8) : Mem := storeBytes (fun _ => 0) 0 [1, 1, 0, 0, 0, 5, 0, 0, 0, objlen]

/-- A heartbeat. -/
def heartbeat : Mem := storeBytes (fun _ => 0) 0 [1, 1, 0, 0, 0x10, 0, 0, 0, 0, 0]

theorem commandOf_askDevice (objlen : UInt8) : commandOf (askDevice objlen) = .getDetectDevice := by
  rw [commandOf_bytes]
  rfl

theorem valid_askDevice (objlen : UInt8) : Valid (askDevice objlen) := by
  unfold Valid
  rw [commandOf_askDevice]
  exact False.elim

theorem reply_iff_device :
    ∃ o, handleBuffer default (freshState fun _ => none) (askDevice 219) 10 zeroIp = .ok o ∧ RightReply (askDevice 219) o := by
  obtain ⟨o, done, right⟩ := reply_iff default (freshState fun _ => none) (askDevice 219) 10 zeroIp (valid_askDevice 219)
  refine ⟨o, done, right.mpr ⟨by rw [commandOf_askDevice]; decide, fun c gets => ?_⟩⟩
  rw [commandOf_askDevice] at gets
  cases gets
  rw [lengthOf_bytes]
  decide

/-- A heartbeat is not answered, and a request that gives no length is answered with no length. -/
theorem reply_wrong :
    (∃ o, handleBuffer default (freshState fun _ => none) heartbeat 10 zeroIp = .ok o ∧ ¬ RightReply heartbeat o) ∧
      ∃ o, handleBuffer default (freshState fun _ => none) (askDevice 0) 10 zeroIp = .ok o ∧ ¬ RightReply (askDevice 0) o := by
  constructor
  · apply heart_unanswered
    rw [commandOf_bytes]
    rfl
  · obtain ⟨o, done, right⟩ := get_iff default (freshState fun _ => none) 10 zeroIp (valid_askDevice 0)
      (show (commandOf (askDevice 0)).getClass = some .mDetectDeviceConfig by rw [commandOf_askDevice]; rfl)
    refine ⟨o, done, fun same => absurd (right.mp same) ?_⟩
    rw [lengthOf_bytes]
    decide

end VideoDetector.Config
