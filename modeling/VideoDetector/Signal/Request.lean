import VideoDetector.Signal.Status
import VideoDetector.Lib.Words

/-!
# Requests of the signal machine (`RequestPro` in `fvd-new/sig_service.c`)

A received buffer is checked for its delimiters, decoded in place, checked for its checksum and its
header, and then served. `externalProtocolCheckCrc` compares with the byte behind the decoded
window, which is the closing delimiter, so its verdict is the same for every frame
(`checkCrc_closing`); `requestPro_spec` is what is left of the function.
-/

namespace VideoDetector.Signal
set_option autoImplicit false
open Lib

/-- What a served request does. `setClock` carries the `UTCTime` handed to `gmtime`. -/
inductive Action where
  | setClock (utcTime : Nat)
  | send (frame : List UInt8)
  deriving DecidableEq, Repr

/-- `rejected` stands for the three early returns. -/
inductive Outcome where
  | rejected
  | served (actions : List Action)
  deriving DecidableEq, Repr

def Outcome.actions : Outcome → List Action
  | rejected => []
  | served actions => actions

/-- The header test of `RequestPro`. -/
def accepts (m : Mem) (buffer : Nat) : Prop :=
  m (buffer + FrameHeader.mSenderLinkId) = linkIdBetweenBoards ∧
    m (buffer + FrameHeader.mRecieverLinkId) = linkIdBroardcast ∧
    m (buffer + FrameHeader.mProtocolType) = protocolTypeVideoDetector ∧
    m (buffer + FrameHeader.mProtocolVersion) = protocolVersion

instance (m : Mem) (buffer : Nat) : Decidable (accepts m buffer) := inferInstanceAs (Decidable (_ ∧ _ ∧ _ ∧ _))

/-- `RequestPro`. The sum with 28800 is of type `unsigned int`. -/
def requestPro (r : Reporter) (m : Mem) (buffer len : Nat) : Option Outcome :=
  if m buffer ≠ 0xC0 ∨ m (buffer + (len - 1)) ≠ 0xC0 then some .rejected
  else do
    let (m, size) ← externalProtocolDecode m (buffer + 1) (len - 2)
    if externalProtocolCheckCrc m (buffer + 1) size then return .rejected
    if ¬ accepts m buffer then return .rejected
    if m (buffer + FrameHeader.mDataType) = 0x05 then
      return .served [.setClock ((loadWord m (buffer + FrameHeader.size) 4 + 28800) % 2 ^ 32)]
    else if m (buffer + FrameHeader.mDataType) = 0x03 then
      let frame ← reportedCammerStatus r (m (buffer + FrameHeader.mSessionID))
      return .served [.send frame]
    else return .served []

/-! ## What is left of the checks -/

/-- The delimiters of a received buffer. -/
def Delimited (m : Mem) (buffer len : Nat) : Prop := m buffer = 0xC0 ∧ m (buffer + (len - 1)) = 0xC0

instance (m : Mem) (buffer len : Nat) : Decidable (Delimited m buffer len) := inferInstanceAs (Decidable (_ ∧ _))

/-- The last decoded byte is the checksum of the decoded bytes before it. -/
def ChecksumRight (m : Mem) (buffer len : Nat) : Prop :=
  decodedBody m (buffer + 1) (len - 2) = withCrc (decodedBody m (buffer + 1) (len - 2)).dropLast

/-- The service of a decoded request. -/
def serve (r : Reporter) (m : Mem) (buffer : Nat) : Outcome :=
  if ¬ accepts m buffer then .rejected
  else if m (buffer + FrameHeader.mDataType) = 0x05 then
    .served [.setClock ((loadWord m (buffer + FrameHeader.size) 4 + 28800) % 2 ^ 32)]
  else if m (buffer + FrameHeader.mDataType) = 0x03 then
    .served [.send (wireFrame (reportBody r (m (buffer + FrameHeader.mSessionID))))]
  else .served []

theorem charToInt_le (b : UInt8) : charToInt b ≤ 127 := by
  have small := b.toNat_lt
  unfold charToInt
  split <;> omega

/-- A sum kept in a `char` never equals a delimiter. -/
theorem checkCrc_closing {m : Mem} {buff size : Nat} (closing : m (buff + size) = 0xC0) :
    externalProtocolCheckCrc m buff size = false := by
  have small := charToInt_le (xorBytes (bytesAt m buff size))
  unfold externalProtocolCheckCrc
  rw [closing]
  simp only [decide_eq_false_iff_not]
  intro equal
  rw [equal] at small
  exact absurd small (by decide)

/-- **`RequestPro` serves every delimited buffer whose decoded header is accepted.** -/
theorem requestPro_spec (r : Reporter) (m : Mem) (buffer : Nat) {len : Nat} (long : 3 ≤ len) :
    requestPro r m buffer len =
      some (if Delimited m buffer len then serve r (decodedBuffer m (buffer + 1) (len - 2)) buffer else .rejected) := by
  unfold requestPro
  by_cases delimited : Delimited m buffer len
  · obtain ⟨opening, closing⟩ := delimited
    have behind : m (buffer + 1 + (len - 2)) = 0xC0 := by
      rw [show buffer + 1 + (len - 2) = buffer + (len - 1) by omega, closing]
    have crc : externalProtocolCheckCrc (decodedBuffer m (buffer + 1) (len - 2)) (buffer + 1)
        (decodedBody m (buffer + 1) (len - 2)).length = false := by
      apply checkCrc_closing
      rw [decodedBuffer_tail (Nat.le_refl _) (decodedBody_length_le _ _ _), behind]
    rw [if_neg (by simp [opening, closing]), if_pos ⟨opening, closing⟩,
      externalProtocolDecode_spec _ _ _ (noCode_of_delim behind)]
    simp only [Option.bind_eq_bind, Option.bind_some, crc, reportedCammerStatus_frame, Bool.false_eq_true, if_false,
      Option.pure_def, serve, apply_ite some]
  · rw [if_pos, if_neg delimited]
    unfold Delimited at delimited
    tauto

/-- A request acts exactly on an accepted header of one of the two data types. -/
theorem serve_acts (r : Reporter) (m : Mem) (buffer : Nat) :
    (serve r m buffer).actions ≠ [] ↔
      accepts m buffer ∧ (m (buffer + FrameHeader.mDataType) = 0x05 ∨ m (buffer + FrameHeader.mDataType) = 0x03) := by
  unfold serve
  by_cases accepted : accepts m buffer
  · rw [if_neg (not_not_intro accepted)]
    by_cases clock : m (buffer + FrameHeader.mDataType) = 0x05
    · simp [accepted, clock, Outcome.actions]
    · by_cases status : m (buffer + FrameHeader.mDataType) = 0x03
      · simp [accepted, status, Outcome.actions]
      · simp [clock, status, Outcome.actions]
  · simp [accepted, Outcome.actions]

/-- **When an action needs a right checksum.** A received buffer is acted on only with its
delimiters and a right checksum if and only if the checksum happens to be right or one of the other
checks already stops the buffer. -/
theorem acts_only_on_checksum_iff (r : Reporter) (m : Mem) (buffer : Nat) {len : Nat} (long : 3 ≤ len) :
    ∃ outcome, requestPro r m buffer len = some outcome ∧
      ((outcome.actions ≠ [] → Delimited m buffer len ∧ ChecksumRight m buffer len) ↔
        ChecksumRight m buffer len ∨ ¬ Delimited m buffer len ∨
          ¬ accepts (decodedBuffer m (buffer + 1) (len - 2)) buffer ∨
          (decodedBuffer m (buffer + 1) (len - 2) (buffer + FrameHeader.mDataType) ≠ 0x05 ∧
            decodedBuffer m (buffer + 1) (len - 2) (buffer + FrameHeader.mDataType) ≠ 0x03)) := by
  refine ⟨_, requestPro_spec r m buffer long, ?_⟩
  by_cases delimited : Delimited m buffer len
  · rw [if_pos delimited, serve_acts]
    tauto
  · rw [if_neg delimited]
    simp [Outcome.actions, delimited]

/-- A time broadcast whose checksum should be `0xB6`. -/
def corruptBroadcast : Mem :=
  storeBytes (fun _ => 0) 0 [0xC0, 0x09, 0xFF, 0x01, 0x12, 0x11, 0x40, 0x07, 0x05, 0, 0, 0, 0, 0x00, 0xC0]

theorem acts_only_on_checksum_iff_corruptBroadcast :
    3 ≤ 15 ∧ ∃ outcome, requestPro default corruptBroadcast 0 15 = some outcome ∧
      ((outcome.actions ≠ [] → Delimited corruptBroadcast 0 15 ∧ ChecksumRight corruptBroadcast 0 15) ↔
        ChecksumRight corruptBroadcast 0 15 ∨ ¬ Delimited corruptBroadcast 0 15 ∨
          ¬ accepts (decodedBuffer corruptBroadcast 1 13) 0 ∨
          (decodedBuffer corruptBroadcast 1 13 8 ≠ 0x05 ∧ decodedBuffer corruptBroadcast 1 13 8 ≠ 0x03)) :=
  ⟨by decide, acts_only_on_checksum_iff default corruptBroadcast 0 (by decide)⟩

/-- The corrupt broadcast sets the clock. -/
theorem corruptBroadcast_acts :
    requestPro default corruptBroadcast 0 15 = some (.served [.setClock 28800]) ∧
      ¬ ChecksumRight corruptBroadcast 0 15 := by
  constructor
  · decide
  · unfold ChecksumRight
    decide

/-! ## Well-formed requests -/

/-- The header bytes of a request that `RequestPro` accepts. -/
def requestHeader (senderDevice recieverDevice session dataType : UInt8) : List UInt8 :=
  [linkIdBetweenBoards, linkIdBroardcast, protocolTypeVideoDetector, protocolVersion, senderDevice, recieverDevice,
    session, dataType]

/-- The decoded header of a received request. -/
theorem decoded_request {m : Mem} {buffer len : Nat} {sdev rdev session dataType : UInt8} {payload : List UInt8}
    (length : len = (wireFrame (requestHeader sdev rdev session dataType ++ payload)).length)
    (window : bytesAt m buffer len = wireFrame (requestHeader sdev rdev session dataType ++ payload)) :
    accepts (decodedBuffer m (buffer + 1) (len - 2)) buffer ∧
      decodedBuffer m (buffer + 1) (len - 2) (buffer + FrameHeader.mSessionID) = session ∧
      decodedBuffer m (buffer + 1) (len - 2) (buffer + FrameHeader.mDataType) = dataType := by
  have byte {k : Nat} (bound : k < 8) :
      (requestHeader sdev rdev session dataType)[k]? =
        some (decodedBuffer m (buffer + 1) (len - 2) (buffer + (1 + k))) := by
    have inside : k < (requestHeader sdev rdev session dataType).length := bound
    rw [← Nat.add_assoc, ← decodedBuffer_wireFrame length window (by rw [List.length_append]; omega),
      List.getElem?_append_left inside]
  refine ⟨⟨?_, ?_, ?_, ?_⟩, ?_, ?_⟩
  · exact (Option.some.inj (byte (show 0 < 8 by decide))).symm
  · exact (Option.some.inj (byte (show 1 < 8 by decide))).symm
  · exact (Option.some.inj (byte (show 2 < 8 by decide))).symm
  · exact (Option.some.inj (byte (show 3 < 8 by decide))).symm
  · exact (Option.some.inj (byte (show 6 < 8 by decide))).symm
  · exact (Option.some.inj (byte (show 7 < 8 by decide))).symm

/-- The payload of a received request starts right behind the header. -/
theorem decoded_payload {m : Mem} {buffer len n : Nat} {sdev rdev session dataType : UInt8} {payload : List UInt8}
    (length : len = (wireFrame (requestHeader sdev rdev session dataType ++ payload)).length)
    (window : bytesAt m buffer len = wireFrame (requestHeader sdev rdev session dataType ++ payload))
    (bound : n ≤ payload.length) :
    bytesAt (decodedBuffer m (buffer + 1) (len - 2)) (buffer + FrameHeader.size) n = payload.take n := by
  apply List.ext_getElem?
  intro k
  by_cases inside : k < n
  · have byte := decodedBuffer_wireFrame length window
      (show 8 + k < _ by rw [List.length_append]; simp only [requestHeader, List.length_cons, List.length_nil]; omega)
    rw [List.getElem?_append_right (by simp [requestHeader])] at byte
    have place : buffer + FrameHeader.size + k = buffer + 1 + (8 + k) := by
      simp only [FrameHeader.size]
      omega
    rw [bytesAt_getElem? _ _ inside, List.getElem?_take_of_lt inside, place]
    simpa [requestHeader] using byte.symm
  · rw [List.getElem?_eq_none (by rw [bytesAt_length]; omega), List.getElem?_eq_none (by rw [List.length_take]; omega)]

/-- **Well-formed requests are served with their own fields.** The frame of an accepted header and
any payload passes every check. A status request gets one reply, which carries its session id; a
time broadcast sets the clock to the 32-bit value in the four bytes behind the header, moved by the
28800 seconds of the local time zone; any other data type does nothing. -/
theorem request_served (r : Reporter) (m : Mem) (buffer : Nat) (sdev rdev session dataType : UInt8)
    (payload : List UInt8) :
    ∃ m' len d, buildFrame (storeBytes m (buffer + 1) (requestHeader sdev rdev session dataType ++ payload)) buffer
        (8 + payload.length) = some (m', len) ∧
      externalProtocolDecode m' (buffer + 1) (len - 2) = some (d, 8 + payload.length + 1) ∧
      (dataType = 0x03 → ∃ body, requestPro r m' buffer len = some (.served [.send (wireFrame body)]) ∧
        body[FrameHeader.mSessionID - 1]? = some session) ∧
      (dataType = 0x05 →
        requestPro r m' buffer len = some (.served
          [.setClock ((leVal (bytesAt d (buffer + FrameHeader.size) 4) + 28800) % 2 ^ 32)]) ∧
        (4 ≤ payload.length → bytesAt d (buffer + FrameHeader.size) 4 = payload.take 4)) ∧
      (dataType ≠ 0x03 → dataType ≠ 0x05 → requestPro r m' buffer len = some (.served [])) := by
  obtain ⟨m', len, built, length, window⟩ := buildFrame_spec
    (storeBytes m (buffer + 1) (requestHeader sdev rdev session dataType ++ payload)) buffer (8 + payload.length)
  have placed : bytesAt (storeBytes m (buffer + 1) (requestHeader sdev rdev session dataType ++ payload)) (buffer + 1)
      (8 + payload.length) = requestHeader sdev rdev session dataType ++ payload := by
    have back := bytesAt_storeBytes m (buffer + 1) (requestHeader sdev rdev session dataType ++ payload)
    rwa [List.length_append] at back
  rw [placed] at length window
  obtain ⟨opening, _, closing⟩ := wireFrame_window length window
  obtain ⟨accepted, sameSession, sameType⟩ := decoded_request length window
  have size := wireFrame_size (requestHeader sdev rdev session dataType ++ payload)
  have delimited : Delimited m' buffer len :=
    ⟨opening, by rw [show buffer + (len - 1) = buffer + 1 + (len - 2) by omega, closing]⟩
  have outcome := requestPro_spec r m' buffer (show 3 ≤ len by omega)
  rw [if_pos delimited, serve, if_neg (not_not_intro accepted), sameType, sameSession] at outcome
  refine ⟨m', len, _, built, by rw [decode_wireFrame length window, List.length_append]; rfl, ?_, ?_, ?_⟩
  · rintro rfl
    refine ⟨_, outcome, ?_⟩
    have header := congrArg (fun bytes => bytes[6]?) (reportBody_header r session)
    rwa [List.getElem?_take_of_lt (by decide)] at header
  · rintro rfl
    exact ⟨outcome, decoded_payload length window⟩
  · intro notStatus notClock
    rw [if_neg notClock, if_neg notStatus] at outcome
    exact outcome

/-- A broadcast of the time 0 sets the clock to 28800. -/
theorem broadcast_time_moved :
    (buildFrame (storeBytes (fun _ => 0) 1 (requestHeader 0x11 0x40 7 5 ++ [0, 0, 0, 0])) 0 12).bind
        (fun f => requestPro default f.1 0 f.2) = some (.served [.setClock 28800]) ∧
      leVal [0, 0, 0, 0] ≠ 28800 := by
  decide

end VideoDetector.Signal
