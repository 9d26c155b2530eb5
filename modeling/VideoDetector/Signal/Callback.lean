import VideoDetector.Signal.Link
import VideoDetector.Signal.Traffic

/-!
# The report callback (`report_data_callback_fun` in `fvd-new/sig_service.c`)

While the link is connected the callback sends the traffic report, and drops the link if the result is not positive.
The result starts as -1 and is that of the last `SendDataByTcp`, so a call without a camera drops the link, and a send
that took a part of a frame only does not.
-/

namespace VideoDetector.Signal
set_option autoImplicit false
open Lib
open Config (activeCamNum getCamStatus)

/-- What a call leaves: the link, `holder` and the frames handed to `SendDataByTcp`. -/
structure ReportCall where
  link : Link
  holder : Fin activeCamNum → StaticChannel
  sent : List (Fin activeCamNum × List UInt8)

/-- `close_socket(&sig_fd)` and `sig_set_state(SIG_PRE_CONNECT)`. -/
def dropLink (l : Link) : Link := setState .preConnect (clearFd (closeFd l))

/-- `report_data_callback_fun`, with the result of the `send` for each camera. -/
def reportDataCallbackFun (cfg : Config.State) (send : Fin activeCamNum → Int) (holder : Fin activeCamNum → StaticChannel)
    (l : Link) : Except ReportFault ReportCall :=
  if l.sig.sigState = .connected then do
    let t ← reportedRealStatic cfg send holder
    return { link := if t.len ≤ 0 then dropLink l else l, holder := t.holder, sent := t.sent }
  else return { link := l, holder := holder, sent := [] }

/-- A call without interruption is a run of the report thread. -/
theorem reportDataCallbackFun_run {cfg : Config.State} {send : Fin activeCamNum → Int}
    {holder : Fin activeCamNum → StaticChannel} {l : Link} {c : ReportCall} (idle : l.report = .test)
    (opened : canSend l l.sig.sigFd = true) (done : reportDataCallbackFun cfg send holder l = .ok c) :
    ∃ results : List ReportResult, c.link = results.foldl (fun l result => reportStep result l) l := by
  unfold reportDataCallbackFun at done
  by_cases connected : l.sig.sigState = .connected
  · rw [if_pos connected] at done
    obtain ⟨t, run, same⟩ := bind_ok done
    cases same
    by_cases failed : t.len ≤ 0
    · refine ⟨[.sent, .sent, .failed, .sent, .sent, .sent], ?_⟩
      simp [failed, reportStep, idle, connected, dropLink, setState, clearFd, closeFd]
    · refine ⟨[.sent, .sent, .last], ?_⟩
      have read : reportStep .sent (reportStep .sent l) = { l with report := .send l.sig.sigFd } := by
        simp [reportStep, idle, connected]
      have last : reportStep .last { l with report := .send l.sig.sigFd } = { l with report := .test } := by
        have sendable : canSend { l with report := .send l.sig.sigFd } l.sig.sigFd = true := opened
        simp [reportStep, sendable]
      simp only [List.foldl_cons, List.foldl_nil, read, last, if_neg failed, ← idle]
  · rw [if_neg connected] at done
    cases done
    exact ⟨[], rfl⟩

/-- A `SendDataByTcp` of the call failed or sent less than its frame. -/
def ReportCall.SendShort (send : Fin activeCamNum → Int) (c : ReportCall) : Prop :=
  ∃ i frame, (i, frame) ∈ c.sent ∧ (sendDataByTcp (send i) ≤ 0 ∨ sendDataByTcp (send i) < frame.length)

/-- The link is dropped if a send was short and left alone if not. -/
def DropsRight (cfg : Config.State) (send : Fin activeCamNum → Int) (holder : Fin activeCamNum → StaticChannel)
    (l : Link) : Prop :=
  ∃ c, reportDataCallbackFun cfg send holder l = .ok c ∧
    (c.SendShort send → c.link = dropLink l) ∧ (¬ c.SendShort send → c.link = l)

/-! ## The result of the report -/

theorem sendDataByTcp_short (ret : Int) (n : Nat) : (sendDataByTcp ret ≤ 0 ∨ sendDataByTcp ret < n) ↔ (ret ≤ 0 ∨ ret < n) := by
  unfold sendDataByTcp
  split <;> omega

theorem sendDataByTcp_of_pos {ret : Int} (sent : ¬ ret ≤ 0) : sendDataByTcp ret = ret := if_neg sent

section
variable {cfg : Config.State} {send : Fin activeCamNum → Int}

theorem reachedCameras_eq_nil {cameras : List (Fin activeCamNum)} :
    reachedCameras cfg send cameras = [] ↔ ∀ i ∈ cameras, getCamStatus cfg i = 0 := by
  induction cameras with
  | nil => simp [reachedCameras]
  | cons i rest ih =>
    rw [reachedCameras, List.forall_mem_cons]
    by_cases enabled : getCamStatus cfg i ≠ 0
    · rw [if_pos enabled]
      refine iff_of_false ?_ fun none => enabled none.1
      split <;> exact List.cons_ne_nil _ _
    · rw [if_neg enabled, ih]
      exact ⟨fun none => ⟨not_not.mp enabled, none⟩, And.right⟩

/-- The loop ends with a failure if one was met, or if it sent nothing and started with one. -/
theorem len_le_zero {cameras : List (Fin activeCamNum)} (len : Int) :
    ((reachedCameras cfg send cameras).getLast?.map fun i => sendDataByTcp (send i)).getD len ≤ 0 ↔
      (reachedCameras cfg send cameras = [] ∧ len ≤ 0) ∨ ∃ i ∈ reachedCameras cfg send cameras, send i ≤ 0 := by
  induction cameras generalizing len with
  | nil => simp [reachedCameras]
  | cons i rest ih =>
    rw [reachedCameras]
    by_cases enabled : getCamStatus cfg i ≠ 0
    · rw [if_pos enabled]
      by_cases failed : send i ≤ 0
      · rw [if_pos failed]
        simp [sendDataByTcp_le_zero, failed]
      · rw [if_neg failed, lastResult_cons, ih, sendDataByTcp_of_pos failed]
        simp [failed]
    · rw [if_neg enabled]
      exact ih len

end

/-- The frame of a camera is longer than what its `send` took. -/
def SendsPart (cfg : Config.State) (send : Fin activeCamNum → Int) (holder : Fin activeCamNum → StaticChannel)
    (i : Fin activeCamNum) : Prop :=
  send i < (wireFrame (trafficBody cfg i (holder i).eachchannel)).length

section
variable {cfg : Config.State} {send : Fin activeCamNum → Int} (holder : Fin activeCamNum → StaticChannel) {l : Link}

/-- A call on a connected link with lanes that fit. -/
theorem reportDataCallbackFun_connected (connected : l.sig.sigState = .connected)
    (fit : ∀ i, Reached cfg send i → LanesFit cfg i) :
    ∃ c, reportDataCallbackFun cfg send holder l = .ok c ∧
      (c.SendShort send ↔ ∃ i, Reached cfg send i ∧ (send i ≤ 0 ∨ SendsPart cfg send holder i)) ∧
      (((∀ i, getCamStatus cfg i = 0) ∨ ∃ i, Reached cfg send i ∧ send i ≤ 0) ∧ c.link = dropLink l ∨
        ¬ ((∀ i, getCamStatus cfg i = 0) ∨ ∃ i, Reached cfg send i ∧ send i ≤ 0) ∧ c.link = l) := by
  obtain ⟨t, run, sent, len⟩ := reportedRealStatic_ok holder fit
  have failed : t.len ≤ 0 ↔ (∀ i, getCamStatus cfg i = 0) ∨ ∃ i, Reached cfg send i ∧ send i ≤ 0 := by
    rw [len, len_le_zero, reachedCameras_eq_nil]
    simp [reached_iff]
  refine ⟨{ link := if t.len ≤ 0 then dropLink l else l, holder := t.holder, sent := t.sent }, ?_, ?_, ?_⟩
  · rw [reportDataCallbackFun, if_pos connected, run, ok_bind]
    rfl
  · simp only [ReportCall.SendShort, sent, sendDataByTcp_short]
    constructor
    · rintro ⟨i, frame, there, short⟩
      obtain ⟨j, reached, same⟩ := List.mem_map.mp there
      cases same
      exact ⟨i, reached_iff.mp reached, short⟩
    · rintro ⟨i, reached, short⟩
      exact ⟨i, _, List.mem_map.mpr ⟨i, reached_iff.mpr reached, rfl⟩, short⟩
  · rw [← failed]
    by_cases negative : t.len ≤ 0
    · exact .inl ⟨negative, if_pos negative⟩
    · exact .inr ⟨negative, if_neg negative⟩

variable {holder}

theorem dropLink_ne (connected : l.sig.sigState = .connected) : dropLink l ≠ l := by
  intro same
  have state := congrArg (fun l : Link => l.sig.sigState) same
  rw [connected] at state
  cases state

/-- Without a camera the link is dropped and nothing is sent. -/
theorem not_dropsRight_of_none (connected : l.sig.sigState = .connected) (none : ∀ i, getCamStatus cfg i = 0) :
    ¬ DropsRight cfg send holder l := by
  have unreached : ∀ i, ¬ Reached cfg send i := fun i reached => reached.1 (none i)
  obtain ⟨c, done, short, link⟩ :=
    reportDataCallbackFun_connected holder connected fun i reached => absurd reached (unreached i)
  have dropped : c.link = dropLink l := (link.resolve_right fun kept => kept.1 (.inl none)).2
  rw [DropsRight, ok_iff done, short]
  rintro ⟨_, right⟩
  have kept := right fun ⟨i, reached, _⟩ => unreached i reached
  exact dropLink_ne connected (dropped.symm.trans kept)

/-- A send that fails drops the link. -/
theorem dropsRight_of_failed (connected : l.sig.sigState = .connected) (fit : ∀ i, Reached cfg send i → LanesFit cfg i)
    {i : Fin activeCamNum} (reached : Reached cfg send i) (failed : send i ≤ 0) : DropsRight cfg send holder l := by
  obtain ⟨c, done, short, link⟩ := reportDataCallbackFun_connected holder connected fit
  have dropped : c.link = dropLink l := (link.resolve_right fun kept => kept.1 (.inr ⟨i, reached, failed⟩)).2
  exact ⟨c, done, fun _ => dropped, fun whole => absurd (short.mpr ⟨i, reached, .inl failed⟩) whole⟩

/-- If no send fails the link is kept, also if a part of a frame was sent. -/
theorem dropsRight_of_sent (connected : l.sig.sigState = .connected) (fit : ∀ i, Reached cfg send i → LanesFit cfg i)
    (some : ∃ i, getCamStatus cfg i ≠ 0) (sent : ¬ ∃ i, Reached cfg send i ∧ send i ≤ 0) :
    DropsRight cfg send holder l ↔ ∀ i, Reached cfg send i → ¬ SendsPart cfg send holder i := by
  obtain ⟨c, done, short, link⟩ := reportDataCallbackFun_connected holder connected fit
  have fine : ¬ ((∀ i, getCamStatus cfg i = 0) ∨ ∃ i, Reached cfg send i ∧ send i ≤ 0) := by
    rw [not_or, not_forall]
    exact ⟨some, sent⟩
  have kept : c.link = l := (link.resolve_left fun dropped => fine dropped.1).2
  rw [DropsRight, ok_iff done, short]
  constructor
  · rintro ⟨right, _⟩ i reached part
    have dropped := right ⟨i, reached, .inr part⟩
    exact dropLink_ne connected (dropped.symm.trans kept)
  · intro whole
    refine ⟨?_, fun _ => kept⟩
    rintro ⟨i, reached, failed | part⟩
    · exact absurd ⟨i, reached, failed⟩ sent
    · exact absurd part (whole i reached)

/-- Too many lanes of a camera that is reached. -/
theorem not_dropsRight_of_fault (connected : l.sig.sigState = .connected) {i : Fin activeCamNum}
    (reached : Reached cfg send i) (many : ¬ LanesFit cfg i) : ¬ DropsRight cfg send holder l := by
  rintro ⟨c, done, _⟩
  rw [reportDataCallbackFun, if_pos connected, reportedRealStatic_fault holder reached many] at done
  cases done

end

/-- **When the link is dropped on failure only**: if it is not connected, or the lanes of the cameras reached fit and
either a send fails, or there is a camera and no send takes a part of its frame. -/
theorem drop_iff (cfg : Config.State) (send : Fin activeCamNum → Int) (holder : Fin activeCamNum → StaticChannel) (l : Link) :
    DropsRight cfg send holder l ↔
      (l.sig.sigState = .connected →
        (∀ i, Reached cfg send i → LanesFit cfg i) ∧
          ((∃ i, Reached cfg send i ∧ send i ≤ 0) ∨
            (∃ i, getCamStatus cfg i ≠ 0) ∧ ∀ i, Reached cfg send i → ¬ SendsPart cfg send holder i)) := by
  by_cases connected : l.sig.sigState = .connected
  · rw [forall_prop_of_true connected]
    by_cases fit : ∀ i, Reached cfg send i → LanesFit cfg i
    · rw [and_iff_right fit]
      by_cases failure : ∃ i, Reached cfg send i ∧ send i ≤ 0
      · obtain ⟨i, reached, failed⟩ := failure
        exact iff_of_true (dropsRight_of_failed connected fit reached failed) (.inl ⟨i, reached, failed⟩)
      · rw [or_iff_right failure]
        by_cases some : ∃ i, getCamStatus cfg i ≠ 0
        · rw [and_iff_right some]
          exact dropsRight_of_sent connected fit some failure
        · have none : ∀ i, getCamStatus cfg i = 0 := fun i => not_not.mp fun enabled => some ⟨i, enabled⟩
          exact iff_of_false (not_dropsRight_of_none connected none) fun holds => some holds.1
    · obtain ⟨i, many⟩ := not_forall.mp fit
      obtain ⟨reached, many⟩ := Classical.not_imp.mp many
      exact iff_of_false (not_dropsRight_of_fault connected reached many) fun holds => fit holds.1
  · refine iff_of_true ?_ fun now => absurd now connected
    refine ⟨{ link := l, holder := holder, sent := [] }, if_neg connected, ?_, fun _ => rfl⟩
    rintro ⟨i, frame, there, _⟩
    cases there

/-- A link that is connected through descriptor 3. -/
def connectedLink : Link :=
  { sig := { sigState := .connected, sigFd := 3, sigIp := [], sigPort := 5000 }
    sockets := Function.update (fun _ => .closed) 3 (.connected [] 5000)
    service := .top
    report := .test
    client := .idle }

/-- **The link is dropped without a failure and kept in spite of one**: a call with no camera enabled drops it, and a
call whose sends take one byte of each frame keeps it. -/
theorem drop_wrong :
    ¬ DropsRight (Config.freshState fun _ => none) (fun _ => 1) default connectedLink ∧
      ¬ DropsRight twoCameras (fun _ => 1) default connectedLink := by
  refine ⟨not_dropsRight_of_none rfl (by decide), ?_⟩
  have fit : ∀ i, Reached twoCameras (fun _ => 1) i → LanesFit twoCameras i := by
    have all : ∀ i, LanesFit twoCameras i := by decide
    exact fun i _ => all i
  have first : getCamStatus twoCameras 0 ≠ 0 := by decide
  have sent : ¬ ∃ i, Reached twoCameras (fun _ => 1) i ∧ (1 : Int) ≤ 0 := fun ⟨i, _, failed⟩ => absurd failed (by decide)
  rw [dropsRight_of_sent rfl fit ⟨0, first⟩ sent]
  intro whole
  refine whole 0 ⟨first, fun j less => absurd less (by simp)⟩ ?_
  rw [SendsPart, wireFrame_length, slip.escape_length, withCrc_length]
  omega

end VideoDetector.Signal
