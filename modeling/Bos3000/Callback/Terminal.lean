import Bos3000.Callback.Frame

-- Whether a call stays as the finalizer left it.
namespace Bos3000.Callback

-- The statements that a terminated call must not execute any more.
def Action.revives : Action → Bool
  | .updateCallStatus _ | .originateBLegAndBridge .. | .bridgeCall .. => true
  | _ => false

def Action.dialsOrBridges : Action → Bool
  | .originateBLegAndBridge .. | .bridgeCall .. => true
  | _ => false

def Moment.dialsOrBridges : Moment → Bool
  | .act a => a.dialsOrBridges
  | .input _ => false

def ActiveCall.dials (w : ActiveCall) : History := w.history.filter Moment.dialsOrBridges

-- The inputs after which runCall executes a reviving statement.
def Stage.revivedBy : Stage → Input → Bool
  | .originatingA, .originated .A true | .originatingB, .originated .B true => true
  | .waitingA, .event e => !e.isHangup
  | .loop _, .event e => e.isAnswer .B || e.isBridge
  | _, _ => false

theorem resume_revives {call : CallbackCall} {stage next : Stage} {i : Input} {script : List Action}
    (h : resume call stage i = some (script, next)) :
    (∃ a ∈ script, a.revives = true) ↔ stage.revivedBy i = true := by
  revert h
  fun_cases resume call stage i <;> intro h <;> cases h
  case case14 e _ _ _ hangup | case15 e _ _ _ hangup _ =>
      simp only [hangup]
      cases hleg : e.leg <;> simp_all [Action.revives, Stage.revivedBy, stopRecording]
  case case17 bridged | case18 bridged =>
      cases bridged <;> simp [Action.revives, Stage.revivedBy, stopRecording]
  all_goals
    simp_all [Action.revives, Stage.revivedBy, CallEvent.isAnswer, CallEvent.isHangup, startRecording]

-- The body persists a terminal status only while runCall has no reviving
-- statement before its next wait, and once the row is terminal runCall takes no
-- input that revives the call.
def Quiet (w : ActiveCall) : Label → Bool
  | .body .ok =>
      match w.finalized with
      | .running ⟨.updateCallFinal :: _, _, _, _⟩ =>
          !w.call.status.terminal || w.pending.all fun a => !a.revives
      | _ => true
  | .resume i =>
      match w.runCall with
      | .script [] stage => !w.row.status.terminal || !stage.revivedBy i
      | _ => true
  | _ => true

structure TerminalInv (w : ActiveCall) : Prop where
  quiet : w.row.status.terminal = true → ∀ a ∈ w.pending, a.revives = false
  persisted : w.row.status.terminal = true → .updateCallFinal ∈ w.executed
  updates : ∀ s, .updateCallStatus s ∈ w.pending → s.terminal = false

-- What a step leaves of a terminated call.
structure Kept (w v : ActiveCall) : Prop where
  status : v.row.status = w.row.status
  dials : v.dials = w.dials

section Step

variable {w v : ActiveCall}

theorem TerminalInv.resume (h : TerminalInv w) {i : Input} (hquiet : Quiet w (.resume i))
    (hstep : w.resumeRun i = some v) :
    TerminalInv v ∧ (w.row.status.terminal = true → Kept w v) := by
  have hexecuted := resumeRun_executed hstep
  obtain ⟨stage, script, next, hrun, hresume, _, eventCh, rfl⟩ := resumeRun_eq_some hstep
  simp only [Quiet, hrun, Bool.or_eq_true, Bool.not_eq_true'] at hquiet
  refine ⟨⟨?_, ?_, ?_⟩, fun _ => ⟨rfl, ?_⟩⟩
  · intro hterminal a ha
    have hnone := hquiet.resolve_left (by simp [hterminal])
    apply Bool.eq_false_iff.mpr
    intro hrevives
    have hsome := (resume_revives hresume).mp ⟨a, ha, hrevives⟩
    rw [hnone] at hsome
    cases hsome
  · intro hterminal
    rw [hexecuted]
    exact h.persisted hterminal
  · exact fun s hs => resume_updateCallStatus hresume hs
  · simp [ActiveCall.dials, ActiveCall.history, Effect.moment?, Moment.dialsOrBridges]

theorem onRow_status (row : CallbackCall) (a : Action) :
    (a.onRow row).status = row.status ∨ ∃ s, a = .updateCallStatus s ∧ (a.onRow row).status = s := by
  cases a <;> simp [Action.onRow]

-- runCall drops the first of its statements and leaves a terminal row as it is.
theorem TerminalInv.drop (h : TerminalInv w) {a : Action} (hpending : w.pending = a :: v.pending)
    (hexecuted : v.executed = w.executed)
    (hstatus : v.row.status = w.row.status ∨ ∃ s, a = .updateCallStatus s ∧ v.row.status = s)
    (hdials : v.dials = w.dials ∨ a.revives = true) :
    TerminalInv v ∧ (w.row.status.terminal = true → Kept w v) := by
  have hsame : v.row.status.terminal = true → v.row.status = w.row.status := by
    intro hterminal
    obtain hsame | ⟨s, rfl, hs⟩ := hstatus
    · exact hsame
    · have hopen := h.updates s (by simp [hpending])
      rw [hs, hopen] at hterminal
      cases hterminal
  refine ⟨⟨?_, ?_, ?_⟩, fun hterminal => ?_⟩
  · intro hterminal b hb
    rw [hsame hterminal] at hterminal
    exact h.quiet hterminal b (by simp [hpending, hb])
  · intro hterminal
    rw [hsame hterminal] at hterminal
    rw [hexecuted]
    exact h.persisted hterminal
  · exact fun s hs => h.updates s (by simp [hpending, hs])
  · have hquiet : a.revives = false := h.quiet hterminal a (by simp [hpending])
    refine ⟨hstatus.resolve_right ?_, hdials.resolve_right (by simp [hquiet])⟩
    rintro ⟨s, rfl, _⟩
    cases hquiet

theorem TerminalInv.exec (h : TerminalInv w) {now : Time} {ok : Bool}
    (hstep : w.execRun now ok = some v) :
    TerminalInv v ∧ (w.row.status.terminal = true → Kept w v) := by
  have hexecuted := execRun_executed hstep
  obtain ⟨todo, stage, ⟨s, hrun, rfl⟩ | ⟨a, hrun, _, rfl⟩⟩ := execRun_eq_some hstep
  · refine h.drop (pending_script hrun) hexecuted (.inl rfl) (.inl ?_)
    simp [ActiveCall.dials, ActiveCall.history, Effect.moment?, Moment.dialsOrBridges,
      Action.dialsOrBridges]
  · refine h.drop (pending_script hrun) hexecuted ?_ ?_
    · cases ok with
      | true => exact onRow_status w.row a
      | false => exact .inl rfl
    · cases ha : a.revives with
      | true => exact .inr rfl
      | false =>
          have hdials : a.dialsOrBridges = false := by
            revert ha
            cases a <;> simp [Action.revives, Action.dialsOrBridges]
          exact .inl (by simp [ActiveCall.dials, ActiveCall.history, Effect.moment?,
            Moment.dialsOrBridges, hdials])

-- A step that leaves runCall, the row's status and what was executed alone.
theorem TerminalInv.same (h : TerminalInv w) (hpending : v.pending = w.pending)
    (hrow : v.row = w.row) (hexecuted : ∀ stmt ∈ w.executed, stmt ∈ v.executed)
    (hhistory : v.history = w.history) :
    TerminalInv v ∧ (w.row.status.terminal = true → Kept w v) := by
  refine ⟨⟨?_, ?_, ?_⟩, fun _ => ⟨by rw [hrow], by rw [ActiveCall.dials, hhistory]; rfl⟩⟩
  · rw [hrow, hpending]
    exact h.quiet
  · rw [hrow]
    exact fun hterminal => hexecuted _ (h.persisted hterminal)
  · rw [hpending]
    exact h.updates

theorem exec_row {call row call' row' : CallbackCall} {body next : Body} {stmt : Stmt} {o : Outcome}
    (h : stmt.exec call row body o = some (call', row', next)) :
    row' = row ∨ stmt = .updateCallFinal ∧ o = .ok ∧ row'.status = call.status := by
  revert h
  fun_cases Stmt.exec call row body stmt o <;> intro h <;> cases h <;> simp [updateCallFinal]

theorem TerminalInv.body (h : TerminalInv w) (hsettling : Settling w) {o : Outcome}
    (hquiet : Quiet w (.body o)) (hstep : w.bodyStep o = some v) :
    TerminalInv v ∧ (w.row.status.terminal = true → Kept w v) := by
  obtain ⟨stmt, body, call, row, next, hrunning, hexec, rfl⟩ := bodyStep_eq_some hstep
  have hexecuted := bodyStep_executed hstep hrunning
  obtain rfl | ⟨rfl, rfl, hstatus⟩ := exec_row hexec
  · refine h.same rfl rfl ?_ ?_
    · intro s hs
      rw [hexecuted]
      exact List.mem_append_left _ hs
    · simp [ActiveCall.history, Effect.moment?]
  · -- the final row is written once
    have hopen : w.row.status.terminal ≠ true := by
      intro hterminal
      have hnodup : (w.executed ++ .updateCallFinal :: body.todo).Nodup := by
        rw [hsettling.split_running hrunning]
        decide
      exact (List.nodup_append.mp hnodup).2.2 _ (h.persisted hterminal) _ (List.mem_cons_self ..) rfl
    refine ⟨⟨?_, ?_, h.updates⟩, fun hterminal => absurd hterminal hopen⟩
    · intro hterminal a ha
      simp only [Quiet, hrunning, Bool.or_eq_true, Bool.not_eq_true', List.all_eq_true] at hquiet
      rw [← hstatus, hterminal] at hquiet
      exact hquiet.resolve_left (by simp) a ha
    · intro _
      rw [hexecuted]
      exact List.mem_append_right _ (List.mem_singleton_self _)

theorem TerminalInv.finalize (h : TerminalInv w) (hstep : w.finalizeRun = some v) :
    TerminalInv v ∧ (w.row.status.terminal = true → Kept w v) := by
  obtain ⟨pc, todo, stage, u, place, hrun, hplace, rfl⟩ := finalizeRun_eq_some hstep
  obtain ⟨finalized, rfl, _⟩ := finalizeStep_starts hplace
  refine h.same ?_ rfl (fun _ hs => hs) rfl
  rw [pending_finalizing hrun]
  cases place <;> rfl

theorem TerminalInv.step (h : TerminalInv w) (hsettling : Settling w) {l : Label}
    (hquiet : Quiet w l) (hstep : w.step l = some v) :
    TerminalInv v ∧ (w.row.status.terminal = true → Kept w v) := by
  obtain ⟨i, rfl, hresume⟩ | ⟨now, ok, rfl, hexec⟩ | ⟨rfl, hfin⟩ | ⟨o, rfl, hnext⟩ | ⟨_, haside⟩ :=
    step_cases hstep
  · exact h.resume hquiet hresume
  · exact h.exec hexec
  · exact h.finalize hfin
  · exact h.body hsettling hquiet hnext
  · refine h.same haside.pending haside.row ?_ haside.history
    rw [haside.executed]
    exact fun _ hs => hs

end Step

theorem terminalInv_init {call : CallbackCall} (hnew : call.status = .initiating) :
    TerminalInv (.init call) := by
  refine ⟨?_, ?_, ?_⟩ <;> simp [ActiveCall.init, ActiveCall.pending, hnew, Status.terminal]

-- In every run whose steps are quiet, a call persisted as finished or failed
-- keeps that status, and no B leg is dialled and no bridge made for it any more.
theorem terminal_absorbing {call : CallbackCall} (hnew : call.status = .initiating)
    {labels later : List Label} {w v : ActiveCall}
    (hrun : Machine.run (Machine.restrict Quiet ActiveCall.step)
      (.init call) labels = some w)
    (hterminal : w.row.status.terminal = true)
    (hlater : Machine.run (Machine.restrict Quiet ActiveCall.step)
      w later = some v) :
    v.row.status = w.row.status ∧ v.dials = w.dials := by
  let Inv (w : ActiveCall) := Settling w ∧ TerminalInv w
  have hinv : ∀ (w : ActiveCall) (l : Label) (v : ActiveCall), Inv w → Quiet w l = true →
      w.step l = some v → Inv v ∧ (w.row.status.terminal = true → Kept w v) := by
    rintro w l v ⟨hs, ht⟩ hquiet hstep
    obtain ⟨hv, hkept⟩ := ht.step hs hquiet hstep
    exact ⟨⟨hs.step hstep, hv⟩, hkept⟩
  have hw : Inv w := Machine.restrict_invariant (fun w l v h hquiet hstep => (hinv w l v h hquiet hstep).1)
    ⟨settling_init call, terminalInv_init hnew⟩ hrun
  have hlast : Inv v ∧ Kept w v := by
    refine Machine.restrict_invariant (P := fun v => Inv v ∧ Kept w v) ?_ ⟨hw, rfl, rfl⟩ hlater
    rintro u l v ⟨hu, hkept⟩ hquiet hstep
    obtain ⟨hv, hnext⟩ := hinv u l v hu hquiet hstep
    have hnext := hnext (by rw [hkept.status]; exact hterminal)
    exact ⟨hv, hnext.status.trans hkept.status, hnext.dials.trans hkept.dials⟩
  exact ⟨hlast.2.status, hlast.2.dials⟩

-- The body up to the persisted row, every operation succeeding.
def bodyToFinal : List Label :=
  [.body (.time 8000000000), .body .ok, .body .ok, .body .ok, .body (.config none), .body .ok, .body .ok,
   .body (.count 0), .body .ok, .body .ok, .body .ok]

-- The A leg cannot be dialled, and runCall finalizes the call.
def originateFails : List Label :=
  [.resume (.load true), .exec 0 true, .exec 0 true, .resume (.originated .A false), .exec 10 true,
   .exec 10 true, .finalize, .finalize] ++ bodyToFinal

theorem terminal_absorbing_originateFails :
    ∃ w v, Machine.run (Machine.restrict Quiet ActiveCall.step)
        (.init sampleCall) originateFails = some w ∧
      Machine.run (Machine.restrict Quiet ActiveCall.step) w
        [.body .ok, .body .ok, .finalize] = some v ∧
      w.row.status = .failed ∧ v.row.status = w.row.status ∧ v.dials = w.dials :=
  ⟨_, _, rfl, rfl, rfl, @terminal_absorbing sampleCall rfl originateFails
    [.body .ok, .body .ok, .finalize] _ _ rfl rfl rfl⟩

-- FreeSWITCH disconnects while runCall waits for A, whose answer is already in
-- the channel. The callback finalizes the call and does not stop runCall.
def disconnectDuringAnswer : List Label :=
  [Label.resume (.load true), .exec 0 true, .exec 0 true, .resume (.originated .A true),
   .exec 10 true, .exec 10 true, .exec 10 true, .exec 10 true, .exec 10 true,
   .event ⟨"c1", .A, .CHANNEL_ANSWER, "", 100⟩, .fsLost, .thread 0, .thread 0, .thread 0] ++ bodyToFinal

-- The rest of the body, and runCall on the answer.
def answerTaken : List Label :=
  [.body .ok, .body .ok, .thread 0, .resume (.event ⟨"c1", .A, .CHANNEL_ANSWER, "", 100⟩),
   .exec 600 true, .exec 600 true, .exec 600 true, .exec 600 true, .exec 600 true]

theorem revived_disconnectDuringAnswer :
    ∃ w v, Machine.run ActiveCall.step (.init sampleCall) disconnectDuringAnswer = some w ∧
      w.row.status = .failed ∧
      Machine.run ActiveCall.step w answerTaken = some v ∧
      v.row.status = .a_connected ∧ w.dials = [] ∧
      v.dials = [.act (.originateBLegAndBridge "c1-a" (originateParams sampleCall .B))] :=
  ⟨_, _, rfl, rfl, rfl, rfl, rfl, rfl⟩

end Bos3000.Callback
