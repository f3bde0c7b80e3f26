import Bos3000.Callback.Finalizers
import Bos3000.Callback.Initiate
import Bos3000.Callback.LiveLegs

-- Whether the terminal status of a call tells how it ended.
namespace Bos3000.Callback

-- Why the call failed: a reason, or the cause of a leg's hangup.
def CallbackCall.explained (call : CallbackCall) : Bool :=
  call.failureReason.isSome || call.aHangupCause.isSome || call.bHangupCause.isSome

def Justified (s : Status) (call : CallbackCall) : Prop :=
  s = .finished ∧ call.bridgeAt.isSome = true ∨ s = .failed ∧ call.explained = true

-- The assignments that justify a status.
def Action.justifies : Status → Action → Bool
  | .finished, .assign (.bridgeAt _) => true
  | .failed, .assign (.failureReason _) => true
  | .failed, .assign (.aHangupCause _) => true
  | .failed, .assign (.bHangupCause _) => true
  | _, _ => false

-- The steps after which the row of a call may not tell its end: the maximum
-- duration of a call that is not bridged and, while it is not, a status of runCall
-- that gets into or over the final row, and the failure of updateCallFinal.
def Classified (w : ActiveCall) : Label → Bool
  | .resume .timer => w.stage ≠ .loop false
  | .exec _ ok =>
      w.call.bridgeAt.isSome ||
      match w.pending with
      | .assign (.status _) :: _ => .status ∉ w.executed ∨ .updateCallFinal ∈ w.executed
      | .updateCallStatus _ :: _ => !ok ∨ .updateCallFinal ∉ w.executed
      | _ => true
  | .body .fault =>
      w.call.bridgeAt.isSome ||
      match w.finalized with
      | .running ⟨.updateCallFinal :: _, _, _, _⟩ => false
      | _ => true
  | _ => true

section Justified

variable {s : Status} {c d : CallbackCall}

@[simp] theorem justified_finished : Justified .finished c ↔ c.bridgeAt.isSome = true := by
  simp [Justified]

@[simp] theorem justified_failed : Justified .failed c ↔ c.explained = true := by
  simp [Justified]

theorem Justified.mono (h : Justified s c) (hbridge : c.bridgeAt.isSome = true → d.bridgeAt.isSome = true)
    (hexplained : c.explained = true → d.explained = true) : Justified s d :=
  h.imp (And.imp_right hbridge) (And.imp_right hexplained)

theorem Justified.onCall (h : Justified s c) (now : Time) (a : Action) : Justified s (a.onCall now c) := by
  cases a with
  | assign a =>
      apply h.mono <;> cases a <;>
        simp_all [Action.onCall, Assign.apply, CallbackCall.explained]
  | _ => exact h

theorem justified_of_justifies {a : Action} (ha : a.justifies s = true) (now : Time) (c : CallbackCall) :
    Justified s (a.onCall now c) := by
  revert ha
  fun_cases Action.justifies s a <;> intro ha
  · exact .inl ⟨rfl, rfl⟩
  · exact .inr ⟨rfl, rfl⟩
  · exact .inr ⟨rfl, by simp [Action.onCall, Assign.apply, CallbackCall.explained]⟩
  · exact .inr ⟨rfl, by simp [Action.onCall, Assign.apply, CallbackCall.explained]⟩
  · cases ha

theorem exec_justified {call row call' row' : CallbackCall} {body next : Body} {stmt : Stmt} {o : Outcome}
    (h : stmt.exec call row body o = some (call', row', next)) (hcall : Justified s call) :
    Justified s call' := by
  have hsame : call'.bridgeAt = call.bridgeAt ∧ call'.explained = call.explained := by
    revert h
    fun_cases Stmt.exec call row body stmt o <;> intro h <;> cases h <;>
      simp [CallbackCall.explained, recordWastage, mergeRecording, recordCosts]
    all_goals split <;> simp
  exact hcall.mono (by rw [hsame.1]; exact id) (by rw [hsame.2]; exact id)

end Justified

-- The statements of an exit justify its status, but where the call was bridged.
theorem resume_justifies {call : CallbackCall} {stage next : Stage} {i : Input} {script : List Action}
    (h : resume call stage i = some (script, next)) (htimer : ¬(stage = .loop false ∧ i = .timer)) :
    (∀ s, .finalizeCall s ∈ script →
      s = .finished ∧ stage.isBridged = true ∨ ∃ a ∈ script, a.justifies s = true) ∧
    (next.isBridged = true → stage.isBridged = true ∨ ∃ a ∈ script, a.justifies .finished = true) := by
  revert h
  fun_cases resume call stage i <;> intro h <;> cases h
  case case14 e _ _ _ hangup =>
      simp only [hangup]
      cases hleg : e.leg <;> simp [stopRecording, Stage.isBridged]
  case case15 e _ _ _ hangup _ =>
      simp only [hangup]
      cases hleg : e.leg <;> simp [Action.justifies, Stage.isBridged]
  all_goals simp_all [Stage.isBridged, Action.justifies, startRecording, stopRecording]

section Step

variable {w v : ActiveCall}

-- Another goroutine sets a reason, but never unsets one.
theorem threadStep_justified {k : Nat} (hstep : w.threadStep k = some v) {s : Status}
    (h : Justified s w.call) : Justified s v.call := by
  obtain ⟨t, u, next, _, hadvances, rfl⟩ := threadStep_eq_some hstep
  cases hadvances with
  | fsLost => exact h.onCall 0 (.assign (.failureReason "fs_connection_lost"))
  | shutdown => exact h.onCall 0 (.assign (.failureReason "service_shutdown"))
  | finalize hplace | finalized hplace =>
      obtain ⟨_, rfl, _⟩ := finalizeStep_starts hplace
      exact h
  | shutdownCancel | hangup | hangupBy | hangupCancel | hangupLegs => exact h

theorem step_justified {l : Label} (hstep : w.step l = some v) {s : Status} (h : Justified s w.call) :
    Justified s v.call := by
  cases l with
  | resume i =>
      obtain ⟨_, _, _, _, _, _, _, rfl⟩ := resumeRun_eq_some hstep
      exact h
  | exec now ok =>
      obtain ⟨a, _, _, hcall, _⟩ := execRun_next hstep
      rw [hcall]
      exact h.onCall now a
  | finalize =>
      obtain ⟨_, _, rfl, _⟩ := finalizeRun_starts hstep
      exact h
  | body o =>
      obtain ⟨_, _, _, _, _, _, hexec, rfl⟩ := bodyStep_eq_some hstep
      exact exec_justified hexec h
  | event e =>
      obtain rfl | ⟨_, rfl⟩ := deliver_eq_some hstep <;> exact h
  | fsLost | shutdown | forceHangup auth =>
      obtain ⟨_, _, rfl⟩ := request_eq_some (by simp) hstep
      exact h
  | thread k => exact threadStep_justified hstep h

-- The status is justified, or the statements before the next wait see to it.
def ActiveCall.leads (w : ActiveCall) (s : Status) : Prop :=
  Justified s w.call ∨ ∃ a ∈ w.pending, a.justifies s = true

-- Whoever brings a status to finalizeCall brings a justified one.
structure Brought (w : ActiveCall) : Prop where
  flag : w.stage.isBridged = true → w.leads .finished
  pending : ∀ s, .finalizeCall s ∈ w.pending → w.leads s
  place : ∀ pc, w.place = some pc → ∀ s, pc.status? = some s → Justified s w.call
  threads : ∀ pc, .fsLostFinalize pc ∈ w.threads → ∀ s, pc.status? = some s → Justified s w.call
  body : ∀ body : Body, w.finalized = .running body → Justified body.status w.call

theorem leads_of_pending_nil (hpending : w.pending = []) {s : Status} (h : w.leads s) : Justified s w.call := by
  obtain h | ⟨a, ha, _⟩ := h
  · exact h
  · rw [hpending] at ha
    cases ha

theorem Brought.resume (h : Brought w) {i : Input} (hclassified : Classified w (.resume i))
    (hstep : w.resumeRun i = some v) : Brought v := by
  obtain ⟨stage, script, next, hrun, hresume, _, eventCh, rfl⟩ := resumeRun_eq_some hstep
  have hstage : w.stage = stage := by simp [ActiveCall.stage, hrun]
  have hflag : stage.isBridged = true → Justified .finished w.call := by
    intro hbridged
    exact leads_of_pending_nil (pending_script hrun) (h.flag (hstage ▸ hbridged))
  obtain ⟨hexit, hnext⟩ := resume_justifies hresume (by
    rintro ⟨rfl, rfl⟩
    simp [Classified, hstage] at hclassified)
  refine ⟨?_, ?_, fun pc hpc => by simp [ActiveCall.place] at hpc, h.threads, h.body⟩
  · exact fun hbridged => (hnext hbridged).imp hflag id
  · intro s hs
    refine (hexit s hs).imp ?_ id
    rintro ⟨rfl, hbridged⟩
    exact hflag hbridged

theorem not_justifies_finalizeCall (s t : Status) : Action.justifies s (.finalizeCall t) = false := by
  cases s <;> rfl

theorem Brought.exec (h : Brought w) (hrunInv : RunInv v) {now : Time} {ok : Bool}
    (hstep : w.execRun now ok = some v) : Brought v := by
  have hmono : ∀ s, Justified s w.call → Justified s v.call :=
    fun s => step_justified (l := .exec now ok) hstep
  obtain ⟨todo, stage, ⟨s, hrun, rfl⟩ | ⟨a, hrun, _, rfl⟩⟩ := execRun_eq_some hstep
  · have hlast : todo = [] ∧ stage = .returned := hrunInv
    obtain ⟨rfl, rfl⟩ := hlast
    have hjustified : Justified s w.call := by
      obtain hjustified | ⟨a, ha, hjustifies⟩ := h.pending s (by simp [pending_script hrun])
      · exact hjustified
      · rw [pending_script hrun, List.mem_singleton] at ha
        rw [ha, not_justifies_finalizeCall] at hjustifies
        cases hjustifies
    refine ⟨?_, ?_, ?_, h.threads, h.body⟩
    · intro hbridged
      cases hbridged
    · intro t ht
      cases ht
    · intro pc hpc t ht
      cases hpc
      cases ht
      exact hjustified
  · have hdrop : ∀ s, w.leads s → Justified s (a.onCall now w.call) ∨ ∃ b ∈ todo, b.justifies s = true := by
      rintro s (hjustified | ⟨b, hb, hjustifies⟩)
      · exact .inl (hmono s hjustified)
      · rw [pending_script hrun] at hb
        rcases List.mem_cons.mp hb with rfl | hb
        · exact .inl (justified_of_justifies hjustifies now w.call)
        · exact .inr ⟨b, hb, hjustifies⟩
    refine ⟨?_, ?_, fun pc hpc => by simp [ActiveCall.place] at hpc, ?_, ?_⟩
    · intro hbridged
      exact hdrop _ (h.flag (by simpa [ActiveCall.stage, hrun] using hbridged))
    · intro s hs
      exact hdrop s (h.pending s (by rw [pending_script hrun]; exact List.mem_cons_of_mem _ hs))
    · exact fun pc hpc s hs => hmono s (h.threads pc hpc s hs)
    · exact fun body hbody => hmono _ (h.body body hbody)

theorem Brought.bodyStep (h : Brought w) {o : Outcome} (hstep : w.bodyStep o = some v) : Brought v := by
  have hmono : ∀ s, Justified s w.call → Justified s v.call :=
    fun s => step_justified (l := .body o) hstep
  obtain ⟨stmt, body, call, row, next, hrunning, hexec, rfl⟩ := bodyStep_eq_some hstep
  refine ⟨fun hbridged => (h.flag hbridged).imp (hmono _) id, fun s hs => (h.pending s hs).imp (hmono _) id,
    fun pc hpc s hs => hmono s (h.place pc hpc s hs), fun pc hpc s hs => hmono s (h.threads pc hpc s hs), ?_⟩
  intro current hcurrent
  simp only at hcurrent
  split at hcurrent
  · cases hcurrent
  · cases hcurrent
    rw [(exec_status hexec).1]
    exact hmono _ (h.body { body with todo := stmt :: body.todo } hrunning)

-- A step that executes nothing of runCall and of the body.
theorem Brought.besides (h : Brought w) {l : Label} (hl : ∀ o, l ≠ .body o) (hstep : w.step l = some v)
    (hpending : v.pending = w.pending) (hstage : v.stage = w.stage)
    (hplace : ∀ pc, v.place = some pc → ∀ s, pc.status? = some s →
      ∃ earlier, w.place = some earlier ∧ earlier.status? = some s) : Brought v := by
  have hmono : ∀ s, Justified s w.call → Justified s v.call := fun s => step_justified hstep
  have hleads : ∀ s, w.leads s → v.leads s := by
    intro s hs
    rw [ActiveCall.leads, hpending]
    exact hs.imp (hmono s) id
  refine ⟨?_, ?_, ?_, ?_, ?_⟩
  · rw [hstage]
    exact fun hbridged => hleads _ (h.flag hbridged)
  · rw [hpending]
    exact fun s hs => hleads s (h.pending s hs)
  · intro pc hpc s hs
    obtain ⟨earlier, hearlier, hstatus⟩ := hplace pc hpc s hs
    exact hmono s (h.place earlier hearlier s hstatus)
  · intro pc hpc s hs
    obtain ⟨earlier, hearlier, hstatus⟩ | ⟨rfl, hreason⟩ := step_threads hstep hpc hs
    · exact hmono s (h.threads earlier hearlier s hstatus)
    · exact .inr ⟨rfl, by simp [CallbackCall.explained, hreason]⟩
  · intro body hbody
    obtain hsame | ⟨s, _, hstarted, hstarter⟩ := step_starter hl hstep
    · exact hmono _ (h.body body (hsame.symm.trans hbody))
    · rw [hstarted] at hbody
      cases hbody
      apply hmono
      cases hstarter with
      | runCall hplace => exact h.place _ hplace s rfl
      | fsLost k hthread => exact h.threads _ (List.mem_of_getElem? hthread) s rfl

theorem Brought.finalize (h : Brought w) (hstep : w.finalizeRun = some v) : Brought v := by
  obtain ⟨pc, todo, stage, u, place, hrun, hplace, hv⟩ := finalizeRun_eq_some hstep
  refine h.besides (l := .finalize) (by simp) hstep (finalizeRun_pending hstep)
    (step_history (l := .finalize) (by simp) hstep).1 ?_
  intro next hnext s hs
  refine ⟨pc, by simp [ActiveCall.place, hrun], ?_⟩
  rw [hv] at hnext
  cases place with
  | some earlier =>
      cases hnext
      exact finalizeStep_status hplace hs
  | none => cases hnext

theorem Brought.step (h : Brought w) (hsettling : Settling w) {l : Label} (hclassified : Classified w l)
    (hstep : w.step l = some v) : Brought v := by
  obtain ⟨i, rfl, hresume⟩ | ⟨now, ok, rfl, hexec⟩ | ⟨rfl, hfin⟩ | ⟨o, rfl, hbody⟩ | ⟨hl, haside⟩ :=
    step_cases hstep
  · exact h.resume hclassified hresume
  · exact h.exec (hsettling.step hstep).runCall hexec
  · exact h.finalize hfin
  · exact h.bodyStep hbody
  · refine h.besides hl hstep haside.pending haside.stage ?_
    intro pc hpc s hs
    refine ⟨pc, ?_, hs⟩
    simpa only [ActiveCall.place, haside.runCall] using hpc

-- The record and the row as the body leaves them.
structure EndInv (w : ActiveCall) : Prop where
  call : w.call.status = .finished → w.call.bridgeAt.isSome = true
  row : w.row.status = .finished → w.row.bridgeAt.isSome = true
  written : .status ∈ w.executed → .updateCallFinal ∉ w.executed → w.call.bridgeAt = none →
    w.call.status = .failed ∧ w.call.explained = true
  final : .updateCallFinal ∈ w.executed → w.call.bridgeAt = none →
    w.row.status = .failed ∧ w.row.explained = true

theorem unbridged_of_mono (hmono : ∀ s, Justified s w.call → Justified s v.call)
    (hnone : v.call.bridgeAt = none) : w.call.bridgeAt = none := by
  by_contra hsome
  have hbridged := hmono .finished (justified_finished.mpr (Option.isSome_iff_ne_none.mpr hsome))
  simp [hnone] at hbridged

theorem EndInv.besides (h : EndInv w) (hmono : ∀ s, Justified s w.call → Justified s v.call)
    (hcall : v.call.status = w.call.status) (hrow : v.row = w.row) (hexecuted : v.executed = w.executed) :
    EndInv v := by
  refine ⟨?_, by rw [hrow]; exact h.row, ?_, ?_⟩
  · intro hfinished
    exact justified_finished.mp (hmono _ (justified_finished.mpr (h.call (hcall.symm.trans hfinished))))
  · intro hstatus hfinal hnone
    rw [hexecuted] at hstatus hfinal
    obtain ⟨hfailed, hexplained⟩ := h.written hstatus hfinal (unbridged_of_mono hmono hnone)
    exact ⟨hcall.trans hfailed, justified_failed.mp (hmono _ (justified_failed.mpr hexplained))⟩
  · rw [hexecuted, hrow]
    exact fun hfinal hnone => h.final hfinal (unbridged_of_mono hmono hnone)

theorem EndInv.exec (h : EndInv w) (hrest : RestInv w) {now : Time} {ok : Bool}
    (hclassified : Classified w (.exec now ok)) (hstep : w.execRun now ok = some v) : EndInv v := by
  have hmono : ∀ s, Justified s w.call → Justified s v.call :=
    fun s => step_justified (l := .exec now ok) hstep
  have hexecuted := execRun_executed hstep
  obtain ⟨todo, stage, ⟨s, hrun, rfl⟩ | ⟨a, hrun, _, rfl⟩⟩ := execRun_eq_some hstep
  · exact h.besides hmono rfl rfl hexecuted
  · have hpending := pending_script hrun
    have hopen := hrest.pending
    simp only [Classified, hpending] at hclassified
    rw [hpending] at hopen
    refine ⟨?_, ?_, ?_, ?_⟩
    · intro hfinished
      obtain hsame | ⟨s, rfl, hs⟩ := onCall_status now w.call a
      · have hbridged := h.call (hsame.symm.trans hfinished)
        exact justified_finished.mp (hmono _ (justified_finished.mpr hbridged))
      · have hnot := hopen s (.inl (List.mem_cons_self ..))
        rw [show s = .finished from hs.symm.trans hfinished] at hnot
        cases hnot
    · intro hfinished
      cases ok with
      | false => exact h.row hfinished
      | true =>
          cases a with
          | updateCallStatus s =>
              have hnot := hopen s (.inr (List.mem_cons_self ..))
              rw [show s = .finished from hfinished] at hnot
              cases hnot
          | _ => exact h.row hfinished
    · intro hstatus hfinal hnone
      rw [hexecuted] at hstatus hfinal
      have hunbridged := unbridged_of_mono hmono hnone
      obtain ⟨hfailed, hexplained⟩ := h.written hstatus hfinal hunbridged
      obtain hsame | ⟨s, rfl, _⟩ := onCall_status now w.call a
      · exact ⟨hsame.trans hfailed, justified_failed.mp (hmono _ (justified_failed.mpr hexplained))⟩
      · simp [hstatus, hfinal, hunbridged] at hclassified
    · intro hfinal hnone
      rw [hexecuted] at hfinal
      have hunbridged := unbridged_of_mono hmono hnone
      cases ok with
      | false => exact h.final hfinal hunbridged
      | true =>
          cases a with
          | updateCallStatus s => simp [hfinal, hunbridged] at hclassified
          | _ => exact h.final hfinal hunbridged

theorem EndInv.bodyStep (h : EndInv w) (hbrought : Brought w) (hsettling : Settling w) {o : Outcome}
    (hclassified : Classified w (.body o)) (hstep : w.bodyStep o = some v) : EndInv v := by
  have hmono : ∀ s, Justified s w.call → Justified s v.call :=
    fun s => step_justified (l := .body o) hstep
  obtain ⟨stmt, body, call, row, next, hrunning, hexec, rfl⟩ := bodyStep_eq_some hstep
  have hbody : Justified body.status call :=
    hmono _ (hbrought.body { body with todo := stmt :: body.todo } hrunning)
  obtain ⟨_, hcall⟩ := exec_status hexec
  have hexecuted := bodyStep_executed hstep hrunning
  refine ⟨?_, ?_, ?_, ?_⟩
  · intro hfinished
    obtain ⟨hsame, _⟩ | ⟨_, hwritten⟩ := hcall
    · have hbridged := h.call (hsame.symm.trans hfinished)
      exact justified_finished.mp (hmono _ (justified_finished.mpr hbridged))
    · rw [show body.status = .finished from hwritten.symm.trans hfinished] at hbody
      exact justified_finished.mp hbody
  · intro hfinished
    cases stmt with
    | updateCallFinal =>
        cases o with
        | ok =>
            cases hexec
            simpa [updateCallFinal] using h.call hfinished
        | fault =>
            cases hexec
            exact h.row hfinished
        | time | config | count => cases hexec
    | _ =>
        obtain rfl | ⟨hwrong, _⟩ := exec_row hexec
        · exact h.row hfinished
        · cases hwrong
  · intro hstatus hfinal hnone
    rw [hexecuted, List.mem_append] at hstatus hfinal
    obtain ⟨hsame, hother⟩ | ⟨_, hwritten⟩ := hcall
    · have hearlier := hstatus.resolve_right fun hmem => hother (List.mem_singleton.mp hmem).symm
      obtain ⟨hfailed, hexplained⟩ :=
        h.written hearlier (fun hmem => hfinal (.inl hmem)) (unbridged_of_mono hmono hnone)
      exact ⟨hsame.trans hfailed, justified_failed.mp (hmono _ (justified_failed.mpr hexplained))⟩
    · obtain ⟨_, hbridged⟩ | ⟨hfailed, hexplained⟩ := hbody
      · simp [show call.bridgeAt = none from hnone] at hbridged
      · exact ⟨hwritten.trans hfailed, hexplained⟩
  · intro hfinal hnone
    rw [hexecuted, List.mem_append, List.mem_singleton] at hfinal
    have hunbridged := unbridged_of_mono hmono hnone
    obtain hfinal | rfl := hfinal
    · obtain rfl | ⟨rfl, _⟩ := exec_row hexec
      · exact h.final hfinal hunbridged
      · exact absurd (hsettling.before hrunning hfinal) (Nat.lt_irrefl _)
    · cases o with
      | ok =>
          cases hexec
          refine h.written (hsettling.executed_of_lt hrunning (by decide)) (fun hmem => ?_) hunbridged
          exact absurd (hsettling.before hrunning hmem) (Nat.lt_irrefl _)
      | fault => simp [Classified, hrunning, hunbridged] at hclassified
      | time | config | count => cases hexec

theorem EndInv.step (h : EndInv w) (hbrought : Brought w) (hsettling : Settling w) (hrest : RestInv w)
    {l : Label} (hclassified : Classified w l) (hstep : w.step l = some v) : EndInv v := by
  have hmono : ∀ s, Justified s w.call → Justified s v.call := fun s => step_justified hstep
  obtain ⟨i, rfl, hresume⟩ | ⟨now, ok, rfl, hexec⟩ | ⟨rfl, hfin⟩ | ⟨o, rfl, hbody⟩ | ⟨_, haside⟩ :=
    step_cases hstep
  · have hexecuted := resumeRun_executed hresume
    obtain ⟨_, _, _, _, _, _, _, rfl⟩ := resumeRun_eq_some hresume
    exact h.besides hmono rfl rfl hexecuted
  · exact h.exec hrest hclassified hexec
  · obtain ⟨_, _, rfl, _⟩ := finalizeRun_starts hfin
    exact h.besides hmono rfl rfl rfl
  · exact h.bodyStep hbrought hsettling hclassified hbody
  · obtain ⟨_, _, hcall⟩ := haside.call
    exact h.besides hmono (by rw [hcall]) haside.row haside.executed

end Step

-- In every run whose steps are classified, a row that is finished has its bridge,
-- and a call that returns without a bridge is failed, with its reason or the
-- cause of a hangup.
theorem finished_bridged {r : Request} {hold : Hold} {aGateway bGateway callerID : String}
    {labels : List Label} {w : ActiveCall}
    (hrun : Machine.run (Machine.restrict Classified ActiveCall.step)
      (.init (callRecord r hold aGateway bGateway callerID)) labels = some w) :
    (w.row.status = .finished → w.row.bridgeAt.isSome = true) ∧
      (w.returned → w.call.bridgeAt = none → w.row.status = .failed ∧ w.row.explained = true) := by
  let Inv (w : ActiveCall) := Settling w ∧ RestInv w ∧ Brought w ∧ EndInv w
  have hinv : Inv w := by
    refine Machine.restrict_invariant (P := Inv) ?_ ⟨settling_init _, restInv_init rfl, ?_, ?_⟩ hrun
    · rintro w l v ⟨hsettling, hrest, hbrought, hend⟩ hclassified hstep
      exact ⟨hsettling.step hstep, hrest.step hsettling hstep, hbrought.step hsettling hclassified hstep,
        hend.step hbrought hsettling hrest hclassified hstep⟩
    · refine ⟨?_, ?_, ?_, ?_, ?_⟩ <;>
        simp [ActiveCall.init, ActiveCall.stage, ActiveCall.pending, ActiveCall.place, Stage.isBridged]
    · refine ⟨?_, ?_, ?_, ?_⟩ <;>
        simp [ActiveCall.init, ActiveCall.executed, callRecord, CallbackCall.new]
  obtain ⟨hsettling, _, _, hend⟩ := hinv
  refine ⟨hend.row, fun hreturned hunbridged => hend.final ?_ hunbridged⟩
  rw [(hsettling.returned hreturned).1]
  decide

-- Both legs are dialled, after A has answered.
def bothDialled : List Label :=
  [Label.resume (.load true), .exec 0 true, .exec 0 true, .resume (.originated .A true)] ++
  List.replicate 5 (Label.exec 10000000 true) ++
  [Label.event ⟨"c1", .A, .CHANNEL_ANSWER, "", 100000000⟩,
    .resume (.event ⟨"c1", .A, .CHANNEL_ANSWER, "", 100000000⟩)] ++
  List.replicate 5 (Label.exec 110000000 true) ++ [Label.resume (.originated .B true)] ++
  List.replicate 5 (Label.exec 120000000 true)

-- finalizeCall from runCall, every operation succeeding.
def concludes : List Label := [.finalize, .finalize] ++ bodyToFinal ++ [.body .ok, .body .ok, .finalize]

-- B answers, and the legs are bridged.
def bridges : List Label :=
  bothDialled ++
  [Label.event ⟨"c1", .B, .CHANNEL_ANSWER, "", 200000000⟩,
    .resume (.event ⟨"c1", .B, .CHANNEL_ANSWER, "", 200000000⟩)] ++
  List.replicate 5 (Label.exec 200000000 true) ++
  [Label.resume (.bridged true), .event ⟨"c1", .B, .CHANNEL_BRIDGE, "", 210000000⟩,
    .resume (.event ⟨"c1", .B, .CHANNEL_BRIDGE, "", 210000000⟩)] ++ List.replicate 8 (Label.exec 210000000 true)

-- A hangs up after the bridge.
def hangsUp : List Label :=
  [.event ⟨"c1", .A, .CHANNEL_HANGUP, "NORMAL_CLEARING", 400000000⟩,
    .resume (.event ⟨"c1", .A, .CHANNEL_HANGUP, "NORMAL_CLEARING", 400000000⟩)] ++
  List.replicate 6 (.exec 400000000 true) ++ concludes

def sampleRequest : Request := ⟨1, "c1", ⟨"13800000001", "13900000002", none, none, []⟩⟩

theorem finished_bridged_hangsUp :
    ∃ w, Machine.run (Machine.restrict Classified ActiveCall.step)
        (.init (callRecord sampleRequest ⟨2, 60, 120⟩ "gw-a" "gw-b" "4001")) (bridges ++ hangsUp) = some w ∧
      w.returned ∧ w.row.status = .finished ∧
      (w.row.status = .finished → w.row.bridgeAt.isSome = true) ∧
      (w.returned → w.call.bridgeAt = none → w.row.status = .failed ∧ w.row.explained = true) :=
  ⟨_, rfl, rfl, rfl,
    @finished_bridged sampleRequest ⟨2, 60, 120⟩ "gw-a" "gw-b" "4001" (bridges ++ hangsUp) _ rfl⟩

-- B does not answer before the maximum duration is over.
def ringsTooLong : List Label :=
  bothDialled ++ [.resume .timer] ++ List.replicate 4 (.exec 400000000 true) ++ concludes

theorem finished_ringsTooLong :
    ∃ w, Machine.run ActiveCall.step (.init (callRecord sampleRequest ⟨2, 60, 120⟩ "gw-a" "gw-b" "4001"))
        ringsTooLong = some w ∧
      w.returned ∧ w.row.status = .finished ∧ w.row.bridgeAt = none ∧ w.call.bridgeAt = none ∧
      w.row.explained = false :=
  ⟨_, rfl, rfl, rfl, rfl, rfl, rfl⟩

end Bos3000.Callback
