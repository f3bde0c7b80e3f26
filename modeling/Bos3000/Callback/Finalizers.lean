import Bos3000.Callback.Terminal
import Bos3000.Callback.Costs

-- Which goroutine runs the body of finalizeCall, and with which status.
namespace Bos3000.Callback

-- The status that a goroutine brings to finalized.Do.
def FinPC.status? : FinPC → Option Status
  | .load s | .once s => some s
  | .wait => none

-- Where runCall stands in finalizeCall.
def ActiveCall.place (w : ActiveCall) : Option FinPC :=
  match w.runCall with
  | .finalizing pc _ _ => some pc
  | .script .. => none

-- A step that starts the body with a status.
inductive Starter (w : ActiveCall) (s : Status) : Label → Prop
  | runCall (hplace : w.place = some (.once s)) : Starter w s .finalize
  | fsLost (k : Nat) (hthread : w.threads[k]? = some (.fsLostFinalize (.once s))) : Starter w s (.thread k)

section Step

variable {w v : ActiveCall}

theorem finalizeStep_status {pc next : FinPC} (h : w.finalizeStep pc = some (v, some next)) {s : Status}
    (hs : next.status? = some s) : pc.status? = some s := by
  obtain ⟨_, ⟨t, rfl, _, hnext⟩ | ⟨hnone, _⟩⟩ | ⟨t, rfl, _, hnext, _⟩ := finalizeStep_eq_some h
  · cases hnext
    exact hs
  · cases hnone
  · cases hnext
    cases hs

theorem finalizeStep_starter {pc : FinPC} {place : Option FinPC} (h : w.finalizeStep pc = some (v, place)) :
    v = w ∨ ∃ s, pc = .once s ∧ w.finalized = .unused ∧
      v = { w with finalized := .running (Body.start s) } := by
  obtain ⟨rfl, _⟩ | ⟨s, rfl, hunused, _, rfl⟩ := finalizeStep_eq_some h
  · exact .inl rfl
  · exact .inr ⟨s, rfl, hunused, rfl⟩

-- What a step outside the body does to it, and by whom.
theorem step_starter {l : Label} (hl : ∀ o, l ≠ .body o) (hstep : w.step l = some v) :
    v.finalized = w.finalized ∨
      ∃ s, w.finalized = .unused ∧ v.finalized = .running (Body.start s) ∧ Starter w s l := by
  cases l with
  | resume i =>
      obtain ⟨_, _, _, _, _, _, _, rfl⟩ := resumeRun_eq_some hstep
      exact .inl rfl
  | exec now ok =>
      obtain ⟨_, _, ⟨_, _, rfl⟩ | ⟨_, _, _, rfl⟩⟩ := execRun_eq_some hstep <;> exact .inl rfl
  | finalize =>
      obtain ⟨pc, _, _, u, _, hrun, hplace, rfl⟩ := finalizeRun_eq_some hstep
      obtain rfl | ⟨s, rfl, hunused, rfl⟩ := finalizeStep_starter hplace
      · exact .inl rfl
      · exact .inr ⟨s, hunused, rfl, .runCall (by rw [ActiveCall.place, hrun])⟩
  | body o => exact absurd rfl (hl o)
  | event e =>
      obtain rfl | ⟨_, rfl⟩ := deliver_eq_some hstep <;> exact .inl rfl
  | fsLost | shutdown | forceHangup auth =>
      obtain ⟨_, _, rfl⟩ := request_eq_some (by simp) hstep
      exact .inl rfl
  | thread k =>
      obtain ⟨t, u, next, hthread, hadvances, rfl⟩ := threadStep_eq_some hstep
      cases hadvances with
      | finalize hplace | finalized hplace =>
          obtain rfl | ⟨s, rfl, hunused, rfl⟩ := finalizeStep_starter hplace
          · exact .inl rfl
          · exact .inr ⟨s, hunused, rfl, .fsLost k hthread⟩
      | fsLost | shutdown | shutdownCancel | hangup | hangupBy | hangupCancel | hangupLegs => exact .inl rfl

-- A disconnect callback brings the status failed, and its reason.
theorem step_threads {l : Label} (hstep : w.step l = some v) {pc : FinPC}
    (hpc : .fsLostFinalize pc ∈ v.threads) {s : Status} (hs : pc.status? = some s) :
    (∃ earlier : FinPC, .fsLostFinalize earlier ∈ w.threads ∧ earlier.status? = some s) ∨
      s = .failed ∧ v.call.failureReason.isSome := by
  have hold : .fsLostFinalize pc ∈ w.threads →
      (∃ earlier : FinPC, .fsLostFinalize earlier ∈ w.threads ∧ earlier.status? = some s) ∨
        s = .failed ∧ v.call.failureReason.isSome := fun h => .inl ⟨pc, h, hs⟩
  cases l with
  | resume i =>
      obtain ⟨_, _, _, _, _, _, _, rfl⟩ := resumeRun_eq_some hstep
      exact hold hpc
  | exec now ok =>
      obtain ⟨_, _, ⟨_, _, rfl⟩ | ⟨_, _, _, rfl⟩⟩ := execRun_eq_some hstep <;> exact hold hpc
  | finalize =>
      obtain ⟨_, _, rfl, _⟩ := finalizeRun_starts hstep
      exact hold hpc
  | body o =>
      obtain ⟨_, _, _, _, _, _, _, rfl⟩ := bodyStep_eq_some hstep
      exact hold hpc
  | event e =>
      obtain rfl | ⟨_, rfl⟩ := deliver_eq_some hstep <;> exact hold hpc
  | fsLost | shutdown | forceHangup auth =>
      obtain ⟨t, hspawns, rfl⟩ := request_eq_some (by simp) hstep
      rcases List.mem_append.mp hpc with hpc | hpc
      · exact hold hpc
      · rw [← List.mem_singleton.mp hpc] at hspawns
        cases hspawns
  | thread k =>
      obtain ⟨t, u, next, hthread, hadvances, rfl⟩ := threadStep_eq_some hstep
      rcases List.mem_or_eq_of_mem_set hpc with hpc | rfl
      · rw [hadvances.threads] at hpc
        exact hold hpc
      · cases hadvances with
        | fsLost =>
            cases hs
            exact .inr ⟨rfl, rfl⟩
        | finalize hplace => exact .inl ⟨_, List.mem_of_getElem? hthread, finalizeStep_status hplace hs⟩
        | hangup hnext => simp at hnext

end Step

-- The statements of the body that write a status.
theorem exec_status {call row call' row' : CallbackCall} {body next : Body} {stmt : Stmt} {o : Outcome}
    (h : stmt.exec call row body o = some (call', row', next)) :
    next.status = body.status ∧
      (call'.status = call.status ∧ stmt ≠ .status ∨ stmt = .status ∧ call'.status = body.status) := by
  revert h
  fun_cases Stmt.exec call row body stmt o <;> intro h <;> cases h <;> simp [recordWastage, mergeRecording]
  all_goals first | rfl | (split <;> rfl)

theorem resume_assignStatus {call : CallbackCall} {stage next : Stage} {i : Input} {script : List Action}
    (h : resume call stage i = some (script, next)) {s : Status} (hs : .assign (.status s) ∈ script) :
    s.terminal = false := by
  revert h
  fun_cases resume call stage i <;> intro h <;> cases h
  case case14 e _ _ _ hangup | case15 e _ _ _ hangup _ =>
      simp only [hangup] at hs
      cases hleg : e.leg <;> simp [hleg, stopRecording] at hs
  case case17 bridged | case18 bridged => cases bridged <;> simp [stopRecording] at hs
  all_goals simp_all [startRecording, Status.terminal]

-- runCall has nothing left to do but to wait for the end of finalizeCall.
def Rest (w : ActiveCall) : Prop := w.pending = [] ∧ w.stage = .returned

theorem Rest.no_resume {w v : ActiveCall} (h : Rest w) (i : Input) : w.resumeRun i ≠ some v := by
  intro hstep
  obtain ⟨stage, _, _, hrun, hresume, _⟩ := resumeRun_eq_some hstep
  have hstage : stage = .returned := by simpa [ActiveCall.stage, hrun] using h.2
  subst hstage
  cases hresume

theorem Rest.no_exec {w v : ActiveCall} (h : Rest w) (now : Time) (ok : Bool) : w.execRun now ok ≠ some v := by
  intro hstep
  obtain ⟨_, hpending, _⟩ := execRun_next hstep
  rw [h.1] at hpending
  cases hpending

theorem finalizeRun_pending {w v : ActiveCall} (hstep : w.finalizeRun = some v) : v.pending = w.pending := by
  obtain ⟨_, _, _, _, place, hrun, hplace, rfl⟩ := finalizeRun_eq_some hstep
  obtain ⟨_, rfl, _⟩ := finalizeStep_starts hplace
  cases place <;> simp [ActiveCall.pending, hrun]

theorem Rest.step {w v : ActiveCall} (h : Rest w) {l : Label} (hstep : w.step l = some v) : Rest v := by
  obtain ⟨i, rfl, hresume⟩ | ⟨now, ok, rfl, hexec⟩ | ⟨rfl, hfin⟩ | ⟨o, rfl, hbody⟩ | ⟨_, haside⟩ :=
    step_cases hstep
  · exact absurd hresume (h.no_resume i)
  · exact absurd hexec (h.no_exec now ok)
  · exact ⟨(finalizeRun_pending hfin).trans h.1, ((step_history (by simp) hstep).1).trans h.2⟩
  · obtain ⟨_, _, _, _, _, _, _, rfl⟩ := bodyStep_eq_some hbody
    exact h
  · exact ⟨haside.pending.trans h.1, haside.stage.trans h.2⟩

-- The status finished comes from runCall, which is at rest from then on.
structure RestInv (w : ActiveCall) : Prop where
  threads : ∀ pc, .fsLostFinalize pc ∈ w.threads → ∀ s, pc.status? = some s → s = .failed
  pending : ∀ s, .assign (.status s) ∈ w.pending ∨ .updateCallStatus s ∈ w.pending → s.terminal = false
  running : ∀ body : Body, w.finalized = .running body → body.status = .finished →
    Rest w ∧ (.status ∈ w.executed → w.call.status = .finished)
  call : w.call.status = .finished → Rest w
  row : w.row.status = .finished → Rest w

section Step

variable {w v : ActiveCall}

theorem onCall_status (now : Time) (call : CallbackCall) (a : Action) :
    (a.onCall now call).status = call.status ∨
      ∃ s, a = .assign (.status s) ∧ (a.onCall now call).status = s := by
  cases a with
  | assign a => cases a <;> simp [Action.onCall, Assign.apply]
  | _ => exact .inl rfl

theorem RestInv.resume (h : RestInv w) {i : Input} (hstep : w.resumeRun i = some v) : RestInv v := by
  have hno : ¬ Rest w := fun hrest => hrest.no_resume i hstep
  obtain ⟨stage, script, next, hrun, hresume, _, eventCh, rfl⟩ := resumeRun_eq_some hstep
  refine ⟨h.threads, ?_, ?_, fun hs => absurd (h.call hs) hno, fun hs => absurd (h.row hs) hno⟩
  · intro s hs
    exact hs.elim (resume_assignStatus hresume) (resume_updateCallStatus hresume)
  · exact fun body hbody hs => absurd (h.running body hbody hs).1 hno

theorem RestInv.exec (h : RestInv w) {now : Time} {ok : Bool} (hstep : w.execRun now ok = some v) :
    RestInv v := by
  have hno : ¬ Rest w := fun hrest => hrest.no_exec now ok hstep
  have hpending := h.pending
  obtain ⟨todo, stage, ⟨s, hrun, rfl⟩ | ⟨a, hrun, _, rfl⟩⟩ := execRun_eq_some hstep
  · rw [pending_script hrun] at hpending
    refine ⟨h.threads, ?_, fun body hbody hs => absurd (h.running body hbody hs).1 hno,
      fun hs => absurd (h.call hs) hno, fun hs => absurd (h.row hs) hno⟩
    exact fun s hs => hpending s (hs.imp (List.mem_cons_of_mem _) (List.mem_cons_of_mem _))
  · rw [pending_script hrun] at hpending
    refine ⟨h.threads, ?_, fun body hbody hs => absurd (h.running body hbody hs).1 hno, ?_, ?_⟩
    · intro s hs
      exact hpending s (hs.imp (List.mem_cons_of_mem _) (List.mem_cons_of_mem _))
    · intro hfinished
      obtain hsame | ⟨s, rfl, hs⟩ := onCall_status now w.call a
      · exact absurd (h.call (hsame.symm.trans hfinished)) hno
      · have hopen := hpending s (.inl (List.mem_cons_self ..))
        rw [show s = .finished from hs.symm.trans hfinished] at hopen
        cases hopen
    · intro hfinished
      cases ok with
      | false => exact absurd (h.row hfinished) hno
      | true =>
          obtain hsame | ⟨s, rfl, hs⟩ := onRow_status w.row a
          · exact absurd (h.row (hsame.symm.trans hfinished)) hno
          · have hopen := hpending s (.inr (List.mem_cons_self ..))
            rw [show s = .finished from hs.symm.trans hfinished] at hopen
            cases hopen

theorem place_eq_some {pc : FinPC} (h : w.place = some pc) :
    ∃ todo stage, w.runCall = .finalizing pc todo stage := by
  unfold ActiveCall.place at h
  split at h
  · cases h
    exact ⟨_, _, by assumption⟩
  · cases h

theorem RestInv.body (h : RestInv w) {o : Outcome} (hstep : w.bodyStep o = some v) : RestInv v := by
  have hrest : Rest w → Rest v := fun hrest => hrest.step (l := .body o) hstep
  obtain ⟨stmt, body, call, row, next, hrunning, hexec, rfl⟩ := bodyStep_eq_some hstep
  have hexecuted := bodyStep_executed hstep hrunning
  obtain ⟨hnext, hcall⟩ := exec_status hexec
  have hwritten : call.status = .finished → Rest w := by
    intro hfinished
    obtain ⟨hsame, _⟩ | ⟨_, hstatus⟩ := hcall
    · exact h.call (hsame.symm.trans hfinished)
    · exact (h.running _ hrunning (hstatus.symm.trans hfinished)).1
  refine ⟨h.threads, h.pending, ?_, fun hs => hrest (hwritten hs), ?_⟩
  · intro current hcurrent hfinished
    simp only at hcurrent
    split at hcurrent
    · cases hcurrent
    · cases hcurrent
      obtain ⟨hresting, hstatus⟩ := h.running _ hrunning (hnext.symm.trans hfinished)
      refine ⟨hrest hresting, fun hmem => ?_⟩
      obtain ⟨hsame, hother⟩ | ⟨_, hwrite⟩ := hcall
      · refine hsame.trans (hstatus ?_)
        rw [hexecuted, List.mem_append, List.mem_singleton] at hmem
        exact hmem.resolve_right fun heq => hother heq.symm
      · exact hwrite.trans (hnext.symm.trans hfinished)
  · intro hfinished
    obtain rfl | ⟨rfl, rfl, hstatus⟩ := exec_row hexec
    · exact hrest (h.row hfinished)
    · obtain ⟨hsame, _⟩ | ⟨hwrong, _⟩ := hcall
      · exact hrest (h.call (hsame.symm.trans (hsame.trans (hstatus.symm.trans hfinished))))
      · cases hwrong

theorem place_rest (h : RunInv w) {pc : FinPC} (hplace : w.place = some pc) : Rest w := by
  obtain ⟨todo, stage, hrun⟩ := place_eq_some hplace
  simp only [RunInv, hrun] at h
  exact ⟨(pending_finalizing hrun).trans h.1, by simp [ActiveCall.stage, hrun, h.2]⟩

-- A step that executes nothing of runCall and of the body.
theorem RestInv.besides (h : RestInv w) (hsettling : Settling w) {l : Label} (hl : ∀ o, l ≠ .body o)
    (hstep : w.step l = some v) (hcall : v.call.status = w.call.status) (hrow : v.row = w.row)
    (hpending : v.pending = w.pending) : RestInv v := by
  have hexecuted := step_executed hl hstep
  refine ⟨?_, by rw [hpending]; exact h.pending, ?_, ?_, ?_⟩
  · intro pc hpc s hs
    obtain ⟨earlier, hearlier, hstatus⟩ | ⟨hfailed, _⟩ := step_threads hstep hpc hs
    · exact h.threads earlier hearlier s hstatus
    · exact hfailed
  · intro body hbody hfinished
    obtain hsame | ⟨s, hunused, hstarted, hstarter⟩ := step_starter hl hstep
    · obtain ⟨hrest, hstatus⟩ := h.running body (hsame.symm.trans hbody) hfinished
      exact ⟨hrest.step hstep, by rw [hexecuted, hcall]; exact hstatus⟩
    · rw [hstarted] at hbody
      cases hbody
      have hnothing : v.executed = [] := hexecuted.trans (hsettling.nothing hunused)
      refine ⟨?_, fun hmem => by rw [hnothing] at hmem; cases hmem⟩
      cases hstarter with
      | runCall hplace => exact (place_rest hsettling.runCall hplace).step hstep
      | fsLost k hthread =>
          have hfailed := h.threads _ (List.mem_of_getElem? hthread) s rfl
          rw [show s = .finished from hfinished] at hfailed
          cases hfailed
  · intro hfinished
    exact (h.call (hcall.symm.trans hfinished)).step hstep
  · intro hfinished
    rw [hrow] at hfinished
    exact (h.row hfinished).step hstep

theorem RestInv.step (h : RestInv w) (hsettling : Settling w) {l : Label} (hstep : w.step l = some v) :
    RestInv v := by
  obtain ⟨i, rfl, hresume⟩ | ⟨now, ok, rfl, hexec⟩ | ⟨rfl, hfin⟩ | ⟨o, rfl, hbody⟩ | ⟨hl, haside⟩ :=
    step_cases hstep
  · exact h.resume hresume
  · exact h.exec hexec
  · have hpending := finalizeRun_pending hfin
    obtain ⟨_, _, rfl, _⟩ := finalizeRun_starts hfin
    exact h.besides hsettling (by simp) hstep rfl rfl hpending
  · exact h.body hbody
  · obtain ⟨_, _, hcall⟩ := haside.call
    exact h.besides hsettling hl hstep (by rw [hcall]) haside.row haside.pending

end Step

theorem restInv_init {call : CallbackCall} (hnew : call.status = .initiating) : RestInv (.init call) := by
  refine ⟨?_, ?_, ?_, ?_, ?_⟩ <;> simp [ActiveCall.init, ActiveCall.pending, hnew]

theorem resume_finalizeCall {call : CallbackCall} {stage next : Stage} {i : Input} {script : List Action}
    (h : resume call stage i = some (script, next)) {s : Status} (hs : .finalizeCall s ∈ script) :
    s.terminal = true := by
  revert h
  fun_cases resume call stage i <;> intro h <;> cases h
  case case14 e _ _ _ hangup | case15 e _ _ _ hangup _ =>
      simp only [hangup] at hs
      cases hleg : e.leg <;> simp_all [stopRecording, Status.terminal]
  case case17 bridged | case18 bridged => cases bridged <;> simp_all [stopRecording, Status.terminal]
  all_goals simp_all [startRecording, Status.terminal]

def Thread.finalizes : Thread → Bool
  | .fsLost | .fsLostFinalize _ => true
  | _ => false

-- Only runCall finalizes the call, with a terminal status, and it is at rest from
-- then on.
structure Sole (w : ActiveCall) : Prop where
  threads : ∀ t ∈ w.threads, t.finalizes = false
  rest : w.finalized ≠ .unused → Rest w
  updates : ∀ s, .updateCallStatus s ∈ w.pending → s.terminal = false
  pending : ∀ s, .finalizeCall s ∈ w.pending → s.terminal = true
  place : ∀ pc, w.place = some pc → ∀ s, pc.status? = some s → s.terminal = true
  body : ∀ body : Body, w.finalized = .running body →
    body.status.terminal = true ∧ (.status ∈ w.executed → w.call.status = body.status)

section Sole

variable {w v : ActiveCall}

theorem step_finalizes {l : Label} (hl : l ≠ .fsLost) (hstep : w.step l = some v)
    (h : ∀ t ∈ w.threads, t.finalizes = false) : ∀ t ∈ v.threads, t.finalizes = false := by
  cases l with
  | resume i =>
      obtain ⟨_, _, _, _, _, _, _, rfl⟩ := resumeRun_eq_some hstep
      exact h
  | exec now ok =>
      obtain ⟨_, _, ⟨_, _, rfl⟩ | ⟨_, _, _, rfl⟩⟩ := execRun_eq_some hstep <;> exact h
  | finalize =>
      obtain ⟨_, _, rfl, _⟩ := finalizeRun_starts hstep
      exact h
  | body o =>
      obtain ⟨_, _, _, _, _, _, _, rfl⟩ := bodyStep_eq_some hstep
      exact h
  | event e =>
      obtain rfl | ⟨_, rfl⟩ := deliver_eq_some hstep <;> exact h
  | fsLost => exact absurd rfl hl
  | shutdown | forceHangup auth =>
      obtain ⟨t, hspawns, rfl⟩ := request_eq_some (by simp) hstep
      intro u hu
      rcases List.mem_append.mp hu with hu | hu
      · exact h u hu
      · rw [List.mem_singleton.mp hu]
        cases hspawns <;> rfl
  | thread k =>
      obtain ⟨t, u, next, hthread, hadvances, rfl⟩ := threadStep_eq_some hstep
      have ht := h t (List.mem_of_getElem? hthread)
      intro other hother
      rcases List.mem_or_eq_of_mem_set hother with hother | rfl
      · rw [hadvances.threads] at hother
        exact h other hother
      · cases hadvances with
        | fsLost | finalize | finalized => cases ht
        | hangup hnext => obtain rfl | rfl := hnext <;> rfl
        | shutdown | shutdownCancel | hangupBy | hangupCancel | hangupLegs => rfl

theorem Sole.unused_of_resume (h : Sole w) {i : Input} (hstep : w.resumeRun i = some v) :
    w.finalized = .unused := by
  by_contra hused
  exact (h.rest hused).no_resume i hstep

theorem Sole.unused_of_exec (h : Sole w) {now : Time} {ok : Bool} (hstep : w.execRun now ok = some v) :
    w.finalized = .unused := by
  by_contra hused
  exact (h.rest hused).no_exec now ok hstep

theorem Sole.resume (h : Sole w) {i : Input} (hstep : w.resumeRun i = some v) : Sole v := by
  have hunused := h.unused_of_resume hstep
  obtain ⟨stage, script, next, hrun, hresume, _, eventCh, rfl⟩ := resumeRun_eq_some hstep
  refine ⟨h.threads, fun hused => absurd hunused hused, fun s hs => resume_updateCallStatus hresume hs,
    fun s hs => resume_finalizeCall hresume hs, fun pc hpc => by simp [ActiveCall.place] at hpc, ?_⟩
  intro body hbody
  rw [show w.finalized = .running body from hbody] at hunused
  cases hunused

theorem Sole.exec (h : Sole w) {now : Time} {ok : Bool} (hstep : w.execRun now ok = some v) : Sole v := by
  have hunused := h.unused_of_exec hstep
  have hupdates := h.updates
  have hfinal := h.pending
  obtain ⟨todo, stage, ⟨s, hrun, rfl⟩ | ⟨a, hrun, _, rfl⟩⟩ := execRun_eq_some hstep <;>
    rw [pending_script hrun] at hupdates hfinal
  · refine ⟨h.threads, fun hused => absurd hunused hused, fun t ht => hupdates t (List.mem_cons_of_mem _ ht),
      fun t ht => hfinal t (List.mem_cons_of_mem _ ht), ?_, fun body hbody => ?_⟩
    · intro pc hpc t ht
      cases hpc
      cases ht
      exact hfinal s (List.mem_cons_self ..)
    · rw [show w.finalized = .running body from hbody] at hunused
      cases hunused
  · refine ⟨h.threads, fun hused => absurd hunused hused, fun t ht => hupdates t (List.mem_cons_of_mem _ ht),
      fun t ht => hfinal t (List.mem_cons_of_mem _ ht), fun pc hpc => by simp [ActiveCall.place] at hpc,
      fun body hbody => ?_⟩
    rw [show w.finalized = .running body from hbody] at hunused
    cases hunused

theorem Sole.bodyStep (h : Sole w) {o : Outcome} (hstep : w.bodyStep o = some v) : Sole v := by
  have hrest : Rest w → Rest v := fun hrest => hrest.step (l := .body o) hstep
  obtain ⟨stmt, body, call, row, next, hrunning, hexec, rfl⟩ := bodyStep_eq_some hstep
  have hexecuted := bodyStep_executed hstep hrunning
  obtain ⟨hterminal, hwritten⟩ := h.body _ hrunning
  refine ⟨h.threads, fun _ => hrest (h.rest (by simp [hrunning])), h.updates, h.pending, h.place, ?_⟩
  intro current hcurrent
  simp only at hcurrent
  split at hcurrent
  · cases hcurrent
  · cases hcurrent
    obtain ⟨hstatus, hcall⟩ := exec_status hexec
    refine ⟨by rw [hstatus]; exact hterminal, fun hmem => ?_⟩
    rw [hexecuted, List.mem_append, List.mem_singleton] at hmem
    obtain ⟨hsame, hother⟩ | ⟨_, hwrite⟩ := hcall
    · have hearlier := hmem.resolve_right fun heq => hother heq.symm
      exact hsame.trans ((hwritten hearlier).trans hstatus.symm)
    · exact hwrite.trans hstatus.symm

-- A step that executes nothing of runCall and of the body.
theorem Sole.besides (h : Sole w) (hsettling : Settling w) {l : Label} (hl : ∀ o, l ≠ .body o)
    (hlost : l ≠ .fsLost) (hstep : w.step l = some v) (hcall : v.call.status = w.call.status)
    (hpending : v.pending = w.pending)
    (hplace : ∀ pc, v.place = some pc → ∀ s, pc.status? = some s →
      ∃ earlier, w.place = some earlier ∧ earlier.status? = some s) : Sole v := by
  have hexecuted := step_executed hl hstep
  have hstarted : ∀ s, Starter w s l → Rest w ∧ s.terminal = true := by
    intro s hstarter
    cases hstarter with
    | runCall hplace => exact ⟨place_rest hsettling.runCall hplace, h.place _ hplace s rfl⟩
    | fsLost k hthread => cases h.threads _ (List.mem_of_getElem? hthread)
  refine ⟨step_finalizes hlost hstep h.threads, ?_, by rw [hpending]; exact h.updates,
    by rw [hpending]; exact h.pending, ?_, ?_⟩
  · intro hused
    obtain hsame | ⟨s, _, _, hstarter⟩ := step_starter hl hstep
    · exact (h.rest (hsame ▸ hused)).step hstep
    · exact (hstarted s hstarter).1.step hstep
  · intro pc hpc s hs
    obtain ⟨earlier, hearlier, hstatus⟩ := hplace pc hpc s hs
    exact h.place earlier hearlier s hstatus
  · intro body hbody
    rw [hexecuted, hcall]
    obtain hsame | ⟨s, hunused, hrunning, hstarter⟩ := step_starter hl hstep
    · exact h.body body (hsame.symm.trans hbody)
    · rw [hrunning] at hbody
      cases hbody
      refine ⟨(hstarted s hstarter).2, fun hmem => ?_⟩
      rw [hsettling.nothing hunused] at hmem
      cases hmem

theorem Sole.step (h : Sole w) (hsettling : Settling w) {l : Label} (hlost : l ≠ .fsLost)
    (hstep : w.step l = some v) : Sole v := by
  obtain ⟨i, rfl, hresume⟩ | ⟨now, ok, rfl, hexec⟩ | ⟨rfl, hfin⟩ | ⟨o, rfl, hbody⟩ | ⟨hl, haside⟩ :=
    step_cases hstep
  · exact h.resume hresume
  · exact h.exec hexec
  · have hpending := finalizeRun_pending hfin
    obtain ⟨pc, _, _, _, place, hrun, hplace, hv⟩ := finalizeRun_eq_some hfin
    obtain ⟨_, hu, _⟩ := finalizeStep_starts hplace
    refine h.besides hsettling (by simp) hlost hstep (by rw [hv, hu]) hpending ?_
    intro next hnext s hs
    refine ⟨pc, by simp [ActiveCall.place, hrun], ?_⟩
    rw [hv] at hnext
    cases place with
    | some earlier =>
        cases hnext
        exact finalizeStep_status hplace hs
    | none => cases hnext
  · exact h.bodyStep hbody
  · obtain ⟨_, _, hcall⟩ := haside.call
    refine h.besides hsettling hl hlost hstep (by rw [hcall]) haside.pending ?_
    intro pc hpc s hs
    exact ⟨pc, by simpa only [ActiveCall.place, haside.runCall] using hpc, hs⟩

end Sole

theorem sole_init (call : CallbackCall) : Sole (.init call) := by
  refine ⟨?_, ?_, ?_, ?_, ?_, ?_⟩ <;> simp [ActiveCall.init, ActiveCall.pending, ActiveCall.place]

end Bos3000.Callback
