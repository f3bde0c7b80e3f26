import Bos3000.Callback.Steps

-- However its goroutines interleave, a call is settled once.
namespace Bos3000.Callback

-- The statements left of the body together with the executed ones make up one
-- body, and the call is in activeCalls until the last one.
structure BodyInv (w : ActiveCall) : Prop where
  executed : match w.finalized with
    | .unused => w.executed = []
    | .running body => w.executed ++ body.todo = finalizeBody ∧ body.todo ≠ []
    | .done => w.executed = finalizeBody
  inMap : w.inMap = false ↔ w.finalized = .done

-- The statements that end in a call of finalizeCall.
def Ends (todo : List Action) : Prop :=
  ∃ before s, todo = before ++ [.finalizeCall s] ∧ ∀ t, .finalizeCall t ∉ before

-- runCall returns through finalizeCall, and after it nothing is left to do.
def RunInv (w : ActiveCall) : Prop :=
  match w.runCall with
  | .script todo stage =>
      if stage = .returned then Ends todo ∨ todo = [] ∧ w.finalized = .done
      else ∀ s, .finalizeCall s ∉ todo
  | .finalizing _ todo stage => todo = [] ∧ stage = .returned

theorem ends_cons {a : Action} {todo : List Action} (h : Ends (a :: todo)) :
    (∃ s, a = .finalizeCall s) ∧ todo = [] ∨ (∀ s, a ≠ .finalizeCall s) ∧ Ends todo := by
  obtain ⟨before, s, htodo, hbefore⟩ := h
  cases before with
  | nil =>
      obtain ⟨rfl, rfl⟩ := List.cons_eq_cons.mp htodo
      exact .inl ⟨⟨s, rfl⟩, rfl⟩
  | cons b before =>
      obtain ⟨rfl, rfl⟩ := List.cons_eq_cons.mp htodo
      simp only [List.mem_cons, not_or] at hbefore
      exact .inr ⟨fun t => Ne.symm (hbefore t).1, before, s, rfl, fun t => (hbefore t).2⟩

-- delete is the last statement of the body, and no other is.
theorem delete_last {before rest : List Stmt} {stmt : Stmt}
    (h : before ++ stmt :: rest = finalizeBody) : stmt = .delete ↔ rest = [] := by
  have hlast : (before ++ stmt :: rest).getLast? = some .delete := by rw [h]; rfl
  have hnodup : (before ++ stmt :: rest).Nodup := by rw [h]; decide
  cases rest with
  | nil => simpa using hlast
  | cons next rest =>
      have hmem : .delete ∈ next :: rest := by
        apply List.mem_of_getLast?
        simpa using hlast
      have hnot : stmt ∉ next :: rest := (List.nodup_cons.mp (List.nodup_append.mp hnodup).2.1).1
      constructor
      · rintro rfl
        exact absurd hmem hnot
      · intro h
        cases h

section Body

variable {w v : ActiveCall}

theorem BodyInv.starts (h : BodyInv w) (hstarts : w.finalized.Starts v.finalized)
    (hexecuted : v.executed = w.executed) (hmap : v.inMap = w.inMap) : BodyInv v := by
  obtain ⟨hbody, hin⟩ := h
  obtain hsame | ⟨hunused, s, hnew⟩ := hstarts
  · exact ⟨by rw [hsame, hexecuted]; exact hbody, by rw [hsame, hmap]; exact hin⟩
  · rw [hunused] at hbody hin
    refine ⟨?_, ?_⟩
    · rw [hnew, hexecuted]
      exact ⟨by rw [hbody]; rfl, by simp [Body.start, finalizeBody]⟩
    · rw [hnew, hmap]
      simpa using hin

theorem exec_todo {call row call' row' : CallbackCall} {body next : Body} {stmt : Stmt} {o : Outcome}
    (h : stmt.exec call row body o = some (call', row', next)) : next.todo = body.todo := by
  revert h
  fun_cases Stmt.exec call row body stmt o <;> intro h <;> cases h <;> rfl

theorem BodyInv.body (h : BodyInv w) {o : Outcome} (hstep : w.bodyStep o = some v) : BodyInv v := by
  obtain ⟨stmt, body, call, row, next, hrunning, hexec, rfl⟩ := bodyStep_eq_some hstep
  have hexecuted := bodyStep_executed hstep hrunning
  obtain ⟨hbody, hin⟩ := h
  rw [hrunning] at hbody hin
  have hmap : w.inMap = true := by simpa using hin
  have hsplit : w.executed ++ [stmt] ++ body.todo = finalizeBody := by
    rw [List.append_assoc]
    exact hbody.1
  constructor
  · rw [hexecuted]
    by_cases htodo : body.todo = []
    · rw [if_pos htodo]
      rw [htodo, List.append_nil] at hsplit
      exact hsplit
    · rw [if_neg htodo]
      exact ⟨by rw [exec_todo hexec]; exact hsplit, by rw [exec_todo hexec]; exact htodo⟩
  · by_cases htodo : body.todo = []
    · simp [hmap, htodo, (delete_last hbody.1).mpr htodo]
    · simp [hmap, htodo, mt (delete_last hbody.1).mp htodo]

theorem BodyInv.step (h : BodyInv w) {l : Label} (hstep : w.step l = some v) : BodyInv v := by
  obtain ⟨i, rfl, hresume⟩ | ⟨now, ok, rfl, hexec⟩ | ⟨rfl, hfin⟩ | ⟨o, rfl, hbody⟩ | ⟨_, haside⟩ :=
    step_cases hstep
  · have hexecuted := resumeRun_executed hresume
    obtain ⟨stage, script, next, _, _, _, eventCh, rfl⟩ := resumeRun_eq_some hresume
    exact h.starts (.inl rfl) hexecuted rfl
  · have hexecuted := execRun_executed hexec
    obtain ⟨todo, stage, ⟨s, _, rfl⟩ | ⟨a, _, _, rfl⟩⟩ := execRun_eq_some hexec <;>
      exact h.starts (.inl rfl) hexecuted rfl
  · obtain ⟨_, _, rfl, hstarts⟩ := finalizeRun_starts hfin
    exact h.starts hstarts rfl rfl
  · exact h.body hbody
  · exact h.starts haside.finalized haside.executed haside.inMap

end Body

section Run

variable {w v : ActiveCall}

theorem RunInv.mono (h : RunInv w) (hrun : v.runCall = w.runCall)
    (hdone : w.finalized = .done → v.finalized = .done) : RunInv v := by
  unfold RunInv at h ⊢
  rw [hrun]
  split
  · rename_i todo stage heq
    rw [heq] at h
    simp only at h
    split
    · rename_i hstage
      rw [if_pos hstage] at h
      exact h.imp_right fun hnil => ⟨hnil.1, hdone hnil.2⟩
    · rename_i hstage
      rwa [if_neg hstage] at h
  · rename_i heq
    rw [heq] at h
    exact h

theorem RunInv.resume (hbody : BodyInv w) {i : Input} (hstep : w.resumeRun i = some v) : RunInv v := by
  obtain ⟨stage, script, next, _, hresume, hoffers, eventCh, rfl⟩ := resumeRun_eq_some hstep
  simp only [RunInv]
  split
  · rename_i hnext
    subst hnext
    obtain hends | ⟨hnil, rfl⟩ := resume_exit hresume
    · exact .inl hends
    · have hmap : w.inMap = false := by simpa [ActiveCall.offers] using hoffers
      exact .inr ⟨hnil, hbody.inMap.mp hmap⟩
  · rename_i hnext
    exact resume_continue hresume hnext

theorem RunInv.exec (h : RunInv w) {now : Time} {ok : Bool} (hstep : w.execRun now ok = some v) :
    RunInv v := by
  obtain ⟨todo, stage, ⟨s, hrun, rfl⟩ | ⟨a, hrun, hother, rfl⟩⟩ := execRun_eq_some hstep
  · simp only [RunInv, hrun] at h ⊢
    split at h
    · rename_i hstage
      obtain hends | ⟨hnil, _⟩ := h
      · obtain ⟨_, htodo⟩ | ⟨hother, _⟩ := ends_cons hends
        · exact ⟨htodo, hstage⟩
        · exact absurd rfl (hother s)
      · cases hnil
    · exact absurd (List.mem_cons_self ..) (h s)
  · simp only [RunInv, hrun] at h ⊢
    by_cases hstage : stage = .returned
    · rw [if_pos hstage] at h ⊢
      obtain hends | ⟨hnil, _⟩ := h
      · obtain ⟨⟨s, hs⟩, _⟩ | ⟨_, hends⟩ := ends_cons hends
        · exact absurd hs (hother s)
        · exact .inl hends
      · cases hnil
    · rw [if_neg hstage] at h ⊢
      exact fun s hs => h s (List.mem_cons_of_mem _ hs)

theorem RunInv.finalize (h : RunInv w) (hbody : BodyInv w) (hstep : w.finalizeRun = some v) :
    RunInv v := by
  obtain ⟨pc, todo, stage, u, place, hrun, hplace, rfl⟩ := finalizeRun_eq_some hstep
  simp only [RunInv, hrun] at h
  obtain ⟨rfl, rfl⟩ := h
  cases place with
  | some next => exact ⟨rfl, rfl⟩
  | none =>
      obtain ⟨rfl, hload | ⟨_, hdone⟩⟩ | ⟨s, _, _, hwait, _⟩ := finalizeStep_eq_some hplace
      · obtain ⟨_, _, _, hplace⟩ := hload
        cases hplace
      · refine .inr ⟨rfl, ?_⟩
        exact hdone.elim (fun hgone => hbody.inMap.mp hgone.2) id
      · cases hwait

theorem RunInv.step (h : RunInv w) (hbody : BodyInv w) {l : Label} (hstep : w.step l = some v) :
    RunInv v := by
  obtain ⟨i, rfl, hresume⟩ | ⟨now, ok, rfl, hexec⟩ | ⟨rfl, hfin⟩ | ⟨o, rfl, hnext⟩ | ⟨_, haside⟩ :=
    step_cases hstep
  · exact .resume hbody hresume
  · exact h.exec hexec
  · exact h.finalize hbody hfin
  · obtain ⟨stmt, body, call, row, next, hrunning, _, rfl⟩ := bodyStep_eq_some hnext
    exact h.mono rfl (fun hdone => by rw [hrunning] at hdone; cases hdone)
  · refine h.mono haside.runCall fun hdone => ?_
    obtain hsame | ⟨hunused, _⟩ := haside.finalized
    · rw [hsame, hdone]
    · rw [hdone] at hunused
      cases hunused

end Run

structure Settling (w : ActiveCall) : Prop where
  body : BodyInv w
  runCall : RunInv w

theorem settling_init (call : CallbackCall) : Settling (.init call) :=
  ⟨⟨rfl, by simp [ActiveCall.init]⟩, by simp [RunInv, ActiveCall.init]⟩

theorem Settling.step {w v : ActiveCall} (h : Settling w) {l : Label} (hstep : w.step l = some v) :
    Settling v :=
  ⟨h.body.step hstep, h.runCall.step h.body hstep⟩

theorem settling_run {call : CallbackCall} {labels : List Label} {w : ActiveCall}
    (hrun : Machine.run ActiveCall.step (.init call) labels = some w) : Settling w :=
  Machine.invariant (fun _ _ _ h hstep => h.step hstep) (settling_init call) hrun

-- What was executed of the body is a part of it from its start.
theorem Settling.split {w : ActiveCall} (h : Settling w) : ∃ rest, w.executed ++ rest = finalizeBody := by
  have hbody := h.body.executed
  split at hbody
  · exact ⟨finalizeBody, by rw [hbody]; rfl⟩
  · exact ⟨_, hbody.1⟩
  · exact ⟨[], by rw [hbody, List.append_nil]⟩

theorem Settling.split_running {w : ActiveCall} (h : Settling w) {body : Body} {stmt : Stmt}
    (hrunning : w.finalized = .running { body with todo := stmt :: body.todo }) :
    w.executed ++ stmt :: body.todo = finalizeBody := by
  have hbody := h.body.executed
  rw [hrunning] at hbody
  exact hbody.1

theorem Settling.nothing {w : ActiveCall} (h : Settling w) (hunused : w.finalized = .unused) : w.executed = [] := by
  have hbody := h.body.executed
  rwa [hunused] at hbody

theorem Settling.executed_le_one {w : ActiveCall} (h : Settling w) (stmt : Stmt) :
    w.executed.count stmt ≤ 1 := by
  obtain ⟨rest, hrest⟩ := h.split
  have hnodup : (w.executed ++ rest).Nodup := by rw [hrest]; decide
  exact List.nodup_iff_count_le_one.mp (List.nodup_append.mp hnodup).1 stmt

def ActiveCall.returned (w : ActiveCall) : Prop := w.runCall = .script [] .returned

-- A call that is not in activeCalls any more has executed the whole body.
theorem Settling.gone {w : ActiveCall} (h : Settling w) (hgone : w.inMap = false) :
    w.executed = finalizeBody := by
  have hbody := h.body.executed
  rwa [h.body.inMap.mp hgone] at hbody

-- When runCall has returned, the whole body was executed and the call is gone.
theorem Settling.returned {w : ActiveCall} (h : Settling w) (hreturned : w.returned) :
    w.executed = finalizeBody ∧ w.inMap = false := by
  have hrun := h.runCall
  simp only [RunInv, show w.runCall = _ from hreturned, ite_true, true_and] at hrun
  have hdone : w.finalized = .done := by
    obtain ⟨before, s, hnil, _⟩ | hdone := hrun
    · simp at hnil
    · exact hdone
  have hgone := h.body.inMap.mpr hdone
  exact ⟨h.gone hgone, hgone⟩

end Bos3000.Callback
