import Bos3000.Callback.FinalStatus

-- Whether a call ends as ForceHangup announces.
namespace Bos3000.Callback

-- A row of a previous process: it has no goroutine and no entry in activeCalls.
def ActiveCall.orphan (row : CallbackCall) : ActiveCall :=
  ⟨row, row, false, false, [], .unused, .script [] .returned, [], []⟩

-- A ForceHangup request past its checks.
def Thread.passed : Thread → Bool
  | .hangup .. | .hangupBy .. | .hangupCancel _ | .hangupLegs _ | .responded (.ok _) => true
  | _ => false

def ActiveCall.requested (w : ActiveCall) : Bool := w.threads.any Thread.passed

-- The inputs on which runCall ends a call as failed.
def Stage.failsOn : Stage → Input → Bool
  | .originatingA, .originated .A false | .originatingB, .originated .B false => true
  | .bridging _, .bridged false => true
  | .waitingA, .event e => e.isHangup
  | .loop bridged, .event e => !bridged && e.isHangup
  | .waitingA, .timer => true
  | .waitingA, .done | .loop _, .done => true
  | _, _ => false

def Action.finalizes? : Action → Option Status
  | .finalizeCall s => some s
  | _ => none

def Once.status? : Once → Option Status
  | .running body => some body.status
  | _ => none

-- The statuses with which runCall and the body are ending the call.
def ActiveCall.ending (w : ActiveCall) : List Status :=
  w.pending.filterMap Action.finalizes? ++ (w.place.bind FinPC.status?).toList ++ w.finalized.status?.toList

-- What keeps the announced status: ForceHangup finds an active call that is not
-- ending as failed, and from then on runCall takes no failing exit, no disconnect
-- callback starts the body, and updateCallFinal succeeds.
def Honours (w : ActiveCall) : Label → Bool
  | .forceHangup auth =>
      match forceHangupCheck auth (some w.row) with
      | .ok _ => w.inMap && .updateCallFinal ∉ w.executed && w.ending.all (· = .finished)
      | .error _ => true
  | .resume i => !w.requested || !w.stage.failsOn i
  | .thread k =>
      !w.requested ||
      match w.threads[k]? with
      | some (.fsLostFinalize (.once _)) => w.finalized ≠ .unused
      | _ => true
  | .body .fault =>
      !w.requested ||
      match w.finalized with
      | .running ⟨.updateCallFinal :: _, _, _, _⟩ => false
      | _ => true
  | _ => true

theorem mem_ending {w : ActiveCall} {s : Status} :
    s ∈ w.ending ↔ .finalizeCall s ∈ w.pending ∨ (∃ pc, w.place = some pc ∧ pc.status? = some s) ∨
      ∃ body : Body, w.finalized = .running body ∧ body.status = s := by
  have hpending : s ∈ w.pending.filterMap Action.finalizes? ↔ .finalizeCall s ∈ w.pending := by
    rw [List.mem_filterMap]
    constructor
    · rintro ⟨a, ha, hs⟩
      cases a <;> cases hs
      exact ha
    · exact fun h => ⟨_, h, rfl⟩
  have hbody : w.finalized.status? = some s ↔ ∃ body : Body, w.finalized = .running body ∧ body.status = s := by
    cases w.finalized <;> simp [Once.status?]
  simp only [ActiveCall.ending, List.mem_append, Option.mem_toList, hpending, hbody, or_assoc,
    Option.bind_eq_some_iff]

-- runCall leaves its failing exits for the status finished.
theorem resume_fails {call : CallbackCall} {stage next : Stage} {i : Input} {script : List Action}
    (h : resume call stage i = some (script, next)) {s : Status} (hs : .finalizeCall s ∈ script) :
    s = .finished ∨ stage.failsOn i = true := by
  revert h
  fun_cases resume call stage i <;> intro h <;> cases h
  case case14 e _ _ _ hangup =>
      simp only [hangup] at hs
      cases hleg : e.leg <;> simp_all [stopRecording]
  case case15 e _ _ _ hangup _ =>
      simp only [hangup] at hs
      cases hleg : e.leg <;> simp_all [Stage.failsOn]
  case case17 bridged | case18 bridged => cases bridged <;> simp_all [stopRecording, Stage.failsOn]
  all_goals simp_all [startRecording, Stage.failsOn]

section Step

variable {w v : ActiveCall}

theorem running_of_bodyStep {o : Outcome} (hstep : w.bodyStep o = some v) {body : Body}
    (hv : v.finalized = .running body) :
    ∃ earlier : Body, w.finalized = .running earlier ∧ earlier.status = body.status := by
  obtain ⟨stmt, earlier, _, _, next, hrunning, hexec, rfl⟩ := bodyStep_eq_some hstep
  simp only at hv
  split at hv
  · cases hv
  · cases hv
    exact ⟨_, hrunning, (exec_status hexec).1.symm⟩

-- A finalizeCall that runCall has yet to execute comes from an exit.
theorem step_pending {l : Label} (hstep : w.step l = some v) {s : Status}
    (hpending : .finalizeCall s ∈ v.pending) :
    .finalizeCall s ∈ w.pending ∨ ∃ i, l = .resume i ∧ (s = .finished ∨ w.stage.failsOn i = true) := by
  obtain ⟨i, rfl, hresume⟩ | ⟨now, ok, rfl, hexec⟩ | ⟨rfl, hfin⟩ | ⟨o, rfl, hbody⟩ | ⟨_, haside⟩ :=
    step_cases hstep
  · obtain ⟨stage, script, next, hrun, hscript, _, _, rfl⟩ := resumeRun_eq_some hresume
    have hstage : w.stage = stage := by simp [ActiveCall.stage, hrun]
    exact .inr ⟨i, rfl, hstage ▸ resume_fails hscript hpending⟩
  · obtain ⟨_, hnext, _⟩ := execRun_next hexec
    exact .inl (hnext ▸ List.mem_cons_of_mem _ hpending)
  · rw [finalizeRun_pending hfin] at hpending
    exact .inl hpending
  · obtain ⟨_, _, _, _, _, _, _, rfl⟩ := bodyStep_eq_some hbody
    exact .inl hpending
  · rw [haside.pending] at hpending
    exact .inl hpending

-- runCall brings to finalizeCall the status of its statement.
theorem step_place {l : Label} (hstep : w.step l = some v) {pc : FinPC} (hplace : v.place = some pc)
    {s : Status} (hpc : pc.status? = some s) :
    .finalizeCall s ∈ w.pending ∨ ∃ earlier, w.place = some earlier ∧ earlier.status? = some s := by
  obtain ⟨i, rfl, hresume⟩ | ⟨now, ok, rfl, hexec⟩ | ⟨rfl, hfin⟩ | ⟨o, rfl, hbody⟩ | ⟨_, haside⟩ :=
    step_cases hstep
  · obtain ⟨_, _, _, _, _, _, _, rfl⟩ := resumeRun_eq_some hresume
    cases hplace
  · obtain ⟨_, _, ⟨t, hrun, rfl⟩ | ⟨_, _, _, rfl⟩⟩ := execRun_eq_some hexec
    · cases hplace
      cases hpc
      exact .inl (by simp [pending_script hrun])
    · cases hplace
  · obtain ⟨earlier, _, _, _, place, hrun, hnext, rfl⟩ := finalizeRun_eq_some hfin
    cases place with
    | none => cases hplace
    | some next =>
        cases hplace
        exact .inr ⟨earlier, by rw [ActiveCall.place, hrun], finalizeStep_status hnext hpc⟩
  · obtain ⟨_, _, _, _, _, _, _, rfl⟩ := bodyStep_eq_some hbody
    exact .inr ⟨pc, hplace, hpc⟩
  · rw [ActiveCall.place, haside.runCall] at hplace
    exact .inr ⟨pc, hplace, hpc⟩

-- Where a status that ends the call comes from.
theorem step_ending {l : Label} (hstep : w.step l = some v) {s : Status} (hs : s ∈ v.ending) :
    s ∈ w.ending ∨ (∃ i, l = .resume i ∧ (s = .finished ∨ w.stage.failsOn i = true)) ∨
      ∃ k, l = .thread k ∧ w.finalized = .unused ∧ w.threads[k]? = some (.fsLostFinalize (.once s)) := by
  obtain hpending | ⟨pc, hplace, hpc⟩ | ⟨body, hbody, hstatus⟩ := mem_ending.mp hs
  · obtain hearlier | hexit := step_pending hstep hpending
    · exact .inl (mem_ending.mpr (.inl hearlier))
    · exact .inr (.inl hexit)
  · obtain hearlier | hearlier := step_place hstep hplace hpc
    · exact .inl (mem_ending.mpr (.inl hearlier))
    · exact .inl (mem_ending.mpr (.inr (.inl hearlier)))
  · by_cases hl : ∃ o, l = .body o
    · obtain ⟨o, rfl⟩ := hl
      obtain ⟨earlier, hearlier, hsame⟩ := running_of_bodyStep hstep hbody
      exact .inl (mem_ending.mpr (.inr (.inr ⟨earlier, hearlier, hsame.trans hstatus⟩)))
    · obtain hsame | ⟨t, hunused, hstarted, hstarter⟩ := step_starter (fun o ho => hl ⟨o, ho⟩) hstep
      · exact .inl (mem_ending.mpr (.inr (.inr ⟨body, hsame.symm.trans hbody, hstatus⟩)))
      · rw [hstarted] at hbody
        cases hbody
        cases hstatus
        cases hstarter with
        | runCall hplace => exact .inl (mem_ending.mpr (.inr (.inl ⟨_, hplace, rfl⟩)))
        | fsLost k hthread => exact .inr (.inr ⟨k, rfl, hunused, hthread⟩)

-- A request is past its checks from the start, or stays as it is.
theorem threadStep_passed {k : Nat} (hstep : w.threadStep k = some v) (hv : v.requested = true) :
    w.requested = true := by
  obtain ⟨old, u, next, hold, hadvances, rfl⟩ := threadStep_eq_some hstep
  have hpassed : next.passed = true → old.passed = true := by
    cases hadvances <;> simp [Thread.passed]
  obtain ⟨t, ht, hpass⟩ := List.any_eq_true.mp hv
  rcases List.mem_or_eq_of_mem_set ht with ht | rfl
  · rw [hadvances.threads] at ht
    exact List.any_eq_true.mpr ⟨t, ht, hpass⟩
  · exact List.any_eq_true.mpr ⟨old, List.mem_of_getElem? hold, hpassed hpass⟩

theorem step_requested {l : Label} (hstep : w.step l = some v) (hv : v.requested = true) :
    w.requested = true ∨ ∃ auth passed, l = .forceHangup auth ∧
      forceHangupCheck auth (some w.row) = .ok passed ∧ v = w.spawn (.hangup passed.1 passed.2) := by
  cases l with
  | resume i =>
      obtain ⟨_, _, _, _, _, _, _, rfl⟩ := resumeRun_eq_some hstep
      exact .inl hv
  | exec now ok =>
      obtain ⟨_, _, ⟨_, _, rfl⟩ | ⟨_, _, _, rfl⟩⟩ := execRun_eq_some hstep <;> exact .inl hv
  | finalize =>
      obtain ⟨_, _, rfl, _⟩ := finalizeRun_starts hstep
      exact .inl hv
  | body o =>
      obtain ⟨_, _, _, _, _, _, _, rfl⟩ := bodyStep_eq_some hstep
      exact .inl hv
  | event e =>
      obtain rfl | ⟨_, rfl⟩ := deliver_eq_some hstep <;> exact .inl hv
  | fsLost | shutdown =>
      obtain ⟨t, hspawns, rfl⟩ := request_eq_some (by simp) hstep
      cases hspawns
      exact .inl (by simpa [ActiveCall.requested, ActiveCall.spawn, Thread.passed] using hv)
  | forceHangup auth =>
      obtain ⟨t, hspawns, rfl⟩ := request_eq_some (by simp) hstep
      cases hspawns with
      | rejected e =>
          exact .inl (by simpa [ActiveCall.requested, ActiveCall.spawn, Thread.passed] using hv)
      | hangup hcheck => exact .inr ⟨auth, _, rfl, hcheck, rfl⟩
  | thread k => exact .inl (threadStep_passed hstep hv)

-- What a request relies on.
structure Honoured (w : ActiveCall) : Prop where
  ending : ∀ s ∈ w.ending, s = .finished
  final : .updateCallFinal ∈ w.executed → w.row.status = .finished

theorem Honoured.step_ending (h : Honoured w) (hrequested : w.requested = true) {l : Label}
    (hhonours : Honours w l) (hstep : w.step l = some v) : ∀ s ∈ v.ending, s = .finished := by
  intro s hs
  obtain hold | ⟨i, rfl, hfinished | hfails⟩ | ⟨k, rfl, hunused, hthread⟩ := Callback.step_ending hstep hs
  · exact h.ending s hold
  · exact hfinished
  · simp [Honours, hrequested, hfails] at hhonours
  · simp [Honours, hrequested, hthread, hunused] at hhonours

theorem Honoured.body_final (h : Honoured w) (hrequested : w.requested = true) (hsettling : Settling w)
    (hrest : RestInv w) {o : Outcome} (hhonours : Honours w (.body o)) (hstep : w.bodyStep o = some v) :
    .updateCallFinal ∈ v.executed → v.row.status = .finished := by
  obtain ⟨stmt, body, call, row, next, hrunning, hexec, rfl⟩ := bodyStep_eq_some hstep
  intro hfinal
  rw [bodyStep_executed hstep hrunning, List.mem_append, List.mem_singleton] at hfinal
  obtain hfinal | rfl := hfinal
  · obtain rfl | ⟨rfl, _⟩ := exec_row hexec
    · exact h.final hfinal
    · exact absurd (hsettling.before hrunning hfinal) (Nat.lt_irrefl _)
  · cases o with
    | ok =>
        cases hexec
        have hfinished : body.status = .finished :=
          h.ending _ (mem_ending.mpr (.inr (.inr ⟨_, hrunning, rfl⟩)))
        exact (hrest.running _ hrunning hfinished).2 (hsettling.executed_of_lt hrunning (by decide))
    | fault => simp [Honours, hrequested, hrunning] at hhonours
    | time | config | count => cases hexec

-- A finished row stays: runCall is at rest, and the body has written it.
theorem Honoured.step (h : Honoured w) (hrequested : w.requested = true) (hsettling : Settling w)
    (hrest : RestInv w) {l : Label} (hhonours : Honours w l) (hstep : w.step l = some v) : Honoured v := by
  refine ⟨h.step_ending hrequested hhonours hstep, ?_⟩
  obtain ⟨i, rfl, hresume⟩ | ⟨now, ok, rfl, hexec⟩ | ⟨rfl, hfin⟩ | ⟨o, rfl, hbody⟩ | ⟨_, haside⟩ :=
    step_cases hstep
  · rw [resumeRun_executed hresume]
    obtain ⟨_, _, _, _, _, _, _, rfl⟩ := resumeRun_eq_some hresume
    exact h.final
  · intro hfinal
    rw [execRun_executed hexec] at hfinal
    exact absurd hexec ((hrest.row (h.final hfinal)).no_exec now ok)
  · obtain ⟨_, _, rfl, _⟩ := finalizeRun_starts hfin
    exact h.final
  · exact h.body_final hrequested hsettling hrest hhonours hbody
  · rw [haside.executed, haside.row]
    exact h.final

-- A request finds what it relies on, and keeps it.
theorem honoured_step (h : w.requested = true → Honoured w) (hsettling : Settling w) (hrest : RestInv w)
    {l : Label} (hhonours : Honours w l) (hstep : w.step l = some v) (hv : v.requested = true) :
    Honoured v := by
  obtain hw | ⟨auth, passed, rfl, hcheck, rfl⟩ := step_requested hstep hv
  · exact (h hw).step hw hsettling hrest hhonours hstep
  · simp only [Honours, hcheck, Bool.and_eq_true, decide_eq_true_eq, List.all_eq_true] at hhonours
    exact ⟨hhonours.2, fun hfinal => absurd hfinal hhonours.1.2⟩

end Step

-- A row without a goroutine and without an entry stays as it is.
structure Orphaned (row : CallbackCall) (w : ActiveCall) : Prop where
  row : w.row = row
  inMap : w.inMap = false
  runCall : w.runCall = .script [] .returned
  finalized : w.finalized = .unused
  threads : ∀ t ∈ w.threads, t.passed = true ∨ ∃ response, t = .responded response

theorem Orphaned.step {row : CallbackCall} {w v : ActiveCall} (h : Orphaned row w) {l : Label}
    (hstep : w.step l = some v) : Orphaned row v := by
  have hrest : Rest w := ⟨pending_script h.runCall, by simp [ActiveCall.stage, h.runCall]⟩
  cases l with
  | resume i => exact absurd hstep (hrest.no_resume i)
  | exec now ok => exact absurd hstep (hrest.no_exec now ok)
  | finalize =>
      obtain ⟨_, _, _, _, _, hrun, _⟩ := finalizeRun_eq_some hstep
      rw [h.runCall] at hrun
      cases hrun
  | body o =>
      obtain ⟨_, _, _, _, _, hrunning, _⟩ := bodyStep_eq_some hstep
      rw [h.finalized] at hrunning
      cases hrunning
  | event e =>
      obtain rfl | ⟨_, rfl⟩ := deliver_eq_some hstep
      · exact h
      · exact ⟨h.row, h.inMap, h.runCall, h.finalized, h.threads⟩
  | fsLost | shutdown => simp [ActiveCall.step, h.inMap] at hstep
  | forceHangup auth =>
      obtain ⟨t, hspawns, rfl⟩ := request_eq_some (by simp) hstep
      refine ⟨h.row, h.inMap, h.runCall, h.finalized, fun u hu => ?_⟩
      rcases List.mem_append.mp hu with hu | hu
      · exact h.threads u hu
      · rw [List.mem_singleton.mp hu]
        cases hspawns with
        | rejected e => exact .inr ⟨_, rfl⟩
        | hangup hcheck => exact .inl rfl
  | thread k =>
      obtain ⟨t, u, next, hthread, hadvances, rfl⟩ := threadStep_eq_some hstep
      have hset : next.passed = true →
          ∀ x ∈ (u.setThread k next).threads, x.passed = true ∨ ∃ response, x = .responded response := by
        intro hnext x hx
        rcases List.mem_or_eq_of_mem_set hx with hx | rfl
        · exact h.threads x (hadvances.threads ▸ hx)
        · exact .inl hnext
      have ht := h.threads t (List.mem_of_getElem? hthread)
      cases hadvances with
      | fsLost | finalize | finalized | shutdown | shutdownCancel => simp [Thread.passed] at ht
      | hangup hnext =>
          refine ⟨h.row, h.inMap, h.runCall, h.finalized, hset ?_⟩
          obtain rfl | rfl := hnext <;> rfl
      | hangupBy | hangupCancel | hangupLegs => exact ⟨h.row, h.inMap, h.runCall, h.finalized, hset rfl⟩

theorem orphaned_orphan (row : CallbackCall) : Orphaned row (.orphan row) :=
  ⟨rfl, rfl, rfl, rfl, by simp [ActiveCall.orphan]⟩

theorem orphan_row {row : CallbackCall} {labels : List Label} {w : ActiveCall}
    (hrun : Machine.run ActiveCall.step (.orphan row) labels = some w) : w.row = row := by
  have horphaned : Orphaned row w :=
    Machine.invariant (fun _ _ _ h hstep => Orphaned.step h hstep) (orphaned_orphan row) hrun
  exact horphaned.row

-- In every run whose steps honour the requests, of a call or of a row without
-- one, the row of a call that ForceHangup announced as finished is finished when
-- no goroutine of the call is left.
theorem forceHangup_honoured {start : ActiveCall}
    (hstart : (∃ r hold aGateway bGateway callerID,
        start = .init (callRecord r hold aGateway bGateway callerID)) ∨ ∃ row, start = .orphan row)
    {labels : List Label} {w : ActiveCall}
    (hrun : Machine.run (Machine.restrict Honours ActiveCall.step) start labels = some w)
    {response : ForceHangupResponse} (hresponse : .responded (.ok response) ∈ w.threads)
    (hreturned : w.returned) : w.row.status = .finished := by
  have hrequested : w.requested = true := List.any_eq_true.mpr ⟨_, hresponse, rfl⟩
  obtain ⟨r, hold, a, b, callerID, rfl⟩ | ⟨row, rfl⟩ := hstart
  · let Inv (w : ActiveCall) := Settling w ∧ RestInv w ∧ (w.requested = true → Honoured w)
    have hinv : Inv w := by
      refine Machine.restrict_invariant (P := Inv) ?_ ⟨settling_init _, restInv_init rfl, ?_⟩ hrun
      · rintro w l v ⟨hsettling, hrest, h⟩ hhonours hstep
        exact ⟨hsettling.step hstep, hrest.step hsettling hstep,
          honoured_step h hsettling hrest hhonours hstep⟩
      · intro hnone
        cases hnone
    obtain ⟨hsettling, _, h⟩ := hinv
    refine (h hrequested).final ?_
    rw [(hsettling.returned hreturned).1]
    decide
  · have hnone : Orphaned row w ∧ w.requested = false := by
      refine Machine.restrict_invariant (P := fun w => Orphaned row w ∧ w.requested = false) ?_
        ⟨orphaned_orphan row, rfl⟩ hrun
      rintro w l v ⟨h, hnone⟩ hhonours hstep
      refine ⟨h.step hstep, Bool.eq_false_iff.mpr fun hv => ?_⟩
      obtain hw | ⟨auth, passed, rfl, hcheck, _⟩ := step_requested hstep hv
      · rw [hnone] at hw
        cases hw
      · simp [Honours, hcheck, h.inMap] at hhonours
    rw [hnone.2] at hrequested
    cases hrequested

-- An admin's request, up to its response.
def forcesHangup : List Label := [.forceHangup (some ⟨9, "admin"⟩)] ++ List.replicate 4 (.thread 0)

theorem forceHangup_honoured_hangsUp :
    ∃ w response, Machine.run (Machine.restrict Honours ActiveCall.step)
        (.init (callRecord sampleRequest ⟨2, 60, 120⟩ "gw-a" "gw-b" "4001"))
        (bridges ++ forcesHangup ++ hangsUp) = some w ∧
      .responded (.ok response) ∈ w.threads ∧ w.returned ∧ w.row.status = .finished := by
  refine ⟨_, ⟨"c1", "finished", "Call terminated"⟩, rfl, List.mem_singleton_self _, rfl, ?_⟩
  exact @forceHangup_honoured _ (.inl ⟨sampleRequest, ⟨2, 60, 120⟩, "gw-a", "gw-b", "4001", rfl⟩)
    (bridges ++ forcesHangup ++ hangsUp) _ rfl _ (List.mem_singleton_self _) rfl

-- runCall takes the cancellation of its context.
def cancels : List Label := [.resume .done] ++ List.replicate 6 (.exec 400000000 true) ++ concludes

theorem announced_cancels :
    (∃ w, Machine.run ActiveCall.step (.init (callRecord sampleRequest ⟨2, 60, 120⟩ "gw-a" "gw-b" "4001"))
        (bridges ++ forcesHangup ++ cancels) = some w ∧
      .responded (.ok ⟨"c1", "finished", "Call terminated"⟩) ∈ w.threads ∧ w.returned ∧
      w.row.status = .failed) ∧
    ∃ w, Machine.run ActiveCall.step (.orphan { sampleCall with status := .bridged })
        [.forceHangup (some ⟨9, "admin"⟩), .thread 0, .thread 0] = some w ∧
      .responded (.ok ⟨"c1", "finished", "Call terminated"⟩) ∈ w.threads ∧ w.returned ∧
      w.row.status = .bridged :=
  ⟨⟨_, rfl, List.mem_singleton_self _, rfl, rfl⟩, _, rfl, List.mem_singleton_self _, rfl, rfl⟩

end Bos3000.Callback
