import Bos3000.Callback.ActiveCall

-- What each kind of step of an active call does.
namespace Bos3000.Callback

section Inversion

variable {w v : ActiveCall}

theorem take_eq (w : ActiveCall) (i : Input) : ∃ eventCh, w.take i = { w with eventCh } := by
  cases i <;> exact ⟨_, rfl⟩

theorem resumeRun_eq_some {i : Input} (h : w.resumeRun i = some v) :
    ∃ stage script next, w.runCall = .script [] stage ∧ resume w.call stage i = some (script, next) ∧
      w.offers i = true ∧ ∃ eventCh,
      v = { w with eventCh, runCall := .script script next, log := w.log ++ [.run (.input i)] } := by
  unfold ActiveCall.resumeRun at h
  split at h
  · rename_i stage hrun
    split at h
    · rename_i script next hresume
      split at h
      · rename_i hoffers
        cases h
        obtain ⟨eventCh, htake⟩ := take_eq w i
        exact ⟨stage, script, next, hrun, hresume, hoffers, eventCh, by rw [htake]⟩
      · cases h
    · cases h
  · cases h

theorem execRun_eq_some {now : Time} {ok : Bool} (h : w.execRun now ok = some v) :
    ∃ todo stage,
      (∃ s, w.runCall = .script (.finalizeCall s :: todo) stage ∧
        v = { w with runCall := .finalizing (.load s) todo stage,
                     log := w.log ++ [.run (.act (.finalizeCall s))] }) ∨
      ∃ a, w.runCall = .script (a :: todo) stage ∧ (∀ s, a ≠ .finalizeCall s) ∧
        v = { w with call := a.onCall now w.call,
                     row := if ok then a.onRow w.row else w.row,
                     runCall := .script todo stage,
                     log := w.log ++ [.run (.act a)] } := by
  unfold ActiveCall.execRun at h
  split at h
  · rename_i s todo stage hrun
    cases h
    exact ⟨todo, stage, .inl ⟨s, hrun, rfl⟩⟩
  · rename_i a todo stage hother hrun
    cases h
    refine ⟨todo, stage, .inr ⟨a, hrun, ?_, rfl⟩⟩
    rintro s rfl
    exact hother s rfl
  · cases h

-- finalizeCall starts the body at most, and returns once it is over.
theorem finalizeStep_eq_some {pc : FinPC} {place : Option FinPC}
    (h : w.finalizeStep pc = some (v, place)) :
    (v = w ∧ ((∃ s, pc = .load s ∧ w.inMap = true ∧ place = some (.once s)) ∨
      (place = none ∧ ((∃ s, pc = .load s) ∧ w.inMap = false ∨ w.finalized = .done)))) ∨
    ∃ s, pc = .once s ∧ w.finalized = .unused ∧ place = some .wait ∧
      v = { w with finalized := .running (Body.start s) } := by
  cases pc with
  | load s =>
      cases h
      cases hmap : w.inMap <;> simp
  | once s =>
      simp only [ActiveCall.finalizeStep] at h
      split at h <;> cases h <;> simp [*]
  | wait =>
      simp only [ActiveCall.finalizeStep] at h
      split at h <;> cases h
      simp [*]

theorem bodyStep_eq_some {o : Outcome} (h : w.bodyStep o = some v) :
    ∃ stmt body call row next, w.finalized = .running { body with todo := stmt :: body.todo } ∧
      stmt.exec w.call w.row body o = some (call, row, next) ∧
      v = { w with call, row,
                   finalized := if body.todo = [] then .done else .running next,
                   inMap := w.inMap && stmt ≠ .delete,
                   log := w.log ++ [.body stmt o] } := by
  unfold ActiveCall.bodyStep at h
  split at h
  · rename_i stmt todo status now slots hf
    obtain ⟨⟨call, row, next⟩, hexec, rfl⟩ := Option.map_eq_some_iff.mp h
    exact ⟨stmt, ⟨todo, status, now, slots⟩, call, row, next, hf, hexec, rfl⟩
  · cases h

-- runCall executes no statement of the body.
theorem resumeRun_executed {i : Input} (h : w.resumeRun i = some v) : v.executed = w.executed := by
  obtain ⟨_, _, _, _, _, _, _, rfl⟩ := resumeRun_eq_some h
  simp [ActiveCall.executed, Effect.stmt?]

theorem execRun_executed {now : Time} {ok : Bool} (h : w.execRun now ok = some v) :
    v.executed = w.executed := by
  obtain ⟨_, _, ⟨_, _, rfl⟩ | ⟨_, _, _, rfl⟩⟩ := execRun_eq_some h <;>
    simp [ActiveCall.executed, Effect.stmt?]

theorem bodyStep_executed {o : Outcome} {stmt : Stmt} {body : Body} (h : w.bodyStep o = some v)
    (hrunning : w.finalized = .running { body with todo := stmt :: body.todo }) :
    v.executed = w.executed ++ [stmt] := by
  obtain ⟨_, _, _, _, _, hother, _, rfl⟩ := bodyStep_eq_some h
  simp only [hrunning, Once.running.injEq, Body.mk.injEq, List.cons.injEq] at hother
  obtain ⟨⟨rfl, _⟩, _⟩ := hother
  simp [ActiveCall.executed, Effect.stmt?]

-- The body starts at most.
def Once.Starts (old new : Once) : Prop :=
  new = old ∨ old = .unused ∧ ∃ s, new = .running (Body.start s)

theorem finalizeStep_starts {pc : FinPC} {place : Option FinPC}
    (h : w.finalizeStep pc = some (v, place)) :
    ∃ finalized, v = { w with finalized } ∧ w.finalized.Starts finalized := by
  obtain ⟨rfl, _⟩ | ⟨s, _, hunused, _, rfl⟩ := finalizeStep_eq_some h
  · exact ⟨_, rfl, .inl rfl⟩
  · exact ⟨_, rfl, .inr ⟨hunused, s, rfl⟩⟩

theorem finalizeRun_eq_some (h : w.finalizeRun = some v) :
    ∃ pc todo stage u place, w.runCall = .finalizing pc todo stage ∧
      w.finalizeStep pc = some (u, place) ∧
      v = { u with runCall := match place with
        | some next => .finalizing next todo stage
        | none => .script todo stage } := by
  unfold ActiveCall.finalizeRun at h
  split at h
  · rename_i pc todo stage hrun
    obtain ⟨⟨u, place⟩, hstep, rfl⟩ := Option.map_eq_some_iff.mp h
    exact ⟨pc, todo, stage, u, place, hrun, hstep, rfl⟩
  · cases h

-- finalizeCall moves runCall on, and starts the body at most.
theorem finalizeRun_starts (h : w.finalizeRun = some v) :
    ∃ finalized runCall, v = { w with finalized, runCall } ∧ w.finalized.Starts finalized := by
  obtain ⟨_, _, _, _, _, _, hplace, rfl⟩ := finalizeRun_eq_some h
  obtain ⟨finalized, rfl, hstarts⟩ := finalizeStep_starts hplace
  exact ⟨finalized, _, rfl, hstarts⟩

theorem deliver_eq_some {e : CallEvent} (h : w.deliver e = some v) :
    v = w ∨ e.callID = w.call.callID ∧ v = { w with eventCh := w.eventCh ++ [e] } := by
  unfold ActiveCall.deliver at h
  split at h
  · cases h
  · rename_i hcallID
    split at h <;> cases h
    · exact .inr ⟨by simpa using hcallID, rfl⟩
    · exact .inl rfl

-- The goroutine that serves a request to the call.
inductive Spawns (w : ActiveCall) : Label → Thread → Prop
  | fsLost : Spawns w .fsLost .fsLost
  | shutdown : Spawns w .shutdown .shutdown
  | rejected {auth : Option AuthData} (e : APIError) : Spawns w (.forceHangup auth) (.responded (.error e))
  | hangup {auth : Option AuthData} {role : String} {row : CallbackCall}
      (hcheck : forceHangupCheck auth (some w.row) = .ok (role, row)) :
      Spawns w (.forceHangup auth) (.hangup role row)

theorem request_eq_some {l : Label} (hl : l = .fsLost ∨ l = .shutdown ∨ ∃ auth, l = .forceHangup auth)
    (h : w.step l = some v) : ∃ t, Spawns w l t ∧ v = w.spawn t := by
  obtain rfl | rfl | ⟨auth, rfl⟩ := hl
  · simp only [ActiveCall.step] at h
    split at h <;> cases h
    exact ⟨_, .fsLost, rfl⟩
  · simp only [ActiveCall.step] at h
    split at h <;> cases h
    exact ⟨_, .shutdown, rfl⟩
  · simp only [ActiveCall.step] at h
    split at h <;> cases h
    · exact ⟨_, .rejected _, rfl⟩
    · exact ⟨_, .hangup (by assumption), rfl⟩

-- What the next statement of a goroutine does, and where it leaves the goroutine.
inductive Advances (w : ActiveCall) : Thread → ActiveCall → Thread → Prop
  | fsLost : Advances w .fsLost (w.assign (.failureReason "fs_connection_lost")) (.fsLostFinalize (.load .failed))
  | finalize {pc next : FinPC} {u : ActiveCall} (hplace : w.finalizeStep pc = some (u, some next)) :
      Advances w (.fsLostFinalize pc) u (.fsLostFinalize next)
  | finalized {pc : FinPC} {u : ActiveCall} (hplace : w.finalizeStep pc = some (u, none)) :
      Advances w (.fsLostFinalize pc) u .finished
  | shutdown : Advances w .shutdown (w.assign (.failureReason "service_shutdown")) .shutdownCancel
  | shutdownCancel : Advances w .shutdownCancel { w with cancelled := true } .finished
  | hangup {role : String} {row : CallbackCall} {next : Thread}
      (hnext : next = .hangupBy role row ∨ next = .hangupLegs row) : Advances w (.hangup role row) w next
  | hangupBy (role : String) (row : CallbackCall) :
      Advances w (.hangupBy role row) (w.assign (.hangupBy role)) (.hangupCancel row)
  | hangupCancel (row : CallbackCall) :
      Advances w (.hangupCancel row) { w with cancelled := true } (.hangupLegs row)
  | hangupLegs (row : CallbackCall) :
      Advances w (.hangupLegs row)
        { w with log := w.log ++ (row.afsUUID.toList ++ row.bfsUUID.toList).map fun uuid =>
                   Effect.hangupCall uuid "NORMAL_CLEARING" }
        (.responded (.ok ⟨row.callID, "finished", "Call terminated"⟩))

theorem threadStep_eq_some {k : Nat} (h : w.threadStep k = some v) :
    ∃ t u next, w.threads[k]? = some t ∧ Advances w t u next ∧ v = u.setThread k next := by
  cases hthread : w.threads[k]? with
  | none => simp [ActiveCall.threadStep, hthread] at h
  | some t =>
      refine ⟨t, ?_⟩
      cases t with simp only [ActiveCall.threadStep, hthread] at h
      | fsLostFinalize pc =>
          obtain ⟨⟨u, place⟩, hplace, rfl⟩ := Option.map_eq_some_iff.mp h
          cases place with
          | some next => exact ⟨u, _, rfl, .finalize hplace, rfl⟩
          | none => exact ⟨u, _, rfl, .finalized hplace, rfl⟩
      | hangup role row =>
          cases h
          exact ⟨w, _, rfl, .hangup (ite_eq_or_eq ..), rfl⟩
      | responded | finished => cases h
      | fsLost | shutdown | shutdownCancel | hangupBy | hangupCancel | hangupLegs =>
          cases h
          exact ⟨_, _, rfl, by constructor, rfl⟩

theorem Advances.threads {t next : Thread} {u : ActiveCall} (h : Advances w t u next) :
    u.threads = w.threads := by
  cases h with
  | finalize hplace | finalized hplace =>
      obtain ⟨_, rfl, _⟩ := finalizeStep_starts hplace
      rfl
  | fsLost | shutdown | shutdownCancel | hangup | hangupBy | hangupCancel | hangupLegs => rfl

end Inversion

-- What the steps outside runCall and the body change: two fields of the record,
-- the context, the channel, the goroutines, and commands that hang up legs.
structure Aside (w v : ActiveCall) : Prop where
  call : ∃ hangupBy failureReason, v.call = { w.call with hangupBy, failureReason }
  row : v.row = w.row
  inMap : v.inMap = w.inMap
  runCall : v.runCall = w.runCall
  finalized : w.finalized.Starts v.finalized
  log : ∃ commands : List (String × String),
    v.log = w.log ++ commands.map fun (uuid, cause) => .hangupCall uuid cause

theorem Aside.refl (w : ActiveCall) : Aside w w :=
  ⟨⟨_, _, rfl⟩, rfl, rfl, rfl, .inl rfl, ⟨[], by simp⟩⟩

theorem Aside.executed {w v : ActiveCall} (h : Aside w v) : v.executed = w.executed := by
  obtain ⟨commands, hlog⟩ := h.log
  simp [ActiveCall.executed, hlog, List.filterMap_map, Function.comp_def, Effect.stmt?]

theorem Aside.history {w v : ActiveCall} (h : Aside w v) : v.history = w.history := by
  obtain ⟨commands, hlog⟩ := h.log
  simp [ActiveCall.history, hlog, List.filterMap_map, Function.comp_def, Effect.moment?]

theorem threadStep_aside {w v : ActiveCall} {k : Nat} (h : w.threadStep k = some v) : Aside w v := by
  obtain ⟨t, u, next, _, hadvances, rfl⟩ := threadStep_eq_some h
  cases hadvances with
  | finalize hplace | finalized hplace =>
      obtain ⟨finalized, rfl, hstarts⟩ := finalizeStep_starts hplace
      exact ⟨⟨_, _, rfl⟩, rfl, rfl, rfl, hstarts, ⟨[], by simp [ActiveCall.setThread]⟩⟩
  | hangupLegs row =>
      refine ⟨⟨_, _, rfl⟩, rfl, rfl, rfl, .inl rfl,
        ⟨(row.afsUUID.toList ++ row.bfsUUID.toList).map fun uuid => (uuid, "NORMAL_CLEARING"), ?_⟩⟩
      simp [ActiveCall.setThread, Function.comp_def]
  | fsLost | shutdown | shutdownCancel | hangup | hangupBy | hangupCancel =>
      exact ⟨⟨_, _, rfl⟩, rfl, rfl, rfl, .inl rfl, ⟨[], by simp [ActiveCall.setThread, ActiveCall.assign]⟩⟩

-- A step is one of runCall, one of the body, or an aside.
theorem step_cases {w v : ActiveCall} {l : Label} (h : w.step l = some v) :
    (∃ i, l = .resume i ∧ w.resumeRun i = some v) ∨
    (∃ now ok, l = .exec now ok ∧ w.execRun now ok = some v) ∨
    (l = .finalize ∧ w.finalizeRun = some v) ∨
    (∃ o, l = .body o ∧ w.bodyStep o = some v) ∨
    (∀ o, l ≠ .body o) ∧ Aside w v := by
  cases l with
  | resume i => exact .inl ⟨i, rfl, h⟩
  | exec now ok => exact .inr (.inl ⟨now, ok, rfl, h⟩)
  | finalize => exact .inr (.inr (.inl ⟨rfl, h⟩))
  | body o => exact .inr (.inr (.inr (.inl ⟨o, rfl, h⟩)))
  | event e =>
      obtain rfl | ⟨_, rfl⟩ := deliver_eq_some h
      · exact .inr (.inr (.inr (.inr ⟨by simp, .refl v⟩)))
      · exact .inr (.inr (.inr (.inr ⟨by simp, ⟨_, _, rfl⟩, rfl, rfl, rfl, .inl rfl, ⟨[], by simp⟩⟩)))
  | fsLost | shutdown | forceHangup auth =>
      obtain ⟨t, _, rfl⟩ := request_eq_some (by simp) h
      refine .inr (.inr (.inr (.inr ⟨by simp, ⟨_, _, rfl⟩, rfl, rfl, rfl, .inl rfl, ⟨[], ?_⟩⟩)))
      simp [ActiveCall.spawn]
  | thread k => exact .inr (.inr (.inr (.inr ⟨by simp, threadStep_aside h⟩)))

-- What no statement of runCall writes, and no hangup, is kept outside the body.
theorem step_keeps {α : Type} {f : CallbackCall → α}
    (honCall : ∀ now call a, f (Action.onCall now call a) = f call)
    (honRow : ∀ row a, f (Action.onRow row a) = f row)
    (hhangup : ∀ call hangupBy failureReason, f { call with hangupBy, failureReason } = f call)
    {w v : ActiveCall} {l : Label} (hl : ∀ o, l ≠ .body o) (h : w.step l = some v) :
    f v.call = f w.call ∧ f v.row = f w.row := by
  obtain ⟨i, rfl, hresume⟩ | ⟨now, ok, rfl, hexec⟩ | ⟨rfl, hfin⟩ | ⟨o, rfl, _⟩ | ⟨_, haside⟩ :=
    step_cases h
  · obtain ⟨_, _, _, _, _, _, _, rfl⟩ := resumeRun_eq_some hresume
    exact ⟨rfl, rfl⟩
  · obtain ⟨_, _, ⟨_, _, rfl⟩ | ⟨a, _, _, rfl⟩⟩ := execRun_eq_some hexec
    · exact ⟨rfl, rfl⟩
    · cases ok with
      | true => exact ⟨honCall now w.call a, honRow w.row a⟩
      | false => exact ⟨honCall now w.call a, rfl⟩
  · obtain ⟨_, _, rfl, _⟩ := finalizeRun_starts hfin
    exact ⟨rfl, rfl⟩
  · exact absurd rfl (hl o)
  · obtain ⟨_, _, hcall⟩ := haside.call
    rw [hcall, haside.row]
    exact ⟨hhangup .., rfl⟩

-- Outside the body a step starts the body at most.
theorem step_starts {w v : ActiveCall} {l : Label} (hl : ∀ o, l ≠ .body o) (h : w.step l = some v) :
    w.finalized.Starts v.finalized := by
  obtain ⟨i, _, hresume⟩ | ⟨now, ok, _, hexec⟩ | ⟨_, hfin⟩ | ⟨o, hbody, _⟩ | ⟨_, haside⟩ :=
    step_cases h
  · obtain ⟨_, _, _, _, _, _, _, rfl⟩ := resumeRun_eq_some hresume
    exact .inl rfl
  · obtain ⟨_, _, ⟨_, _, rfl⟩ | ⟨_, _, _, rfl⟩⟩ := execRun_eq_some hexec <;> exact .inl rfl
  · obtain ⟨_, _, rfl, hstarts⟩ := finalizeRun_starts hfin
    exact hstarts
  · exact absurd hbody (hl o)
  · exact haside.finalized

-- Outside the body no statement of it is executed.
theorem step_executed {w v : ActiveCall} {l : Label} (hl : ∀ o, l ≠ .body o) (h : w.step l = some v) :
    v.executed = w.executed := by
  obtain ⟨i, rfl, hresume⟩ | ⟨now, ok, rfl, hexec⟩ | ⟨rfl, hfin⟩ | ⟨o, rfl, _⟩ | ⟨_, haside⟩ :=
    step_cases h
  · exact resumeRun_executed hresume
  · exact execRun_executed hexec
  · obtain ⟨_, _, rfl, _⟩ := finalizeRun_starts hfin
    rfl
  · exact absurd rfl (hl o)
  · exact haside.executed

end Bos3000.Callback
