import Bos3000.Lib.Ranking
import Bos3000.Callback.Frame

-- Every call ends: what its goroutines have left to do becomes less with each of
-- their steps, and while they have not all come to their end one of them can go on.
namespace Bos3000.Callback

-- The steps of the call's goroutines. Events and requests come from outside.
def Label.own : Label → Bool
  | .resume _ | .exec .. | .finalize | .body _ | .thread _ => true
  | .event _ | .fsLost | .shutdown | .forceHangup _ => false

-- A call of finalizeCall is a statement and the places in it.
def Action.work : Action → Nat
  | .finalizeCall _ => 4
  | _ => 1

def FinPC.work : FinPC → Nat
  | .load _ => 3
  | .once _ => 2
  | .wait => 1

-- The most that runCall does from a stage on, the events it takes not counted.
def Stage.work : Stage → Nat
  | .start => 80
  | .originatingA => 70
  | .waitingA => 60
  | .originatingB => 50
  | .bridging _ => 30
  | .loop _ => 20
  | .returned => 0

def scriptWork (todo : List Action) : Nat := (todo.map Action.work).sum

def Run.work : Run → Nat
  | .script todo stage => scriptWork todo + stage.work
  | .finalizing pc todo stage => pc.work + scriptWork todo + stage.work

def Once.work : Once → Nat
  | .unused => finalizeBody.length + 1
  | .running body => body.todo.length
  | .done => 0

def Thread.work : Thread → Nat
  | .fsLost => 4
  | .fsLostFinalize pc => pc.work
  | .shutdown => 2
  | .shutdownCancel => 1
  | .hangup .. => 4
  | .hangupBy .. => 3
  | .hangupCancel _ => 2
  | .hangupLegs _ => 1
  | .responded _ | .finished => 0

def threadsWork (threads : List Thread) : Nat := (threads.map Thread.work).sum

-- An event that waits is worth a turn of the loop.
def ActiveCall.work (w : ActiveCall) : Nat :=
  w.runCall.work + 20 * w.eventCh.length + w.finalized.work + threadsWork w.threads

theorem init_work (call : CallbackCall) : (ActiveCall.init call).work = 94 := rfl

def Thread.over : Thread → Bool
  | .responded _ | .finished => true
  | _ => false

-- runCall has returned, the body has run, and so have all other goroutines.
structure ActiveCall.Over (w : ActiveCall) : Prop where
  runCall : w.returned
  finalized : w.finalized = .done
  threads : ∀ t ∈ w.threads, t.over = true

section Work

variable {w v : ActiveCall}

theorem resume_work {call : CallbackCall} {stage next : Stage} {i : Input} {script : List Action}
    (h : resume call stage i = some (script, next)) :
    scriptWork script + next.work < stage.work + 20 * i.event?.toList.length := by
  revert h
  fun_cases resume call stage i <;> intro h <;> cases h
  case case14 e _ _ _ hangup | case15 e _ _ _ hangup _ =>
      simp only [hangup]
      cases e.leg <;> simp [scriptWork, Action.work, Stage.work, Input.event?, stopRecording]
  case case17 bridged | case18 bridged =>
      cases bridged <;> simp [scriptWork, Action.work, Stage.work, Input.event?, stopRecording]
  all_goals simp [scriptWork, Action.work, Stage.work, Input.event?, startRecording]

-- An event that is taken does not wait any more.
theorem take_length {i : Input} (hoffers : w.offers i = true) :
    (w.take i).eventCh.length + i.event?.toList.length = w.eventCh.length := by
  cases i with
  | event e =>
      have hhead : w.eventCh.head? = some e := of_decide_eq_true hoffers
      obtain ⟨rest, hrest⟩ := List.head?_eq_some_iff.mp hhead
      simp [ActiveCall.take, Input.event?, hrest]
  | load | originated | bridged | timer | done => rfl

theorem resumeRun_work {i : Input} (h : w.resumeRun i = some v) : v.work < w.work := by
  unfold ActiveCall.resumeRun at h
  split at h
  · rename_i stage hrun
    split at h
    · rename_i script next hresume
      split at h
      · rename_i hoffers
        cases h
        obtain ⟨eventCh, htake⟩ := take_eq w i
        have hlength := take_length hoffers
        have hwork := resume_work hresume
        rw [htake] at hlength ⊢
        simp only [ActiveCall.work, hrun, Run.work, scriptWork, List.map_nil, List.sum_nil] at hlength hwork ⊢
        omega
      · cases h
    · cases h
  · cases h

theorem execRun_work {now : Time} {ok : Bool} (h : w.execRun now ok = some v) : v.work < w.work := by
  obtain ⟨todo, stage, ⟨s, hrun, rfl⟩ | ⟨a, hrun, hother, rfl⟩⟩ := execRun_eq_some h
  · simp only [ActiveCall.work, hrun, Run.work, scriptWork, List.map_cons, List.sum_cons, Action.work, FinPC.work]
    omega
  · have hone : a.work = 1 := by
      cases a with
      | finalizeCall s => exact absurd rfl (hother s)
      | _ => rfl
    simp only [ActiveCall.work, hrun, Run.work, scriptWork, List.map_cons, List.sum_cons, hone]
    omega

-- The place of a goroutine in finalizeCall, with nothing left where it returns.
def placeWork : Option FinPC → Nat
  | some pc => pc.work
  | none => 0

theorem finalizeStep_work {pc : FinPC} {place : Option FinPC} (h : w.finalizeStep pc = some (v, place)) :
    ∃ finalized, v = { w with finalized } ∧ finalized.work + placeWork place < w.finalized.work + pc.work := by
  obtain ⟨rfl, ⟨s, rfl, _, rfl⟩ | ⟨rfl, _⟩⟩ | ⟨s, rfl, hunused, rfl, rfl⟩ := finalizeStep_eq_some h
  · exact ⟨_, rfl, by simp [placeWork, FinPC.work]⟩
  · refine ⟨_, rfl, ?_⟩
    cases pc <;> simp [placeWork, FinPC.work]
  · exact ⟨_, rfl, by simp [placeWork, FinPC.work, hunused, Once.work, Body.start]⟩

theorem finalizeRun_work (h : w.finalizeRun = some v) : v.work < w.work := by
  obtain ⟨pc, todo, stage, u, place, hrun, hplace, rfl⟩ := finalizeRun_eq_some h
  obtain ⟨finalized, rfl, hwork⟩ := finalizeStep_work hplace
  cases place with
  | some next =>
      simp only [ActiveCall.work, hrun, Run.work, placeWork] at hwork ⊢
      omega
  | none =>
      simp only [ActiveCall.work, hrun, Run.work, placeWork] at hwork ⊢
      omega

theorem bodyStep_work {o : Outcome} (h : w.bodyStep o = some v) : v.work < w.work := by
  obtain ⟨stmt, body, call, row, next, hrunning, hexec, rfl⟩ := bodyStep_eq_some h
  have hnext := exec_todo hexec
  have hwork : (if body.todo = [] then Once.done else Once.running next).work = body.todo.length := by
    by_cases hnil : body.todo = []
    · rw [if_pos hnil, hnil]
      rfl
    · rw [if_neg hnil, Once.work, hnext]
  simp only [ActiveCall.work, hrunning, hwork]
  simp only [Once.work, List.length_cons]
  omega

-- What a statement of another goroutine leaves, with the place it comes to.
theorem Advances.work {t next : Thread} (h : Advances w t v next) :
    v.runCall = w.runCall ∧ v.eventCh = w.eventCh ∧ v.threads = w.threads ∧
      v.finalized.work + next.work < w.finalized.work + t.work := by
  cases h with
  | finalize hplace | finalized hplace =>
      obtain ⟨finalized, rfl, hwork⟩ := finalizeStep_work hplace
      exact ⟨rfl, rfl, rfl, hwork⟩
  | hangup hnext =>
      rcases hnext with rfl | rfl <;> exact ⟨rfl, rfl, rfl, by simp [Thread.work]⟩
  | fsLost | shutdown | shutdownCancel | hangupBy | hangupCancel | hangupLegs =>
      exact ⟨rfl, rfl, rfl, by simp [Thread.work, FinPC.work, ActiveCall.assign]⟩

theorem threadStep_work {k : Nat} (h : w.threadStep k = some v) : v.work < w.work := by
  obtain ⟨t, u, next, hthread, hadvances, rfl⟩ := threadStep_eq_some h
  obtain ⟨hrun, hevents, hthreads, hwork⟩ := hadvances.work
  have hset := @Machine.sum_set _ Thread.work w.threads k t next hthread
  simp only [ActiveCall.work, ActiveCall.setThread, threadsWork, hrun, hevents, hthreads]
  omega

theorem own_work {l : Label} (hown : l.own = true) (h : w.step l = some v) : v.work < w.work := by
  cases l with
  | resume i => exact resumeRun_work h
  | exec now ok => exact execRun_work h
  | finalize => exact finalizeRun_work h
  | body o => exact bodyStep_work h
  | thread k => exact threadStep_work h
  | event | fsLost | shutdown | forceHangup => cases hown

theorem threadsWork_concat (threads : List Thread) (t : Thread) :
    threadsWork (threads ++ [t]) = threadsWork threads + t.work := by
  simp [threadsWork]

theorem outside_work {l : Label} (hown : l.own = false) (h : w.step l = some v) : v.work ≤ w.work + 20 := by
  cases l with
  | event e =>
      obtain rfl | ⟨_, rfl⟩ := deliver_eq_some h
      · omega
      · simp only [ActiveCall.work, List.length_append, List.length_singleton]
        omega
  | fsLost | shutdown | forceHangup auth =>
      obtain ⟨t, hspawns, rfl⟩ := request_eq_some (by simp) h
      have hle : t.work ≤ 4 := by
        cases hspawns <;> simp [Thread.work]
      simp only [ActiveCall.work, ActiveCall.spawn, threadsWork_concat]
      omega
  | resume | exec | finalize | body | thread => cases hown

end Work

-- A goroutine waits in Do for a body that has started.
structure AwaitsBody (w : ActiveCall) : Prop where
  runCall : ∀ todo stage, w.runCall = .finalizing .wait todo stage → w.finalized ≠ .unused
  threads : .fsLostFinalize .wait ∈ w.threads → w.finalized ≠ .unused

section AwaitsBody

variable {w v : ActiveCall}

theorem Once.Starts.ne_unused {old new : Once} (h : old.Starts new) (hold : old ≠ .unused) : new ≠ .unused := by
  obtain rfl | ⟨hunused, _⟩ := h
  · exact hold
  · exact absurd hunused hold

theorem finalizeStep_waits {pc : FinPC} (h : w.finalizeStep pc = some (v, some .wait)) : v.finalized ≠ .unused := by
  obtain ⟨_, ⟨s, _, _, hplace⟩ | ⟨hplace, _⟩⟩ | ⟨s, _, _, _, rfl⟩ := finalizeStep_eq_some h
  · cases hplace
  · cases hplace
  · exact Once.noConfusion

theorem awaitsBody_init (call : CallbackCall) : AwaitsBody (.init call) :=
  ⟨fun _ _ h => (by cases h), fun h => (by cases h)⟩

theorem AwaitsBody.starts (h : AwaitsBody w) (hstarts : w.finalized.Starts v.finalized)
    (hrun : ∀ todo stage, v.runCall = .finalizing .wait todo stage → w.runCall = .finalizing .wait todo stage)
    (hthreads : .fsLostFinalize .wait ∈ v.threads → .fsLostFinalize .wait ∈ w.threads) : AwaitsBody v :=
  ⟨fun todo stage hv => hstarts.ne_unused (h.runCall todo stage (hrun todo stage hv)),
    fun hv => hstarts.ne_unused (h.threads (hthreads hv))⟩

theorem AwaitsBody.thread (h : AwaitsBody w) {k : Nat} (hstep : w.threadStep k = some v) : AwaitsBody v := by
  have haside := threadStep_aside hstep
  refine ⟨fun todo stage hv => haside.finalized.ne_unused (h.runCall todo stage (haside.runCall ▸ hv)),
    fun hv => ?_⟩
  obtain ⟨t, u, next, hthread, hadvances, rfl⟩ := threadStep_eq_some hstep
  rw [ActiveCall.setThread, hadvances.threads] at hv
  obtain hold | hnew := List.mem_or_eq_of_mem_set hv
  · exact haside.finalized.ne_unused (h.threads hold)
  · subst hnew
    cases hadvances with
    | finalize hplace =>
        have hstarted := finalizeStep_waits hplace
        exact hstarted
    | hangup hnext => rcases hnext with hnext | hnext <;> cases hnext

theorem AwaitsBody.step (h : AwaitsBody w) {l : Label} (hstep : w.step l = some v) : AwaitsBody v := by
  cases l with
  | resume i =>
      obtain ⟨stage, script, next, _, _, _, eventCh, rfl⟩ := resumeRun_eq_some hstep
      exact h.starts (.inl rfl) (fun _ _ hv => by cases hv) id
  | exec now ok =>
      obtain ⟨todo, stage, ⟨s, hrun, rfl⟩ | ⟨a, hrun, hother, rfl⟩⟩ := execRun_eq_some hstep <;>
        exact h.starts (.inl rfl) (fun _ _ hv => by cases hv) id
  | finalize =>
      obtain ⟨pc, todo, stage, u, place, hrun, hplace, rfl⟩ := finalizeRun_eq_some hstep
      obtain ⟨finalized, rfl, hstarts⟩ := finalizeStep_starts hplace
      refine ⟨fun _ _ hv => ?_, fun hv => hstarts.ne_unused (h.threads hv)⟩
      cases place with
      | none => cases hv
      | some next =>
          cases hv
          have hstarted := finalizeStep_waits hplace
          exact hstarted
  | body o =>
      obtain ⟨stmt, body, call, row, next, hrunning, _, rfl⟩ := bodyStep_eq_some hstep
      have hne : (if body.todo = [] then Once.done else Once.running next) ≠ .unused := by
        split <;> exact Once.noConfusion
      exact ⟨fun _ _ _ => hne, fun _ => hne⟩
  | event e =>
      obtain rfl | ⟨_, rfl⟩ := deliver_eq_some hstep
      · exact h
      · exact h.starts (.inl rfl) (fun _ _ => id) id
  | fsLost | shutdown | forceHangup auth =>
      obtain ⟨t, hspawns, rfl⟩ := request_eq_some (by simp) hstep
      refine h.starts (.inl rfl) (fun _ _ => id) fun hv => ?_
      obtain hold | hnew := List.mem_append.mp hv
      · exact hold
      · rw [List.mem_singleton] at hnew
        subst hnew
        cases hspawns
  | thread k => exact h.thread hstep

theorem awaitsBody_run {call : CallbackCall} {labels : List Label}
    (hrun : Machine.run ActiveCall.step (.init call) labels = some w) : AwaitsBody w :=
  Machine.invariant (fun _ _ _ h hstep => h.step hstep) (awaitsBody_init call) hrun

end AwaitsBody

section Progress

variable {w : ActiveCall}

-- runCall can go on from every wait: a command answers, or its timer fires.
theorem resume_progress {stage : Stage} (hrun : w.runCall = .script [] stage) (hstage : stage ≠ .returned) :
    ∃ i v, w.resumeRun i = some v := by
  have hgoes : ∃ i script next, resume w.call stage i = some (script, next) ∧ w.offers i = true := by
    cases stage with
    | start =>
        cases hmap : w.inMap with
        | true => exact ⟨.load true, _, _, rfl, by simp [ActiveCall.offers, hmap]⟩
        | false => exact ⟨.load false, _, _, rfl, by simp [ActiveCall.offers, hmap]⟩
    | originatingA => exact ⟨.originated .A true, _, _, rfl, rfl⟩
    | waitingA => exact ⟨.timer, _, _, rfl, rfl⟩
    | originatingB => exact ⟨.originated .B true, _, _, rfl, rfl⟩
    | loop bridged => exact ⟨.timer, _, _, rfl, rfl⟩
    | bridging bridged => exact ⟨.bridged true, _, _, rfl, rfl⟩
    | returned => exact absurd rfl hstage
  obtain ⟨i, script, next, hresume, hoffers⟩ := hgoes
  exact ⟨i, _, by simp only [ActiveCall.resumeRun, hrun, hresume, hoffers, if_true]; rfl⟩

-- No goroutine blocks in finalizeCall but for a body that runs.
theorem finalizeStep_progress {pc : FinPC} (hrunning : ∀ body, w.finalized ≠ .running body)
    (hwait : pc = .wait → w.finalized ≠ .unused) : ∃ u place, w.finalizeStep pc = some (u, place) := by
  cases pc with
  | load s => exact ⟨_, _, rfl⟩
  | once s =>
      cases hfinalized : w.finalized with
      | unused => exact ⟨_, _, by simp only [ActiveCall.finalizeStep, hfinalized]; rfl⟩
      | running body => exact absurd hfinalized (hrunning body)
      | done => exact ⟨_, _, by simp only [ActiveCall.finalizeStep, hfinalized]; rfl⟩
  | wait =>
      cases hfinalized : w.finalized with
      | unused => exact absurd hfinalized (hwait rfl)
      | running body => exact absurd hfinalized (hrunning body)
      | done => exact ⟨_, _, by simp only [ActiveCall.finalizeStep, hfinalized]; rfl⟩

theorem finalizeRun_progress {pc : FinPC} {todo : List Action} {stage : Stage}
    (hrun : w.runCall = .finalizing pc todo stage)
    (hrunning : ∀ body, w.finalized ≠ .running body) (hwait : pc = .wait → w.finalized ≠ .unused) :
    ∃ v, w.finalizeRun = some v := by
  obtain ⟨u, place, hstep⟩ := finalizeStep_progress hrunning hwait
  exact ⟨_, by simp only [ActiveCall.finalizeRun, hrun, hstep]; rfl⟩

theorem thread_progress {t : Thread} (ht : t ∈ w.threads) (hover : t.over = false)
    (hrunning : ∀ body, w.finalized ≠ .running body)
    (hwait : t = .fsLostFinalize .wait → w.finalized ≠ .unused) :
    ∃ k v, w.threadStep k = some v := by
  obtain ⟨k, hk⟩ := List.getElem?_of_mem ht
  refine ⟨k, ?_⟩
  cases t with
  | fsLostFinalize pc =>
      obtain ⟨u, place, hstep⟩ := @finalizeStep_progress w pc hrunning fun h => hwait (by rw [h])
      exact ⟨_, by simp only [ActiveCall.threadStep, hk, hstep]; rfl⟩
  | responded | finished => cases hover
  | fsLost | shutdown | shutdownCancel | hangup | hangupBy | hangupCancel | hangupLegs =>
      exact ⟨_, by simp only [ActiveCall.threadStep, hk]; rfl⟩

-- Where the call is not over yet, the body runs, or another goroutine can go on.
theorem progress (hsettling : Settling w) (hawaits : AwaitsBody w) (hover : ¬ w.Over) :
    (∃ stmt, ∃ body : Body, w.finalized = .running { body with todo := stmt :: body.todo }) ∨
      ∃ l v, l.own = true ∧ (∀ o, l ≠ .body o) ∧ w.step l = some v := by
  by_cases hrunning : ∃ body, w.finalized = .running body
  · obtain ⟨body, hbody⟩ := hrunning
    have hexecuted := hsettling.body.executed
    rw [hbody] at hexecuted
    obtain ⟨stmt, todo, htodo⟩ := List.exists_cons_of_ne_nil hexecuted.2
    exact .inl ⟨stmt, { body with todo }, by rw [hbody, ← htodo]⟩
  · rw [not_exists] at hrunning
    refine .inr ?_
    cases hrun : w.runCall with
    | finalizing pc todo stage =>
        obtain ⟨v, hstep⟩ := finalizeRun_progress hrun hrunning fun h => hawaits.runCall todo stage (h ▸ hrun)
        exact ⟨.finalize, v, rfl, by simp, hstep⟩
    | script todo stage =>
        cases todo with
        | cons a todo =>
            cases a <;>
              exact ⟨.exec 0 true, _, rfl, by simp, by simp only [ActiveCall.step, ActiveCall.execRun, hrun]; rfl⟩
        | nil =>
            by_cases hstage : stage = .returned
            · subst hstage
              have hdone := (hsettling.returned hrun).2
              rw [hsettling.body.inMap] at hdone
              have hthread : ∃ t ∈ w.threads, t.over = false := by
                by_contra hnone
                refine hover ⟨hrun, hdone, fun t ht => ?_⟩
                by_contra hnot
                exact hnone ⟨t, ht, by simpa using hnot⟩
              obtain ⟨t, ht, htover⟩ := hthread
              obtain ⟨k, v, hstep⟩ := thread_progress ht htover hrunning fun h => hawaits.threads (h ▸ ht)
              exact ⟨.thread k, v, rfl, by simp, hstep⟩
            · obtain ⟨i, v, hstep⟩ := resume_progress hrun hstage
              exact ⟨.resume i, v, rfl, by simp, hstep⟩

end Progress

end Bos3000.Callback
