import Bos3000.Callback.FinalStatus
import Bos3000.Callback.Views
import Bos3000.Lib.Announce

-- Whether the webhook notifications of a call tell the statuses persisted for it.
namespace Bos3000.Callback

open Announce (Ledger Op Paired)

structure LegDetail where
  number : String
  status : String
  dialAt : Option Time
  answerAt : Option Time
  hangupAt : Option Time
  hangupCause : String
  deriving DecidableEq, Repr

structure BridgeDetail where
  bridgedAt : Option Time
  duration : Int64
  deriving DecidableEq, Repr

structure WebhookPayload where
  eventType : String
  callID : String
  status : String
  aLeg : LegDetail
  bLeg : Option LegDetail
  bridge : Option BridgeDetail
  customData : List UInt8
  timestamp : Time
  deriving DecidableEq, Repr

-- aLegStatus and bLegStatus, of the times of their leg.
def legStatus (dialAt answerAt hangupAt : Option Time) : String :=
  if hangupAt.isSome then "hangup"
  else if answerAt.isSome then "answered"
  else if dialAt.isSome then "dialing"
  else "pending"

def aLegStatus (call : CallbackCall) : String := legStatus call.aDialAt call.aAnswerAt call.aHangupAt

def bLegStatus (call : CallbackCall) : String := legStatus call.bDialAt call.bAnswerAt call.bHangupAt

def eventType (s : Status) : String := "call." ++ s.text

def buildWebhookPayload (now : Time) (customData : List UInt8) (call : CallbackCall) : WebhookPayload where
  eventType := eventType call.status
  callID := call.callID
  status := call.status.text
  aLeg := ⟨call.aNumber, aLegStatus call, call.aDialAt, call.aAnswerAt, call.aHangupAt,
    call.aHangupCause.getD ""⟩
  bLeg := call.bDialAt.map fun _ =>
    ⟨call.bNumber, bLegStatus call, call.bDialAt, call.bAnswerAt, call.bHangupAt, call.bHangupCause.getD ""⟩
  bridge := call.bridgeAt.map fun _ =>
    ⟨call.bridgeAt, if 0 < call.bridgeDurationMs then call.bridgeDurationMs / 1000 else 0⟩
  customData
  timestamp := now

-- The columns of users that publishWebhook reads.
structure WebhookConfig where
  webhookURL : Option String
  webhookSecret : Option String
  deriving DecidableEq, Repr

-- What CreateAndPublishWebhook is called with.
structure Notification where
  callID : String
  userID : UserID
  webhookURL : String
  secret : String
  payload : WebhookPayload
  deriving DecidableEq, Repr

-- A user whose row cannot be read, or has no URL, is not notified.
def publishWebhook (config : Option WebhookConfig) (now : Time) (customData : List UInt8)
    (call : CallbackCall) : Option Notification :=
  match config with
  | none => none
  | some config =>
      match config.webhookURL with
      | none => none
      | some url =>
          if url = "" then none
          else some ⟨call.callID, call.userID, url, config.webhookSecret.getD "",
            buildWebhookPayload now customData call⟩

-- The status that a step persists, if it does.
def ActiveCall.persists (w : ActiveCall) : Label → Option Status
  | .exec _ true =>
      match w.pending with
      | .updateCallStatus s :: _ => some s
      | _ => none
  | .body .ok =>
      match w.finalized with
      | .running ⟨.updateCallFinal :: _, _, _, _⟩ => some w.call.status
      | _ => none
  | _ => none

-- The step is a publishWebhook.
def ActiveCall.publishes (w : ActiveCall) : Label → Bool
  | .exec _ _ =>
      match w.pending with
      | .publishWebhook :: _ => true
      | _ => false
  | .body _ =>
      match w.finalized with
      | .running ⟨.publishWebhook :: _, _, _, _⟩ => true
      | _ => false
  | _ => false

-- A call with its custom data, the statuses persisted for it from the one that
-- insertCall wrote, and its notifications.
structure Notified where
  active : ActiveCall
  customData : List UInt8
  statuses : List Status
  notifications : List Notification
  deriving Repr

def Notified.init (call : CallbackCall) (customData : List UInt8) : Notified :=
  ⟨.init call, customData, [call.status], []⟩

-- A step of the call, with the row and the clock that its publishWebhook reads.
def Notified.step (s : Notified) : Label × Option WebhookConfig × Time → Option Notified
  | (l, config, now) => (s.active.step l).map fun active =>
      { s with
        active
        statuses := s.statuses ++ (s.active.persists l).toList
        notifications := s.notifications ++
          if s.active.publishes l then (publishWebhook config now s.customData s.active.call).toList else [] }

def Notified.eventTypes (s : Notified) : List String := s.notifications.map (·.payload.eventType)

-- The steps of a run without a disconnect callback, in which the database answers
-- and the user's URL is as given.
def Notified.undisturbed (url : String) (s : Notified) : Label × Option WebhookConfig × Time → Bool
  | (l, config, _) => l ≠ .fsLost && s.active.succeeds l &&
      (!s.active.publishes l || config.any fun config => config.webhookURL = some url)

-- What a statement does to the status, as one of a program that announces.
def Action.op? : Action → Option (Op Status)
  | .assign (.status s) => some (.set s)
  | .updateCallStatus s => some (.write s)
  | .publishWebhook => some .announce
  | _ => none

def Stmt.op? (status : Status) : Stmt → Option (Op Status)
  | .status => some (.set status)
  | .updateCallFinal => some .save
  | .publishWebhook => some .announce
  | _ => none

-- Between two waits runCall announces what it persists. Its first script announces
-- what insertCall persisted.
theorem resume_paired {call : CallbackCall} {stage next : Stage} {i : Input} {script : List Action}
    (h : resume call stage i = some (script, next)) (hi : i ≠ .load false) (status : Status) :
    Paired (stage = .start) status (script.filterMap Action.op?) := by
  revert h
  fun_cases resume call stage i <;> intro h <;> cases h
  case case14 e _ _ _ hangup | case15 e _ _ _ hangup _ =>
      simp only [hangup]
      cases hleg : e.leg <;> simp [stopRecording, List.filterMap_cons, Action.op?, Paired]
  case case17 bridged | case18 bridged =>
    cases bridged <;> simp [stopRecording, List.filterMap_cons, Action.op?, Paired]
  all_goals simp_all [Action.op?, List.filterMap_cons, startRecording, Paired]

-- The body persists the status it is called with and announces it.
theorem body_paired (s value : Status) :
    Paired false value ((Body.start s).todo.filterMap (Stmt.op? s)) :=
  rfl

theorem resume_next {call : CallbackCall} {stage next : Stage} {i : Input} {script : List Action}
    (h : resume call stage i = some (script, next)) : next ≠ .start := by
  revert h
  fun_cases resume call stage i <;> intro h <;> cases h <;> simp

-- What is left to execute of the program that announces. Before its first script
-- runCall owes the announcement of what insertCall persisted.
def ActiveCall.announcements (w : ActiveCall) : List (Op Status) :=
  match w.finalized with
  | .running body => body.todo.filterMap (Stmt.op? body.status)
  | _ => if w.stage = .start then [.announce] else w.pending.filterMap Action.op?

-- The ledger of a call, given the statuses that its notifications tell.
def Notified.ledger (s : Notified) (announced : List Status) : Ledger Status :=
  ⟨s.active.call.status, s.statuses, announced⟩

def Notified.Telling (s : Notified) (owed : Bool) (ops : List (Op Status)) : Prop :=
  ∃ announced, s.eventTypes = announced.map eventType ∧ (s.ledger announced).Owes owed ∧
    Paired owed s.active.call.status ops

-- The step executes a statement of the program, or none.
def Notified.Tells (s t : Notified) (op : Option (Op Status)) : Prop :=
  ∀ announced, s.eventTypes = announced.map eventType →
    ∃ next, t.eventTypes = next.map eventType ∧
      t.ledger next = op.elim (s.ledger announced) (s.ledger announced).exec

section Step

variable {s t : Notified} {l : Label} {config : Option WebhookConfig} {now : Time} {url : String}

theorem Notified.Telling.keep {owed : Bool} {ops : List (Op Status)} (h : s.Telling owed ops)
    (htells : s.Tells t none) : t.Telling owed ops := by
  obtain ⟨announced, htypes, howes, hpaired⟩ := h
  obtain ⟨next, hnext, hledger⟩ := htells announced htypes
  refine ⟨next, hnext, by rw [hledger]; exact howes, ?_⟩
  rw [show t.active.call.status = (t.ledger next).value from rfl, hledger]
  exact hpaired

theorem Notified.Telling.step {owed : Bool} {op : Option (Op Status)} {ops : List (Op Status)}
    (h : s.Telling owed (op.toList ++ ops)) (htells : s.Tells t op) : ∃ next, t.Telling next ops := by
  cases op with
  | none => exact ⟨owed, h.keep htells⟩
  | some op =>
      obtain ⟨announced, htypes, howes, hpaired⟩ := h
      obtain ⟨next, hnext, hledger⟩ := htells announced htypes
      obtain ⟨after, hafter, hsettled⟩ := @Paired.exec _ (s.ledger announced) _ _ _ hpaired howes
      refine ⟨after, next, hnext, by rw [hledger]; exact hsettled, ?_⟩
      rw [show t.active.call.status = (t.ledger next).value from rfl, hledger]
      exact hafter

theorem step_eq_some (hstep : s.step (l, config, now) = some t) :
    s.active.step l = some t.active ∧ t.statuses = s.statuses ++ (s.active.persists l).toList ∧
      t.eventTypes = s.eventTypes ++ if s.active.publishes l then
        (publishWebhook config now s.customData s.active.call).toList.map (·.payload.eventType) else [] := by
  obtain ⟨active, hactive, rfl⟩ := Option.map_eq_some_iff.mp hstep
  refine ⟨hactive, rfl, ?_⟩
  simp only [Notified.eventTypes, List.map_append]
  split <;> rfl

theorem publishWebhook_eventType (hurl : url ≠ "") (hconfig : config.any fun config => config.webhookURL = some url)
    (customData : List UInt8) (call : CallbackCall) :
    (publishWebhook config now customData call).toList.map (·.payload.eventType) = [eventType call.status] := by
  obtain ⟨config, rfl, hset⟩ := (Option.any_eq_true ..).mp hconfig
  simp only [decide_eq_true_eq] at hset
  simp [publishWebhook, hset, hurl, buildWebhookPayload]

-- What the step does to the status, to the row and to the webhook, as a statement
-- of the program.
theorem tells_of (hurl : url ≠ "") (hundisturbed : s.undisturbed url (l, config, now))
    (hstep : s.step (l, config, now) = some t) {op : Option (Op Status)}
    (hsets : t.active.call.status = op.elim s.active.call.status (Op.sets s.active.call.status))
    (hsaves : s.active.persists l = op.bind (Op.saves s.active.call.status))
    (hannounces : s.active.publishes l = op.any Op.announces) : s.Tells t op := by
  obtain ⟨_, hstatuses, htypes⟩ := step_eq_some hstep
  simp only [Notified.undisturbed, Bool.and_eq_true, Bool.or_eq_true, Bool.not_eq_true'] at hundisturbed
  intro announced htold
  refine ⟨announced ++ if op.any Op.announces then [s.active.call.status] else [], ?_, ?_⟩
  · rw [htypes, htold, hannounces]
    cases hop : op.any Op.announces with
    | false => simp
    | true =>
        have hconfig := hundisturbed.2.resolve_left (by simp [hannounces, hop])
        simp [publishWebhook_eventType hurl hconfig]
  · rw [Notified.ledger, Notified.ledger, hsets, hstatuses, hsaves]
    cases op <;> simp [Ledger.exec]

theorem onCall_op (now : Time) (call : CallbackCall) (a : Action) :
    (a.onCall now call).status = a.op?.elim call.status (Op.sets call.status) := by
  cases a with
  | assign a => cases a <;> rfl
  | _ => rfl

-- A statement of runCall.
theorem execRun_tells (hurl : url ≠ "") {stamp : Time} {ok : Bool}
    (hundisturbed : s.undisturbed url (.exec stamp ok, config, now))
    (hstep : s.step (.exec stamp ok, config, now) = some t) :
    ∃ a, s.active.pending = a :: t.active.pending ∧ s.Tells t a.op? := by
  have hactive := (step_eq_some hstep).1
  have hok : ok = true := by
    simp only [Notified.undisturbed, ActiveCall.succeeds, Bool.and_eq_true] at hundisturbed
    exact hundisturbed.1.2
  subst hok
  obtain ⟨todo, stage, ⟨r, hrun, hnext⟩ | ⟨a, hrun, _, hnext⟩⟩ := execRun_eq_some hactive
  · have hpending := pending_script hrun
    refine ⟨.finalizeCall r, by rw [hpending, hnext]; rfl, tells_of hurl hundisturbed hstep ?_ ?_ ?_⟩
    · rw [hnext]; rfl
    · simp only [ActiveCall.persists, hpending]; rfl
    · simp only [ActiveCall.publishes, hpending]; rfl
  · have hpending := pending_script hrun
    refine ⟨a, by rw [hpending, hnext]; rfl, tells_of hurl hundisturbed hstep ?_ ?_ ?_⟩
    · rw [hnext]
      exact onCall_op stamp s.active.call a
    · simp only [ActiveCall.persists, hpending]
      cases a with
      | assign a => cases a <;> rfl
      | _ => rfl
    · simp only [ActiveCall.publishes, hpending]
      cases a with
      | assign a => cases a <;> rfl
      | _ => rfl

-- A statement of the body.
theorem bodyStep_tells (hurl : url ≠ "") {o : Outcome}
    (hundisturbed : s.undisturbed url (.body o, config, now))
    (hstep : s.step (.body o, config, now) = some t) {body : Body} {stmt : Stmt}
    (hrunning : s.active.finalized = .running { body with todo := stmt :: body.todo }) :
    s.Tells t (stmt.op? body.status) := by
  have hactive := (step_eq_some hstep).1
  obtain ⟨stmt', body', call, row, next, hother, hexec, hnext⟩ := bodyStep_eq_some hactive
  simp only [hrunning, Once.running.injEq, Body.mk.injEq, List.cons.injEq] at hother
  obtain ⟨⟨rfl, _⟩, hstatus, _, _⟩ := hother
  refine tells_of hurl hundisturbed hstep ?_ ?_ ?_
  · obtain ⟨_, ⟨hsame, hne⟩ | ⟨rfl, hwrite⟩⟩ := exec_status hexec
    · rw [hnext]
      cases stmt <;> first | exact hsame | exact absurd rfl hne
    · rw [hnext]
      exact hwrite.trans hstatus.symm
  · cases stmt with
    | updateCallFinal =>
        cases o with
        | ok => simp [ActiveCall.persists, hrunning, Stmt.op?, Op.saves]
        | fault => simp [Notified.undisturbed, ActiveCall.succeeds, hrunning] at hundisturbed
        | time | config | count => cases hexec
    | _ => cases o <;> simp [ActiveCall.persists, hrunning, Stmt.op?, Op.saves]
  · cases stmt <;> simp [ActiveCall.publishes, hrunning, Stmt.op?, Op.announces]

end Step

def Unfinished (statuses : List Status) : Prop := ∀ r ∈ statuses, r.terminal = false

def Finished (statuses : List Status) : Prop :=
  ∃ earlier last, statuses = earlier ++ [last] ∧ last.terminal = true ∧ Unfinished earlier

-- What holds between two steps.
structure Mirroring (s : Notified) : Prop where
  settling : Settling s.active
  sole : Sole s.active
  starting : s.active.stage = .start → s.active.runCall = .script [] .start
  told : ∃ owed, s.Telling owed s.active.announcements
  unfinished : .updateCallFinal ∉ s.active.executed → Unfinished s.statuses
  finished : .updateCallFinal ∈ s.active.executed → Finished s.statuses
  first : s.statuses.head? = some .initiating

section Step

variable {s t : Notified} {w v : ActiveCall} {config : Option WebhookConfig} {now : Time} {url : String}

theorem persists_eq_some {l : Label} {r : Status} (h : w.persists l = some r) :
    .updateCallStatus r ∈ w.pending ∧ (∃ now, l = .exec now true) ∨
      ∃ body : Body, l = .body .ok ∧ r = w.call.status ∧
        w.finalized = .running { body with todo := .updateCallFinal :: body.todo } := by
  unfold ActiveCall.persists at h
  split at h
  · split at h <;> cases h
    exact .inl ⟨by simp [*], _, rfl⟩
  · split at h <;> cases h
    exact .inr ⟨⟨_, _, _, _⟩, rfl, rfl, by assumption⟩
  · cases h

-- The statuses after a step outside the body.
theorem Mirroring.statuses (h : Mirroring s) {l : Label} (hl : ∀ o, l ≠ .body o)
    (hstep : s.step (l, config, now) = some t) :
    (.updateCallFinal ∉ t.active.executed → Unfinished t.statuses) ∧
      (.updateCallFinal ∈ t.active.executed → Finished t.statuses) := by
  obtain ⟨hactive, hstatuses, _⟩ := step_eq_some hstep
  rw [step_executed hl hactive, hstatuses]
  cases hpersists : s.active.persists l with
  | none => simpa using ⟨h.unfinished, h.finished⟩
  | some r =>
      obtain ⟨hmem, stamp, rfl⟩ | ⟨_, rfl, _⟩ := persists_eq_some hpersists
      · have hopen := h.sole.updates r hmem
        have hnothing : s.active.executed = [] := h.settling.nothing (h.sole.unused_of_exec hactive)
        refine ⟨fun hfinal q hq => ?_, fun hfinal => by rw [hnothing] at hfinal; cases hfinal⟩
        rcases List.mem_append.mp hq with hq | hq
        · exact h.unfinished hfinal q hq
        · rw [show q = r by simpa using hq]
          exact hopen
      · exact absurd rfl (hl .ok)

-- The body closes the statuses with the one it was called with.
theorem Mirroring.statuses_body (h : Mirroring s) {o : Outcome}
    (hundisturbed : s.undisturbed url (.body o, config, now))
    (hstep : s.step (.body o, config, now) = some t) :
    (.updateCallFinal ∉ t.active.executed → Unfinished t.statuses) ∧
      (.updateCallFinal ∈ t.active.executed → Finished t.statuses) := by
  obtain ⟨hactive, hstatuses, _⟩ := step_eq_some hstep
  obtain ⟨stmt, body, _, _, _, hrunning, hexec, _⟩ := bodyStep_eq_some hactive
  have hexecuted := bodyStep_executed hactive hrunning
  rw [hexecuted, hstatuses]
  by_cases hfinal : stmt = .updateCallFinal
  · subst hfinal
    have hbefore : .updateCallFinal ∉ s.active.executed :=
      fun hmem => absurd (h.settling.before hrunning hmem) (Nat.lt_irrefl _)
    obtain ⟨hterminal, hwritten⟩ := h.sole.body _ hrunning
    have hstatus := hwritten (h.settling.executed_of_lt hrunning (by decide))
    have hok : o = .ok := by
      cases o with
      | ok => rfl
      | fault => simp [Notified.undisturbed, ActiveCall.succeeds, hrunning] at hundisturbed
      | time | config | count => cases hexec
    subst hok
    refine ⟨fun hnot => absurd (by simp) hnot,
      fun _ => ⟨s.statuses, s.active.call.status, ?_, ?_, h.unfinished hbefore⟩⟩
    · simp [ActiveCall.persists, hrunning]
    · rw [hstatus]
      exact hterminal
  · have hpersists : s.active.persists (.body o) = none := by
      cases hsome : s.active.persists (.body o) with
      | none => rfl
      | some r =>
          obtain ⟨_, _, hwrong⟩ | ⟨_, _, _, hother⟩ := persists_eq_some hsome
          · cases hwrong
          · rw [hrunning] at hother
            simp [hfinal] at hother
    rw [hpersists]
    simpa [Ne.symm hfinal] using ⟨h.unfinished, h.finished⟩

theorem Notified.Telling.owed_nil {owed : Bool} (h : s.Telling owed []) : s.Telling false [] := by
  obtain ⟨announced, htypes, howes, hpaired⟩ := h
  have howed : owed = false := by cases owed <;> exact hpaired
  subst howed
  exact ⟨announced, htypes, howes, hpaired⟩

-- At rest runCall owes nothing.
theorem announcements_rest (hrest : Rest w) (hrunning : ∀ body, w.finalized ≠ .running body) :
    w.announcements = [] := by
  unfold ActiveCall.announcements
  split
  · exact absurd (by assumption) (hrunning _)
  · rw [hrest.1, hrest.2]
    rfl

theorem announcements_unused (hunused : w.finalized = .unused) (hstage : w.stage ≠ .start) :
    w.announcements = w.pending.filterMap Action.op? := by
  simp [ActiveCall.announcements, hunused, hstage]

theorem Mirroring.inMap (h : Mirroring s) (hunused : s.active.finalized = .unused) : s.active.inMap = true := by
  cases hmap : s.active.inMap with
  | true => rfl
  | false =>
      rw [h.settling.body.inMap.mp hmap] at hunused
      cases hunused

theorem Mirroring.told_resume (h : Mirroring s) (hurl : url ≠ "") {i : Input}
    (hundisturbed : s.undisturbed url (.resume i, config, now))
    (hstep : s.step (.resume i, config, now) = some t) :
    t.active.stage ≠ .start ∧ ∃ owed, t.Telling owed t.active.announcements := by
  have hactive := (step_eq_some hstep).1
  have hunused := h.sole.unused_of_resume hactive
  have htells : s.Tells t none := tells_of hurl hundisturbed hstep
    (by obtain ⟨_, _, _, _, _, _, _, hnext⟩ := resumeRun_eq_some hactive; rw [hnext]; rfl) rfl rfl
  obtain ⟨stage, script, next, hrun, hresume, hoffers, eventCh, hnext⟩ := resumeRun_eq_some hactive
  have hstage : s.active.stage = stage := by simp [ActiveCall.stage, hrun]
  have hi : i ≠ .load false := by
    rintro rfl
    simp [ActiveCall.offers, h.inMap hunused] at hoffers
  have hnot : t.active.stage ≠ .start := by
    rw [hnext]
    exact resume_next hresume
  refine ⟨hnot, ?_⟩
  rw [announcements_unused (by rw [hnext]; exact hunused) hnot]
  obtain ⟨owed, htelling⟩ := h.told
  -- only the announcement of insertCall's status is owed at a wait
  have howed : owed = decide (stage = .start) := by
    obtain ⟨_, _, _, hpaired⟩ := htelling
    by_cases hstart : stage = .start
    · simp only [ActiveCall.announcements, hunused, hstage, hstart, ite_true] at hpaired
      cases owed <;> simp_all [Paired]
    · rw [announcements_unused hunused (hstage ▸ hstart), pending_script hrun] at hpaired
      simpa [Paired, hstart] using hpaired
  obtain ⟨announced, htypes, howes, _⟩ := htelling
  have hpaired := resume_paired hresume hi s.active.call.status
  rw [← howed] at hpaired
  have hpending : t.active.pending = script := by rw [hnext]; rfl
  rw [hpending]
  exact ⟨owed, Notified.Telling.keep ⟨announced, htypes, howes, hpaired⟩ htells⟩

theorem Mirroring.told_exec (h : Mirroring s) (hurl : url ≠ "") {stamp : Time} {ok : Bool}
    (hundisturbed : s.undisturbed url (.exec stamp ok, config, now))
    (hstep : s.step (.exec stamp ok, config, now) = some t) :
    t.active.stage ≠ .start ∧ ∃ owed, t.Telling owed t.active.announcements := by
  have hactive := (step_eq_some hstep).1
  have hunused := h.sole.unused_of_exec hactive
  obtain ⟨a, hpending, htells⟩ := execRun_tells hurl hundisturbed hstep
  obtain ⟨hstage, _⟩ := step_history (l := .exec stamp ok) (by simp) hactive
  have hnot : s.active.stage ≠ .start := by
    intro hstart
    rw [pending_script (h.starting hstart)] at hpending
    cases hpending
  have hunused' : t.active.finalized = .unused := by
    obtain ⟨_, _, ⟨_, _, hnext⟩ | ⟨_, _, _, hnext⟩⟩ :=
      execRun_eq_some hactive <;> rw [hnext] <;> exact hunused
  refine ⟨hstage ▸ hnot, ?_⟩
  obtain ⟨owed, htelling⟩ := h.told
  rw [announcements_unused hunused hnot, hpending] at htelling
  rw [announcements_unused hunused' (hstage ▸ hnot)]
  have hfirst : s.Telling owed (a.op?.toList ++ t.active.pending.filterMap Action.op?) := by
    cases hop : a.op? <;> simpa [List.filterMap_cons, hop] using htelling
  exact hfirst.step htells

theorem Mirroring.told_body (h : Mirroring s) (hurl : url ≠ "") {o : Outcome}
    (hundisturbed : s.undisturbed url (.body o, config, now))
    (hstep : s.step (.body o, config, now) = some t) :
    ∃ owed, t.Telling owed t.active.announcements := by
  have hactive := (step_eq_some hstep).1
  obtain ⟨stmt, body, call, row, next, hrunning, hexec, hnext⟩ := bodyStep_eq_some hactive
  have htells := bodyStep_tells hurl hundisturbed hstep hrunning
  have hrest : Rest t.active := (h.sole.rest (by simp [hrunning])).step hactive
  have hleft : t.active.announcements = body.todo.filterMap (Stmt.op? body.status) := by
    by_cases htodo : body.todo = []
    · rw [announcements_rest hrest (by simp [hnext, htodo]), htodo]
      rfl
    · simp [ActiveCall.announcements, hnext, htodo, exec_todo hexec, (exec_status hexec).1]
  rw [hleft]
  obtain ⟨owed, htelling⟩ := h.told
  simp only [ActiveCall.announcements, hrunning] at htelling
  have hfirst : s.Telling owed
      ((stmt.op? body.status).toList ++ body.todo.filterMap (Stmt.op? body.status)) := by
    cases hop : stmt.op? body.status <;> simpa [List.filterMap_cons, hop] using htelling
  exact hfirst.step htells

-- A step that executes nothing of runCall and of the body, but may start the body.
theorem Mirroring.told_besides (h : Mirroring s) (hurl : url ≠ "") {l : Label} (hl : ∀ o, l ≠ .body o)
    (hundisturbed : s.undisturbed url (l, config, now)) (hstep : s.step (l, config, now) = some t)
    (hcall : t.active.call.status = s.active.call.status) (hpending : t.active.pending = s.active.pending)
    (hstage : t.active.stage = s.active.stage) (hpersists : s.active.persists l = none)
    (hpublishes : s.active.publishes l = false) : ∃ owed, t.Telling owed t.active.announcements := by
  have hactive := (step_eq_some hstep).1
  have htells : s.Tells t none := tells_of hurl hundisturbed hstep hcall hpersists hpublishes
  obtain ⟨owed, htelling⟩ := h.told
  obtain hsame | ⟨r, hunused, hrunning, hstarter⟩ := step_starter hl hactive
  · have hleft : t.active.announcements = s.active.announcements := by
      simp only [ActiveCall.announcements, hsame, hpending, hstage]
    rw [hleft]
    exact ⟨owed, htelling.keep htells⟩
  · have hrest : Rest s.active := by
      cases hstarter with
      | runCall hplace => exact place_rest h.settling.runCall hplace
      | fsLost k hthread => cases h.sole.threads _ (List.mem_of_getElem? hthread)
    rw [announcements_rest hrest (by simp [hunused])] at htelling
    obtain ⟨announced, htypes, howes, _⟩ := htelling.owed_nil
    have hleft : t.active.announcements = (Body.start r).todo.filterMap (Stmt.op? r) := by
      simp only [ActiveCall.announcements, hrunning]
      rfl
    rw [hleft]
    exact ⟨false, Notified.Telling.keep ⟨announced, htypes, howes, body_paired r _⟩ htells⟩

-- What a step persists is the status of the row after it.
theorem step_row {l : Label} (hstep : w.step l = some v) :
    v.row.status = (w.persists l).getD w.row.status := by
  cases l with
  | resume i =>
      obtain ⟨_, _, _, _, _, _, _, rfl⟩ := resumeRun_eq_some hstep
      rfl
  | exec stamp ok =>
      obtain ⟨todo, stage, ⟨r, hrun, rfl⟩ | ⟨a, hrun, _, rfl⟩⟩ := execRun_eq_some hstep
      · cases ok <;> simp [ActiveCall.persists, pending_script hrun]
      · cases ok with
        | false => rfl
        | true => cases a <;> simp [ActiveCall.persists, pending_script hrun, Action.onRow]
  | finalize =>
      obtain ⟨_, _, rfl, _⟩ := finalizeRun_starts hstep
      rfl
  | body o =>
      obtain ⟨stmt, body, call, row, next, hrunning, hexec, rfl⟩ := bodyStep_eq_some hstep
      cases stmt with
      | updateCallFinal =>
          cases o with
          | ok =>
              cases hexec
              simp [ActiveCall.persists, hrunning, updateCallFinal]
          | fault =>
              cases hexec
              rfl
          | time | config | count => cases hexec
      | _ =>
          obtain rfl | ⟨hwrong, _⟩ := exec_row hexec
          · cases o <;> simp [ActiveCall.persists, hrunning]
          · cases hwrong
  | event e =>
      obtain rfl | ⟨_, rfl⟩ := deliver_eq_some hstep <;> rfl
  | fsLost | shutdown | forceHangup auth =>
      obtain ⟨_, _, rfl⟩ := request_eq_some (by simp) hstep
      rfl
  | thread k => exact congrArg (·.status) (threadStep_aside hstep).row

theorem Mirroring.step (h : Mirroring s) (hurl : url ≠ "") {l : Label}
    (hundisturbed : s.undisturbed url (l, config, now)) (hstep : s.step (l, config, now) = some t) :
    Mirroring t := by
  obtain ⟨hactive, hstatuses, _⟩ := step_eq_some hstep
  have hlost : l ≠ .fsLost := by
    simp only [Notified.undisturbed, Bool.and_eq_true, decide_eq_true_eq] at hundisturbed
    exact hundisturbed.1.1
  have hsettling := h.settling.step hactive
  have hsole := h.sole.step h.settling hlost hactive
  have hfirst : t.statuses.head? = some .initiating := by
    rw [hstatuses, List.head?_append, h.first]
    rfl
  -- a step that leaves runCall where it is, or moves it in finalizeCall
  have hbesides : (∀ o, l ≠ .body o) → t.active.call.status = s.active.call.status →
      t.active.pending = s.active.pending → t.active.stage = s.active.stage →
      (t.active.runCall = s.active.runCall ∨ s.active.stage = .returned) →
      s.active.persists l = none → s.active.publishes l = false → Mirroring t := by
    intro hl hcall hpending hstage hrun hpersists hpublishes
    obtain ⟨hunfinished, hfinished⟩ := h.statuses hl hstep
    refine ⟨hsettling, hsole, ?_, h.told_besides hurl hl hundisturbed hstep hcall hpending hstage
      hpersists hpublishes, hunfinished, hfinished, hfirst⟩
    intro hstart
    rw [hstage] at hstart
    obtain hsame | hreturned := hrun
    · rw [hsame]
      exact h.starting hstart
    · rw [hstart] at hreturned
      cases hreturned
  cases l with
  | resume i =>
      obtain ⟨hstage, htold⟩ := h.told_resume hurl hundisturbed hstep
      obtain ⟨hunfinished, hfinished⟩ := h.statuses (by simp) hstep
      exact ⟨hsettling, hsole, fun hstart => absurd hstart hstage, htold, hunfinished, hfinished, hfirst⟩
  | exec stamp ok =>
      obtain ⟨hstage, htold⟩ := h.told_exec hurl hundisturbed hstep
      obtain ⟨hunfinished, hfinished⟩ := h.statuses (by simp) hstep
      exact ⟨hsettling, hsole, fun hstart => absurd hstart hstage, htold, hunfinished, hfinished, hfirst⟩
  | body o =>
      obtain ⟨hunfinished, hfinished⟩ := h.statuses_body hundisturbed hstep
      refine ⟨hsettling, hsole, ?_, h.told_body hurl hundisturbed hstep, hunfinished, hfinished, hfirst⟩
      obtain ⟨_, _, _, _, _, _, _, hnext⟩ := bodyStep_eq_some hactive
      rw [hnext]
      exact h.starting
  | finalize =>
      have hpending := finalizeRun_pending hactive
      have hstage := (step_history (l := .finalize) (by simp) hactive).1
      obtain ⟨pc, todo, stage, u, place, hrun, hplace, hnext⟩ := finalizeRun_eq_some hactive
      obtain ⟨_, rfl, _⟩ := finalizeStep_starts hplace
      have hplaced : s.active.place = some pc := by simp [ActiveCall.place, hrun]
      have hrest := place_rest h.settling.runCall hplaced
      exact hbesides (by simp) (by simp only [hnext]) hpending hstage (.inr hrest.2) rfl rfl
  | event e =>
      obtain hsame | ⟨_, hnext⟩ := deliver_eq_some hactive
      · exact hbesides (by simp) (by rw [hsame]) (by rw [hsame]) (by rw [hsame]) (.inl (by rw [hsame])) rfl rfl
      · exact hbesides (by simp) (by rw [hnext]) (by rw [hnext]; rfl) (by rw [hnext]; rfl)
          (.inl (by rw [hnext])) rfl rfl
  | fsLost => exact absurd rfl hlost
  | shutdown | forceHangup auth =>
      obtain ⟨_, _, hnext⟩ := request_eq_some (by simp) hactive
      exact hbesides (by simp) (by rw [hnext]; rfl) (by rw [hnext]; rfl) (by rw [hnext]; rfl)
        (.inl (by rw [hnext]; rfl)) rfl rfl
  | thread k =>
      have haside := threadStep_aside hactive
      obtain ⟨_, _, hcall⟩ := haside.call
      exact hbesides (by simp) (by rw [hcall]) haside.pending haside.stage (.inl haside.runCall) rfl rfl

end Step

theorem mirroring_init {call : CallbackCall} (hnew : call.status = .initiating) (customData : List UInt8) :
    Mirroring (.init call customData) := by
  refine ⟨settling_init call, sole_init call, fun _ => rfl, ⟨true, [], rfl, rfl, rfl⟩, ?_, ?_, ?_⟩
  · intro _ r hr
    rw [List.mem_singleton.mp hr, hnew]
    rfl
  · intro hfinal
    cases hfinal
  · exact congrArg some hnew

-- The last of the statuses is what the row holds.
theorem statuses_row {call : CallbackCall} {customData : List UInt8}
    {steps : List (Label × Option WebhookConfig × Time)} {s : Notified}
    (hrun : Machine.run Notified.step (.init call customData) steps = some s) :
    s.statuses.getLast? = some s.active.row.status := by
  refine Machine.invariant (P := fun s : Notified => s.statuses.getLast? = some s.active.row.status) ?_ rfl hrun
  rintro s ⟨l, config, now⟩ t hs hstep
  obtain ⟨hactive, hstatuses, _⟩ := step_eq_some hstep
  rw [hstatuses, step_row hactive]
  cases s.active.persists l <;> simp [hs]

theorem eventType_terminal (s : Status) :
    eventType s ∈ ["call.finished", "call.failed"] ↔ s.terminal = true := by
  cases s <;> decide

-- At a wait nothing is left to announce, the body being over or not begun.
theorem Mirroring.announcements_wait {s : Notified} (h : Mirroring s) {stage : Stage}
    (hscript : s.active.runCall = .script [] stage) (hstage : stage ≠ .start) :
    s.active.announcements = [] := by
  have hpending := pending_script hscript
  have hat : s.active.stage = stage := by simp [ActiveCall.stage, hscript]
  cases hfinalized : s.active.finalized with
  | running body =>
      have hreturned : stage = .returned := hat.symm.trans (h.sole.rest (by simp [hfinalized])).2
      subst hreturned
      have hgone := (h.settling.returned hscript).2
      rw [h.settling.body.inMap.mp hgone] at hfinalized
      cases hfinalized
  | unused | done => simp [ActiveCall.announcements, hfinalized, hat, hstage, hpending]

-- Whatever drives a call, its notifications are an initial part of what was
-- persisted for it, all of it at each wait of runCall and at its return. The last
-- one then is the only terminal one.
theorem notifications_mirror {r : Request} {hold : Hold} {aGateway bGateway callerID url : String}
    (hurl : url ≠ "") {steps : List (Label × Option WebhookConfig × Time)} {s : Notified}
    (hrun : Machine.run (Machine.restrict (Notified.undisturbed url) Notified.step)
      (.init (callRecord r hold aGateway bGateway callerID) r.params.customData) steps = some s) :
    s.statuses.head? = some .initiating ∧
      s.eventTypes <+: s.statuses.map eventType ∧
      (∀ stage, s.active.runCall = .script [] stage → stage ≠ .start →
        s.eventTypes = s.statuses.map eventType) ∧
      (s.active.returned → ∃ earlier last, s.eventTypes = earlier ++ [last] ∧
        last ∈ ["call.finished", "call.failed"] ∧
        ∀ e ∈ earlier, e ∉ ["call.finished", "call.failed"]) := by
  have h : Mirroring s := by
    refine Machine.restrict_invariant (P := Mirroring) ?_ (mirroring_init rfl _) hrun
    rintro s ⟨l, config, now⟩ t hs hundisturbed hstep
    exact hs.step hurl hundisturbed hstep
  obtain ⟨owed, htelling⟩ := h.told
  have hwait : ∀ stage, s.active.runCall = .script [] stage → stage ≠ .start →
      s.eventTypes = s.statuses.map eventType := by
    intro stage hscript hstage
    rw [h.announcements_wait hscript hstage] at htelling
    obtain ⟨announced, htypes, howes, _⟩ := htelling.owed_nil
    rw [htypes, show s.statuses = announced from howes]
  obtain ⟨announced, htypes, howes, _⟩ := htelling
  refine ⟨h.first, ?_, hwait, fun hreturned => ?_⟩
  · rw [htypes]
    exact howes.announced_prefix.map eventType
  · have hexecuted := (h.settling.returned hreturned).1
    obtain ⟨earlier, last, hstatuses, hlast, hearlier⟩ := h.finished (by rw [hexecuted]; decide)
    refine ⟨earlier.map eventType, eventType last, ?_, (eventType_terminal last).mpr hlast, ?_⟩
    · rw [hwait .returned hreturned (by simp), hstatuses, List.map_append]
      rfl
    · intro e he
      obtain ⟨q, hq, rfl⟩ := List.mem_map.mp he
      rw [eventType_terminal, hearlier q hq]
      simp

-- A user with a webhook, while B answers and the legs are bridged until A hangs up.
def notified : List (Label × Option WebhookConfig × Time) :=
  (bridges ++ hangsUp).map fun l => (l, some ⟨some "https://example.com/hook", some "s3cret"⟩, 500)

theorem notifications_mirror_hangsUp :
    ∃ s, Machine.run (Machine.restrict (Notified.undisturbed "https://example.com/hook") Notified.step)
        (.init (callRecord sampleRequest ⟨2, 60, 120⟩ "gw-a" "gw-b" "4001") []) notified = some s ∧
      s.active.returned ∧
      s.eventTypes = ["call.initiating", "call.a_dialing", "call.a_connected", "call.b_dialing",
        "call.b_connected", "call.bridged", "call.finished"] ∧
      s.statuses.head? = some .initiating ∧
      s.eventTypes <+: s.statuses.map eventType ∧
      (∀ stage, s.active.runCall = .script [] stage → stage ≠ .start →
        s.eventTypes = s.statuses.map eventType) ∧
      (s.active.returned → ∃ earlier last, s.eventTypes = earlier ++ [last] ∧
        last ∈ ["call.finished", "call.failed"] ∧
        ∀ e ∈ earlier, e ∉ ["call.finished", "call.failed"]) := by
  have hends : (Machine.run
      (Machine.restrict (Notified.undisturbed "https://example.com/hook") Notified.step)
      (.init (callRecord sampleRequest ⟨2, 60, 120⟩ "gw-a" "gw-b" "4001") []) notified).map
        (fun s => (s.active.runCall, s.eventTypes)) = some (.script [] .returned,
      ["call.initiating", "call.a_dialing", "call.a_connected", "call.b_dialing", "call.b_connected",
        "call.bridged", "call.finished"]) := by decide +kernel
  obtain ⟨s, hrun, hs⟩ := Option.map_eq_some_iff.mp hends
  obtain ⟨hreturned, htypes⟩ := Prod.mk.inj hs
  exact ⟨s, hrun, hreturned, htypes, @notifications_mirror sampleRequest ⟨2, 60, 120⟩ "gw-a" "gw-b" "4001"
    "https://example.com/hook" (by decide) notified s hrun⟩

end Bos3000.Callback
