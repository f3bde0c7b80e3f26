import Bos3000.Callback.BilledTime
import Bos3000.Callback.FinalStatus
import Bos3000.Callback.Results
import Bos3000.Callback.Views

-- What GetCallStatus shows of a call while finalizeCall fills its record.
namespace Bos3000.Callback

-- The status, the durations, the costs and the wastage of a call.
structure Snapshot where
  status : Status
  results : Results
  deriving DecidableEq, Repr

def CallbackCall.snapshot (call : CallbackCall) : Snapshot := ⟨call.status, call.results⟩

def CallStatusResponse.snapshot (response : CallStatusResponse) : Snapshot where
  status := response.status
  results :=
    { costs := ⟨response.aLeg.durationMs, response.bLeg.durationMs, response.billing.aLegCost,
        response.billing.bLegCost, response.billing.totalCost⟩
      bridgeDurationMs := response.bridge.durationMs
      wastageType := response.wastage.type
      wastageCost := response.wastage.cost
      wastageDurationMs := response.wastage.durationMs }

theorem callToResponse_snapshot (r : CallRecord) : (callToResponse r).snapshot = r.call.snapshot := rfl

-- A call, and what GetCallStatus has answered about it so far.
structure Polled where
  w : ActiveCall
  fixed : w.row.fixed = w.call.fixed
  responses : List CallStatusResponse

inductive PollLabel
  | move (l : Label)
  | getCallStatus (auth : Option AuthData) (columns : CallRow)

-- What the endpoint reads: the entry of activeCalls, and the row with the columns
-- that no goroutine of the call writes.
def Polled.store (p : Polled) (columns : CallRow) : CallStore where
  rows := ⟨[{ columns with call := p.w.row }], List.nodup_singleton _⟩
  active id :=
    if p.w.inMap ∧ id = p.w.call.callID then some { columns.toCallRecord with call := p.w.call } else none
  owned id r hr := by
    split at hr
    · rename_i h
      cases hr
      have hcallID : p.w.row.callID = p.w.call.callID := congrArg Fixed.callID p.fixed
      refine ⟨{ columns with call := p.w.row }, Table.find_eq_some.mpr ⟨List.mem_singleton_self _, ?_⟩, ?_⟩
      · exact hcallID.trans h.2.symm
      · exact congrArg Fixed.userID p.fixed
    · cases hr

def Polled.step (p : Polled) : PollLabel → Option Polled
  | .move l =>
      match h : p.w.step l with
      | none => none
      | some v => some ⟨v, (step_fixed h).2.trans (p.fixed.trans (step_fixed h).1.symm), p.responses⟩
  | .getCallStatus auth columns =>
      match getCallStatus auth p.w.call.callID none (p.store columns) with
      | .error _ => some p
      | .ok response => some { p with responses := p.responses ++ [response] }

def Polled.init (call : CallbackCall) : Polled := ⟨.init call, rfl, []⟩

-- Every operation of finalizeCall succeeds, and nobody else writes the record once
-- it is at work.
def Alone (p : Polled) : PollLabel → Bool
  | .move (.exec _ _) => p.w.finalized = .unused
  | .move (.body .fault) => false
  | _ => true

-- GetCallStatus does not read the record between its status and its costs.
def ReadsBilled (p : Polled) : PollLabel → Bool
  | .getCallStatus _ _ => !p.w.inMap || .status ∉ p.w.executed || .billingFinalize ∈ p.w.executed
  | .move _ => true

def ActiveCall.shown (w : ActiveCall) : CallbackCall := if w.inMap then w.call else w.row

section Step

variable {p q : Polled}

theorem move_eq_some {l : Label} (h : p.step (.move l) = some q) :
    p.w.step l = some q.w ∧ q.responses = p.responses := by
  simp only [Polled.step] at h
  split at h
  · cases h
  · rename_i hstep
    cases h
    exact ⟨hstep, rfl⟩

theorem getCallStatus_shown {auth : Option AuthData} {columns : CallRow} {response : CallStatusResponse}
    (h : getCallStatus auth p.w.call.callID none (p.store columns) = .ok response) :
    response.snapshot = p.w.shown.snapshot := by
  have hcallID : p.w.row.callID = p.w.call.callID := congrArg Fixed.callID p.fixed
  have hrow : (p.store columns).rows.find p.w.call.callID = some { columns with call := p.w.row } :=
    Table.find_eq_some.mpr ⟨List.mem_singleton_self _, hcallID⟩
  cases auth with
  | none => cases h
  | some ad =>
      cases hmap : p.w.inMap with
      | true =>
          simp only [getCallStatus, Polled.store, hmap, true_and, if_true] at h
          split at h
          · cases h
          · cases h
            simp only [ActiveCall.shown, hmap, if_true]
            exact callToResponse_snapshot _
      | false =>
          have hactive : (p.store columns).active p.w.call.callID = none := by simp [Polled.store, hmap]
          simp only [getCallStatus, hactive, getCall, CallStore.select, hrow] at h
          split at h
          · cases h
          · cases h
            simp only [ActiveCall.shown, hmap]
            exact callToResponse_snapshot _

theorem getCallStatus_eq_some {auth : Option AuthData} {columns : CallRow}
    (h : p.step (.getCallStatus auth columns) = some q) :
    q = p ∨ q.w = p.w ∧
      ∃ response, q.responses = p.responses ++ [response] ∧ response.snapshot = p.w.shown.snapshot := by
  simp only [Polled.step] at h
  split at h
  · cases h
    exact .inl rfl
  · rename_i response hresponse
    cases h
    exact .inr ⟨rfl, response, rfl, getCallStatus_shown hresponse⟩

end Step

-- What each snapshot so far had to be.
structure SnapshotInv (p : Polled) : Prop where
  settling : Settling p.w
  rest : RestInv p.w
  live : .status ∉ p.w.executed → p.w.call.status.terminal = false
  row : .updateCallFinal ∈ p.w.executed → p.w.row.snapshot = p.w.call.snapshot
  responses : ∀ response ∈ p.responses, response.status.terminal = true →
    .billingFinalize ∈ p.w.executed ∧ response.snapshot = p.w.call.snapshot
  pairwise : p.responses.Pairwise fun earlier later =>
    earlier.status.terminal = true → later.snapshot = earlier.snapshot

section Frame

variable {w v : ActiveCall}

theorem snapshot_congr {c d : CallbackCall} (hstatus : c.status = d.status) (hresults : c.results = d.results) :
    c.snapshot = d.snapshot := by
  rw [CallbackCall.snapshot, hstatus, hresults, CallbackCall.snapshot]

-- Outside the body only a statement of runCall writes a status.
theorem besides_snapshot {l : Label} (hl : ∀ o, l ≠ .body o) (hexec : ∀ now ok, l ≠ .exec now ok)
    (hstep : w.step l = some v) : v.call.snapshot = w.call.snapshot ∧ v.row.snapshot = w.row.snapshot := by
  obtain ⟨i, rfl, hresume⟩ | ⟨now, ok, rfl, _⟩ | ⟨rfl, hfin⟩ | ⟨o, rfl, _⟩ | ⟨_, haside⟩ :=
    step_cases hstep
  · obtain ⟨_, _, _, _, _, _, _, rfl⟩ := resumeRun_eq_some hresume
    exact ⟨rfl, rfl⟩
  · exact absurd rfl (hexec now ok)
  · obtain ⟨_, _, rfl, _⟩ := finalizeRun_starts hfin
    exact ⟨rfl, rfl⟩
  · exact absurd rfl (hl o)
  · obtain ⟨_, _, hcall⟩ := haside.call
    rw [hcall, haside.row]
    exact ⟨rfl, rfl⟩

-- The statements after Finalize write neither status nor results of the record.
theorem exec_snapshot {call row call' row' : CallbackCall} {body next : Body} {stmt : Stmt} {o : Outcome}
    (h : stmt.exec call row body o = some (call', row', next)) (hafter : Stmt.billingFinalize.index < stmt.index) :
    call'.snapshot = call.snapshot := by
  have hcomputes : stmt.computes = false := by
    revert hafter
    cases stmt <;> decide
  have hother : stmt ≠ .status := by
    rintro rfl
    exact absurd hafter (by decide)
  obtain ⟨hsame, _⟩ | ⟨hstatus, _⟩ := (exec_status h).2
  · exact snapshot_congr hsame ((exec_results h).1 hcomputes)
  · exact absurd hstatus hother

end Frame

section Invariant

variable {p q : Polled}

-- The record and the row, past a step.
structure Moved (p q : Polled) : Prop where
  live : .status ∉ q.w.executed → .status ∉ p.w.executed ∧ (q.w.call.status.terminal = false ∨
    q.w.call.status = p.w.call.status)
  billed : .billingFinalize ∈ p.w.executed →
    .billingFinalize ∈ q.w.executed ∧ q.w.call.snapshot = p.w.call.snapshot
  row : .updateCallFinal ∈ q.w.executed → q.w.row.snapshot = q.w.call.snapshot ∨
    .updateCallFinal ∈ p.w.executed ∧ q.w.row.snapshot = p.w.row.snapshot

theorem SnapshotInv.moved (h : SnapshotInv p) (hmoved : Moved p q) (hsettling : Settling q.w) (hrest : RestInv q.w)
    (hresponses : q.responses = p.responses) : SnapshotInv q := by
  refine ⟨hsettling, hrest, ?_, ?_, ?_, by rw [hresponses]; exact h.pairwise⟩
  · intro hnot
    obtain ⟨hbefore, hopen | hsame⟩ := hmoved.live hnot
    · exact hopen
    · rw [hsame]
      exact h.live hbefore
  · intro hpersisted
    obtain hdone | ⟨hbefore, hsame⟩ := hmoved.row hpersisted
    · exact hdone
    · have hbilled : Stmt.billingFinalize ∈ p.w.executed := h.settling.executed_down hbefore (by decide)
      rw [hsame, h.row hbefore, (hmoved.billed hbilled).2]
  · rw [hresponses]
    intro response hresponse hterminal
    obtain ⟨hbilled, hsnapshot⟩ := h.responses response hresponse hterminal
    obtain ⟨hstill, hsame⟩ := hmoved.billed hbilled
    exact ⟨hstill, hsnapshot.trans hsame.symm⟩

theorem moved_body (h : SnapshotInv p) {o : Outcome} (halone : Alone p (.move (.body o)) = true)
    (hstep : p.w.bodyStep o = some q.w) : Moved p q := by
  obtain ⟨stmt, body, call, row, next, hrunning, hexec, hq⟩ := bodyStep_eq_some hstep
  have hexecuted := bodyStep_executed hstep hrunning
  have hcall : q.w.call = call := by rw [hq]
  have hrow : q.w.row = row := by rw [hq]
  have hmem : ∀ earlier, earlier ∈ q.w.executed ↔ earlier ∈ p.w.executed ∨ earlier = stmt := by
    simp [hexecuted]
  refine ⟨?_, ?_, ?_⟩
  · intro hnot
    rw [hmem, not_or] at hnot
    obtain ⟨hsame, _⟩ | ⟨rfl, _⟩ := (exec_status hexec).2
    · exact ⟨hnot.1, .inr (by rw [hcall, hsame])⟩
    · exact absurd rfl hnot.2
  · intro hbilled
    refine ⟨(hmem _).mpr (.inl hbilled), ?_⟩
    rw [hcall]
    exact exec_snapshot hexec (h.settling.before hrunning hbilled)
  · intro hpersisted
    obtain ⟨rfl, hother⟩ | ⟨rfl, _, rfl, rfl⟩ := (exec_results hexec).2
    · rw [hmem] at hpersisted
      obtain hbefore | rfl := hpersisted
      · exact .inr ⟨hbefore, by rw [hrow]⟩
      · -- updateCallFinal does not fail
        rw [hother rfl] at halone
        cases halone
    · rw [hcall, hrow]
      exact .inl rfl

theorem moved_besides (h : SnapshotInv p) {l : Label} (hl : ∀ o, l ≠ .body o) (halone : Alone p (.move l) = true)
    (hstep : p.w.step l = some q.w) : Moved p q := by
  have hexecuted := step_executed hl hstep
  by_cases hexec : ∃ now ok, l = .exec now ok
  · obtain ⟨now, ok, rfl⟩ := hexec
    have hnone : p.w.executed = [] := h.settling.nothing (by simpa [Alone] using halone)
    refine ⟨fun _ => ⟨by simp [hnone], ?_⟩, by simp [hnone], by simp [hexecuted, hnone]⟩
    obtain ⟨_, _, ⟨_, _, hq⟩ | ⟨a, hrun, _, hq⟩⟩ := execRun_eq_some hstep
    · exact .inr (by rw [hq])
    · obtain hsame | ⟨s, rfl, hs⟩ := onCall_status now p.w.call a
      · exact .inr (by rw [hq]; exact hsame)
      · have hopen := h.rest.pending s (.inl (by rw [pending_script hrun]; exact List.mem_cons_self ..))
        exact .inl (by rw [hq]; exact (congrArg Status.terminal hs).trans hopen)
  · obtain ⟨hcall, hrow⟩ := besides_snapshot hl (fun now ok ho => hexec ⟨now, ok, ho⟩) hstep
    rw [CallbackCall.snapshot, CallbackCall.snapshot, Snapshot.mk.injEq] at hcall
    refine ⟨?_, ?_, ?_⟩ <;> rw [hexecuted]
    · exact fun hnot => ⟨hnot, .inr hcall.1⟩
    · exact fun hbilled => ⟨hbilled, snapshot_congr hcall.1 hcall.2⟩
    · exact fun hpersisted => .inr ⟨hpersisted, hrow⟩

-- Where the record carries its costs, or is not shown any more, what is shown is
-- the record.
theorem SnapshotInv.shown (h : SnapshotInv p) : p.w.shown.snapshot = p.w.call.snapshot := by
  unfold ActiveCall.shown
  cases hmap : p.w.inMap with
  | true => rfl
  | false =>
      refine h.row ?_
      rw [h.settling.gone hmap]
      decide

theorem SnapshotInv.read (h : SnapshotInv p) {auth : Option AuthData} {columns : CallRow}
    (hreads : ReadsBilled p (.getCallStatus auth columns) = true)
    (hstep : p.step (.getCallStatus auth columns) = some q) :
    SnapshotInv q := by
  obtain rfl | ⟨hw, response, hresponses, hsnapshot⟩ := getCallStatus_eq_some hstep
  · exact h
  · rw [h.shown] at hsnapshot
    have hbilled : response.status.terminal = true → .billingFinalize ∈ p.w.executed := by
      intro hterminal
      have hstatus : response.status = p.w.call.status := congrArg Snapshot.status hsnapshot
      have hwritten : .status ∈ p.w.executed := by
        by_contra hnot
        rw [hstatus, h.live hnot] at hterminal
        cases hterminal
      simp only [ReadsBilled, hwritten, not_true_eq_false, decide_false, Bool.or_false, Bool.or_eq_true,
        Bool.not_eq_true', decide_eq_true_eq] at hreads
      obtain hgone | hbilled := hreads
      · rw [h.settling.gone hgone]
        decide
      · exact hbilled
    refine ⟨hw ▸ h.settling, hw ▸ h.rest, hw ▸ h.live, hw ▸ h.row, ?_, ?_⟩
    · intro other hother hterminal
      rw [hresponses, List.mem_append, List.mem_singleton] at hother
      rw [hw]
      obtain hother | rfl := hother
      · exact h.responses other hother hterminal
      · exact ⟨hbilled hterminal, hsnapshot⟩
    · rw [hresponses]
      refine List.pairwise_append.mpr ⟨h.pairwise, List.pairwise_singleton .., ?_⟩
      intro earlier hearlier later hlater hterminal
      rw [List.mem_singleton] at hlater
      rw [hlater, hsnapshot, (h.responses earlier hearlier hterminal).2]

end Invariant

-- Whatever GetCallStatus requests come between the steps of a call that only
-- finalizeCall ends: if none reads the record between its status and its costs, every
-- response after a terminal one has its status, durations, costs and wastage.
theorem snapshots_final {r : Request} {hold : Hold} {aGateway bGateway callerID : String} {labels : List PollLabel}
    {p : Polled}
    (hrun : Machine.run (Machine.restrict ReadsBilled (Machine.restrict Alone Polled.step))
      (.init (callRecord r hold aGateway bGateway callerID)) labels = some p) :
    p.responses.Pairwise fun earlier later => earlier.status.terminal = true → later.snapshot = earlier.snapshot := by
  have hinv : SnapshotInv p := by
    rw [Machine.restrict_restrict] at hrun
    refine Machine.restrict_invariant (P := SnapshotInv) ?_ ⟨settling_init _, restInv_init rfl, ?_, ?_, ?_, ?_⟩ hrun
    · rintro p l q h hallowed hstep
      simp only [Bool.and_eq_true] at hallowed
      cases l with
      | getCallStatus auth columns => exact h.read hallowed.1 hstep
      | move l =>
          obtain ⟨hmove, hresponses⟩ := move_eq_some hstep
          have hmoved : Moved p q := by
            by_cases hl : ∃ o, l = .body o
            · obtain ⟨o, rfl⟩ := hl
              exact moved_body h hallowed.2 hmove
            · exact moved_besides h (fun o ho => hl ⟨o, ho⟩) hallowed.2 hmove
          exact h.moved hmoved (h.settling.step hmove) (h.rest.step h.settling hmove) hresponses
    · exact fun _ => rfl
    all_goals simp [Polled.init, ActiveCall.init, ActiveCall.executed]
  exact hinv.pairwise

-- The owner of the call asks for it.
def asks : List PollLabel :=
  [.getCallStatus (some ⟨1, "client"⟩) ⟨⟨sampleCall, [], 0, 0⟩, none, none, none⟩]

-- A alone is connected, for seven and a half seconds. The body runs up to its status.
def setsStatus : List PollLabel :=
  (dialsOnlyA 7500000000 ++ [Label.body (.time 7500000000), .body .ok, .body .ok, .body .ok, .body (.config none),
    .body .ok]).map .move

def persists : List PollLabel :=
  [Label.body (.count 0), .body .ok, .body .ok, .body .ok, .body .ok, .body .ok].map .move

theorem snapshots_final_asks :
    ∃ p, Machine.run (Machine.restrict ReadsBilled (Machine.restrict Alone Polled.step))
        (.init (callRecord sampleRequest ⟨2, 60, 120⟩ "gw-a" "gw-b" "4001"))
        (setsStatus ++ [.move (.body .ok)] ++ asks ++ persists ++ asks) = some p ∧
      p.responses.map (fun response => (response.status, response.billing.totalCost)) =
        [(.failed, 12), (.failed, 12)] ∧
      p.responses.Pairwise fun earlier later =>
        earlier.status.terminal = true → later.snapshot = earlier.snapshot :=
  ⟨_, rfl, rfl, @snapshots_final sampleRequest ⟨2, 60, 120⟩ "gw-a" "gw-b" "4001"
    (setsStatus ++ [.move (.body .ok)] ++ asks ++ persists ++ asks) _ rfl⟩

-- Asked before Finalize and after it, the call is failed twice, at two costs.
theorem unbilled_asks :
    ∃ p, Machine.run (Machine.restrict Alone Polled.step)
        (.init (callRecord sampleRequest ⟨2, 60, 120⟩ "gw-a" "gw-b" "4001"))
        (setsStatus ++ asks ++ [.move (.body .ok)] ++ asks) = some p ∧
      p.responses.map (fun response => (response.status, response.billing.totalCost)) =
        [(.failed, 0), (.failed, 12)] ∧
      ¬ p.responses.Pairwise fun earlier later =>
        earlier.status.terminal = true → later.snapshot = earlier.snapshot :=
  ⟨_, rfl, rfl, by decide⟩

end Bos3000.Callback
