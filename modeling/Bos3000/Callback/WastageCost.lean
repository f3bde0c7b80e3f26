import Bos3000.Callback.BilledTime
import Bos3000.Callback.Results

-- The cost of wastage that finalizeCall records against what Finalize bills.
namespace Bos3000.Callback

open Billing (FinalizeParams LegFits legCost)
open ExactInt64 (Fits)

-- bridge_broken_early_threshold_sec of system_configs, as finalizeCall reads it.
def bridgeBrokenThresholdSec (config : Option String) : Int64 := Int64.ofInt ((config.bind parseInt).getD 10)

-- The cost of a leg that was answered and hung up at these times, or is still
-- connected.
def connectedCost (start stop : Option Time) (now : Time) (ratePerMin blockSizeSec : Int64) : Int64 :=
  match start with
  | none => 0
  | some start => calculateCost (seconds (Time.sub (stop.getD now) start)) ratePerMin blockSizeSec

-- The record after the body up to a Finalize that succeeds.
def CallbackCall.finalized (call : CallbackCall) (now : Time) (thresholdSec : Int64) (s : Status) : CallbackCall :=
  recordCosts
    { recordWastage
        { call with
          aDurationMs := Callback.durationMs call.aAnswerAt call.aHangupAt now call.aDurationMs
          bDurationMs := Callback.durationMs call.bAnswerAt call.bHangupAt now call.bDurationMs
          bridgeDurationMs := Callback.durationMs call.bridgeAt call.bridgeEndAt now call.bridgeDurationMs }
        thresholdSec with
      status := s }

def bodyToFinalize (now : Time) (config : Option String) : List Label :=
  [.body (.time now), .body .ok, .body .ok, .body .ok, .body (.config config), .body .ok, .body .ok]

theorem run_bodyToFinalize {w : ActiveCall} {s : Status} (hstart : w.finalized = .running (Body.start s))
    (now : Time) (config : Option String) :
    ∃ v, Machine.run ActiveCall.step w (bodyToFinalize now config) = some v ∧ v.billed ∧
      v.call = w.call.finalized now (bridgeBrokenThresholdSec config) s := by
  obtain ⟨call, row, inMap, cancelled, eventCh, finalized, runCall, threads, log⟩ := w
  subst hstart
  refine ⟨_, rfl, ?_, rfl⟩
  simp [ActiveCall.billed]

section Cost

variable {rate block : Int64} {start stop : Option Time} {now : Time}

theorem seconds_eq (d : Duration) : seconds d = milliseconds d / 1000 := by
  have hnonneg : ∀ n : Int, 0 ≤ n → (n.tdiv 1000000).tdiv 1000 = n.tdiv 1000000000 := by
    intro n hn
    rw [Int.tdiv_eq_ediv_of_nonneg hn, Int.tdiv_eq_ediv_of_nonneg hn, Int.tdiv_eq_ediv_of_nonneg] <;> omega
  apply Int64.toInt_inj.mp
  rw [seconds, milliseconds, Int64.toInt_div_of_ne_right _ 1000000000 (by decide),
    Int64.toInt_div_of_ne_right _ 1000 (by decide), Int64.toInt_div_of_ne_right d 1000000 (by decide)]
  change d.toInt.tdiv 1000000000 = (d.toInt.tdiv 1000000).tdiv 1000
  by_cases h : 0 ≤ d.toInt
  · exact (hnonneg d.toInt h).symm
  · have hneg := hnonneg (-d.toInt) (by omega)
    rw [Int.neg_tdiv, Int.neg_tdiv, Int.neg_tdiv] at hneg
    omega

theorem calculateCost_of_nonpos {durationSec : Int64} (h : durationSec.toInt ≤ 0) :
    calculateCost durationSec rate block = 0 := by
  rw [calculateCost, if_pos (.inl (by rwa [Int64.le_iff_toInt_le, Int64.toInt_zero]))]

-- The two formulas for a cost differ at negative rates only.
theorem legCost_eq_calculateCost (hrate : 0 ≤ rate.toInt) (durationSec : Int64) :
    legCost block durationSec rate = calculateCost durationSec rate block := by
  by_cases hpos : 0 < durationSec.toInt
  · by_cases hzero : rate = 0
    · subst hzero
      simp [legCost, calculateCost]
    · have hrated : ¬ (durationSec ≤ 0 ∨ rate ≤ 0) := by
        have hne : rate.toInt ≠ 0 := fun h => hzero (Int64.toInt_inj.mp h)
        rw [Int64.le_iff_toInt_le, Int64.le_iff_toInt_le, Int64.toInt_zero]
        omega
      rw [legCost, if_pos (ExactInt64.pos_iff.mpr hpos), calculateCost, if_neg hrated]
  · rw [legCost, if_neg (mt ExactInt64.pos_iff.mp hpos), calculateCost_of_nonpos (by omega)]

theorem legCost_durationMs (hrate : 0 ≤ rate.toInt) :
    legCost block (durationMs start stop now 0 / 1000) rate = connectedCost start stop now rate block := by
  rw [legCost_eq_calculateCost hrate]
  unfold durationMs connectedCost
  cases start with
  | none =>
      change calculateCost (0 / 1000) rate block = 0
      exact calculateCost_of_nonpos (by decide)
  | some start =>
      simp only
      split
      · rename_i hneg
        rw [Int64.lt_iff_toInt_lt, Int64.toInt_zero] at hneg
        have hsec : (seconds (Time.sub (stop.getD now) start)).toInt ≤ 0 := by
          rw [seconds_eq, Int64.toInt_div_of_ne_right _ 1000 (by decide)]
          exact Int.tdiv_le_tdiv (b := 0) (by decide) (Int.le_of_lt hneg)
        rw [calculateCost_of_nonpos hsec]
        exact calculateCost_of_nonpos (by decide)
      · rw [seconds_eq]

end Cost

-- The cost of wastage is the cost of the A leg if only A was connected, and no more
-- than the whole cost of the call in any case.
def WastageAgrees (call : CallbackCall) : Prop :=
  (call.wastageType = some .a_connected_b_failed → call.wastageCost = some call.aLegCost) ∧
  ∀ type, call.wastageType = some type → ∃ cost, call.wastageCost = some cost ∧ cost ≤ call.totalCost

-- A hung up after a second at least, or before its first block costs anything; or it
-- has not hung up, and its blocks up to now cost nothing. A bridge that broke early
-- costs no more than the legs for the time they were connected.
def WastageMatches (call : CallbackCall) (now : Time) (thresholdSec : Int64) : Prop :=
  match call.aAnswerAt, call.bAnswerAt with
  | some aAnswerAt, none =>
      match call.aHangupAt with
      | some aHangupAt => 1 ≤ seconds (Time.sub aHangupAt aAnswerAt) ∨ calculateCost 1 call.aLegRate 6 = 0
      | none => calculateCost (seconds (Time.sub now aAnswerAt)) call.aLegRate 6 = 0
  | _, _ =>
      match call.bridgeAt, call.bridgeEndAt with
      | some bridgeAt, some bridgeEndAt =>
          let bridgeSec := seconds (Time.sub bridgeEndAt bridgeAt)
          bridgeSec < thresholdSec →
            calculateCost bridgeSec call.aLegRate 6 + calculateCost bridgeSec call.bLegRate 60 ≤
              connectedCost call.aAnswerAt call.aHangupAt now call.aLegRate 6 +
                connectedCost call.bAnswerAt call.bHangupAt now call.bLegRate 60
      | _, _ => True

section Finalized

variable {call : CallbackCall} {now : Time} {thresholdSec : Int64} {s : Status}

theorem finalized_costs (ha : call.aDurationMs = 0) (hb : call.bDurationMs = 0) (harate : 0 ≤ call.aLegRate.toInt)
    (hbrate : 0 ≤ call.bLegRate.toInt) :
    (call.finalized now thresholdSec s).aLegCost =
        connectedCost call.aAnswerAt call.aHangupAt now call.aLegRate 6 ∧
      (call.finalized now thresholdSec s).totalCost =
        connectedCost call.aAnswerAt call.aHangupAt now call.aLegRate 6 +
          connectedCost call.bAnswerAt call.bHangupAt now call.bLegRate 60 := by
  let measured : CallbackCall :=
    { call with
      aDurationMs := Callback.durationMs call.aAnswerAt call.aHangupAt now call.aDurationMs
      bDurationMs := Callback.durationMs call.bAnswerAt call.bHangupAt now call.bDurationMs
      bridgeDurationMs := Callback.durationMs call.bridgeAt call.bridgeEndAt now call.bridgeDurationMs }
  have hparams : finalizeParams (recordWastage measured thresholdSec) = finalizeParams measured :=
    finalizeParams_congr (recordWastage_fixed ..) (recordWastage_costs ..)
  have haLeg : (finalizeParams measured).aLegCost =
      connectedCost call.aAnswerAt call.aHangupAt now call.aLegRate 6 := by
    rw [← legCost_durationMs harate, Billing.aLegCost_eq]
    simp only [finalizeParams, measured, ha]
  have hbLeg : (finalizeParams measured).bLegCost =
      connectedCost call.bAnswerAt call.bHangupAt now call.bLegRate 60 := by
    rw [← legCost_durationMs hbrate, Billing.bLegCost_eq]
    simp only [finalizeParams, measured, hb]
  constructor
  · exact (congrArg FinalizeParams.aLegCost hparams).trans haLeg
  · rw [← haLeg, ← hbLeg]
    exact congrArg FinalizeParams.actualCost hparams

theorem recordWastage_wastage (call : CallbackCall) (thresholdSec : Int64) :
    ((recordWastage call thresholdSec).wastageType, (recordWastage call thresholdSec).wastageCost) =
      ((classifyWastage call thresholdSec).elim (call.wastageType, call.wastageCost) fun (type, cost) =>
        (some type, some cost)) := by
  unfold recordWastage
  cases classifyWastage call thresholdSec <;> rfl

-- classifyWastage reads no duration.
theorem finalized_wastage :
    ((call.finalized now thresholdSec s).wastageType, (call.finalized now thresholdSec s).wastageCost) =
      ((classifyWastage call thresholdSec).elim (call.wastageType, call.wastageCost) fun (type, cost) =>
        (some type, some cost)) :=
  recordWastage_wastage _ thresholdSec

theorem agrees_unclassified (htype : call.wastageType = none) : WastageAgrees call := by
  simp [WastageAgrees, htype]

theorem agrees_connected {cost : Int64} (htype : call.wastageType = some .a_connected_b_failed)
    (hcost : call.wastageCost = some cost) (htotal : call.totalCost = call.aLegCost) :
    WastageAgrees call ↔ cost = call.aLegCost := by
  simp only [WastageAgrees, htype, hcost, htotal, Option.some.injEq, forall_const, forall_eq', exists_eq_left']
  constructor
  · exact And.left
  · intro heq
    exact ⟨heq, by rw [heq]; exact Int64.le_refl _⟩

theorem agrees_broken {cost : Int64} (htype : call.wastageType = some .bridge_broken_early)
    (hcost : call.wastageCost = some cost) : WastageAgrees call ↔ cost ≤ call.totalCost := by
  simp [WastageAgrees, htype, hcost]

-- Only A was connected.
theorem finalized_agrees_connected {aAnswerAt : Time} (haAnswer : call.aAnswerAt = some aAnswerAt)
    (hbAnswer : call.bAnswerAt = none) (ha : call.aDurationMs = 0) (hb : call.bDurationMs = 0)
    (harate : 0 ≤ call.aLegRate.toInt) (hbrate : 0 ≤ call.bLegRate.toInt) :
    WastageAgrees (call.finalized now thresholdSec s) ↔ WastageMatches call now thresholdSec := by
  obtain ⟨haLeg, htotal⟩ := @finalized_costs _ now thresholdSec s ha hb harate hbrate
  obtain ⟨htype, hcost⟩ := Prod.mk.inj (@finalized_wastage call now thresholdSec s)
  have hsame : (call.finalized now thresholdSec s).totalCost = (call.finalized now thresholdSec s).aLegCost := by
    rw [htotal, haLeg, hbAnswer]
    exact Int64.add_zero _
  simp only [connectedCost, haAnswer] at haLeg
  cases hhangup : call.aHangupAt with
  | none =>
      simp only [classifyWastage, haAnswer, hbAnswer, hhangup] at htype hcost
      rw [agrees_connected htype hcost hsame, haLeg]
      simp only [WastageMatches, haAnswer, hbAnswer, hhangup, Option.getD_none]
      exact eq_comm
  | some aHangupAt =>
      simp only [classifyWastage, haAnswer, hbAnswer, hhangup] at htype hcost
      rw [agrees_connected htype hcost hsame, haLeg]
      simp only [WastageMatches, haAnswer, hbAnswer, hhangup, Option.getD_some]
      have hone : (1 : Int64).toInt = 1 := rfl
      by_cases hsec : seconds (Time.sub aHangupAt aAnswerAt) < 1
      · have hnonpos : (seconds (Time.sub aHangupAt aAnswerAt)).toInt ≤ 0 := by
          rw [Int64.lt_iff_toInt_lt] at hsec
          omega
        have hshort : ¬ 1 ≤ seconds (Time.sub aHangupAt aAnswerAt) := by
          rw [Int64.le_iff_toInt_le]
          omega
        rw [if_pos hsec, calculateCost_of_nonpos hnonpos]
        simp only [hshort, false_or]
      · have hlong : 1 ≤ seconds (Time.sub aHangupAt aAnswerAt) := by
          rw [Int64.lt_iff_toInt_lt] at hsec
          rw [Int64.le_iff_toInt_le]
          omega
        rw [if_neg hsec]
        simp only [hlong, true_or]

theorem classifyWastage_bridged {bridgeAt bridgeEndAt : Time} (hbridgeAt : call.bridgeAt = some bridgeAt)
    (hbridgeEndAt : call.bridgeEndAt = some bridgeEndAt)
    (hanswer : ¬ (call.aAnswerAt.isSome = true ∧ call.bAnswerAt = none)) :
    classifyWastage call thresholdSec =
      if seconds (Time.sub bridgeEndAt bridgeAt) < thresholdSec then
        some (.bridge_broken_early, calculateCost (seconds (Time.sub bridgeEndAt bridgeAt)) call.aLegRate 6 +
          calculateCost (seconds (Time.sub bridgeEndAt bridgeAt)) call.bLegRate 60)
      else none := by
  unfold classifyWastage
  split
  · rename_i haAnswer hbAnswer
    exact absurd ⟨by rw [haAnswer]; rfl, hbAnswer⟩ hanswer
  · simp only [hbridgeAt, hbridgeEndAt]

theorem classifyWastage_unbridged (hbridge : call.bridgeAt = none ∨ call.bridgeEndAt = none)
    (hanswer : ¬ (call.aAnswerAt.isSome = true ∧ call.bAnswerAt = none)) :
    classifyWastage call thresholdSec = none := by
  unfold classifyWastage
  split
  · rename_i haAnswer hbAnswer
    exact absurd ⟨by rw [haAnswer]; rfl, hbAnswer⟩ hanswer
  · split
    · rename_i hbridgeAt hbridgeEndAt
      simp [hbridgeAt, hbridgeEndAt] at hbridge
    · rfl

-- B was connected, or nobody was.
theorem finalized_agrees_bridged (hanswer : ¬ (call.aAnswerAt.isSome = true ∧ call.bAnswerAt = none))
    (ha : call.aDurationMs = 0) (hb : call.bDurationMs = 0) (hnone : call.wastageType = none)
    (harate : 0 ≤ call.aLegRate.toInt) (hbrate : 0 ≤ call.bLegRate.toInt) :
    WastageAgrees (call.finalized now thresholdSec s) ↔ WastageMatches call now thresholdSec := by
  obtain ⟨_, htotal⟩ := @finalized_costs _ now thresholdSec s ha hb harate hbrate
  obtain ⟨htype, hcost⟩ := Prod.mk.inj (@finalized_wastage call now thresholdSec s)
  unfold WastageMatches
  split
  · rename_i haAnswer hbAnswer
    exact absurd ⟨by rw [haAnswer]; rfl, hbAnswer⟩ hanswer
  · split
    · rename_i bridgeAt bridgeEndAt hbridgeAt hbridgeEndAt
      rw [classifyWastage_bridged hbridgeAt hbridgeEndAt hanswer] at htype hcost
      by_cases hearly : seconds (Time.sub bridgeEndAt bridgeAt) < thresholdSec
      · rw [if_pos hearly] at htype hcost
        rw [agrees_broken htype hcost, htotal]
        simp only [hearly, forall_const]
      · rw [if_neg hearly] at htype
        simp only [hearly, false_implies, iff_true]
        exact agrees_unclassified (htype.trans hnone)
    · rename_i hbridge
      have hmissing : call.bridgeAt = none ∨ call.bridgeEndAt = none := by
        cases hbridgeAt : call.bridgeAt <;> cases hbridgeEndAt : call.bridgeEndAt <;> simp_all
      rw [classifyWastage_unbridged hmissing hanswer] at htype
      exact iff_of_true (agrees_unclassified (htype.trans hnone)) trivial

theorem toInt_calculateCost {durationSec rate block : Int64} (hblock : 0 < block.toInt) (hrate : 0 ≤ rate.toInt)
    (hfits : LegFits block durationSec rate) :
    (calculateCost durationSec rate block).toInt = Blocks.cost block.toInt 60 durationSec.toInt rate.toInt := by
  rw [← legCost_eq_calculateCost hrate, Billing.toInt_legCost_eq hblock hrate hfits]

-- A time within another costs no more.
theorem calculateCost_mono {durationSec durationSec' rate block : Int64} (hblock : 0 < block.toInt)
    (hrate : 0 ≤ rate.toInt) (hwithin : durationSec.toInt ≤ durationSec'.toInt)
    (hfits : LegFits block durationSec' rate) :
    0 ≤ (calculateCost durationSec rate block).toInt ∧
      (calculateCost durationSec rate block).toInt ≤ (calculateCost durationSec' rate block).toInt := by
  have hcost' := toInt_calculateCost hblock hrate hfits
  by_cases hpos : 0 ≤ durationSec.toInt
  · have hcost := toInt_calculateCost hblock hrate (hfits.mono hblock hpos hwithin hrate (Int.le_refl _))
    rw [hcost, hcost']
    exact ⟨Blocks.cost_nonneg hblock (by decide) hrate,
      Blocks.cost_mono hblock (by decide) hwithin hrate (Int.le_refl _)⟩
  · rw [calculateCost_of_nonpos (by omega), hcost', Int64.toInt_zero]
    exact ⟨Int.le_refl 0, Blocks.cost_nonneg hblock (by decide) hrate⟩

-- A bridge that lies within the time of both legs matches, if nothing overflows.
theorem wastageMatches_within {aAnswerAt bAnswerAt bridgeAt bridgeEndAt : Time}
    (haAnswer : call.aAnswerAt = some aAnswerAt)
    (hbAnswer : call.bAnswerAt = some bAnswerAt) (hbridgeAt : call.bridgeAt = some bridgeAt)
    (hbridgeEndAt : call.bridgeEndAt = some bridgeEndAt) (harate : 0 ≤ call.aLegRate.toInt)
    (hbrate : 0 ≤ call.bLegRate.toInt)
    (haWithin : (seconds (Time.sub bridgeEndAt bridgeAt)).toInt ≤
      (seconds (Time.sub (call.aHangupAt.getD now) aAnswerAt)).toInt)
    (hbWithin : (seconds (Time.sub bridgeEndAt bridgeAt)).toInt ≤
      (seconds (Time.sub (call.bHangupAt.getD now) bAnswerAt)).toInt)
    (haFits : LegFits 6 (seconds (Time.sub (call.aHangupAt.getD now) aAnswerAt)) call.aLegRate)
    (hbFits : LegFits 60 (seconds (Time.sub (call.bHangupAt.getD now) bAnswerAt)) call.bLegRate)
    (hsum : Fits ((connectedCost call.aAnswerAt call.aHangupAt now call.aLegRate 6).toInt +
      (connectedCost call.bAnswerAt call.bHangupAt now call.bLegRate 60).toInt)) :
    WastageMatches call now thresholdSec := by
  have hA := @calculateCost_mono _ _ _ 6 (by decide) harate haWithin haFits
  have hB := @calculateCost_mono _ _ _ 60 (by decide) hbrate hbWithin hbFits
  simp only [connectedCost, haAnswer, hbAnswer] at hsum
  simp only [WastageMatches, haAnswer, hbAnswer, hbridgeAt, hbridgeEndAt, connectedCost]
  intro _
  rw [Int64.le_iff_toInt_le, ExactInt64.toInt_add hsum, ExactInt64.toInt_add]
  · omega
  · unfold Fits at hsum ⊢
    omega

end Finalized

-- However a run brings a record to finalizeCall, whatever time.Now() and the
-- threshold are: if Finalize succeeds, the cost of wastage agrees with the bill
-- exactly for the records that match.
theorem wastage_agrees_iff {call : CallbackCall} (hnew : call.results = .none) {labels : List Label} {w : ActiveCall}
    (hrun : Machine.run ActiveCall.step (.init call) labels = some w) {s : Status}
    (hstart : w.finalized = .running (Body.start s)) (harate : 0 ≤ w.call.aLegRate.toInt)
    (hbrate : 0 ≤ w.call.bLegRate.toInt) (now : Time) (config : Option String) :
    ∃ v, Machine.run ActiveCall.step w (bodyToFinalize now config) = some v ∧ v.billed ∧
      (WastageAgrees v.call ↔ WastageMatches w.call now (bridgeBrokenThresholdSec config)) := by
  obtain ⟨v, hbody, hbilled, hcall⟩ := run_bodyToFinalize hstart now config
  refine ⟨v, hbody, hbilled, ?_⟩
  have hexecuted : w.executed = [] := by
    have hsplit := (settling_run hrun).body.executed
    rw [hstart] at hsplit
    simpa [Body.start] using hsplit.1
  have hnone : w.call.results = .none := (results_run hrun hexecuted).trans hnew
  have ha : w.call.aDurationMs = 0 := congrArg (fun r => r.costs.aDurationMs) hnone
  have hb : w.call.bDurationMs = 0 := congrArg (fun r => r.costs.bDurationMs) hnone
  have htype : w.call.wastageType = none := congrArg Results.wastageType hnone
  rw [hcall]
  by_cases hconnected : w.call.aAnswerAt.isSome = true ∧ w.call.bAnswerAt = none
  · obtain ⟨aAnswerAt, haAnswer⟩ := Option.isSome_iff_exists.mp hconnected.1
    exact finalized_agrees_connected haAnswer hconnected.2 ha hb harate hbrate
  · exact finalized_agrees_bridged hconnected ha hb htype harate hbrate

theorem wastage_agrees_dialsOnlyA :
    ∃ w, Machine.run ActiveCall.step (.init sampleCall) (dialsOnlyA 7500000000) = some w ∧
      ∃ v, Machine.run ActiveCall.step w (bodyToFinalize 7500000000 none) = some v ∧ v.billed ∧
        (WastageAgrees v.call ↔ WastageMatches w.call 7500000000 (bridgeBrokenThresholdSec none)) :=
  ⟨_, rfl, @wastage_agrees_iff sampleCall rfl (dialsOnlyA 7500000000) _ rfl .failed rfl (by decide) (by decide)
    7500000000 none⟩

-- Half a second of A is wastage for one block, and billed for none.
theorem disagrees_dialsOnlyA :
    ∃ w v, Machine.run ActiveCall.step (.init sampleCall) (dialsOnlyA 500000000) = some w ∧
      Machine.run ActiveCall.step w (bodyToFinalize 500000000 none) = some v ∧ v.billed ∧
      v.call.wastageType = some .a_connected_b_failed ∧ v.call.wastageCost = some 6 ∧ v.call.aLegCost = 0 ∧
      v.call.totalCost = 0 ∧ ¬ WastageAgrees v.call :=
  ⟨_, _, rfl, rfl, by decide, rfl, rfl, rfl, rfl, fun h => absurd (h.1 rfl) (by decide)⟩

end Bos3000.Callback
