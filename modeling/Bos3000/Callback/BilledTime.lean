import Bos3000.Billing.BlockCost
import Bos3000.Callback.Costs
import Bos3000.Callback.Terminal

-- The time a leg was connected against the blocks it is billed.
namespace Bos3000.Callback

open Billing (finalizeResponse legBlocks)

def Leg.block : Leg → Int64
  | .A => 6
  | .B => 60

def CallbackCall.answerAt (call : CallbackCall) : Leg → Option Time
  | .A => call.aAnswerAt
  | .B => call.bAnswerAt

def CallbackCall.hangupAt (call : CallbackCall) : Leg → Option Time
  | .A => call.aHangupAt
  | .B => call.bHangupAt

def CallbackCall.durationMs (call : CallbackCall) : Leg → Int64
  | .A => call.aDurationMs
  | .B => call.bDurationMs

-- The blocks that Finalize bills for the durations that finalizeCall passes to it.
def CallbackCall.billedBlocks (call : CallbackCall) : Leg → Int64
  | .A => legBlocks 6 (finalizeParams call).aLegDurationSec
  | .B => legBlocks 60 (finalizeParams call).bLegDurationSec

theorem finalizeParams_aLegCost (call : CallbackCall) :
    (finalizeParams call).aLegCost = call.billedBlocks .A * 6 * call.aLegRate / 60 :=
  Billing.legCost_eq_blocks ..

theorem finalizeParams_bLegCost (call : CallbackCall) :
    (finalizeParams call).bLegCost = call.billedBlocks .B * 60 * call.bLegRate / 60 :=
  Billing.legCost_eq_blocks ..

-- The blocks are at least as long as the leg was connected.
def CallbackCall.Covered (call : CallbackCall) (leg : Leg) : Prop :=
  (call.durationMs leg).toInt ≤ (call.billedBlocks leg).toInt * (leg.block.toInt * 1000)

instance (call : CallbackCall) (leg : Leg) : Decidable (call.Covered leg) := inferInstanceAs (Decidable (_ ≤ _))

-- Cutting the milliseconds from start to stop down to seconds loses nothing that
-- the last block does not make up for.
def roundsUp (block : Int64) (start stop : Option Time) (now : Time) : Bool :=
  match start with
  | none => true
  | some start =>
      let ms := (milliseconds (Time.sub (stop.getD now) start)).toInt
      ms ≤ 0 || ms % 1000 = 0 || ms / 1000 % block.toInt ≠ 0

def Stmt.duration : Leg → Stmt
  | .A => .aDuration
  | .B => .bDuration

-- The step does not take the duration of a leg that is billed short.
def RoundsUp (leg : Leg) (w : ActiveCall) : Label → Bool
  | .body .ok =>
      match w.finalized with
      | .running ⟨stmt :: _, _, now, _⟩ =>
          stmt ≠ .duration leg || roundsUp leg.block (w.call.answerAt leg) (w.call.hangupAt leg) now
      | _ => true
  | _ => true

section Duration

variable {start stop : Option Time} {now : Time}

theorem toInt_milliseconds_le (d : Duration) : (milliseconds d).toInt ≤ 9223372036854 := by
  rw [milliseconds, Int64.toInt_div_of_ne_right d 1000000 (by decide)]
  exact Int.tdiv_le_tdiv (by decide) (ExactInt64.fits_toInt d).2

theorem durationMs_bounds : 0 ≤ (durationMs start stop now 0).toInt ∧
    (durationMs start stop now 0).toInt ≤ 9223372036854 := by
  unfold durationMs
  cases start with
  | none => simp
  | some start =>
      simp only
      split
      · decide
      · rename_i hneg
        rw [Int64.lt_iff_toInt_lt, Int64.toInt_zero, Int.not_lt] at hneg
        exact ⟨hneg, toInt_milliseconds_le _⟩

theorem le_legBlocks_iff {block ms : Int64} (hblock : 0 < block.toInt) (hshort : block.toInt ≤ 60)
    (hnonneg : 0 ≤ ms.toInt) (hms : ms.toInt ≤ 9223372036854) :
    ms.toInt ≤ (legBlocks block (ms / 1000)).toInt * (block.toInt * 1000) ↔
      ms.toInt % 1000 = 0 ∨ ms.toInt / 1000 % block.toInt ≠ 0 := by
  have hsec : (ms / 1000).toInt = ms.toInt / 1000 := ExactInt64.toInt_div hnonneg (by decide)
  have hblocks : (legBlocks block (ms / 1000)).toInt = Blocks.count block.toInt (ms.toInt / 1000) := by
    rw [Billing.toInt_legBlocks hblock, hsec]
    · rw [hsec]
      omega
    · rw [hsec]
      unfold ExactInt64.Fits
      omega
  rw [hblocks]
  exact Blocks.le_count_units_iff hblock (by decide)

theorem durationMs_covered_iff {block : Int64} (hblock : 0 < block.toInt) (hshort : block.toInt ≤ 60) :
    (durationMs start stop now 0).toInt ≤
        (legBlocks block (durationMs start stop now 0 / 1000)).toInt * (block.toInt * 1000) ↔
      roundsUp block start stop now = true := by
  rw [le_legBlocks_iff hblock hshort durationMs_bounds.1 durationMs_bounds.2]
  unfold durationMs roundsUp
  cases start with
  | none => simp
  | some start =>
      simp only [Int64.lt_iff_toInt_lt, Int64.toInt_zero, Bool.or_eq_true, decide_eq_true_eq]
      split
      · rename_i hneg
        simp [Int.le_of_lt hneg]
      · rename_i hnonneg
        constructor
        · exact fun h => by omega
        · rintro ((hle | hwhole) | hpart)
          · have hzero : (milliseconds (Time.sub (stop.getD now) start)).toInt = 0 := by omega
            simp [hzero]
          · exact .inl hwhole
          · exact .inr hpart

end Duration

theorem covered_of_zero {call : CallbackCall} {leg : Leg} (h : call.durationMs leg = 0) : call.Covered leg := by
  cases leg <;>
    simp only [CallbackCall.durationMs] at h <;>
    simp [CallbackCall.Covered, CallbackCall.durationMs, CallbackCall.billedBlocks, finalizeParams, legBlocks, h]

theorem covered_congr {c d : CallbackCall} {leg : Leg} (h : c.durationMs leg = d.durationMs leg) :
    c.Covered leg ↔ d.Covered leg := by
  cases leg <;>
    simp only [CallbackCall.durationMs] at h <;>
    simp [CallbackCall.Covered, CallbackCall.durationMs, CallbackCall.billedBlocks, finalizeParams, h]

theorem durationMs_congr {c d : CallbackCall} (h : c.costs = d.costs) (leg : Leg) :
    c.durationMs leg = d.durationMs leg := by
  cases leg with
  | A => exact congrArg Costs.aDurationMs h
  | B => exact congrArg Costs.bDurationMs h

-- Only its own statement writes the duration of a leg.
theorem exec_durationMs {call row call' row' : CallbackCall} {body next : Body} {stmt : Stmt} {o : Outcome}
    (h : stmt.exec call row body o = some (call', row', next)) (leg : Leg) :
    stmt ≠ .duration leg ∧ call'.durationMs leg = call.durationMs leg ∨
    stmt = .duration leg ∧ o = .ok ∧ call'.durationMs leg =
      Callback.durationMs (call.answerAt leg) (call.hangupAt leg) body.now (call.durationMs leg) := by
  revert h
  fun_cases Stmt.exec call row body stmt o <;> intro h <;> cases h
  case case2 | case3 => cases leg <;> simp [Stmt.duration] <;> rfl
  all_goals
    refine .inl ⟨by cases leg <;> simp [Stmt.duration], ?_⟩
    first
      | rfl
      | exact durationMs_congr (recordWastage_costs ..) leg
      | exact durationMs_congr (mergeRecording_costs ..) leg

section Run

variable {leg : Leg} {w v : ActiveCall}

-- While every duration was billed in full, and after one was not.
structure Full (leg : Leg) (w : ActiveCall) : Prop where
  settling : Settling w
  unset : .duration leg ∉ w.executed → w.call.durationMs leg = 0
  covered : w.call.Covered leg

structure Short (leg : Leg) (w : ActiveCall) : Prop where
  settling : Settling w
  taken : .duration leg ∈ w.executed
  uncovered : ¬ w.call.Covered leg

-- The duration of a leg is taken once, from no duration.
theorem body_durationMs (hsettling : Settling w) {o : Outcome} (hstep : w.bodyStep o = some v) (leg : Leg) :
    (.duration leg ∈ v.executed ↔ .duration leg ∈ w.executed) ∧
      v.call.durationMs leg = w.call.durationMs leg ∧
      RoundsUp leg w (.body o) = true ∨
    .duration leg ∉ w.executed ∧ .duration leg ∈ v.executed ∧ ∃ now,
      RoundsUp leg w (.body o) = roundsUp leg.block (w.call.answerAt leg) (w.call.hangupAt leg) now ∧
      v.call.durationMs leg =
        Callback.durationMs (w.call.answerAt leg) (w.call.hangupAt leg) now (w.call.durationMs leg) := by
  obtain ⟨stmt, body, call, row, next, hrunning, hexec, rfl⟩ := bodyStep_eq_some hstep
  have hexecuted := bodyStep_executed hstep hrunning
  obtain ⟨hother, hsame⟩ | ⟨rfl, rfl, hduration⟩ := exec_durationMs hexec leg
  · refine .inl ⟨?_, hsame, ?_⟩
    · rw [hexecuted]
      simp [Ne.symm hother]
    · cases o <;> simp [RoundsUp, hrunning, hother]
  · refine .inr ⟨?_, ?_, body.now, by simp [RoundsUp, hrunning], hduration⟩
    · intro hbefore
      exact absurd (hsettling.before hrunning hbefore) (Nat.lt_irrefl _)
    · rw [hexecuted]
      exact List.mem_append_right _ (List.mem_singleton_self _)

theorem step_durationMs (hsettling : Settling w) {l : Label} (hstep : w.step l = some v) (leg : Leg) :
    (.duration leg ∈ v.executed ↔ .duration leg ∈ w.executed) ∧
      v.call.durationMs leg = w.call.durationMs leg ∧
      RoundsUp leg w l = true ∨
    .duration leg ∉ w.executed ∧ .duration leg ∈ v.executed ∧ ∃ now,
      RoundsUp leg w l = roundsUp leg.block (w.call.answerAt leg) (w.call.hangupAt leg) now ∧
      v.call.durationMs leg =
        Callback.durationMs (w.call.answerAt leg) (w.call.hangupAt leg) now (w.call.durationMs leg) := by
  by_cases hl : ∃ o, l = .body o
  · obtain ⟨o, rfl⟩ := hl
    exact body_durationMs hsettling hstep leg
  · have hl : ∀ o, l ≠ .body o := fun o ho => hl ⟨o, ho⟩
    refine .inl ⟨by rw [step_executed hl hstep], durationMs_congr (step_costs hl hstep).1 leg, ?_⟩
    cases l with
    | body o => exact absurd rfl (hl o)
    | _ => rfl

theorem covered_durationMs {c d : CallbackCall} {now : Time} (hzero : c.durationMs leg = 0)
    (h : d.durationMs leg = Callback.durationMs (c.answerAt leg) (c.hangupAt leg) now (c.durationMs leg)) :
    d.Covered leg ↔ roundsUp leg.block (c.answerAt leg) (c.hangupAt leg) now = true := by
  rw [hzero] at h
  rw [← durationMs_covered_iff (by cases leg <;> decide) (by cases leg <;> decide), ← h]
  cases leg <;> rfl

theorem Full.keep (h : Full leg w) {l : Label} (hallowed : RoundsUp leg w l = true) (hstep : w.step l = some v) :
    Full leg v := by
  refine ⟨h.settling.step hstep, ?_, ?_⟩
  · obtain ⟨hexecuted, hsame, _⟩ | ⟨_, htaken, _⟩ := step_durationMs h.settling hstep leg
    · rw [hexecuted, hsame]
      exact h.unset
    · exact fun hnot => absurd htaken hnot
  · obtain ⟨_, hsame, _⟩ | ⟨hfirst, _, now, hrounds, hduration⟩ := step_durationMs h.settling hstep leg
    · exact (covered_congr hsame).mpr h.covered
    · rw [covered_durationMs (h.unset hfirst) hduration, ← hrounds]
      exact hallowed

theorem Full.leave (h : Full leg w) {l : Label} (hallowed : RoundsUp leg w l = false) (hstep : w.step l = some v) :
    Short leg v := by
  obtain ⟨_, _, hrounds⟩ | ⟨hfirst, htaken, now, hrounds, hduration⟩ := step_durationMs h.settling hstep leg
  · rw [hallowed] at hrounds
    cases hrounds
  · refine ⟨h.settling.step hstep, htaken, ?_⟩
    rw [covered_durationMs (h.unset hfirst) hduration, ← hrounds, hallowed]
    exact Bool.false_ne_true

theorem Short.stay (h : Short leg w) {l : Label} (hstep : w.step l = some v) : Short leg v := by
  obtain ⟨hexecuted, hsame, _⟩ | ⟨hfirst, _⟩ := step_durationMs h.settling hstep leg
  · exact ⟨h.settling.step hstep, hexecuted.mpr h.taken, mt (covered_congr hsame).mp h.uncovered⟩
  · exact absurd h.taken hfirst

theorem covered_iff_roundsUp {call : CallbackCall} (hnew : call.durationMs leg = 0) {labels : List Label}
    (hrun : Machine.run ActiveCall.step (.init call) labels = some w) :
    w.call.Covered leg ↔ Machine.run (Machine.restrict (RoundsUp leg) ActiveCall.step) (.init call) labels =
      some w := by
  have hfull : Full leg (.init call) := ⟨settling_init call, fun _ => hnew, covered_of_zero hnew⟩
  obtain ⟨hrestrict, hfull⟩ | ⟨hrestrict, hshort⟩ :=
    Machine.restrict_or hfull (fun _ _ _ h => h.keep) (fun _ _ _ h => h.leave) (fun _ _ _ h => h.stay) hrun
  · exact ⟨fun _ => hrestrict, fun _ => hfull.covered⟩
  · rw [hrestrict]
    exact ⟨fun hcovered => absurd hcovered hshort.uncovered, fun h => by cases h⟩

end Run

-- The step takes no duration that is billed short.
def BillsInFull (w : ActiveCall) (l : Label) : Bool := RoundsUp .A w l && RoundsUp .B w l

-- A call that Finalize has billed costs its blocks, and they are at least as long
-- as its legs were connected exactly if no step of its run took a duration that is
-- cut down to whole blocks.
theorem billed_covers_iff {call : CallbackCall} (ha : call.aDurationMs = 0) (hb : call.bDurationMs = 0)
    {labels : List Label} {w : ActiveCall} (hrun : Machine.run ActiveCall.step (.init call) labels = some w)
    (hbilled : w.billed) :
    (w.call.aLegCost = w.call.billedBlocks .A * 6 * w.call.aLegRate / 60 ∧
      w.call.bLegCost = w.call.billedBlocks .B * 60 * w.call.bLegRate / 60) ∧
    ((w.call.aDurationMs.toInt ≤ (w.call.billedBlocks .A).toInt * 6000 ∧
        w.call.bDurationMs.toInt ≤ (w.call.billedBlocks .B).toInt * 60000) ↔
      Machine.run (Machine.restrict BillsInFull ActiveCall.step) (.init call) labels = some w) := by
  constructor
  · have hcosts := (costInv_run hrun).costs hbilled
    simp only [CallbackCall.costs, recordCosts, finalizeResponse, Costs.mk.injEq] at hcosts
    obtain ⟨_, _, haLeg, hbLeg, _⟩ := hcosts
    exact ⟨haLeg.trans (finalizeParams_aLegCost _), hbLeg.trans (finalizeParams_bLegCost _)⟩
  · have hA := @covered_iff_roundsUp .A _ _ ha _ hrun
    have hB := @covered_iff_roundsUp .B _ _ hb _ hrun
    constructor
    · rintro ⟨hcoveredA, hcoveredB⟩
      exact Machine.restrict_and (hA.mp hcoveredA) (hB.mp hcoveredB)
    · intro hboth
      refine ⟨hA.mpr (Machine.restrict_mono ?_ hboth), hB.mpr (Machine.restrict_mono ?_ hboth)⟩ <;>
        simp_all [BillsInFull]

-- A answers at once, the B leg cannot be dialled, A is hung up at a given time, and
-- runCall starts the body of finalizeCall.
def dialsOnlyA (hangupAt : Time) : List Label :=
  [Label.resume (.load true), .exec 0 true, .exec 0 true, .resume (.originated .A true)] ++
  List.replicate 5 (Label.exec 0 true) ++
  [Label.event ⟨"c1", .A, .CHANNEL_ANSWER, "", 0⟩, .resume (.event ⟨"c1", .A, .CHANNEL_ANSWER, "", 0⟩)] ++
  List.replicate 5 (Label.exec 0 true) ++ [Label.resume (.originated .B false)] ++
  List.replicate 4 (Label.exec hangupAt true) ++ [Label.finalize, .finalize]

theorem billed_covers_dialsOnlyA :
    ∃ w, Machine.run ActiveCall.step (.init sampleCall) (dialsOnlyA 7500000000 ++ bodyToFinal) = some w ∧
      w.billed ∧
      (w.call.aDurationMs = 7500 ∧ w.call.billedBlocks .A = 2) ∧
      (w.call.aLegCost = w.call.billedBlocks .A * 6 * w.call.aLegRate / 60 ∧
        w.call.bLegCost = w.call.billedBlocks .B * 60 * w.call.bLegRate / 60) ∧
      ((w.call.aDurationMs.toInt ≤ (w.call.billedBlocks .A).toInt * 6000 ∧
          w.call.bDurationMs.toInt ≤ (w.call.billedBlocks .B).toInt * 60000) ↔
        Machine.run (Machine.restrict BillsInFull ActiveCall.step) (.init sampleCall)
          (dialsOnlyA 7500000000 ++ bodyToFinal) = some w) :=
  ⟨_, rfl, by decide, by decide,
    @billed_covers_iff sampleCall rfl rfl (dialsOnlyA 7500000000 ++ bodyToFinal) _ rfl (by decide)⟩

-- The half second past the first block is not billed.
theorem cutDown_dialsOnlyA :
    ∃ w, Machine.run ActiveCall.step (.init sampleCall) (dialsOnlyA 6500000000 ++ bodyToFinal) = some w ∧
      w.billed ∧
      w.call.aDurationMs = 6500 ∧ w.call.billedBlocks .A = 1 ∧
      ¬ w.call.aDurationMs.toInt ≤ (w.call.billedBlocks .A).toInt * 6000 :=
  ⟨_, rfl, by decide, by decide, by decide, by decide⟩

end Bos3000.Callback
