import Bos3000.Callback.FinalStatus
import Bos3000.Callback.WastageCost

-- Whether the bridge columns of a terminal record agree with each other.
namespace Bos3000.Callback

-- max(0, bridge_end_at - bridge_at) in milliseconds; 0 without a bridge.
def CallbackCall.bridgeMs (call : CallbackCall) : Int :=
  match call.bridgeAt, call.bridgeEndAt with
  | some bridgeAt, some bridgeEndAt => max 0 (milliseconds (Time.sub bridgeEndAt bridgeAt)).toInt
  | _, _ => 0

structure BridgeConsistent (call : CallbackCall) (thresholdSec : Int64) : Prop where
  ends : call.bridgeEndAt.isSome = true ↔ call.bridgeAt.isSome = true
  duration : call.bridgeDurationMs.toInt = call.bridgeMs
  broken : call.bAnswerAt.isSome = true → (call.wastageType = some .bridge_broken_early ↔
    call.bridgeAt.isSome = true ∧ call.bridgeDurationMs.toInt < thresholdSec.toInt * 1000)

-- The record with the ends of its bridge as their columns keep them.
def CallbackCall.storedBridge (call : CallbackCall) : CallbackCall :=
  { call with bridgeAt := call.bridgeAt.map timestamptz, bridgeEndAt := call.bridgeEndAt.map timestamptz }

-- The ends lie as many milliseconds apart in their columns.
def CallbackCall.keepsBridgeMs (call : CallbackCall) : Bool := call.storedBridge.bridgeMs = call.bridgeMs

-- Bridged from 1.000000999 s to 1.001000998 s.
example : CallbackCall.keepsBridgeMs
    { sampleCall with bridgeAt := some 1000000999, bridgeEndAt := some 1001000998 } = false := by
  decide

-- The assignments of the times that the bridge columns depend on.
def Action.timesBridge : Action → Bool
  | .assign (.bridgeAt _) | .assign (.bridgeEndAt _) | .assign (.bAnswerAt _) => true
  | _ => false

-- The bridge has ended, or there is none.
def CallbackCall.bridgeClosed (call : CallbackCall) : Bool := call.bridgeAt.isNone || call.bridgeEndAt.isSome

-- Of a call that is bridged runCall takes the hangup, not the maximum duration, the
-- cancellation or the failure of BridgeCall; a disconnect callback does not finalize
-- it before the bridge has its end, and runCall sets no time while it does. A bridge
-- does not end before it began, or the threshold is positive; and its milliseconds
-- stay when its ends are cut to whole microseconds.
def EndsBridge (w : ActiveCall) : Label → Bool
  | .resume .timer | .resume .done | .resume (.bridged false) => !w.stage.isBridged
  | .exec _ _ =>
      match w.finalized, w.pending with
      | .running _, a :: _ => !a.timesBridge
      | _, _ => true
  | .thread k =>
      match w.threads[k]?, w.finalized with
      | some (.fsLostFinalize (.once _)), .unused => w.call.bridgeClosed
      | _, _ => true
  | .body (.config config) =>
      w.call.keepsBridgeMs &&
      (0 < bridgeBrokenThresholdSec config ||
        match w.call.bridgeAt, w.call.bridgeEndAt with
        | some bridgeAt, some bridgeEndAt => bridgeAt ≤ bridgeEndAt
        | _, _ => true)
  | _ => true

-- Where runCall stands between two waits, for the bridge.
theorem resume_bridge {call : CallbackCall} {stage next : Stage} {i : Input} {script : List Action}
    (h : resume call stage i = some (script, next)) :
    (next.isBridged = true → stage.isBridged = true ∨ ∃ t, .assign (.bridgeAt t) ∈ script) ∧
    ((∃ t, .assign (.bridgeAt t) ∈ script) → next.isBridged = true) ∧
    ((∃ t, .assign (.bridgeEndAt t) ∈ script) → stage.isBridged = true) ∧
    (stage.isBridged = true → next.isBridged = true ∨
      next = .returned ∧ ((∃ t, .assign (.bridgeEndAt t) ∈ script) ∨ i = .timer ∨ i = .done ∨
      i = .bridged false)) := by
  revert h
  fun_cases resume call stage i <;> intro h <;> cases h
  case case14 e _ _ _ hangup | case15 e _ _ _ hangup _ =>
      simp only [hangup]
      cases hleg : e.leg <;> simp_all [stopRecording, Stage.isBridged]
  case case17 bridged | case18 bridged => cases bridged <;> simp [stopRecording, Stage.isBridged]
  all_goals simp_all [Stage.isBridged, startRecording]

-- The call was bridged, or the statements before the next wait say so.
def ActiveCall.bridges (w : ActiveCall) : Prop :=
  w.call.bridgeAt.isSome = true ∨ ∃ t, .assign (.bridgeAt t) ∈ w.pending

def ActiveCall.endsBridge (w : ActiveCall) : Prop :=
  w.call.bridgeEndAt.isSome = true ∨ ∃ t, .assign (.bridgeEndAt t) ∈ w.pending

-- runCall knows of the bridge until it has seen to its end.
structure BridgeInv (w : ActiveCall) : Prop where
  stage : w.stage.isBridged = true → w.bridges
  bridges : w.bridges → w.stage.isBridged = true ∨ w.stage = .returned ∧ w.endsBridge
  ends : w.endsBridge → w.call.bridgeAt.isSome = true

structure BridgeTimes where
  bAnswerAt : Option Time
  bridgeAt : Option Time
  bridgeEndAt : Option Time

def CallbackCall.bridgeTimes (call : CallbackCall) : BridgeTimes :=
  ⟨call.bAnswerAt, call.bridgeAt, call.bridgeEndAt⟩

theorem onCall_bridgeTimes {a : Action} (ha : a.timesBridge = false) (now : Time) (call : CallbackCall) :
    (a.onCall now call).bridgeTimes = call.bridgeTimes := by
  cases a with
  | assign a => cases a <;> first | rfl | cases ha
  | _ => rfl

theorem exec_bridgeTimes {call row call' row' : CallbackCall} {body next : Body} {stmt : Stmt} {o : Outcome}
    (h : stmt.exec call row body o = some (call', row', next)) : call'.bridgeTimes = call.bridgeTimes := by
  revert h
  fun_cases Stmt.exec call row body stmt o <;> intro h <;> cases h <;>
    first
      | rfl
      | (unfold recordWastage; split <;> rfl)
      | (unfold mergeRecording; split <;> rfl)

section Bridge

variable {w v : ActiveCall}

theorem BridgeInv.same (h : BridgeInv w) (htimes : v.call.bridgeTimes = w.call.bridgeTimes)
    (hpending : v.pending = w.pending) (hstage : v.stage = w.stage) : BridgeInv v := by
  obtain ⟨_, hbridgeAt, hbridgeEndAt⟩ := BridgeTimes.mk.inj htimes
  refine ⟨?_, ?_, ?_⟩ <;>
    simp only [ActiveCall.bridges, ActiveCall.endsBridge, hbridgeAt, hbridgeEndAt, hpending, hstage]
  · exact h.stage
  · exact h.bridges
  · exact h.ends

theorem Rest.bridgeClosed (h : BridgeInv w) (hrest : Rest w) :
    w.call.bridgeEndAt.isSome = true ↔ w.call.bridgeAt.isSome = true := by
  constructor
  · exact fun hend => h.ends (.inl hend)
  · intro hbridge
    have hnone : ∀ t, .assign (.bridgeEndAt t) ∉ w.pending := by simp [hrest.1]
    obtain hbridged | ⟨_, hend | ⟨t, ht⟩⟩ := h.bridges (.inl hbridge)
    · rw [hrest.2] at hbridged
      cases hbridged
    · exact hend
    · exact absurd ht (hnone t)

theorem BridgeInv.resume (h : BridgeInv w) {i : Input} (hallowed : EndsBridge w (.resume i) = true)
    (hstep : w.resumeRun i = some v) : BridgeInv v := by
  obtain ⟨stage, script, next, hrun, hresume, _, eventCh, rfl⟩ := resumeRun_eq_some hstep
  have hstage : w.stage = stage := by simp [ActiveCall.stage, hrun]
  have hreturned : stage ≠ .returned := by
    rintro rfl
    cases hresume
  obtain ⟨hnext, hset, hend, hleft⟩ := resume_bridge hresume
  have hbridged : stage.isBridged = true ↔ w.call.bridgeAt.isSome = true := by
    have hpending := pending_script hrun
    constructor
    · intro hbridged
      obtain hbridge | ⟨t, ht⟩ := h.stage (hstage ▸ hbridged)
      · exact hbridge
      · rw [hpending] at ht
        cases ht
    · intro hbridge
      obtain hbridged | ⟨hback, _⟩ := h.bridges (.inl hbridge)
      · exact hstage ▸ hbridged
      · exact absurd (hstage ▸ hback) hreturned
  refine ⟨?_, ?_, ?_⟩
  · exact fun hbridges => (hnext hbridges).imp hbridged.mp id
  · rintro (hbridge | hassign)
    · obtain hstays | ⟨rfl, hends | hinput⟩ := hleft (hbridged.mpr hbridge)
      · exact .inl hstays
      · exact .inr ⟨rfl, .inr hends⟩
      · have hflag := hbridged.mpr hbridge
        obtain rfl | rfl | rfl := hinput <;> simp [EndsBridge, hstage, hflag] at hallowed
    · exact .inl (hset hassign)
  · rintro (hends | hassign)
    · exact h.ends (.inl hends)
    · exact hbridged.mp (hend hassign)

-- A statement that is executed moves from what is pending to what is set.
theorem bridges_exec {a : Action} (now : Time) (hpending : w.pending = a :: v.pending)
    (hcall : v.call = a.onCall now w.call) :
    (v.bridges ↔ w.bridges) ∧ (v.endsBridge ↔ w.endsBridge) ∧
      (w.call.bridgeAt.isSome = true → v.call.bridgeAt.isSome = true) := by
  simp only [ActiveCall.bridges, ActiveCall.endsBridge, hpending, hcall]
  cases a with
  | assign a => cases a <;> simp [Action.onCall, Assign.apply]
  | _ => simp [Action.onCall]

theorem BridgeInv.exec (h : BridgeInv w) {now : Time} {ok : Bool} (hstep : w.execRun now ok = some v) :
    BridgeInv v := by
  obtain ⟨a, hpending, hstage, hcall, _⟩ := execRun_next hstep
  obtain ⟨hbridges, hends, hkept⟩ := bridges_exec now hpending hcall
  refine ⟨?_, ?_, ?_⟩
  · rw [hstage, hbridges]
    exact h.stage
  · rw [hstage, hbridges, hends]
    exact h.bridges
  · rw [hends]
    exact fun hend => hkept (h.ends hend)

theorem BridgeInv.step (h : BridgeInv w) {l : Label} (hallowed : EndsBridge w l = true) (hstep : w.step l = some v) :
    BridgeInv v := by
  obtain ⟨i, rfl, hresume⟩ | ⟨now, ok, rfl, hexec⟩ | ⟨rfl, hfin⟩ | ⟨o, rfl, hbody⟩ |
    ⟨_, haside⟩ := step_cases hstep
  · exact h.resume hallowed hresume
  · exact h.exec hexec
  · refine h.same ?_ (finalizeRun_pending hfin) (step_history (l := .finalize) (by simp) hstep).1
    obtain ⟨_, _, rfl, _⟩ := finalizeRun_starts hfin
    rfl
  · obtain ⟨_, _, _, _, _, _, hexec, rfl⟩ := bodyStep_eq_some hbody
    exact h.same (exec_bridgeTimes hexec) rfl rfl
  · obtain ⟨_, _, hcall⟩ := haside.call
    exact h.same (by rw [hcall]; rfl) haside.pending haside.stage

end Bridge

section Record

variable {call : CallbackCall} {thresholdSec : Int64}

theorem toInt_durationMs (start stop now : Time) (old : Int64) :
    (Callback.durationMs (some start) (some stop) now old).toInt =
      max 0 (milliseconds (Time.sub stop start)).toInt := by
  simp only [Callback.durationMs, Option.getD_some]
  split
  · rename_i hneg
    rw [Int64.lt_iff_toInt_lt, Int64.toInt_zero] at hneg
    rw [Int64.toInt_zero]
    omega
  · rename_i hnonneg
    rw [Int64.lt_iff_toInt_lt, Int64.toInt_zero] at hnonneg
    omega

theorem durationMs_bridgeMs (hends : call.bridgeEndAt.isSome = true ↔ call.bridgeAt.isSome = true)
    (hzero : call.bridgeDurationMs = 0) (now : Time) :
    (Callback.durationMs call.bridgeAt call.bridgeEndAt now call.bridgeDurationMs).toInt = call.bridgeMs := by
  unfold CallbackCall.bridgeMs
  cases hbridgeAt : call.bridgeAt with
  | none => simp [Callback.durationMs, hzero]
  | some bridgeAt =>
      rw [hbridgeAt] at hends
      obtain ⟨bridgeEndAt, hbridgeEndAt⟩ := Option.isSome_iff_exists.mp (hends.mpr rfl)
      rw [hbridgeEndAt]
      exact toInt_durationMs ..

theorem milliseconds_nonneg {t u : Time} (h : u ≤ t) : 0 ≤ (milliseconds (Time.sub t u)).toInt := by
  have hsub : 0 ≤ (Time.sub t u).toInt := by
    have hdiff : (0 : Int) ≤ t - u := Int.sub_nonneg_of_le h
    rw [Time.sub, Int64.toInt_ofInt_of_le (by omega) (by omega)]
    omega
  rw [milliseconds, Int64.toInt_div_of_ne_right _ 1000000 (by decide)]
  exact Int.tdiv_nonneg hsub (by decide)

-- In whole seconds a bridge is shorter than a threshold as it is in milliseconds,
-- but for a bridge that ends before it began and a threshold that is not positive.
theorem seconds_lt_iff {d : Duration} (h : 0 < thresholdSec.toInt ∨ 0 ≤ (milliseconds d).toInt) :
    (seconds d).toInt < thresholdSec.toInt ↔ max 0 (milliseconds d).toInt < thresholdSec.toInt * 1000 := by
  have hthousand : (1000 : Int64).toInt = 1000 := rfl
  rw [seconds_eq, Int64.toInt_div_of_ne_right _ 1000 (by decide), hthousand]
  by_cases hnonneg : 0 ≤ (milliseconds d).toInt
  · rw [Int.tdiv_eq_ediv_of_nonneg hnonneg]
    omega
  · have hle : (milliseconds d).toInt.tdiv 1000 ≤ (0 : Int).tdiv 1000 := Int.tdiv_le_tdiv (by decide) (by omega)
    rw [Int.zero_tdiv] at hle
    omega

-- What the body says of a call whose B leg answered.
theorem recordWastage_broken (hends : call.bridgeEndAt.isSome = true ↔ call.bridgeAt.isSome = true)
    (hduration : call.bridgeDurationMs.toInt = call.bridgeMs) (hnone : call.wastageType = none)
    (hpositive : 0 < thresholdSec.toInt ∨
      ∀ bridgeAt bridgeEndAt, call.bridgeAt = some bridgeAt → call.bridgeEndAt = some bridgeEndAt →
      bridgeAt ≤ bridgeEndAt)
    (hanswer : call.bAnswerAt.isSome = true) :
    (recordWastage call thresholdSec).wastageType = some .bridge_broken_early ↔
      call.bridgeAt.isSome = true ∧ call.bridgeDurationMs.toInt < thresholdSec.toInt * 1000 := by
  have hnot : ¬ (call.aAnswerAt.isSome = true ∧ call.bAnswerAt = none) := by
    rintro ⟨_, hunanswered⟩
    rw [hunanswered] at hanswer
    cases hanswer
  have htype := congrArg Prod.fst (recordWastage_wastage call thresholdSec)
  simp only at htype
  cases hbridgeAt : call.bridgeAt with
  | none =>
      rw [classifyWastage_unbridged (.inl hbridgeAt) hnot] at htype
      simp [htype, hnone]
  | some bridgeAt =>
      rw [hbridgeAt] at hends
      obtain ⟨bridgeEndAt, hbridgeEndAt⟩ := Option.isSome_iff_exists.mp (hends.mpr rfl)
      have hlasted : call.bridgeMs = max 0 (milliseconds (Time.sub bridgeEndAt bridgeAt)).toInt := by
        simp only [CallbackCall.bridgeMs, hbridgeAt, hbridgeEndAt]
      have hlt := seconds_lt_iff (hpositive.imp_right fun h => milliseconds_nonneg (h _ _ hbridgeAt hbridgeEndAt))
      rw [← hlasted, ← hduration, ← Int64.lt_iff_toInt_lt] at hlt
      rw [classifyWastage_bridged hbridgeAt hbridgeEndAt hnot] at htype
      rw [htype, ← hlt]
      by_cases hearly : seconds (Time.sub bridgeEndAt bridgeAt) < thresholdSec
      · simp [hearly]
      · simp [hearly, hnone]

theorem BridgeConsistent.congr {c d : CallbackCall} (htimes : d.bridgeTimes = c.bridgeTimes)
    (hresults : d.results = c.results) (h : BridgeConsistent c thresholdSec) : BridgeConsistent d thresholdSec := by
  obtain ⟨hbAnswerAt, hbridgeAt, hbridgeEndAt⟩ := BridgeTimes.mk.inj htimes
  obtain ⟨_, hbridgeDurationMs, hwastageType, _⟩ := Results.mk.inj hresults
  obtain ⟨hends, hduration, hbroken⟩ := h
  constructor
  · rw [hbridgeAt, hbridgeEndAt]
    exact hends
  · rw [CallbackCall.bridgeMs, hbridgeAt, hbridgeEndAt, hbridgeDurationMs]
    exact hduration
  · rw [hbAnswerAt, hbridgeAt, hwastageType, hbridgeDurationMs]
    exact hbroken

end Record

theorem onRow_bridgeTimes (row : CallbackCall) (a : Action) : (a.onRow row).bridgeTimes = row.bridgeTimes := by
  cases a <;> rfl

-- The statements of the body that write the bridge columns.
theorem exec_bridge {call row call' row' : CallbackCall} {body next : Body} {stmt : Stmt} {o : Outcome}
    (h : stmt.exec call row body o = some (call', row', next)) :
    (call'.bridgeDurationMs = call.bridgeDurationMs ∧ stmt ≠ .bridgeDuration ∨
      stmt = .bridgeDuration ∧ call'.bridgeDurationMs =
        Callback.durationMs call.bridgeAt call.bridgeEndAt body.now call.bridgeDurationMs) ∧
    (call'.wastageType = call.wastageType ∧ stmt ≠ .wastage ∨
      ∃ config, stmt = .wastage ∧ o = .config config ∧
        call' = recordWastage call (bridgeBrokenThresholdSec config)) := by
  revert h
  fun_cases Stmt.exec call row body stmt o <;> intro h <;> cases h
  case case5 value =>
      refine ⟨.inl ⟨?_, by simp⟩, .inr ⟨value, rfl, rfl, rfl⟩⟩
      unfold recordWastage
      split <;> rfl
  case case14 | case15 => exact ⟨.inl ⟨congrArg Results.bridgeDurationMs (mergeRecording_results ..), by simp⟩,
    .inl ⟨congrArg Results.wastageType (mergeRecording_results ..), by simp⟩⟩
  case case4 => exact ⟨.inr ⟨rfl, rfl⟩, .inl ⟨rfl, by simp⟩⟩
  all_goals simp [recordCosts]

-- What the body has worked out so far agrees with the times.
structure Worked (w : ActiveCall) : Prop where
  ends : w.call.bridgeEndAt.isSome = true ↔ w.call.bridgeAt.isSome = true
  unmeasured : .bridgeDuration ∉ w.executed → w.call.bridgeDurationMs = 0
  duration : .bridgeDuration ∈ w.executed → w.call.bridgeDurationMs.toInt = w.call.bridgeMs
  unclassified : .wastage ∉ w.executed → w.call.wastageType = none
  kept : .wastage ∈ w.executed → w.call.keepsBridgeMs = true
  broken : .wastage ∈ w.executed → ∃ config, .body .wastage (.config config) ∈ w.log ∧
    (w.call.bAnswerAt.isSome = true →
      (w.call.wastageType = some .bridge_broken_early ↔ w.call.bridgeAt.isSome = true ∧
      w.call.bridgeDurationMs.toInt < (bridgeBrokenThresholdSec config).toInt * 1000))

theorem bridgeMs_congr {c d : CallbackCall} (h : d.bridgeTimes = c.bridgeTimes) : d.bridgeMs = c.bridgeMs := by
  obtain ⟨_, hbridgeAt, hbridgeEndAt⟩ := BridgeTimes.mk.inj h
  rw [CallbackCall.bridgeMs, hbridgeAt, hbridgeEndAt, CallbackCall.bridgeMs]

theorem keepsBridgeMs_congr {c d : CallbackCall} (h : d.bridgeTimes = c.bridgeTimes) :
    d.keepsBridgeMs = c.keepsBridgeMs := by
  have hstored : d.storedBridge.bridgeTimes = c.storedBridge.bridgeTimes := by
    obtain ⟨hbAnswerAt, hbridgeAt, hbridgeEndAt⟩ := BridgeTimes.mk.inj h
    simp only [CallbackCall.storedBridge, CallbackCall.bridgeTimes, hbAnswerAt, hbridgeAt, hbridgeEndAt]
  simp only [CallbackCall.keepsBridgeMs, bridgeMs_congr h, bridgeMs_congr hstored]

def Persisted (w : ActiveCall) : Prop :=
  ∃ config, .body .wastage (.config config) ∈ w.log ∧ BridgeConsistent w.row (bridgeBrokenThresholdSec config)

section Body

variable {w v : ActiveCall}

theorem Worked.same (h : Worked w) (htimes : v.call.bridgeTimes = w.call.bridgeTimes)
    (hresults : v.call.results = w.call.results) (hexecuted : v.executed = w.executed)
    (hlog : ∀ stmt o, .body stmt o ∈ v.log ↔ .body stmt o ∈ w.log) : Worked v := by
  obtain ⟨hbAnswerAt, hbridgeAt, hbridgeEndAt⟩ := BridgeTimes.mk.inj htimes
  obtain ⟨_, hbridgeDurationMs, hwastageType, _⟩ := Results.mk.inj hresults
  obtain ⟨hends, hunmeasured, hduration, hunclassified, hkept, hbroken⟩ := h
  constructor <;>
    simp only [hbAnswerAt, hbridgeAt, hbridgeEndAt, hbridgeDurationMs, hwastageType, hexecuted, hlog]
  · exact hends
  · exact hunmeasured
  · rw [bridgeMs_congr htimes]
    exact hduration
  · exact hunclassified
  · rw [keepsBridgeMs_congr htimes]
    exact hkept
  · exact hbroken

theorem EndsBridge.positive {config : Option String} (h : EndsBridge w (.body (.config config)) = true) :
    0 < (bridgeBrokenThresholdSec config).toInt ∨ ∀ bridgeAt bridgeEndAt, w.call.bridgeAt = some bridgeAt →
      w.call.bridgeEndAt = some bridgeEndAt → bridgeAt ≤ bridgeEndAt := by
  simp only [EndsBridge, Bool.and_eq_true, Bool.or_eq_true, decide_eq_true_eq, ExactInt64.pos_iff] at h
  refine h.2.imp_right fun h bridgeAt bridgeEndAt hbridgeAt hbridgeEndAt => ?_
  simpa [hbridgeAt, hbridgeEndAt] using h

theorem Worked.body (h : Worked w) (hsettling : Settling w) {o : Outcome} (hallowed : EndsBridge w (.body o) = true)
    (hstep : w.bodyStep o = some v) : Worked v := by
  obtain ⟨stmt, body, call, row, next, hrunning, hexec, hv⟩ := bodyStep_eq_some hstep
  have hexecuted := bodyStep_executed hstep hrunning
  have hcall : v.call = call := by rw [hv]
  have hlog : v.log = w.log ++ [.body stmt o] := by rw [hv]
  have hbefore : ∀ earlier ∈ w.executed, earlier.index < stmt.index := fun _ => hsettling.before hrunning
  obtain ⟨hbAnswerAt, hbridgeAt, hbridgeEndAt⟩ := BridgeTimes.mk.inj (exec_bridgeTimes hexec)
  obtain ⟨hduration, htype⟩ := exec_bridge hexec
  have hbridgeMs : call.bridgeMs = w.call.bridgeMs := bridgeMs_congr (exec_bridgeTimes hexec)
  have hkeeps : call.keepsBridgeMs = w.call.keepsBridgeMs := keepsBridgeMs_congr (exec_bridgeTimes hexec)
  have hmem : ∀ earlier, earlier ∈ v.executed ↔ earlier ∈ w.executed ∨ earlier = stmt := by
    simp [hexecuted]
  refine ⟨?_, ?_, ?_, ?_, ?_, ?_⟩
  · rw [hcall, hbridgeAt, hbridgeEndAt]
    exact h.ends
  · intro hnot
    rw [hmem, not_or] at hnot
    obtain ⟨hsame, _⟩ | ⟨rfl, _⟩ := hduration
    · rw [hcall, hsame]
      exact h.unmeasured hnot.1
    · exact absurd rfl hnot.2
  · intro htaken
    rw [hmem] at htaken
    obtain ⟨hsame, hother⟩ | ⟨rfl, hset⟩ := hduration
    · rw [hcall, hsame, hbridgeMs]
      exact h.duration (htaken.resolve_right (Ne.symm hother))
    · rw [hcall, hset, hbridgeMs]
      have hunmeasured := h.unmeasured fun hbridge => absurd (hbefore _ hbridge) (Nat.lt_irrefl _)
      exact durationMs_bridgeMs h.ends hunmeasured body.now
  · intro hnot
    rw [hmem, not_or] at hnot
    obtain ⟨hsame, _⟩ | ⟨config, rfl, _⟩ := htype
    · rw [hcall, hsame]
      exact h.unclassified hnot.1
    · exact absurd rfl hnot.2
  · intro htaken
    rw [hcall, hkeeps]
    obtain ⟨_, hother⟩ | ⟨config, _, rfl, _⟩ := htype
    · exact h.kept (((hmem _).mp htaken).resolve_right (Ne.symm hother))
    · simp only [EndsBridge, Bool.and_eq_true] at hallowed
      exact hallowed.1
  · intro htaken
    rw [hmem] at htaken
    obtain ⟨hsame, hother⟩ | ⟨config, rfl, rfl, rfl⟩ := htype
    · -- the duration of the bridge is worked out before the wastage
      have hwastage := htaken.resolve_right (Ne.symm hother)
      obtain ⟨config, hconfig, hbroken⟩ := h.broken hwastage
      have hmeasured : call.bridgeDurationMs = w.call.bridgeDurationMs := by
        obtain ⟨hmeasured, _⟩ | ⟨rfl, _⟩ := hduration
        · exact hmeasured
        · exact absurd (hbefore _ hwastage) (by decide)
      refine ⟨config, by rw [hlog]; exact List.mem_append_left _ hconfig, ?_⟩
      rw [hcall, hbAnswerAt, hbridgeAt, hsame, hmeasured]
      exact hbroken
    · refine ⟨config, by rw [hlog]; exact List.mem_append_right _ (List.mem_singleton_self _), ?_⟩
      have hmeasured : (recordWastage w.call (bridgeBrokenThresholdSec config)).bridgeDurationMs =
          w.call.bridgeDurationMs := by
        obtain ⟨hmeasured, _⟩ | ⟨hwrong, _⟩ := hduration
        · exact hmeasured
        · cases hwrong
      have hnone : w.call.wastageType = none :=
        h.unclassified fun hwastage => absurd (hbefore _ hwastage) (Nat.lt_irrefl _)
      have htaken : .bridgeDuration ∈ w.executed := hsettling.executed_of_lt hrunning (by decide)
      rw [hcall, hbAnswerAt, hbridgeAt, hmeasured]
      exact recordWastage_broken h.ends (h.duration htaken) hnone (EndsBridge.positive hallowed)

theorem Worked.consistent (h : Worked w) (hduration : .bridgeDuration ∈ w.executed)
    (hwastage : .wastage ∈ w.executed) (row : CallbackCall) :
    ∃ config, .body .wastage (.config config) ∈ w.log ∧
      BridgeConsistent (updateCallFinal w.call row) (bridgeBrokenThresholdSec config) := by
  obtain ⟨config, hconfig, hbroken⟩ := h.broken hwastage
  have hkept : w.call.storedBridge.bridgeMs = w.call.bridgeMs := of_decide_eq_true (h.kept hwastage)
  refine ⟨config, hconfig, ?_, ?_, ?_⟩
  · simpa [updateCallFinal] using h.ends
  · exact (h.duration hduration).trans hkept.symm
  · simpa [updateCallFinal] using hbroken

-- Outside the body the times of the call stay while it runs, and those of its row
-- always.
theorem step_bridgeTimes {l : Label} (hl : ∀ o, l ≠ .body o) (hstep : w.step l = some v) :
    (EndsBridge w l = true → (∃ body, v.finalized = .running body) → v.call.bridgeTimes = w.call.bridgeTimes) ∧
      v.row.bridgeTimes = w.row.bridgeTimes := by
  obtain ⟨i, rfl, hresume⟩ | ⟨now, ok, rfl, hexec⟩ | ⟨rfl, hfin⟩ | ⟨o, rfl, _⟩ | ⟨_, haside⟩ :=
    step_cases hstep
  · obtain ⟨_, _, _, _, _, _, _, rfl⟩ := resumeRun_eq_some hresume
    exact ⟨fun _ _ => rfl, rfl⟩
  · obtain ⟨_, _, ⟨_, _, rfl⟩ | ⟨a, hrun, _, rfl⟩⟩ := execRun_eq_some hexec
    · exact ⟨fun _ _ => rfl, rfl⟩
    · constructor
      · rintro hallowed ⟨body, hrunning⟩
        have hother : a.timesBridge = false := by
          simpa [EndsBridge, pending_script hrun, show w.finalized = _ from hrunning] using hallowed
        exact onCall_bridgeTimes hother now w.call
      · cases ok with
        | true => exact onRow_bridgeTimes w.row a
        | false => rfl
  · obtain ⟨_, _, rfl, _⟩ := finalizeRun_starts hfin
    exact ⟨fun _ _ => rfl, rfl⟩
  · exact absurd rfl (hl o)
  · obtain ⟨_, _, hcall⟩ := haside.call
    rw [hcall, haside.row]
    exact ⟨fun _ _ => rfl, rfl⟩

-- Whoever starts the body finds the bridge closed.
theorem starter_closed (h : BridgeInv w) (hrunInv : RunInv w) {l : Label} (hallowed : EndsBridge w l = true)
    {s : Status}
    (hunused : w.finalized = .unused) (hstarter : Starter w s l) :
    w.call.bridgeEndAt.isSome = true ↔ w.call.bridgeAt.isSome = true := by
  cases hstarter with
  | runCall hplace => exact (place_rest hrunInv hplace).bridgeClosed h
  | fsLost k hthread =>
      simp only [EndsBridge, hthread, hunused, CallbackCall.bridgeClosed, Bool.or_eq_true,
        Option.isNone_iff_eq_none] at hallowed
      constructor
      · exact fun hend => h.ends (.inl hend)
      · intro hbridge
        refine hallowed.resolve_left fun hnone => ?_
        rw [hnone] at hbridge
        cases hbridge

end Body

structure FieldsInv (w : ActiveCall) : Prop where
  settling : Settling w
  bridge : BridgeInv w
  untouched : w.executed = [] → w.call.results = .none
  body : (∃ body, w.finalized = .running body) → Worked w
  persisted : w.persisted → Persisted w

section Step

variable {w v : ActiveCall}

theorem FieldsInv.bodyStep (h : FieldsInv w) {o : Outcome} (hallowed : EndsBridge w (.body o) = true)
    (hstep : w.bodyStep o = some v) : FieldsInv v := by
  obtain ⟨stmt, body, call, row, next, hrunning, hexec, hv⟩ := bodyStep_eq_some hstep
  have hworked : Worked v := (h.body ⟨_, hrunning⟩).body h.settling hallowed hstep
  have hexecuted := bodyStep_executed hstep hrunning
  have hlog : v.log = w.log ++ [.body stmt o] := by rw [hv]
  have hrow : v.row = row := by rw [hv]
  refine ⟨h.settling.step (l := .body o) hstep, h.bridge.step (l := .body o) hallowed hstep, ?_, fun _ => hworked,
    ?_⟩
  · intro hnone
    simp [hexecuted] at hnone
  · intro hpersisted
    simp only [ActiveCall.persisted, hlog, List.mem_append, List.mem_singleton, Effect.body.injEq] at hpersisted
    obtain ⟨rfl, hother⟩ | ⟨rfl, rfl, hcall, hfinal⟩ := (exec_results hexec).2
    · obtain hpersisted | ⟨rfl, rfl⟩ := hpersisted
      · obtain ⟨config, hconfig, hconsistent⟩ := h.persisted hpersisted
        exact ⟨config, by rw [hlog]; exact List.mem_append_left _ hconfig, by rw [hrow]; exact hconsistent⟩
      · exact absurd (hother rfl) (by decide)
    · have htaken : ∀ earlier : Stmt, earlier.index < Stmt.updateCallFinal.index → earlier ∈ v.executed := by
        intro earlier hlt
        rw [hexecuted]
        exact List.mem_append_left _ (h.settling.executed_of_lt hrunning hlt)
      obtain ⟨config, hconfig, hconsistent⟩ :=
        hworked.consistent (htaken _ (by decide)) (htaken _ (by decide)) w.row
      refine ⟨config, hconfig, ?_⟩
      have hcall : v.call = w.call := by rw [hv, hcall]
      rw [hrow, hfinal]
      rw [hcall] at hconsistent
      exact hconsistent

theorem FieldsInv.besides (h : FieldsInv w) {l : Label} (hl : ∀ o, l ≠ .body o) (hallowed : EndsBridge w l = true)
    (hstep : w.step l = some v) : FieldsInv v := by
  obtain ⟨hcallTimes, hrowTimes⟩ := step_bridgeTimes hl hstep
  obtain ⟨hcallResults, hrowResults⟩ := step_results hl hstep
  have hexecuted := step_executed hl hstep
  have hlog := (step_costs hl hstep).2.2
  refine ⟨h.settling.step hstep, h.bridge.step hallowed hstep, ?_, ?_, ?_⟩
  · rw [hexecuted, hcallResults]
    exact h.untouched
  · rintro ⟨body, hrunning⟩
    have htimes := hcallTimes hallowed ⟨body, hrunning⟩
    obtain hsame | ⟨s, hunused, _, hstarter⟩ := step_starter hl hstep
    · exact (h.body ⟨body, hsame.symm.trans hrunning⟩).same htimes hcallResults hexecuted hlog
    · have hnone : w.executed = [] := h.settling.nothing hunused
      have hclosed := starter_closed h.bridge h.settling.runCall hallowed hunused hstarter
      have hworked : Worked w := by
        refine ⟨hclosed, fun _ => ?_, ?_, fun _ => ?_, ?_, ?_⟩
        · exact congrArg Results.bridgeDurationMs (h.untouched hnone)
        · simp [hnone]
        · exact congrArg Results.wastageType (h.untouched hnone)
        · simp [hnone]
        · simp [hnone]
      exact hworked.same htimes hcallResults hexecuted hlog
  · intro hpersisted
    obtain ⟨config, hconfig, hconsistent⟩ := h.persisted ((hlog _ _).mp hpersisted)
    exact ⟨config, (hlog _ _).mpr hconfig, hconsistent.congr hrowTimes hrowResults⟩

end Step

end Bos3000.Callback
