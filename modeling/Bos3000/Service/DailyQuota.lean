import Bos3000.Callback.DailyCount
import Bos3000.Lib.Pool
import Bos3000.Service.Calls

-- The daily counter of a user against the calls that were admitted that day.
namespace Bos3000.Service

open Callback

-- The daily counter has counted the request, and nothing has refused it since.
def Session.counts (x : Session) : Bool :=
  match x.phase with
  | .initiating stage => x.alive && stage.counts
  | .active _ => true

def Session.admitted (x : Session) : Bool :=
  match x.phase with
  | .initiating _ => false
  | .active _ => true

-- InitiateCallback has not returned.
def Session.inProgress (x : Session) : Bool :=
  match x.phase with
  | .initiating stage => x.alive && stage.response.isNone
  | .active _ => false

def Session.countsOn (today : String) (x : Session) (m : Move) : Bool :=
  match x.phase, m with
  | .initiating stage, .reply r => stage.countsOn today r
  | _, _ => true

-- The move refuses a request that the daily counter has counted.
def Session.refuses (x : Session) (m : Move) : Bool :=
  match x.phase, m with
  | .initiating stage, .reply r => stage.refuses r
  | _, _ => false

def System.counted (s : System) (userID : UserID) : Nat :=
  s.sessions.countP fun x => x.request.userID = userID ∧ x.counts

def System.admitted (s : System) (userID : UserID) : Nat :=
  s.sessions.countP fun x => x.request.userID = userID ∧ x.admitted

-- The cache answers the user's requests, all on one day.
def withinDay (userID : UserID) (today : String) (s : System) : Label → Bool
  | .move i m => s.sessions[i]?.all fun x => x.request.userID ≠ userID || x.countsOn today m
  | _ => true

-- No request of the user is refused after it was counted, and none that was counted
-- dies with its process.
def refusesUncounted (userID : UserID) (s : System) : Label → Bool
  | .move i m => s.sessions[i]?.all fun x => x.request.userID ≠ userID || !x.refuses m
  | .restart => s.sessions.all fun x => x.request.userID ≠ userID || !x.counts || x.admitted
  | _ => true

-- The part of the day's counter that no request accounts for.
def System.wasted (s : System) (userID : UserID) (today : String) : Int :=
  s.shared.daily (userID, today) - s.counted userID

-- What is undone for the user was counted on this day.
def Dated (userID : UserID) (today : String) (s : System) : Prop :=
  ∀ x ∈ s.sessions, x.request.userID = userID →
    ∀ date, x.phase = .initiating (.uncountDaily date) → date = today

theorem apply_sparesDaily {s t : Shared} {access : Access} (hspares : access.sparesDaily = true)
    (happly : s.apply access = some t) : t.daily = s.daily := by
  cases access with
  | countDaily => cases hspares
  | transact op =>
      obtain ⟨_, _, rfl⟩ := Option.map_eq_some_iff.mp happly
      rfl
  | none | account | increment | setSlot =>
      simp only [Shared.apply] at happly
      try split at happly
      all_goals
        cases happly
        try rfl

theorem apply_countDaily {s t : Shared} {userID : UserID} {date : String} {delta n : Int}
    (happly : s.apply (.countDaily userID date delta n) = some t) :
    t.daily (userID, date) = s.daily (userID, date) + delta ∧
      ∀ key, key ≠ (userID, date) → t.daily key = s.daily key := by
  simp only [Shared.apply] at happly
  split at happly <;> cases happly
  rename_i hn
  exact ⟨by simp [hn], fun key hkey => by simp [hkey]⟩

theorem counts_phase_of {x : Session} (halive : x.alive = true) (stage : InitiateStage) :
    Session.counts { x with phase := Phase.of stage } = stage.counts := by
  cases stage <;> simp [Session.counts, Phase.of, halive, InitiateStage.counts]

section Move

variable {s : Shared} {x : Session} {m : Move} {phase : Phase} {access : Access} {shared : Shared}
  {userID : UserID} {today : String}

-- A session of another user spares the counter.
theorem daily_other (hother : x.request.userID ≠ userID) (hstep : x.step m = some (phase, access))
    (happly : s.apply access = some shared) : shared.daily (userID, today) = s.daily (userID, today) := by
  cases access with
  | countDaily owner date delta n =>
      obtain ⟨stage, r, next, _, _, hresume, _⟩ | ⟨w, l, v, _, _, hv, _, haccess⟩ := Session.step_eq_some hstep
      · obtain rfl := resume_countDaily hresume
        exact (apply_countDaily happly).2 _ fun hkey => hother (congrArg Prod.fst hkey).symm
      · have hspares := ActiveCall.access_sparesDaily hv
        rw [← haccess] at hspares
        cases hspares
  | _ => exact congrFun (apply_sparesDaily rfl happly) _

-- A session of the user changes the counter as it changes whether it counts, but
-- for a request that is refused.
theorem daily_own (halive : x.alive = true) (hday : x.countsOn today m = true)
    (hdated : ∀ date, x.phase = .initiating (.uncountDaily date) → date = today)
    (hstep : x.step m = some (phase, access)) (happly : s.apply access = some shared) :
    shared.daily (x.request.userID, today) - (Session.counts { x with phase }).toNat =
        s.daily (x.request.userID, today) - x.counts.toNat + (x.refuses m).toNat ∧
      ∀ date, phase = .initiating (.uncountDaily date) → date = today := by
  obtain ⟨stage, r, next, hstage, rfl, hresume, rfl⟩ | ⟨w, l, v, hw, rfl, hv, rfl, rfl⟩ :=
    Session.step_eq_some hstep
  · simp only [Session.countsOn, hstage] at hday
    have hcounts : x.counts = stage.counts := by simp [Session.counts, hstage, halive]
    have hrefuses : x.refuses (.reply r) = stage.refuses r := by simp [Session.refuses, hstage]
    rw [counts_phase_of halive, hcounts, hrefuses]
    cases resume_daily hday hresume with
    | counted n hbefore hreply hafter hdate =>
        obtain ⟨hcount, _⟩ := apply_countDaily happly
        refine ⟨?_, fun date hphase => hdate date (Phase.of_eq_initiating hphase).symm⟩
        simp only [hbefore, hreply, hafter, Bool.toNat_true, Bool.toNat_false]
        omega
    | undone date n hundo hreply hafter =>
        obtain rfl := hdated date (hundo ▸ hstage)
        obtain ⟨hcount, _⟩ := apply_countDaily happly
        have hbefore : stage.counts = true := by rw [hundo]; rfl
        refine ⟨?_, fun other hphase => ?_⟩
        · simp only [hbefore, hreply, hafter, Bool.toNat_true, Bool.toNat_false]
          omega
        · rw [← Phase.of_eq_initiating hphase] at hafter
          cases hafter
    | refused hspares hreply hbefore hafter =>
        have hsame := congrFun (apply_sparesDaily hspares happly) (x.request.userID, today)
        refine ⟨?_, fun other hphase => ?_⟩
        · simp only [hbefore, hreply, hafter, Bool.toNat_true, Bool.toNat_false]
          omega
        · rw [← Phase.of_eq_initiating hphase] at hafter
          cases hafter
    | kept hspares hreply hsame hnone =>
        have hcounter := congrFun (apply_sparesDaily hspares happly) (x.request.userID, today)
        refine ⟨?_, fun other hphase => absurd (Phase.of_eq_initiating hphase).symm (hnone other)⟩
        simp only [hsame, hreply, Bool.toNat_false]
        omega
  · have hsame := congrFun (apply_sparesDaily (ActiveCall.access_sparesDaily hv) happly) (x.request.userID, today)
    refine ⟨?_, by simp⟩
    simp only [Session.counts, Session.refuses, hw, Bool.toNat_true, Bool.toNat_false]
    omega

end Move

theorem counted_set {s : System} {i : Nat} {x : Session} (hx : s.sessions[i]? = some x) (shared : Shared)
    (phase : Phase) (userID : UserID) :
    System.counted ⟨shared, s.sessions.set i { x with phase }⟩ userID +
        (decide (x.request.userID = userID) && x.counts).toNat =
      s.counted userID + (decide (x.request.userID = userID) && Session.counts { x with phase }).toNat := by
  simpa [System.counted] using Pool.countP_set_add
    (y := { x with phase }) (fun x => decide (x.request.userID = userID ∧ x.counts)) hx

-- Only a counted request of the user that is refused, or whose process ends, makes
-- the counter count what no request accounts for.
theorem wasted_step {userID : UserID} {today : String} {s t : System} {l : Label}
    (hdated : Dated userID today s) (hday : withinDay userID today s l = true) (hstep : s.step l = some t) :
    Dated userID today t ∧
      (refusesUncounted userID s l = true ∧ t.wasted userID today = s.wasted userID today ∨
        refusesUncounted userID s l = false ∧ s.wasted userID today < t.wasted userID today) := by
  cases System.changes hstep with
  | created request ledger hinsert => exact ⟨hdated, .inl ⟨rfl, rfl⟩⟩
  | refused => exact ⟨hdated, .inl ⟨rfl, rfl⟩⟩
  | topped owner amount shared happly | deducted owner amount shared happly =>
      refine ⟨hdated, .inl ⟨rfl, ?_⟩⟩
      have hsame := congrFun (apply_sparesDaily rfl happly) (userID, today)
      simp only [System.wasted, System.counted, hsame]
  | requested auth params request hfresh =>
      refine ⟨?_, .inl ⟨rfl, ?_⟩⟩
      · intro x hx huser date hphase
        rcases List.mem_append.mp hx with hx | hx
        · exact hdated x hx huser date hphase
        · rw [List.mem_singleton.mp hx] at hphase
          cases hphase
      · simp [System.wasted, System.counted, Session.new, Session.counts, InitiateStage.counts]
  | moved i m x phase access shared hx halive hmove happly =>
      have hmem := List.mem_of_getElem? hx
      have hcounted := counted_set hx shared phase userID
      have hallows : refusesUncounted userID s (.move i m) = (x.request.userID ≠ userID || !x.refuses m) := by
        simp [refusesUncounted, hx]
      rw [hallows]
      simp only [System.wasted]
      by_cases huser : x.request.userID = userID
      · subst huser
        have hday : x.countsOn today m = true := by simpa [withinDay, hx] using hday
        obtain ⟨hdaily, hdate⟩ := daily_own halive hday (hdated x hmem rfl) hmove happly
        constructor
        · intro y hy hown date hphase
          rcases List.mem_or_eq_of_mem_set hy with hy | rfl
          · exact hdated y hy hown date hphase
          · exact hdate date hphase
        · simp only [decide_true, Bool.true_and] at hcounted
          cases hrefuses : x.refuses m with
          | false =>
              simp only [hrefuses, Bool.toNat_false] at hdaily
              exact .inl ⟨by simp, by omega⟩
          | true =>
              simp only [hrefuses, Bool.toNat_true] at hdaily
              exact .inr ⟨by simp, by omega⟩
      · have hdaily : shared.daily (userID, today) = s.shared.daily (userID, today) := daily_other huser hmove happly
        simp only [huser, decide_false, Bool.false_and, Bool.toNat_false, Nat.add_zero] at hcounted
        refine ⟨?_, .inl ⟨by simp [huser], by omega⟩⟩
        intro y hy hown date hphase
        rcases List.mem_or_eq_of_mem_set hy with hy | rfl
        · exact hdated y hy hown date hphase
        · exact absurd hown huser
  | restarted =>
      refine ⟨?_, ?_⟩
      · intro x hx huser date hphase
        obtain ⟨y, hy, rfl⟩ := List.mem_map.mp hx
        exact hdated y hy huser date hphase
      · have hcounts : ∀ x : Session, Session.counts { x with alive := false } = x.admitted := by
          rintro ⟨request, stage | w, alive⟩ <;> rfl
        have hcounted : System.counted { s with sessions := s.sessions.map fun x => { x with alive := false } }
            userID = s.admitted userID := by
          simp [System.counted, System.admitted, List.countP_map, Function.comp_def, hcounts]
        have hmono : ∀ x ∈ s.sessions, decide (x.request.userID = userID ∧ x.admitted) →
            decide (x.request.userID = userID ∧ x.counts) := by
          rintro ⟨request, stage | w, alive⟩ _ h
          · simp [Session.admitted] at h
          · simpa [Session.counts, Session.admitted] using h
        simp only [System.wasted]
        rw [hcounted]
        cases hallowed : refusesUncounted userID s .restart with
        | true =>
            have hsame : s.admitted userID = s.counted userID := by
              refine List.countP_congr fun x hx => ⟨hmono x hx, fun h => ?_⟩
              have hkeeps := List.all_eq_true.mp hallowed x hx
              simp only [decide_eq_true_eq] at h
              simpa [h.1, h.2] using hkeeps
            exact .inl ⟨rfl, by omega⟩
        | false =>
            obtain ⟨x, hx, hlost⟩ := List.all_eq_false.mp hallowed
            simp only [ne_eq, decide_not, Bool.not_eq_true, Bool.or_eq_false_iff, Bool.not_eq_false',
              decide_eq_true_eq] at hlost
            have hless : s.admitted userID < s.counted userID :=
              Pool.countP_lt hmono hx (by simp [hlost]) (by simp [hlost])
            exact .inr ⟨rfl, by omega⟩

theorem dated_empty (userID : UserID) (today : String) : Dated userID today System.empty := by
  intro x hx
  cases hx

-- At rest, the sessions that the counter accounts for are the admitted ones.
theorem counted_resting {s : System} {userID : UserID} (hvalid : ∀ x ∈ s.sessions, x.Valid)
    (hrest : ∀ x ∈ s.sessions, x.request.userID = userID → x.inProgress = false) :
    s.counted userID = s.admitted userID := by
  refine List.countP_congr fun x hx => ?_
  simp only [decide_eq_true_eq]
  refine and_congr_right fun huser => ?_
  have hstored := (hvalid x hx).stored
  have hdone := hrest x hx huser
  obtain ⟨request, stage | w, alive⟩ := x
  · cases alive with
    | false => simp [Session.counts, Session.admitted]
    | true =>
        cases stage with
        | stored call => exact absurd rfl (hstored call)
        | failed e => exact Iff.rfl
        | _ => cases hdone
  · exact Iff.rfl

-- The counter is ahead of the sessions exactly in the runs that refused a counted one.
theorem wasted_run {userID : UserID} {today : String} {labels : List Label} {s : System}
    (hrun : runUnder (withinDay userID today) labels = some s) :
    Machine.run (Machine.restrict (fun s l => refusesUncounted userID s l && withinDay userID today s l) System.step)
        System.empty labels = some s ∧ Dated userID today s ∧ s.wasted userID today = 0 ∨
      Machine.run (Machine.restrict (fun s l => refusesUncounted userID s l && withinDay userID today s l) System.step)
        System.empty labels = none ∧ Dated userID today s ∧ 0 < s.wasted userID today := by
  rw [← Machine.restrict_restrict]
  refine Machine.restrict_or (P := fun s => Dated userID today s ∧ s.wasted userID today = 0)
    (Q := fun s => Dated userID today s ∧ 0 < s.wasted userID today) ?_ ?_ ?_ ?_ hrun
  · exact ⟨dated_empty userID today, rfl⟩
  · rintro s l t ⟨hdated, hzero⟩ hallowed hstep
    obtain ⟨hday, hstep⟩ := Machine.restrict_eq_some.mp hstep
    obtain ⟨hnext, ⟨_, hsame⟩ | ⟨hrefuses, _⟩⟩ := wasted_step hdated hday hstep
    · exact ⟨hnext, hsame.trans hzero⟩
    · rw [hallowed] at hrefuses
      cases hrefuses
  · rintro s l t ⟨hdated, hzero⟩ hallowed hstep
    obtain ⟨hday, hstep⟩ := Machine.restrict_eq_some.mp hstep
    obtain ⟨hnext, ⟨hkeeps, _⟩ | ⟨_, hless⟩⟩ := wasted_step hdated hday hstep
    · rw [hallowed] at hkeeps
      cases hkeeps
    · exact ⟨hnext, by omega⟩
  · rintro s l t ⟨hdated, hpos⟩ hstep
    obtain ⟨hday, hstep⟩ := Machine.restrict_eq_some.mp hstep
    obtain ⟨hnext, ⟨_, hsame⟩ | ⟨_, hless⟩⟩ := wasted_step hdated hday hstep
    · exact ⟨hnext, by omega⟩
    · exact ⟨hnext, by omega⟩

-- In every run in which the cache counts the user's requests on one day: once no
-- request of the user is in progress, the counter is the number of calls that were
-- admitted, if and only if none of the requests was refused after it was counted.
theorem quota_counts_admitted {userID : UserID} {today : String} {labels : List Label} {s : System}
    (hrun : runUnder (withinDay userID today) labels = some s)
    (hrest : ∀ x ∈ s.sessions, x.request.userID = userID → x.inProgress = false) :
    s.shared.daily (userID, today) = s.admitted userID ↔ runUnder (refusesUncounted userID) labels = some s := by
  have hsame := counted_resting (calls_run (run_of_runUnder hrun)).valid hrest
  have hwasted : s.wasted userID today = s.shared.daily (userID, today) - s.admitted userID := by
    simp only [System.wasted, hsame]
  have hcases := wasted_run hrun
  constructor
  · intro hequal
    obtain ⟨hboth, _⟩ | ⟨_, _, hpos⟩ := hcases
    · exact Machine.restrict_mono (fun _ _ h => (Bool.and_eq_true_iff.mp h).1) hboth
    · omega
  · intro huncounted
    obtain ⟨_, _, hzero⟩ | ⟨hnone, _⟩ := hcases
    · omega
    · have hboth := Machine.restrict_and huncounted hrun
      rw [hnone] at hboth
      cases hboth

theorem quota_counts_admitted_one :
    ∃ s, runUnder (withinDay 1 "2026-01-05") Service.admitted = some s ∧
      (∀ x ∈ s.sessions, x.request.userID = 1 → x.inProgress = false) ∧
      s.admitted 1 = 1 ∧ runUnder (refusesUncounted 1) Service.admitted = some s ∧
      (s.shared.daily (1, "2026-01-05") = s.admitted 1 ↔
        runUnder (refusesUncounted 1) Service.admitted = some s) := by
  have hrun : ∃ s, runUnder (withinDay 1 "2026-01-05") Service.admitted = some s ∧
      (∀ x ∈ s.sessions, x.request.userID = 1 → x.inProgress = false) ∧
      s.admitted 1 = 1 ∧ runUnder (refusesUncounted 1) Service.admitted = some s :=
    ⟨_, rfl, by decide, rfl, rfl⟩
  obtain ⟨s, hrun, hrest, hadmitted, huncounted⟩ := hrun
  exact ⟨s, hrun, hrest, hadmitted, huncounted, @quota_counts_admitted 1 "2026-01-05" Service.admitted s hrun hrest⟩

-- PreDeduct finds no balance for a request that was counted.
def unpaid : List Label :=
  [.createAccount ⟨⟨1, 0, 3, none⟩, rfl⟩,
    .initiate (some ⟨1, "client"⟩) ⟨"13800000001", "13900000002", none, none, []⟩ "c1"] ++
  ([.ok, .account ⟨0, 0, 3, none, .active⟩, .counted "2026-01-05" 1, .rates 60 120,
    .fault ⟨.FailedPrecondition, "insufficient balance for pre-deduction"⟩] : List Reply).map fun r =>
    .move 0 (.reply r)

theorem unpaid_consumes :
    ¬ ∀ userID today labels s, runUnder (withinDay userID today) labels = some s →
      (∀ x ∈ s.sessions, x.request.userID = userID → x.inProgress = false) →
      s.shared.daily (userID, today) = s.admitted userID := by
  intro h
  have hrun : ∃ s, runUnder (withinDay 1 "2026-01-05") unpaid = some s ∧
      (∀ x ∈ s.sessions, x.request.userID = 1 → x.inProgress = false) ∧
      s.shared.daily (1, "2026-01-05") = 1 ∧ s.admitted 1 = 0 :=
    ⟨_, rfl, by decide, by decide, by decide⟩
  obtain ⟨s, hrun, hrest, hdaily, hadmitted⟩ := hrun
  have hequal := h 1 "2026-01-05" unpaid s hrun hrest
  rw [hdaily, hadmitted] at hequal
  cases hequal

end Bos3000.Service
