import Bos3000.Billing.Credit
import Bos3000.Service.Calls

-- How far the calls of a user take its account below its credit limit.
namespace Bos3000.Service

open Billing (Account Amount Covers FinalizeParams Ledger Op Transaction createAccount preDeductAmount)
open Callback

-- The operation that a move of the session commits.
def Session.commits (x : Session) (m : Move) : Option Op :=
  match x.step m with
  | some (_, .transact op) => some op
  | _ => none

-- No credit limit and no rate is negative, nobody calls Deduct, and nothing
-- overflows.
def Admissible (s : System) : Label → Bool
  | .createAccount request => 0 ≤ request.params.creditLimit.toInt
  | .topup userID amount =>
      (s.shared.ledger.rows userID).all fun account => (Op.topup userID amount).Exact account
  | .deduct _ _ => false
  | .move i m => s.sessions[i]?.all fun x => (x.commits m).all fun op =>
      op.NonnegRates ∧ (s.shared.ledger.rows op.userID).all fun account => op.Exact account
  | .initiate _ _ _ | .restart => true

theorem Admissible.topup {s : System} {userID : UserID} {amount : Amount}
    (h : Admissible s (.topup userID amount)) {account : Account}
    (haccount : s.shared.ledger.rows userID = some account) : (Op.topup userID amount).Exact account := by
  simpa [Admissible, haccount] using h

theorem Admissible.move {s : System} {i : Nat} {m : Move} (h : Admissible s (.move i m)) {x : Session}
    (hx : s.sessions[i]? = some x) {op : Op} (hop : x.commits m = some op) :
    op.NonnegRates ∧ ∀ account, s.shared.ledger.rows op.userID = some account → op.Exact account := by
  simpa [Admissible, hx, hop, Option.all_eq_true] using h

-- A Finalize bills neither leg of the session's call for more seconds than the
-- limit.
def Bills (limit : Session → Int) (s : System) : Label → Bool
  | .move i m => s.sessions[i]?.all fun x => (x.commits m).all fun op => match op with
      | .finalize p => p.aLegDurationSec.toInt ≤ limit x ∧ p.bLegDurationSec.toInt ≤ limit x
      | _ => true
  | _ => true

theorem Bills.move {limit : Session → Int} {s : System} {i : Nat} {m : Move}
    (h : Bills limit s (.move i m)) {x : Session} (hx : s.sessions[i]? = some x) {p : FinalizeParams}
    (hop : x.commits m = some (.finalize p)) :
    p.aLegDurationSec.toInt ≤ limit x ∧ p.bLegDurationSec.toInt ≤ limit x := by
  simpa [Bills, hx, hop] using h

-- What the user's calls were charged beyond their holds.
def System.extras (s : System) (userID : UserID) : Int :=
  (s.shared.ledger.entriesOf userID).foldl (fun sum tx => sum + tx.extra) 0

structure Floor (s : System) : Prop where
  extras : ∀ userID, 0 ≤ s.extras userID
  available : ∀ userID account, s.shared.ledger.rows userID = some account →
    -s.extras userID ≤ account.available

def Within (s : System) : Prop :=
  ∀ userID account, s.shared.ledger.rows userID = some account → 0 ≤ account.available

theorem createAccount_available (request : Billing.AccountRequest) :
    (createAccount request).2.available = request.params.creditLimit.toInt := by
  simp [createAccount, Account.available]

section Apply

variable {s : System} {access : Access} {shared : Shared}

theorem Floor.apply (h : Floor s) (happly : s.shared.apply access = some shared)
    (hop : ∀ op, access = .transact op → (∀ userID amount, op ≠ .deduct userID amount) ∧
      ∀ account, s.shared.ledger.rows op.userID = some account → op.Exact account)
    (sessions : List Session) : Floor ⟨shared, sessions⟩ := by
  have hboth : ∀ userID, 0 ≤ System.extras ⟨shared, sessions⟩ userID ∧
      ∀ account, shared.ledger.rows userID = some account →
        -System.extras ⟨shared, sessions⟩ userID ≤ account.available := by
    intro userID
    obtain ⟨hrow, hentries⟩ | ⟨op, account, new, tx, haccess, rfl, haccount, happlied, hnew, hentries⟩ :=
      apply_ledger happly userID
    · have hsame : System.extras ⟨shared, sessions⟩ userID = s.extras userID := by
        simp only [System.extras, hentries]
      rw [hsame, hrow]
      exact ⟨h.extras userID, h.available userID⟩
    · obtain ⟨hdeduct, hexact⟩ := hop op haccess
      have hextras : System.extras ⟨shared, sessions⟩ op.userID = s.extras op.userID + tx.extra := by
        simp [System.extras, hentries]
      obtain ⟨htx, havailable⟩ := Billing.apply_available (hexact account haccount) hdeduct happlied
        (h.extras op.userID) (h.available op.userID account haccount)
      have hold := h.extras op.userID
      rw [hextras]
      refine ⟨by omega, ?_⟩
      intro other hother
      rw [hnew] at hother
      cases hother
      exact havailable
  exact ⟨fun userID => (hboth userID).1, fun userID => (hboth userID).2⟩

theorem Within.apply (h : Within s) (happly : s.shared.apply access = some shared)
    (hop : ∀ op, access = .transact op → (∀ userID amount, op ≠ .deduct userID amount) ∧
      op.NonnegRates ∧ (∀ p, op = .finalize p → Covers p) ∧
      ∀ account, s.shared.ledger.rows op.userID = some account → op.Exact account)
    (sessions : List Session) : Within ⟨shared, sessions⟩ := by
  intro userID account haccount
  obtain ⟨hrow, _⟩ | ⟨op, old, new, tx, haccess, rfl, hold, happlied, hnew, _⟩ := apply_ledger happly userID
  · exact h userID account (hrow.symm.trans haccount)
  · obtain ⟨hdeduct, hrates, hcovers, hexact⟩ := hop op haccess
    rw [haccount] at hnew
    cases hnew
    exact Billing.apply_within (hexact old hold) hrates hdeduct hcovers happlied (h op.userID old hold)

end Apply

theorem commits_of_step {x : Session} {m : Move} {phase : Phase} {op : Op}
    (h : x.step m = some (phase, .transact op)) : x.commits m = some op := by
  simp only [Session.commits, h]

theorem not_deduct_of_reference {op : Op} {callID : String} (h : op.reference = some callID) :
    ∀ userID amount, op ≠ .deduct userID amount := by
  rintro userID amount rfl
  cases h

theorem Floor.step {s t : System} {l : Label} (h : Floor s) (hcalls : Calls s) (hallowed : Admissible s l)
    (hstep : s.step l = some t) : Floor t := by
  cases System.changes hstep with
  | created request ledger hinsert =>
      have hextras : ∀ userID, System.extras { s with shared := { s.shared with ledger } } userID =
          s.extras userID := by
        intro userID
        simp only [System.extras, RowLock.Store.insert_log hinsert]
      refine ⟨fun userID => by rw [hextras]; exact h.extras userID, ?_⟩
      intro userID account haccount
      rw [hextras]
      obtain hold | ⟨_, rfl⟩ := RowLock.Store.insert_rows hinsert haccount
      · exact h.available userID account hold
      · have hnonneg := h.extras userID
        have hlimit : 0 ≤ request.params.creditLimit.toInt := of_decide_eq_true hallowed
        rw [createAccount_available]
        omega
  | topped userID amount shared happly =>
      refine h.apply happly ?_ s.sessions
      rintro op hop
      cases hop
      exact ⟨fun _ _ => Op.noConfusion, fun _ => Admissible.topup hallowed⟩
  | deducted => cases hallowed
  | requested => exact ⟨h.extras, h.available⟩
  | refused => exact h
  | moved i m x phase access shared hx halive hmove happly =>
      refine h.apply happly ?_ _
      rintro op rfl
      have hvalid := hcalls.valid x (List.mem_of_getElem? hx)
      exact ⟨not_deduct_of_reference (step_transact hvalid hmove).1,
        (Admissible.move hallowed hx (commits_of_step hmove)).2⟩
  | restarted => exact ⟨h.extras, h.available⟩

theorem floor_run {labels : List Label} {s : System} (hrun : runUnder Admissible labels = some s) :
    Floor s := by
  refine invariant_under (P := Floor) ?_ ?_ hrun
  · refine ⟨fun userID => Int.le_refl 0, ?_⟩
    intro userID account haccount
    cases haccount
  · intro s l t hcalls h hallowed hstep
    exact h.step hcalls hallowed hstep

-- A Finalize settles the hold that was taken for its rates.
theorem step_hold {x : Session} (hvalid : x.Valid) {m : Move} {phase : Phase} {p : FinalizeParams}
    (hstep : x.step m = some (phase, .transact (.finalize p))) :
    p.preDeductAmount = preDeductAmount ⟨p.userID, p.callID, p.aLegRate, p.bLegRate⟩ := by
  obtain ⟨stage, r, next, _, _, hresume, _⟩ | ⟨w, l, v, hw, _, hv, _, haccess⟩ :=
    Session.step_eq_some hstep
  · obtain ⟨_, _, _, haccess⟩ | ⟨hold, e, _, _, _, haccess⟩ | ⟨hno, _⟩ := resume_cases hresume
    · cases haccess
    · cases haccess
      rfl
    · exact absurd rfl (hno _)
  · obtain ⟨body, _, _, hop⟩ := access_transact hv haccess.symm
    cases hop
    exact (hvalid.admitted w hw).hold

theorem Within.step {s t : System} {l : Label} (h : Within s) (hcalls : Calls s)
    (hallowed : Admissible s l) (hbills : Bills (fun _ => 1800) s l) (hstep : s.step l = some t) :
    Within t := by
  cases System.changes hstep with
  | created request ledger hinsert =>
      intro userID account haccount
      obtain hold | ⟨_, rfl⟩ := RowLock.Store.insert_rows hinsert haccount
      · exact h userID account hold
      · rw [createAccount_available]
        exact of_decide_eq_true hallowed
  | topped userID amount shared happly =>
      refine h.apply happly ?_ s.sessions
      rintro op hop
      cases hop
      exact ⟨fun _ _ => Op.noConfusion, trivial, fun _ => Op.noConfusion, fun _ => Admissible.topup hallowed⟩
  | deducted => cases hallowed
  | requested | refused | restarted => exact h
  | moved i m x phase access shared hx halive hmove happly =>
      refine h.apply happly ?_ _
      rintro op rfl
      have hvalid := hcalls.valid x (List.mem_of_getElem? hx)
      obtain ⟨hrates, hexact⟩ := Admissible.move hallowed hx (commits_of_step hmove)
      refine ⟨not_deduct_of_reference (step_transact hvalid hmove).1, hrates, ?_, hexact⟩
      rintro p rfl
      have hlegs := Bills.move hbills hx (commits_of_step hmove)
      exact ⟨step_hold hvalid hmove, hlegs.1, hlegs.2⟩

theorem within_run {labels : List Label} {s : System}
    (hrun : runUnder (fun s l => Admissible s l && Bills (fun _ => 1800) s l) labels = some s) : Within s := by
  refine invariant_under (P := Within) ?_ ?_ hrun
  · intro userID account haccount
    cases haccount
  · intro s l t hcalls h hallowed hstep
    obtain ⟨hallowed, hbills⟩ := Bool.and_eq_true_iff.mp hallowed
    exact h.step hcalls hallowed hbills hstep

-- The calls of a user take its account below its limit by what they were charged
-- beyond their holds, at most; and not at all while no leg is billed for more
-- than the 30 minutes that PreDeduct holds.
theorem credit_floor {labels : List Label} {s : System} (hrun : runUnder Admissible labels = some s)
    {userID : UserID} {account : Account} (haccount : s.shared.ledger.rows userID = some account) :
    -s.extras userID ≤ account.available ∧
      (runUnder (Bills fun _ => 1800) labels = some s → 0 ≤ account.available) :=
  ⟨(floor_run hrun).available userID account haccount,
    fun hbills => within_run (Machine.restrict_and hrun hbills) userID account haccount⟩

theorem credit_floor_rejected :
    ∃ s account,
      runUnder Admissible (admitted ++ rejected) = some s ∧
      s.shared.ledger.rows 1 = some account ∧
      runUnder (Bills fun _ => 1800) (admitted ++ rejected) = some s ∧
      -s.extras 1 ≤ account.available ∧ 0 ≤ account.available := by
  have hrun : ∃ s account,
      runUnder Admissible (admitted ++ rejected) = some s ∧
      s.shared.ledger.rows 1 = some account ∧
      runUnder (Bills fun _ => 1800) (admitted ++ rejected) = some s := ⟨_, _, rfl, rfl, rfl⟩
  obtain ⟨s, account, hrun, haccount, hbills⟩ := hrun
  obtain ⟨hextras, hwithin⟩ := @credit_floor _ s hrun 1 account haccount
  exact ⟨s, account, hrun, haccount, hbills, hextras, hwithin hbills⟩

def takes (e : CallEvent) : List Callback.Label := [.event e, .resume (.event e)]

def statements (n : Nat) : List Callback.Label := List.replicate n (.exec 0 true)

-- Both legs talk for an hour, the limit of a call that has none of its own.
def hourLong : List Callback.Label :=
  [Callback.Label.resume (.load true)] ++ statements 2 ++ [Callback.Label.resume (.originated .A true)] ++
    statements 5 ++ takes ⟨"c1", .A, .CHANNEL_ANSWER, "", 0⟩ ++ statements 5 ++
    [Callback.Label.resume (.originated .B true)] ++
    statements 5 ++ takes ⟨"c1", .B, .CHANNEL_ANSWER, "", 10000000000⟩ ++ statements 5 ++
    [Callback.Label.resume (.bridged true)] ++ takes ⟨"c1", .B, .CHANNEL_BRIDGE, "", 11000000000⟩ ++ statements 8 ++
    takes ⟨"c1", .A, .CHANNEL_HANGUP, "NORMAL_CLEARING", 3600000000000⟩ ++ statements 6 ++
    [Callback.Label.finalize, .finalize, .body (.time 3600000000000), .body .ok, .body .ok, .body .ok,
      .body (.config none), .body .ok, .body .ok]

theorem overdrawn_hourLong :
    ¬ ∀ labels s,
      runUnder Admissible labels = some s →
      runUnder (Bills fun x => effectiveMaxDuration x.request.params.maxDuration none) labels = some s →
      ∀ userID account, s.shared.ledger.rows userID = some account → 0 ≤ account.available := by
  intro h
  have hfinal : (runUnder (fun s l => Admissible s l &&
      Bills (fun x => effectiveMaxDuration x.request.params.maxDuration none) s l)
      (admitted ++ hourLong.map fun l => .move 0 (.call l))).map
        (fun s => (s.shared.ledger.rows 1).map Account.available) = some (some (-5400)) := by
    decide +kernel
  obtain ⟨s, hrun, hrow⟩ := Option.map_eq_some_iff.mp hfinal
  obtain ⟨account, haccount, havailable⟩ := Option.map_eq_some_iff.mp hrow
  have hfloor := h _ s (Machine.restrict_mono (fun _ _ hboth => (Bool.and_eq_true_iff.mp hboth).1) hrun)
    (Machine.restrict_mono (fun _ _ hboth => (Bool.and_eq_true_iff.mp hboth).2) hrun) 1 account haccount
  rw [havailable] at hfloor
  cases hfloor

end Bos3000.Service
