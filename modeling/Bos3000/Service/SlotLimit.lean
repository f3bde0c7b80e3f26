import Bos3000.Service.Slots

-- No more sessions of a user hold a slot than its account allows.
namespace Bos3000.Service

open Billing (Account)
open Callback

-- The account a session works with exists, and a request carries its limit.
def Session.Known (rows : UserID → Option Account) (x : Session) : Prop :=
  match x.phase with
  | .initiating stage => ∀ m, stage.limit = some m →
      ∃ account, rows x.request.userID = some account ∧ account.maxConcurrent = m
  | .active _ => ∃ account, rows x.request.userID = some account

structure Limited (s : System) : Prop where
  known : ∀ x ∈ s.sessions, x.Known s.shared.ledger.rows
  limit : ∀ userID account, s.shared.ledger.rows userID = some account →
    s.holders userID ≤ account.maxConcurrent

theorem Session.Known.account {rows : UserID → Option Account} {x : Session} (h : x.Known rows)
    (hvalid : x.Valid) (hholds : x.holdsSlot = true) : ∃ account, rows x.request.userID = some account := by
  obtain ⟨request, phase, alive⟩ := x
  cases phase with
  | active w => exact h
  | initiating stage =>
      have hlimit : ∃ m, stage.limit = some m := by
        cases stage with
        | stored call => exact absurd rfl (hvalid.stored call)
        | pickALeg | pickBLeg | selectDID | insertCall | releaseSlot | store => exact ⟨_, rfl⟩
        | _ => cases hholds
      obtain ⟨m, hm⟩ := hlimit
      obtain ⟨account, haccount, _⟩ := h m hm
      exact ⟨account, haccount⟩

theorem Session.Known.mono {rows rows' : UserID → Option Account} {x : Session} (h : x.Known rows)
    (hrows : ∀ userID account, rows userID = some account →
      ∃ new, rows' userID = some new ∧ new.creditLimit = account.creditLimit ∧
        new.maxConcurrent = account.maxConcurrent) : x.Known rows' := by
  unfold Session.Known at h ⊢
  split
  · rename_i stage hstage
    rw [hstage] at h
    intro m hm
    obtain ⟨account, haccount, rfl⟩ := h m hm
    obtain ⟨new, hnew, _, hsame⟩ := hrows _ _ haccount
    exact ⟨new, hnew, hsame⟩
  · rename_i w hw
    rw [hw] at h
    obtain ⟨account, haccount⟩ := h
    obtain ⟨new, hnew, _⟩ := hrows _ _ haccount
    exact ⟨new, hnew⟩

theorem Session.Known.step {s t : Shared} {x : Session} (h : x.Known s.ledger.rows) {m : Move}
    {phase : Phase} {access : Access} (hstep : x.step m = some (phase, access))
    (happly : s.apply access = some t) : Session.Known s.ledger.rows { x with phase } := by
  obtain ⟨stage, r, next, hstage, rfl, hresume, rfl⟩ | ⟨w, l, v, hw, rfl, hv, rfl, rfl⟩ :=
    Session.step_eq_some hstep
  · simp only [Session.Known, hstage] at h
    obtain ⟨hlimit, hstored⟩ := resume_limit hresume
    cases next with
    | stored call =>
        obtain ⟨m, hm⟩ := hstored call rfl
        obtain ⟨account, haccount, _⟩ := h m hm
        exact ⟨account, haccount⟩
    | _ =>
        intro m hm
        obtain hsame | ⟨a, rfl, rfl⟩ := hlimit m hm
        · exact h m hsame
        · simp only [Shared.apply] at happly
          split at happly <;> cases happly
          rename_i haccount
          exact ⟨a, haccount, rfl⟩
  · simpa only [Session.Known, hw] using h

theorem createAccount_limit (request : Billing.AccountRequest) :
    0 ≤ (Billing.createAccount request).2.maxConcurrent := by
  have hvalid := request.valid
  unfold Billing.CreateAccountParams.validate at hvalid
  split at hvalid
  · cases hvalid
  · split at hvalid
    · cases hvalid
    · simp only [Billing.createAccount]
      omega

theorem apply_limit {s t : Shared} {access : Access} (happly : s.apply access = some t) {userID : UserID}
    {new : Account} (hnew : t.ledger.rows userID = some new) :
    ∃ account, s.ledger.rows userID = some account ∧ new.maxConcurrent = account.maxConcurrent := by
  obtain ⟨hrow, _⟩ | ⟨op, account, new', tx, _, _, haccount, hop, hnew', _⟩ := apply_ledger happly userID
  · exact ⟨new, hrow.symm.trans hnew, rfl⟩
  · rw [hnew] at hnew'
    cases hnew'
    exact ⟨account, haccount, (Billing.Op.recorded hop).maxConcurrent⟩

theorem Limited.apply {s : System} {access : Access} {shared : Shared} (h : Limited s)
    (happly : s.shared.apply access = some shared) : Limited { s with shared } := by
  constructor
  · intro x hx
    exact (h.known x hx).mono fun _ _ => apply_account happly
  · intro userID new hnew
    obtain ⟨account, haccount, hsame⟩ := apply_limit happly hnew
    rw [hsame]
    exact h.limit userID account haccount

theorem Limited.move {s : System} {i : Nat} {x : Session} {phase : Phase} {access : Access}
    {shared : Shared} (h : Limited s) (hcounted : Counted s) (hx : s.sessions[i]? = some x) {m : Move}
    (hstep : x.step m = some (phase, access)) (happly : s.shared.apply access = some shared)
    (hchange : SlotChange x { x with phase } access) :
    Limited ⟨shared, s.sessions.set i { x with phase }⟩ := by
  have hknown := h.known x (List.mem_of_getElem? hx)
  constructor
  · intro y hy
    rcases List.mem_or_eq_of_mem_set hy with hy | rfl
    · exact (h.known y hy).mono fun _ _ => apply_account happly
    · exact (hknown.step hstep happly).mono fun _ _ => apply_account happly
  · intro userID new hnew
    obtain ⟨account, haccount, hsame⟩ := apply_limit happly hnew
    have hlimit := h.limit userID account haccount
    have hholders := holders_move shared phase hx userID
    rw [hsame]
    by_cases huser : x.request.userID = userID
    · subst huser
      simp only [decide_true, Bool.true_and] at hholders
      cases hchange with
      | acquired hold n hstage hn hy =>
          obtain ⟨hcount, _⟩ := apply_increment happly
          have hcounter := hcounted.counter x.request.userID
          have hphase : phase = _ := hy
          subst hphase
          simp only [Session.Known, hstage] at hknown
          obtain ⟨known, hsome, hmax⟩ := hknown hold.maxConcurrent rfl
          rw [haccount] at hsome
          cases hsome
          simp only [Session.holdsSlot, hstage, InitiateStage.holdsSlot, Bool.toNat_true, Bool.toNat_false] at hholders
          omega
      | exceeded hold n hstage hy =>
          have hphase : phase = _ := hy
          subst hphase
          simp only [Session.holdsSlot, hstage, InitiateStage.holdsSlot, Bool.toNat_false] at hholders
          omega
      | rolledBack n hbefore hafter | released n hbefore hafter =>
          simp only [hbefore, hafter, Bool.toNat_true, Bool.toNat_false] at hholders
          omega
      | kept hspares hholds hrolls =>
          rw [hholds] at hholders
          omega
    · simp only [huser, decide_false, Bool.false_and, Bool.toNat_false, Nat.add_zero] at hholders
      rw [hholders]
      exact hlimit

theorem Limited.step {s t : System} {l : Label} (h : Limited s) (hcounted : Counted s) (hcalls : Calls s)
    (hallowed : Decrements s l) (hstep : s.step l = some t) : Limited t := by
  cases System.changes hstep with
  | created request ledger hinsert =>
      obtain ⟨hnone, _⟩ := RowLock.Store.insert_eq_some.mp hinsert
      constructor
      · intro x hx
        exact (h.known x hx).mono fun _ _ => (System.changes hstep).account
      · intro userID account haccount
        obtain hold | ⟨huser, rfl⟩ := RowLock.Store.insert_rows hinsert haccount
        · exact h.limit userID account hold
        · -- without an account nobody holds a slot
          have hzero : s.holders userID = 0 := by
            rw [huser]
            refine List.countP_eq_zero.mpr fun x hx hholder => ?_
            simp only [decide_eq_true_eq] at hholder
            obtain ⟨_, hsome⟩ := (h.known x hx).account (hcalls.valid x hx) hholder.2
            rw [hholder.1, hnone] at hsome
            cases hsome
          change (s.holders userID : Int) ≤ _
          rw [hzero]
          exact createAccount_limit request
  | topped userID amount shared happly | deducted userID amount shared happly => exact h.apply happly
  | requested auth params request hfresh =>
      constructor
      · intro x hx
        rcases List.mem_append.mp hx with hx | hx
        · exact h.known x hx
        · rw [List.mem_singleton.mp hx]
          intro m hm
          cases hm
      · intro userID account haccount
        rw [(holders_new s request userID).1]
        exact h.limit userID account haccount
  | refused => exact h
  | moved i m x phase access shared hx halive hmove happly =>
      have hmem := List.mem_of_getElem? hx
      exact h.move hcounted hx hmove happly
        (Session.slotChange (hcalls.valid x hmem) (hcounted.floors x hmem) (Decrements.move hallowed hx) hmove)
  | restarted =>
      constructor
      · intro x hx
        obtain ⟨y, hy, rfl⟩ := List.mem_map.mp hx
        exact h.known y hy
      · intro userID account haccount
        rw [(holders_restart s userID).1]
        exact h.limit userID account haccount

theorem limited_run {labels : List Label} {s : System} (hrun : runUnder Decrements labels = some s) :
    Limited s := by
  have hempty : Limited System.empty := by
    constructor
    · intro x hx
      cases hx
    · intro userID account haccount
      cases haccount
  have hboth : Counted s ∧ Limited s := by
    refine invariant_under (P := fun s => Counted s ∧ Limited s) ⟨counted_empty, hempty⟩ ?_ hrun
    intro s l t hcalls ⟨hcounted, h⟩ hallowed hstep
    exact ⟨hcounted.step hcalls hallowed hstep, h.step hcounted hcalls hallowed hstep⟩
  exact hboth.2

theorem floors_of_setSlot {x : Session} {m : Move} {phase : Phase} {userID : UserID} {n : Int}
    (hstep : x.step m = some (phase, .setSlot userID n)) : x.floors := by
  unfold Session.floors
  obtain ⟨stage, r, next, hstage, _, hresume, _⟩ | ⟨w, l, v, hw, _, hv, _, haccess⟩ :=
    Session.step_eq_some hstep
  · rw [hstage]
    exact resume_setSlot hresume
  · rw [hw]
    exact access_setSlot hv haccess.symm

-- While no decrement of the counter fails, it counts the holders of a slot and
-- the requests that are about to undo their increment, the holders stay within
-- the limit, and ReleaseSlot never has to floor the counter.
theorem slots_limited {labels : List Label} {s : System} (hrun : runUnder Decrements labels = some s)
    (userID : UserID) :
    (∀ account, s.shared.ledger.rows userID = some account → s.holders userID ≤ account.maxConcurrent) ∧
    s.shared.slots userID = s.holders userID + s.rollingBack userID ∧
    0 ≤ s.shared.slots userID ∧
    ∀ x ∈ s.sessions, ∀ m phase n, x.step m ≠ some (phase, .setSlot userID n) := by
  have hcounted := counted_run hrun
  have hcounter := hcounted.counter userID
  refine ⟨(limited_run hrun).limit userID, hcounter, by omega, ?_⟩
  intro x hx m phase n hstep
  exact hcounted.floors x hx (floors_of_setSlot hstep)

-- Two requests of a user that may have one call race for the slot.
def contended : List Label :=
  [.createAccount ⟨⟨1, 0, 1, none⟩, rfl⟩, .topup 1 ⟨10800, rfl⟩,
   .initiate (some ⟨1, "client"⟩) ⟨"13800000001", "13900000002", none, none, []⟩ "c1",
   .initiate (some ⟨1, "client"⟩) ⟨"13800000001", "13900000003", none, none, []⟩ "c2"] ++
  ([(0, .ok), (1, .ok), (0, .account ⟨10800, 0, 1, none, .active⟩),
    (1, .account ⟨10800, 0, 1, none, .active⟩), (0, .counted "2026-01-05" 1),
    (1, .counted "2026-01-05" 2), (0, .rates 60 120), (1, .rates 60 120), (0, .ok), (1, .ok),
    (1, .count 1), (0, .count 2)] : List (Nat × Reply)).map fun (i, r) => .move i (.reply r)

theorem slots_limited_contended :
    ∃ s account, runUnder Decrements contended = some s ∧
      s.shared.ledger.rows 1 = some account ∧ s.holders 1 = 1 ∧ s.rollingBack 1 = 1 ∧
      (∀ account, s.shared.ledger.rows 1 = some account → s.holders 1 ≤ account.maxConcurrent) ∧
      s.shared.slots 1 = s.holders 1 + s.rollingBack 1 ∧
      0 ≤ s.shared.slots 1 ∧
      ∀ x ∈ s.sessions, ∀ m phase n, x.step m ≠ some (phase, .setSlot 1 n) :=
  ⟨_, _, rfl, rfl, rfl, rfl, @slots_limited contended _ rfl 1⟩

end Bos3000.Service
