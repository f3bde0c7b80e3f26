import Bos3000.Callback.Slots
import Bos3000.Lib.Pool
import Bos3000.Service.Calls

-- The slot counters count the sessions that hold a slot.
namespace Bos3000.Service

open Billing (Account Op Transaction createAccount)
open Callback

def Session.holdsSlot (x : Session) : Bool :=
  match x.phase with
  | .initiating stage => stage.holdsSlot
  | .active w => ¬ w.released

def Session.rollsBack (x : Session) : Bool :=
  match x.phase with
  | .initiating stage => stage.rollsBack
  | .active _ => false

-- The next access is the floor at 0 of ReleaseSlot.
def Session.floors (x : Session) : Prop :=
  match x.phase with
  | .initiating stage => stage.floors
  | .active w => w.floors

-- The move is the decrement of a ReleaseSlot.
def Session.releases (x : Session) (m : Move) : Bool :=
  match x.phase, m with
  | .initiating stage, .reply _ => stage.releases
  | .active w, .call l => w.releases l
  | _, _ => false

-- The move is a decrement of the counter that fails: AcquireSlot's rollback, or
-- the decrement of a ReleaseSlot.
def Session.failsDecrement (x : Session) (m : Move) : Bool :=
  match x.phase, m with
  | .initiating stage, .reply (.fault _) => stage.rollsBack || stage.releases
  | .active w, .call l => w.failsRelease l
  | _, _ => false

def System.holders (s : System) (userID : UserID) : Nat :=
  s.sessions.countP fun x => x.request.userID = userID ∧ x.holdsSlot

def System.rollingBack (s : System) (userID : UserID) : Nat :=
  s.sessions.countP fun x => x.request.userID = userID ∧ x.rollsBack

structure Counted (s : System) : Prop where
  counter : ∀ userID, s.shared.slots userID = s.holders userID + s.rollingBack userID
  floors : ∀ x ∈ s.sessions, ¬ x.floors

-- What a move of x to y does about the slot of x.
inductive SlotChange (x y : Session) : Access → Prop
  | acquired (hold : Hold) (n : Int) (hx : x.phase = .initiating (.acquireSlot hold))
      (hn : n ≤ hold.maxConcurrent) (hy : y.phase = .initiating (.pickALeg hold)) :
      SlotChange x y (.increment x.request.userID 1 n)
  | exceeded (hold : Hold) (n : Int) (hx : x.phase = .initiating (.acquireSlot hold))
      (hy : y.phase = .initiating (.rollbackSlot hold)) :
      SlotChange x y (.increment x.request.userID 1 n)
  | rolledBack (n : Int) (hx : x.holdsSlot = false ∧ x.rollsBack = true)
      (hy : y.holdsSlot = false ∧ y.rollsBack = false) (hfloors : ¬ y.floors) :
      SlotChange x y (.increment x.request.userID (-1) n)
  | released (n : Int) (hx : x.holdsSlot = true ∧ x.rollsBack = false)
      (hy : y.holdsSlot = false ∧ y.rollsBack = false) (hfloors : 0 ≤ n → ¬ y.floors) :
      SlotChange x y (.increment x.request.userID (-1) n)
  | kept {access : Access} (hspares : access.sparesSlots) (hholds : y.holdsSlot = x.holdsSlot)
      (hrolls : y.rollsBack = x.rollsBack) (hfloors : ¬ y.floors) : SlotChange x y access

theorem phase_of_slots (x : Session) (stage : InitiateStage) :
    Session.holdsSlot { x with phase := Phase.of stage } = stage.holdsSlot ∧
      Session.rollsBack { x with phase := Phase.of stage } = stage.rollsBack ∧
      (Session.floors { x with phase := Phase.of stage } ↔ stage.floors) := by
  cases stage with
  | stored call =>
      refine ⟨rfl, rfl, ?_⟩
      simp [Session.floors, Phase.of, ActiveCall.floors, ActiveCall.init, InitiateStage.floors]
  | _ => exact ⟨rfl, rfl, Iff.rfl⟩

theorem Session.slotChange {x : Session} (hvalid : x.Valid) (hfloors : ¬ x.floors) {m : Move}
    (hm : ¬ x.failsDecrement m) {phase : Phase} {access : Access} (hstep : x.step m = some (phase, access)) :
    SlotChange x { x with phase } access := by
  obtain ⟨stage, r, next, hstage, rfl, hresume, rfl⟩ | ⟨w, l, v, hw, rfl, hv, rfl, rfl⟩ :=
    Session.step_eq_some hstep
  · simp only [Session.floors, hstage] at hfloors
    simp only [Session.failsDecrement, hstage] at hm
    obtain ⟨hholds, hrolls, hfloor⟩ := phase_of_slots x next
    obtain ⟨hold, n, rfl, rfl, ⟨_, rfl⟩ | ⟨hn, rfl⟩⟩ | ⟨hold, n, e, rfl, rfl, rfl⟩ |
      ⟨hold, n, e, rfl, rfl, hnext⟩ | ⟨e, rfl, hfails⟩ | hfloor' | ⟨hspares, hsame, hback, hnext⟩ :=
      resume_slots hresume
    · exact .exceeded hold n hstage rfl
    · exact .acquired hold n hstage hn rfl
    · refine .rolledBack n ?_ ⟨rfl, rfl⟩ (fun h => by cases h)
      simp [Session.holdsSlot, Session.rollsBack, hstage, InitiateStage.holdsSlot, InitiateStage.rollsBack]
    · refine .released n ?_ ?_ ?_
      · simp [Session.holdsSlot, Session.rollsBack, hstage, InitiateStage.holdsSlot, InitiateStage.rollsBack]
      · obtain ⟨_, rfl⟩ | ⟨_, rfl⟩ := hnext <;> exact ⟨rfl, rfl⟩
      · intro hn
        obtain ⟨hneg, _⟩ | ⟨_, rfl⟩ := hnext
        · omega
        · exact fun h => by cases h
    · exact absurd (by simpa using hfails) hm
    · exact absurd hfloor' hfloors
    · refine .kept hspares ?_ ?_ (mt hfloor.mp hnext)
      · rw [hholds, hsame]
        simp [Session.holdsSlot, hstage]
      · rw [hrolls, hback]
        simp [Session.rollsBack, hstage]
  · simp only [Session.floors, hw] at hfloors
    simp only [Session.failsDecrement, hw] at hm
    have hadmitted := hvalid.admitted w hw
    obtain ⟨n, haccess, hunreleased, hreleased, hfloor⟩ | ⟨hspares, hsame, hfloor⟩ :=
      step_slots hadmitted.settling hfloors hm hv
    · rw [haccess, hadmitted.callID.2]
      refine .released n ?_ ?_ hfloor
      · simp [Session.holdsSlot, Session.rollsBack, hw, hunreleased]
      · simp [Session.holdsSlot, Session.rollsBack, hreleased]
    · refine .kept hspares ?_ ?_ hfloor
      · simp [Session.holdsSlot, hw, hsame]
      · simp [Session.rollsBack, hw]

-- A decrement that fails leaves the counter, and the session without its slot.
theorem Session.failsDecrement_slots {x : Session} (hvalid : x.Valid) {m : Move} (hm : x.failsDecrement m = true)
    {phase : Phase} {access : Access} (hstep : x.step m = some (phase, access)) :
    access.sparesSlots ∧ x.holdsSlot.toNat + x.rollsBack.toNat = 1 ∧
      Session.holdsSlot { x with phase } = false ∧ Session.rollsBack { x with phase } = false ∧
      ¬ Session.floors { x with phase } := by
  obtain ⟨stage, r, next, hstage, rfl, hresume, rfl⟩ | ⟨w, l, v, hw, rfl, hv, rfl, rfl⟩ :=
    Session.step_eq_some hstep
  · simp only [Session.failsDecrement, hstage] at hm
    obtain ⟨hholds, hrolls, hfloor⟩ := phase_of_slots x next
    rw [hholds, hrolls, hfloor]
    simp only [Session.holdsSlot, Session.rollsBack, hstage]
    revert hresume
    fun_cases InitiateStage.resume x.request stage r <;> intro hresume <;> cases hresume <;>
      simp_all [InitiateStage.holdsSlot, InitiateStage.rollsBack, InitiateStage.releases, InitiateStage.floors,
        Access.sparesSlots]
  · simp only [Session.failsDecrement, hw] at hm
    obtain ⟨hspares, hunreleased, hreleased, hfloor⟩ :=
      failsRelease_slots (hvalid.admitted w hw).settling hm hv
    refine ⟨hspares, ?_, ?_, rfl, hfloor⟩
    · simp [Session.holdsSlot, Session.rollsBack, hw, hunreleased]
    · simp [Session.holdsSlot, hreleased]

theorem apply_spares {s t : Shared} {access : Access} (hspares : access.sparesSlots)
    (happly : s.apply access = some t) : t.slots = s.slots := by
  cases access with
  | increment | setSlot => cases hspares
  | transact op =>
      obtain ⟨_, _, rfl⟩ := Option.map_eq_some_iff.mp happly
      rfl
  | none | account | countDaily =>
      simp only [Shared.apply] at happly
      try split at happly
      all_goals
        cases happly
        try rfl

theorem apply_increment {s t : Shared} {userID : UserID} {delta n : Int}
    (happly : s.apply (.increment userID delta n) = some t) :
    s.slots userID + delta = n ∧ t.slots userID = n ∧ ∀ other, other ≠ userID →
      t.slots other = s.slots other := by
  simp only [Shared.apply] at happly
  split at happly <;> cases happly
  rename_i hn
  exact ⟨hn, by simp, fun other hother => by simp [hother]⟩

-- A session changes the counter of its user as it changes what it holds, but for a
-- decrement that fails, and its ReleaseSlot does not floor a counter that counts it.
theorem slots_own {s shared : Shared} {x : Session} (hvalid : x.Valid) (hfloors : ¬ x.floors)
    (hpos : x.holdsSlot = true → 0 < s.slots x.request.userID) {m : Move} {phase : Phase} {access : Access}
    (hstep : x.step m = some (phase, access)) (happly : s.apply access = some shared) :
    shared.slots x.request.userID -
        ((Session.holdsSlot { x with phase }).toNat + (Session.rollsBack { x with phase }).toNat) =
      s.slots x.request.userID - (x.holdsSlot.toNat + x.rollsBack.toNat) + (x.failsDecrement m).toNat ∧
    (∀ other, other ≠ x.request.userID → shared.slots other = s.slots other) ∧
    ¬ Session.floors { x with phase } := by
  cases hm : x.failsDecrement m with
  | true =>
      obtain ⟨hspares, hone, hholds, hrolls, hfloor⟩ := Session.failsDecrement_slots hvalid hm hstep
      have hsame := apply_spares hspares happly
      refine ⟨?_, fun other _ => congrFun hsame other, hfloor⟩
      have huser := congrFun hsame x.request.userID
      simp only [hholds, hrolls, Bool.toNat_true, Bool.toNat_false]
      omega
  | false =>
      cases Session.slotChange hvalid hfloors (by simp [hm]) hstep with
      | acquired hold n hx _ hy | exceeded hold n hx hy =>
          obtain ⟨hn, hslots, hother⟩ := apply_increment happly
          have hphase : phase = _ := hy
          subst hphase
          refine ⟨?_, hother, fun h => by cases h⟩
          simp only [Session.holdsSlot, Session.rollsBack, hx, InitiateStage.holdsSlot, InitiateStage.rollsBack,
            Bool.toNat_true, Bool.toNat_false]
          omega
      | rolledBack n hbefore hafter hfloor =>
          obtain ⟨hn, hslots, hother⟩ := apply_increment happly
          refine ⟨?_, hother, hfloor⟩
          simp only [hbefore, hafter, Bool.toNat_true, Bool.toNat_false]
          omega
      | released n hbefore hafter hfloor =>
          obtain ⟨hn, hslots, hother⟩ := apply_increment happly
          have hcounts := hpos hbefore.1
          refine ⟨?_, hother, hfloor (by omega)⟩
          simp only [hbefore, hafter, Bool.toNat_true, Bool.toNat_false]
          omega
      | kept hspares hholds hrolls hfloor =>
          have hsame := apply_spares hspares happly
          refine ⟨?_, fun other _ => congrFun hsame other, hfloor⟩
          have huser := congrFun hsame x.request.userID
          simp only [hholds, hrolls, Bool.toNat_false]
          omega

section Step

variable {s : System} {i : Nat} {x : Session}

theorem holders_move (shared : Shared) (phase : Phase) (hx : s.sessions[i]? = some x) (userID : UserID) :
    System.holders ⟨shared, s.sessions.set i { x with phase }⟩ userID +
        (decide (x.request.userID = userID) && x.holdsSlot).toNat =
      s.holders userID +
        (decide (x.request.userID = userID) && Session.holdsSlot { x with phase }).toNat := by
  simpa [System.holders] using Pool.countP_set_add
    (y := { x with phase }) (fun x => decide (x.request.userID = userID ∧ x.holdsSlot)) hx

theorem rollingBack_move (shared : Shared) (phase : Phase) (hx : s.sessions[i]? = some x)
    (userID : UserID) :
    System.rollingBack ⟨shared, s.sessions.set i { x with phase }⟩ userID +
        (decide (x.request.userID = userID) && x.rollsBack).toNat =
      s.rollingBack userID +
        (decide (x.request.userID = userID) && Session.rollsBack { x with phase }).toNat := by
  simpa [System.rollingBack] using Pool.countP_set_add
    (y := { x with phase }) (fun x => decide (x.request.userID = userID ∧ x.rollsBack)) hx

theorem holders_pos {s : System} {x : Session} (hx : x ∈ s.sessions) (hholds : x.holdsSlot = true) :
    0 < s.holders x.request.userID :=
  List.countP_pos_iff.mpr ⟨x, hx, by simp [hholds]⟩

end Step

theorem holders_new (s : System) (request : Request) (userID : UserID) :
    System.holders { s with sessions := s.sessions ++ [Session.new request] } userID = s.holders userID ∧
      System.rollingBack { s with sessions := s.sessions ++ [Session.new request] } userID =
        s.rollingBack userID := by
  simp [System.holders, System.rollingBack, Session.new, Session.holdsSlot, Session.rollsBack,
    InitiateStage.holdsSlot, InitiateStage.rollsBack]

theorem holders_restart (s : System) (userID : UserID) :
    System.holders { s with sessions := s.sessions.map fun x => { x with alive := false } } userID =
        s.holders userID ∧
      System.rollingBack { s with sessions := s.sessions.map fun x => { x with alive := false } } userID =
        s.rollingBack userID := by
  simp [System.holders, System.rollingBack, List.countP_map, Function.comp_def]
  exact ⟨rfl, rfl⟩

-- What the counter of a user counts beyond the sessions that have a unit of it.
def System.leaked (s : System) (userID : UserID) : Int :=
  s.shared.slots userID - (s.holders userID + s.rollingBack userID)

def System.failsDecrement (s : System) (userID : UserID) : Label → Bool
  | .move i m => s.sessions[i]?.any fun x => x.request.userID = userID ∧ x.failsDecrement m
  | _ => false

-- The counter counts at least the sessions that have a unit of it.
structure Bounded (s : System) : Prop where
  leaked : ∀ userID, 0 ≤ s.leaked userID
  floors : ∀ x ∈ s.sessions, ¬ x.floors

theorem Bounded.pos {s : System} (h : Bounded s) {x : Session} (hx : x ∈ s.sessions) (hholds : x.holdsSlot = true) :
    0 < s.shared.slots x.request.userID := by
  have hpos := holders_pos hx hholds
  have hleaked := h.leaked x.request.userID
  simp only [System.leaked] at hleaked
  omega

-- A decrement that fails leaks a unit, and nothing else does.
theorem leaked_step {s t : System} {l : Label} (h : Bounded s) (hcalls : Calls s) (hstep : s.step l = some t) :
    (∀ userID, t.leaked userID = s.leaked userID + (s.failsDecrement userID l).toNat) ∧
      ∀ x ∈ t.sessions, ¬ x.floors := by
  cases System.changes hstep with
  | created | refused => exact ⟨fun userID => (Int.add_zero _).symm, h.floors⟩
  | topped userID amount shared happly | deducted userID amount shared happly =>
      refine ⟨fun user => ?_, h.floors⟩
      have hsame := congrFun (apply_spares rfl happly) user
      simp only [System.leaked, hsame]
      exact (Int.add_zero _).symm
  | requested auth params request hfresh =>
      constructor
      · intro userID
        obtain ⟨hholders, hrolling⟩ := holders_new s request userID
        simp only [System.leaked, hholders, hrolling]
        exact (Int.add_zero _).symm
      · intro x hx
        rcases List.mem_append.mp hx with hx | hx
        · exact h.floors x hx
        · rw [List.mem_singleton.mp hx]
          exact fun hfloors => by cases hfloors
  | moved i m x phase access shared hx halive hmove happly =>
      have hmem := List.mem_of_getElem? hx
      obtain ⟨hown, hothers, hfloors⟩ :=
        slots_own (hcalls.valid x hmem) (h.floors x hmem) (h.pos hmem) hmove happly
      constructor
      · intro userID
        have hholders := holders_move shared phase hx userID
        have hrolling := rollingBack_move shared phase hx userID
        have hfails : s.failsDecrement userID (.move i m) =
            (decide (x.request.userID = userID) && x.failsDecrement m) := by
          simp [System.failsDecrement, hx]
        rw [hfails]
        simp only [System.leaked]
        by_cases huser : x.request.userID = userID
        · subst huser
          simp only [decide_true, Bool.true_and] at hholders hrolling ⊢
          omega
        · have hsame := hothers userID (Ne.symm huser)
          simp only [huser, decide_false, Bool.false_and, Bool.toNat_false, Nat.add_zero] at hholders hrolling ⊢
          omega
      · intro y hy
        rcases List.mem_or_eq_of_mem_set hy with hy | rfl
        · exact h.floors y hy
        · exact hfloors
  | restarted =>
      constructor
      · intro userID
        obtain ⟨hholders, hrolling⟩ := holders_restart s userID
        simp only [System.leaked, hholders, hrolling]
        exact (Int.add_zero _).symm
      · intro x hx
        obtain ⟨y, hy, rfl⟩ := List.mem_map.mp hx
        exact h.floors y hy

theorem Bounded.step {s t : System} {l : Label} (h : Bounded s) (hcalls : Calls s) (hstep : s.step l = some t) :
    Bounded t := by
  obtain ⟨hleaked, hfloors⟩ := leaked_step h hcalls hstep
  refine ⟨fun userID => ?_, hfloors⟩
  have hbefore := h.leaked userID
  have hafter := hleaked userID
  omega

theorem bounded_run {labels : List Label} {s : System} (hrun : run labels = some s) : Bounded s := by
  have hempty : Bounded System.empty := ⟨fun _ => Int.le_refl 0, fun _ hx => by cases hx⟩
  refine Machine.run_induction (motive := fun _ s => Bounded s) hempty ?_ hrun
  exact fun _ _ _ _ hs h hlast => h.step (calls_run hs) hlast

-- No decrement of a slot counter fails.
def Decrements (s : System) : Label → Bool
  | .move i m => s.sessions[i]?.all fun x => !x.failsDecrement m
  | _ => true

theorem Decrements.move {s : System} {i : Nat} {m : Move} (h : Decrements s (.move i m)) {x : Session}
    (hx : s.sessions[i]? = some x) : ¬ x.failsDecrement m := by
  simpa [Decrements, hx] using h

theorem Decrements.failsDecrement {s : System} {l : Label} (h : Decrements s l) (userID : UserID) :
    s.failsDecrement userID l = false := by
  cases l with
  | move i m =>
      cases hx : s.sessions[i]? with
      | none => simp [System.failsDecrement, hx]
      | some x => simp [System.failsDecrement, hx, Decrements.move h hx]
  | _ => rfl

theorem Counted.bounded {s : System} (h : Counted s) : Bounded s := by
  refine ⟨fun userID => ?_, h.floors⟩
  have hcounter := h.counter userID
  simp only [System.leaked]
  omega

theorem Counted.step {s t : System} {l : Label} (h : Counted s) (hcalls : Calls s)
    (hallowed : Decrements s l) (hstep : s.step l = some t) : Counted t := by
  obtain ⟨hleaked, hfloors⟩ := leaked_step h.bounded hcalls hstep
  refine ⟨fun userID => ?_, hfloors⟩
  have hcounter := h.counter userID
  have hafter := hleaked userID
  rw [Decrements.failsDecrement hallowed userID] at hafter
  simp only [System.leaked, Bool.toNat_false] at hafter
  omega

theorem counted_empty : Counted System.empty :=
  ⟨fun _ => rfl, fun _ hx => by cases hx⟩

theorem counted_run {labels : List Label} {s : System} (hrun : runUnder Decrements labels = some s) :
    Counted s :=
  invariant_under counted_empty (fun _ _ _ hcalls h hallowed hstep => h.step hcalls hallowed hstep) hrun

end Bos3000.Service
