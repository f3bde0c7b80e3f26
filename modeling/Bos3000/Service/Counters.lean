import Bos3000.Billing.SlotCounter
import Bos3000.Compliance.DailyLimit
import Bos3000.Service.Slots

-- The steps of requests and calls at the counters are those of CheckDailyLimit,
-- AcquireSlot and ReleaseSlot.
namespace Bos3000.Service

open Billing (Slot SlotCounter)
open Callback
open Compliance (Check DailyCalls)

def Shared.dailyCalls (s : Shared) : DailyCalls := fun key => s.daily (key.userID, key.date)

-- No key is lost while the service runs.
def Shared.slotCounter (s : Shared) (userID : UserID) : SlotCounter := ⟨s.slots userID, 0⟩

-- The CheckDailyLimit of a request that is at a stage.
inductive CheckOf (r : Request) : InitiateStage → Check → Prop
  | increment (m : Int) : CheckOf r (.countDaily m) (.increment ⟨r.userID, m * 1000⟩)
  | undo (date : String) : CheckOf r (.uncountDaily date) (.undo ⟨r.userID, date⟩)
  | passed (m : Int) (key : Compliance.DailyCallKey) (response : Compliance.CheckDailyLimitResponse) :
      CheckOf r (.resolveRate m) (.returned key (.ok response))
  | refused (key : Compliance.DailyCallKey) :
      CheckOf r (.failed dailyLimitExceeded) (.returned key (.error Compliance.dailyLimitExceeded))

-- Its slot, from AcquireSlot until the request has failed or is stored.
inductive SlotOf : InitiateStage → Slot → Prop
  | acquire (hold : Hold) : SlotOf (.acquireSlot hold) (.acquire hold.maxConcurrent)
  | rollback (hold : Hold) : SlotOf (.rollbackSlot hold) (.rollback 0)
  | held {stage : InitiateStage} (h : stage.holdsSlot) : SlotOf stage (.held 0)
  | floor (hold : Hold) (e : APIError) : SlotOf (.floorSlot hold e) .floor
  | refused (hold : Hold) (e cause : APIError) : SlotOf (.refund hold e) (.refused cause)
  | released (hold : Hold) (e : APIError) (response : Except APIError Billing.ReleaseSlotResponse) :
      SlotOf (.refund hold e) (.released response)

theorem apply_dailyCalls {s t : Shared} {userID : UserID} {date : String} {delta n : Int}
    (happly : s.apply (.countDaily userID date delta n) = some t) :
    n = s.dailyCalls ⟨userID, date⟩ + delta ∧ t.dailyCalls = s.dailyCalls.increment ⟨userID, date⟩ delta := by
  simp only [Shared.apply] at happly
  split at happly <;> cases happly
  rename_i hn
  refine ⟨hn.symm, ?_⟩
  funext key
  obtain ⟨owner, day⟩ := key
  by_cases hkey : owner = userID ∧ day = date
  · obtain ⟨rfl, rfl⟩ := hkey
    rw [Compliance.increment_self]
    exact (Function.update_self ..).trans hn.symm
  · have hne : (owner, day) ≠ (userID, date) := by simpa using hkey
    rw [Compliance.increment_other (by simpa [eq_comm] using hkey)]
    exact Function.update_of_ne hne ..

theorem apply_slotCounter {s t : Shared} {userID : UserID} {delta n : Int}
    (happly : s.apply (.increment userID delta n) = some t) :
    n = (s.slotCounter userID).value + delta ∧ t.slotCounter userID = (s.slotCounter userID).add delta := by
  obtain ⟨hn, hslots, _⟩ := apply_increment happly
  refine ⟨hn.symm, ?_⟩
  rw [Shared.slotCounter, hslots, ← hn]
  rfl

theorem slotCounter_spares {s t : Shared} {access : Access} (hspares : access.sparesSlots)
    (happly : s.apply access = some t) (userID : UserID) : t.slotCounter userID = s.slotCounter userID := by
  rw [Shared.slotCounter, apply_spares hspares happly]
  rfl

theorem apply_none {s t : Shared} (happly : s.apply .none = some t) : t = s := by
  cases happly
  rfl

section Step

variable {r : Request} {stage next : InitiateStage} {x : Reply} {access : Access} {s t : Shared}

-- CheckDailyLimit as an execution of its own does what the request does.
theorem check_step {check : Check} (hcheck : CheckOf r stage check)
    (hwaits : ∀ key response, check ≠ .returned key response)
    (hresume : stage.resume r x = some (next, access)) (happly : s.apply access = some t) :
    ∃ answer after, check.resume s.dailyCalls answer = some (after, t.dailyCalls) ∧ CheckOf r next after := by
  cases hcheck with
  | increment m =>
      cases x with
      | counted date n =>
          simp only [InitiateStage.resume] at hresume
          split at hresume
          · rename_i hlimit
            cases hresume
            obtain ⟨rfl, hcounted⟩ := apply_dailyCalls happly
            refine ⟨.ok date, _, ?_, .undo date⟩
            rw [Check.resume, if_pos hlimit, hcounted]
          · rename_i hlimit
            cases hresume
            obtain ⟨rfl, hcounted⟩ := apply_dailyCalls happly
            refine ⟨.ok date, _, ?_, .passed m ⟨r.userID, date⟩ ⟨s.dailyCalls ⟨r.userID, date⟩ + 1⟩⟩
            rw [Check.resume, if_neg hlimit, hcounted]
      | fault e =>
          cases hresume
          obtain rfl := apply_none happly
          exact ⟨.fault "", _, rfl, .passed m ⟨r.userID, ""⟩ ⟨-1⟩⟩
      | _ => cases hresume
  | undo date =>
      cases x with
      | counted day n =>
          simp only [InitiateStage.resume] at hresume
          split at hresume <;> cases hresume
          obtain ⟨_, hcounted⟩ := apply_dailyCalls happly
          refine ⟨.ok date, _, ?_, .refused ⟨r.userID, date⟩⟩
          rw [Check.resume, hcounted]
      | fault e =>
          cases hresume
          obtain rfl := apply_none happly
          exact ⟨.fault "", _, rfl, .refused ⟨r.userID, date⟩⟩
      | _ => cases hresume
  | passed _ key response => exact absurd rfl (hwaits key _)
  | refused key => exact absurd rfl (hwaits key _)

-- So do AcquireSlot and ReleaseSlot, or the request leaves the counter alone.
theorem slot_step {slot : Slot} (hslot : SlotOf stage slot) (hresume : stage.resume r x = some (next, access))
    (happly : s.apply access = some t) :
    (∃ answer after, slot.resume (s.slotCounter r.userID) answer = some (after, t.slotCounter r.userID) ∧
      SlotOf next after) ∨
    t.slotCounter r.userID = s.slotCounter r.userID ∧ (SlotOf next slot ∨ ∃ e, next = .failed e) := by
  cases hslot with
  | acquire hold =>
      cases x with
      | count n =>
          simp only [InitiateStage.resume] at hresume
          split at hresume
          · rename_i hlimit
            cases hresume
            obtain ⟨rfl, hcounter⟩ := apply_slotCounter happly
            refine .inl ⟨.ok, _, ?_, .rollback hold⟩
            rw [Slot.resume, if_pos hlimit, hcounter]
            rfl
          · rename_i hlimit
            cases hresume
            obtain ⟨rfl, hcounter⟩ := apply_slotCounter happly
            refine .inl ⟨.ok, _, ?_, .held rfl⟩
            rw [Slot.resume, if_neg hlimit, hcounter]
            rfl
      | fault e =>
          cases hresume
          obtain rfl := apply_none happly
          exact .inl ⟨.fault "", _, rfl, .refused hold e _⟩
      | _ => cases hresume
  | rollback hold =>
      cases x with
      | count n =>
          cases hresume
          obtain ⟨_, hcounter⟩ := apply_slotCounter happly
          refine .inl ⟨.ok, _, ?_, .refused hold _ Billing.concurrencyLimitExceeded⟩
          rw [Slot.resume, hcounter]
      | fault e =>
          cases hresume
          obtain rfl := apply_none happly
          exact .inl ⟨.fault "", _, rfl, .refused hold e _⟩
      | _ => cases hresume
  | floor hold e =>
      cases x with
      | ok =>
          cases hresume
          cases happly
          refine .inl ⟨.ok, _, ?_, .released hold e (.ok ⟨true⟩)⟩
          simp [Slot.resume, Shared.slotCounter]
      | fault cause =>
          cases hresume
          obtain rfl := apply_none happly
          exact .inl ⟨.fault "", _, rfl, .released hold e _⟩
      | _ => cases hresume
  | refused hold e cause | released hold e response =>
      cases x with
      | ok | fault =>
          cases hresume
          exact .inr ⟨slotCounter_spares rfl happly _, .inr ⟨e, rfl⟩⟩
      | _ => cases hresume
  | held hholds =>
      obtain ⟨hold, _, rfl, _⟩ | ⟨hold, _, _, rfl, _⟩ | ⟨hold, n, e, rfl, rfl, hnext⟩ |
        ⟨e, rfl, hfails⟩ | hfloors | ⟨hspares, hsame, _⟩ := resume_slots hresume
      · cases hholds
      · cases hholds
      · obtain ⟨rfl, hcounter⟩ := apply_slotCounter happly
        rw [hcounter]
        obtain ⟨hneg, rfl⟩ | ⟨hnonneg, rfl⟩ := hnext
        · exact .inl ⟨.ok, _, if_pos hneg, .floor hold e⟩
        · exact .inl ⟨.ok, _, if_neg (Int.not_lt.mpr hnonneg), .released hold e _⟩
      · cases stage with
        | releaseSlot hold e =>
            cases hresume
            obtain rfl := apply_none happly
            exact .inl ⟨.fault "", _, rfl, .released hold e _⟩
        | rollbackSlot => cases hholds
        | _ => simp [InitiateStage.rollsBack, InitiateStage.releases] at hfails
      · cases stage with
        | floorSlot => cases hholds
        | _ => cases hfloors
      · exact .inr ⟨slotCounter_spares hspares happly _, .inl (.held (hsame.trans hholds))⟩

end Step

-- What the body of finalizeCall has left of the ReleaseSlot of its call.
def slotAfter (slots : Option Int) : Slot :=
  if slots.any (· < 0) then .floor else .released (.ok ⟨true⟩)

section Finalize

variable {call call' row row' : CallbackCall} {body next : Body} {o : Outcome} {s t : Shared}

theorem exec_releaseSlot (hexec : Stmt.releaseSlot.exec call row body o = some (call', row', next))
    (happly : s.apply (Stmt.releaseSlot.access call body.slots o) = some t) :
    ∃ answer, (Slot.held 0).resume (s.slotCounter call.userID) answer =
      some (slotAfter next.slots, t.slotCounter call.userID) := by
  cases o with
  | count n =>
      cases hexec
      obtain ⟨rfl, hcounter⟩ := apply_slotCounter happly
      refine ⟨.ok, ?_⟩
      rw [hcounter, Slot.resume]
      by_cases hneg : (s.slotCounter call.userID).value - 1 < 0
      · rw [if_pos hneg]
        simp [slotAfter, Int.add_neg_eq_sub, hneg]
      · rw [if_neg hneg]
        simp [slotAfter, Int.add_neg_eq_sub, hneg]
  | fault =>
      cases hexec
      obtain rfl := apply_none happly
      exact ⟨.fault "", rfl⟩
  | _ => cases hexec

theorem exec_floorSlot (hexec : Stmt.floorSlot.exec call row body o = some (call', row', next))
    (happly : s.apply (Stmt.floorSlot.access call body.slots o) = some t) :
    (∃ answer response, (slotAfter body.slots).resume (s.slotCounter call.userID) answer =
      some (.released response, t.slotCounter call.userID)) ∨
    (∃ response, slotAfter body.slots = .released response) ∧
      t.slotCounter call.userID = s.slotCounter call.userID := by
  by_cases hneg : body.slots.any (· < 0) = true
  · have hslot : slotAfter body.slots = .floor := if_pos hneg
    rw [hslot]
    cases o with
    | ok =>
        simp only [Stmt.access, hneg, if_true] at happly
        cases happly
        refine .inl ⟨.ok, .ok ⟨true⟩, ?_⟩
        simp [Slot.resume, Shared.slotCounter]
    | fault =>
        obtain rfl := apply_none happly
        exact .inl ⟨.fault "", _, rfl⟩
    | _ => cases hexec
  · have hspares : (Stmt.floorSlot.access call body.slots o).sparesSlots := by
      cases o <;> simp [Stmt.access, hneg, Access.sparesSlots]
    exact .inr ⟨⟨_, if_neg hneg⟩, slotCounter_spares hspares happly _⟩

end Finalize

end Bos3000.Service
