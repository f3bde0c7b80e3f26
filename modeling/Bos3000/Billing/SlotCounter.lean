import Bos3000.Lib.Pool
import Bos3000.Types

-- AcquireSlot and ReleaseSlot over the slot counter of one user, whose key the
-- cache may lose at any time.
namespace Bos3000.Billing

-- The counter, which reads as 0 while no key holds it, and how often its key has
-- expired or was evicted.
structure SlotCounter where
  value : Int
  losses : Nat
  deriving DecidableEq, Repr

def SlotCounter.add (c : SlotCounter) (delta : Int) : SlotCounter := { c with value := c.value + delta }

structure ReleaseSlotResponse where
  success : Bool
  deriving DecidableEq, Repr

-- A slot, from its AcquireSlot to the ReleaseSlot of its holder. It knows how often
-- the key was lost before the increment that counts it.
inductive Slot
  | acquire (maxConcurrent : Int)
  | rollback (losses : Nat)
  | refused (e : APIError)
  | held (losses : Nat)
  | floor
  | released (response : Except APIError ReleaseSlotResponse)
  deriving DecidableEq

inductive SlotAnswer
  | ok
  | fault (e : String)
  deriving DecidableEq, Repr

def concurrencyLimitExceeded : APIError := ⟨.ResourceExhausted, "concurrent call limit exceeded"⟩

def Slot.resume (c : SlotCounter) : Slot → SlotAnswer → Option (Slot × SlotCounter)
  | .acquire m, .ok =>
      if m < c.value + 1 then some (.rollback c.losses, c.add 1) else some (.held c.losses, c.add 1)
  | .acquire _, .fault e => some (.refused ⟨.Unknown, "increment slot: " ++ e⟩, c)
  -- Roll back the increment
  | .rollback _, .ok => some (.refused concurrencyLimitExceeded, c.add (-1))
  | .rollback _, .fault e => some (.refused ⟨.Unknown, "rollback slot increment: " ++ e⟩, c)
  -- Floor at 0
  | .held _, .ok =>
      if c.value - 1 < 0 then some (.floor, c.add (-1)) else some (.released (.ok ⟨true⟩), c.add (-1))
  -- Key might not exist, that's fine
  | .held _, .fault _ => some (.released (.ok ⟨true⟩), c)
  | .floor, .ok => some (.released (.ok ⟨true⟩), { c with value := 0 })
  | .floor, .fault e => some (.released (.error ⟨.Unknown, "floor slot to 0: " ++ e⟩), c)
  | .refused _, _ | .released _, _ => none

def slotProgram : Pool.Program SlotCounter Slot Int SlotAnswer := ⟨.acquire, Slot.resume⟩

abbrev Slots := Pool.State SlotCounter Slot

def Slots.empty : Slots := ⟨⟨0, 0⟩, []⟩

inductive SlotLabel
  | execution (l : Pool.Label Int SlotAnswer)
  | lose
  deriving DecidableEq

def Slots.step (s : Slots) : SlotLabel → Option Slots
  | .execution l => Pool.step slotProgram s l
  | .lose => some { s with shared := ⟨0, s.shared.losses + 1⟩ }

-- AcquireSlot has succeeded since the key was last lost, and the slot is not released.
def Slot.counted (losses : Nat) : Slot → Bool
  | .held n => n = losses
  | _ => false

-- AcquireSlot is about to undo an increment made since then.
def Slot.rollsBack (losses : Nat) : Slot → Bool
  | .rollback n => n = losses
  | _ => false

def counted (s : Slots) : Nat := s.tasks.countP (Slot.counted s.shared.losses)

def rollingBack (s : Slots) : Nat := s.tasks.countP (Slot.rollsBack s.shared.losses)

-- The step takes nothing off the counter but what was added to it since the key
-- was last lost.
def takesBackOwn (s : Slots) : SlotLabel → Bool
  | .execution (.move i .ok) =>
      match s.tasks[i]? with
      | some (.held n) | some (.rollback n) => n = s.shared.losses
      | _ => true
  | _ => true

-- The counter counts at least the slots and the increments that will be undone, and
-- no ReleaseSlot floors it.
structure Covered (s : Slots) : Prop where
  losses : ∀ n, .held n ∈ s.tasks ∨ .rollback n ∈ s.tasks → n ≤ s.shared.losses
  floor : .floor ∉ s.tasks
  value : (counted s + rollingBack s : Int) ≤ s.shared.value

-- What a step that takes back only its own does to the counter.
inductive Moves (c next : SlotCounter) : Slot → Slot → Prop
  | acquired (m : Int) (hnext : next.value = c.value + 1) : Moves c next (.acquire m) (.held c.losses)
  | exceeded (m : Int) (hnext : next.value = c.value + 1) : Moves c next (.acquire m) (.rollback c.losses)
  | rolledBack (e : APIError) (hnext : next.value = c.value - 1) : Moves c next (.rollback c.losses) (.refused e)
  | released (after : Slot) (hafter : c.value < 1 ∧ after = .floor ∨ ∃ r, after = .released r)
      (hnext : next.value = c.value - 1) : Moves c next (.held c.losses) after
  | failed {slot after : Slot} (hafter : (∃ e, after = .refused e) ∨ ∃ r, after = .released r)
      (hnext : next.value = c.value) : Moves c next slot after

theorem resume_moves {c next : SlotCounter} {slot after : Slot} {answer : SlotAnswer}
    (h : slot.resume c answer = some (after, next)) (hfloor : slot ≠ .floor)
    (hown : answer = .ok → ∀ n, slot = .held n ∨ slot = .rollback n → n = c.losses) :
    next.losses = c.losses ∧ Moves c next slot after := by
  revert h
  fun_cases Slot.resume c slot answer <;> intro h <;> cases h
  case case1 m hlimit => exact ⟨rfl, .exceeded m rfl⟩
  case case2 m hlimit => exact ⟨rfl, .acquired m rfl⟩
  case case4 n =>
      obtain rfl := hown rfl n (.inr rfl)
      exact ⟨rfl, .rolledBack _ rfl⟩
  case case6 n hneg =>
      obtain rfl := hown rfl n (.inl rfl)
      exact ⟨rfl, .released _ (.inl ⟨by omega, rfl⟩) rfl⟩
  case case7 n hneg =>
      obtain rfl := hown rfl n (.inl rfl)
      exact ⟨rfl, .released _ (.inr ⟨_, rfl⟩) rfl⟩
  case case9 | case10 => exact absurd rfl hfloor
  all_goals exact ⟨rfl, .failed (by simp) rfl⟩

theorem Covered.move {s : Slots} (h : Covered s) {i : Nat} {slot after : Slot} {next : SlotCounter}
    (hslot : s.tasks[i]? = some slot) (hlosses : next.losses = s.shared.losses)
    (hmoves : Moves s.shared next slot after) : Covered ⟨next, s.tasks.set i after⟩ := by
  have hcounted := Pool.countP_set_add (y := after) (Slot.counted s.shared.losses) hslot
  have hrolling := Pool.countP_set_add (y := after) (Slot.rollsBack s.shared.losses) hslot
  obtain ⟨hbound, hfloor, hvalue⟩ := h
  simp only [counted, rollingBack] at hvalue
  -- the counter is at least the slot that is given back
  have hpos : slot = .held s.shared.losses → 1 ≤ s.shared.value := by
    rintro rfl
    have hheld := List.countP_pos_iff.mpr
      ⟨_, List.mem_of_getElem? hslot, show Slot.counted s.shared.losses _ = true by simp [Slot.counted]⟩
    omega
  have hafter : after ≠ .floor ∧ ∀ n, after = .held n ∨ after = .rollback n → n = s.shared.losses := by
    cases hmoves with
    | acquired | exceeded | rolledBack => simp
    | released _ hafter _ =>
        have hone := hpos rfl
        obtain ⟨hzero, rfl⟩ | ⟨r, rfl⟩ := hafter
        · omega
        · simp
    | failed hafter _ => obtain ⟨e, rfl⟩ | ⟨r, rfl⟩ := hafter <;> simp
  refine ⟨?_, ?_, ?_⟩
  · intro n hn
    rw [hlosses]
    obtain hn | hn := hn <;> obtain heq | ⟨j, _, hj⟩ := Pool.mem_set hn
    · exact Nat.le_of_eq (hafter.2 n (.inl heq.symm))
    · exact hbound n (.inl (List.mem_of_getElem? hj))
    · exact Nat.le_of_eq (hafter.2 n (.inr heq.symm))
    · exact hbound n (.inr (List.mem_of_getElem? hj))
  · intro hmem
    obtain heq | ⟨j, _, hj⟩ := Pool.mem_set hmem
    · exact hafter.1 heq.symm
    · exact hfloor (List.mem_of_getElem? hj)
  · simp only [counted, rollingBack, hlosses]
    cases hmoves with
    | acquired | exceeded | rolledBack =>
        simp only [Slot.counted, Slot.rollsBack, decide_true, Bool.toNat_true, Bool.toNat_false] at hcounted hrolling
        omega
    | released _ hreleased _ =>
        obtain ⟨_, rfl⟩ | ⟨r, rfl⟩ := hreleased
        · exact absurd rfl hafter.1
        · simp only [Slot.counted, Slot.rollsBack, decide_true, Bool.toNat_true, Bool.toNat_false] at hcounted hrolling
          omega
    | failed hfailed _ =>
        obtain ⟨e, rfl⟩ | ⟨r, rfl⟩ := hfailed <;>
          simp only [Slot.counted, Slot.rollsBack, Bool.toNat_false] at hcounted hrolling <;> omega

theorem Covered.step {s t : Slots} {l : SlotLabel} (h : Covered s) (hallowed : takesBackOwn s l)
    (hstep : s.step l = some t) : Covered t := by
  cases l with
  | lose =>
      cases hstep
      have hnone : ∀ slot ∈ s.tasks, slot.counted (s.shared.losses + 1) = false ∧
          slot.rollsBack (s.shared.losses + 1) = false := by
        intro slot hslot
        cases slot with
        | held n =>
            have hn := h.losses n (.inl hslot)
            simp only [Slot.counted, Slot.rollsBack, decide_eq_false_iff_not, and_true]
            omega
        | rollback n =>
            have hn := h.losses n (.inr hslot)
            simp only [Slot.counted, Slot.rollsBack, decide_eq_false_iff_not, true_and]
            omega
        | _ => exact ⟨rfl, rfl⟩
      refine ⟨fun n hn => Nat.le_succ_of_le (h.losses n hn), h.floor, ?_⟩
      have hcounted : s.tasks.countP (Slot.counted (s.shared.losses + 1)) = 0 :=
        List.countP_eq_zero.mpr fun slot hslot => by simp [(hnone slot hslot).1]
      have hrolling : s.tasks.countP (Slot.rollsBack (s.shared.losses + 1)) = 0 :=
        List.countP_eq_zero.mpr fun slot hslot => by simp [(hnone slot hslot).2]
      simp [counted, rollingBack, hcounted, hrolling]
  | execution l =>
      cases l with
      | spawn m =>
          cases hstep
          refine ⟨?_, by simpa [slotProgram] using h.floor, ?_⟩
          · simpa [slotProgram] using h.losses
          · simpa [counted, rollingBack, slotProgram, Slot.counted, Slot.rollsBack] using h.value
      | move i answer =>
          obtain ⟨slot, after, next, hslot, hresume, rfl⟩ := Pool.step_move.mp hstep
          have hmem := List.mem_of_getElem? hslot
          obtain ⟨hlosses, hmoves⟩ := resume_moves hresume (fun heq => h.floor (heq ▸ hmem)) (by
            rintro rfl n hn
            obtain rfl | rfl := hn <;> simpa [takesBackOwn, hslot] using hallowed)
          exact h.move hslot hlosses hmoves

-- A slot that was acquired since the key was last lost stays counted until its
-- ReleaseSlot, in every run in which no step takes a unit off the counter that was
-- added before.
theorem slot_stays_counted {labels : List SlotLabel} {s : Slots}
    (hrun : Machine.run (Machine.restrict takesBackOwn Slots.step) .empty labels = some s) :
    (counted s : Int) ≤ s.shared.value := by
  have h : Covered s :=
    Machine.restrict_invariant (fun _ _ _ h hallowed hstep => h.step hallowed hstep)
      ⟨by simp [Slots.empty], by simp [Slots.empty], by simp [counted, rollingBack, Slots.empty]⟩ hrun
  have hvalue := h.value
  omega

-- The key is lost while nobody holds a slot, and a slot is acquired afterwards.
def lostAtRest : List SlotLabel :=
  [.execution (.spawn 2), .execution (.move 0 .ok), .execution (.move 0 .ok), .lose, .execution (.spawn 2),
    .execution (.move 1 .ok)]

theorem slot_stays_counted_lostAtRest :
    ∃ s, Machine.run (Machine.restrict takesBackOwn Slots.step) .empty lostAtRest = some s ∧
      counted s = 1 ∧ (counted s : Int) ≤ s.shared.value :=
  ⟨_, rfl, rfl, @slot_stays_counted lostAtRest _ rfl⟩

-- Where the counter is the number of the slots it counts, a ReleaseSlot of a slot
-- that it does not count leaves it below.
theorem release_uncounted {s t : Slots} {i n : Nat} (hslot : s.tasks[i]? = some (.held n))
    (hlost : n ≠ s.shared.losses) (hvalue : s.shared.value = counted s)
    (hstep : s.step (.execution (.move i .ok)) = some t) : t.shared.value < counted t := by
  obtain ⟨slot, after, next, hsome, hresume, rfl⟩ := Pool.step_move.mp hstep
  rw [hslot] at hsome
  cases hsome
  have hcounted := Pool.countP_set_add (y := after) (Slot.counted s.shared.losses) hslot
  simp only [counted] at hvalue ⊢
  have hafter : next = s.shared.add (-1) ∧ after.counted s.shared.losses = false := by
    simp only [slotProgram, Slot.resume] at hresume
    split at hresume <;> cases hresume <;> exact ⟨rfl, rfl⟩
  obtain ⟨rfl, hnot⟩ := hafter
  have hbefore : Slot.counted s.shared.losses (.held n) = false := by simp [Slot.counted, hlost]
  rw [hbefore, hnot] at hcounted
  simp only [SlotCounter.add]
  omega

-- A slot from before the loss is released, and another one acquired between the
-- decrement and the Set to 0.
def overwritten : List SlotLabel :=
  [.execution (.spawn 2), .execution (.move 0 .ok), .lose, .execution (.spawn 2), .execution (.move 0 .ok),
    .execution (.move 1 .ok), .execution (.move 0 .ok)]

theorem overwritten_forgets :
    ¬ ∀ labels s, Machine.run Slots.step .empty labels = some s → (counted s : Int) ≤ s.shared.value := by
  intro h
  have hrun : ∃ s, Machine.run Slots.step .empty overwritten = some s ∧ counted s = 1 ∧ s.shared.value = 0 :=
    ⟨_, rfl, rfl, rfl⟩
  obtain ⟨s, hrun, hcounted, hvalue⟩ := hrun
  have hle := h overwritten s hrun
  rw [hcounted, hvalue] at hle
  exact absurd hle (by decide)

end Bos3000.Billing
