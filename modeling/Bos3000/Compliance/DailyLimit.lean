import Bos3000.Lib.Pool
import Bos3000.Types
import Mathlib.Logic.Function.Basic

-- CheckDailyLimit over the counters of the cache: any number of executions, whose
-- Increments interleave.
namespace Bos3000.Compliance

structure DailyCallKey where
  userID : UserID
  date : String
  deriving DecidableEq, Repr

structure CheckDailyLimitParams where
  userID : UserID
  dailyLimit : Int
  deriving DecidableEq, Repr

structure CheckDailyLimitResponse where
  currentCount : Int
  deriving DecidableEq, Repr

-- An execution waits for its Increment, for the one that undoes it, or has returned.
inductive Check
  | increment (p : CheckDailyLimitParams)
  | undo (key : DailyCallKey)
  | returned (key : DailyCallKey) (response : Except APIError CheckDailyLimitResponse)
  deriving DecidableEq

-- The answer of the cache, with the date that time.Now() has at the increment.
inductive CacheAnswer
  | ok (today : String)
  | fault (today : String)
  deriving DecidableEq, Repr

def CacheAnswer.succeeds : CacheAnswer → Bool
  | .ok _ => true
  | .fault _ => false

def dailyLimitExceeded : APIError := ⟨.ResourceExhausted, "daily call limit exceeded"⟩

-- A counter that no key holds reads as 0.
abbrev DailyCalls := DailyCallKey → Int

def DailyCalls.increment (dailyCalls : DailyCalls) (key : DailyCallKey) (delta : Int) : DailyCalls :=
  Function.update dailyCalls key (dailyCalls key + delta)

def Check.resume (dailyCalls : DailyCalls) : Check → CacheAnswer → Option (Check × DailyCalls)
  -- Fail open
  | .increment p, .fault today => some (.returned ⟨p.userID, today⟩ (.ok ⟨-1⟩), dailyCalls)
  | .increment p, .ok today =>
      if p.dailyLimit < dailyCalls ⟨p.userID, today⟩ + 1 then
        some (.undo ⟨p.userID, today⟩, dailyCalls.increment ⟨p.userID, today⟩ 1)
      else
        some (.returned ⟨p.userID, today⟩ (.ok ⟨dailyCalls ⟨p.userID, today⟩ + 1⟩),
          dailyCalls.increment ⟨p.userID, today⟩ 1)
  -- Undo optimistic increment
  | .undo key, .ok _ => some (.returned key (.error dailyLimitExceeded), dailyCalls.increment key (-1))
  | .undo key, .fault _ => some (.returned key (.error dailyLimitExceeded), dailyCalls)
  | .returned _ _, _ => none

def program : Pool.Program DailyCalls Check CheckDailyLimitParams CacheAnswer := ⟨.increment, Check.resume⟩

abbrev Checks := Pool.State DailyCalls Check

def Checks.empty : Checks := ⟨fun _ => 0, []⟩

-- The execution was admitted to the calls of the key.
def Check.succeeded (key : DailyCallKey) : Check → Bool
  | .returned k (.ok _) => k = key
  | _ => false

def Check.undoes (key : DailyCallKey) : Check → Bool
  | .undo k => k = key
  | _ => false

-- The execution of a request of the user has not returned.
def Check.inProgress (userID : UserID) : Check → Bool
  | .increment p => p.userID = userID
  | .undo key => key.userID = userID
  | .returned _ _ => false

def successes (s : Checks) (key : DailyCallKey) : Nat := s.tasks.countP (Check.succeeded key)

def undoing (s : Checks) (key : DailyCallKey) : Nat := s.tasks.countP (Check.undoes key)

-- The cache answers, and the user's requests carry one limit.
def limited (userID : UserID) (dailyLimit : Int) (_ : Checks) :
    Pool.Label CheckDailyLimitParams CacheAnswer → Bool
  | .spawn p => p.userID ≠ userID ∨ p.dailyLimit = dailyLimit
  | .move _ answer => answer.succeeds

-- What a step does about a key: it counts an execution, as a success within the
-- limit or as one that will undo its increment, or it undoes one.
inductive Counts (key : DailyCallKey) (dailyCalls next : DailyCalls) : Check → Check → Prop
  | succeeded (p : CheckDailyLimitParams) (response : CheckDailyLimitResponse) (huser : p.userID = key.userID)
      (hlimit : dailyCalls key + 1 ≤ p.dailyLimit) (hnext : next key = dailyCalls key + 1) :
      Counts key dailyCalls next (.increment p) (.returned key (.ok response))
  | exceeded (p : CheckDailyLimitParams) (hnext : next key = dailyCalls key + 1) :
      Counts key dailyCalls next (.increment p) (.undo key)
  | undone (e : APIError) (hnext : next key = dailyCalls key - 1) :
      Counts key dailyCalls next (.undo key) (.returned key (.error e))
  | other {check after : Check} (hsucceeded : after.succeeded key = check.succeeded key)
      (hundoes : after.undoes key = check.undoes key) (hnext : next key = dailyCalls key) :
      Counts key dailyCalls next check after

theorem increment_self (dailyCalls : DailyCalls) (key : DailyCallKey) (delta : Int) :
    dailyCalls.increment key delta key = dailyCalls key + delta := Function.update_self ..

theorem increment_other {key other : DailyCallKey} (h : other ≠ key) (dailyCalls : DailyCalls) (delta : Int) :
    dailyCalls.increment other delta key = dailyCalls key := Function.update_of_ne (Ne.symm h) ..

theorem resume_counts {dailyCalls next : DailyCalls} {check after : Check} {answer : CacheAnswer}
    (hanswer : answer.succeeds = true) (h : check.resume dailyCalls answer = some (after, next))
    (key : DailyCallKey) : Counts key dailyCalls next check after := by
  revert h
  fun_cases Check.resume dailyCalls check answer <;> intro h <;> cases h
  case case1 => cases hanswer
  case case2 p today hlimit =>
      by_cases hkey : ⟨p.userID, today⟩ = key
      · subst hkey
        exact .exceeded p (increment_self ..)
      · exact .other rfl (by simp [Check.undoes, hkey]) (increment_other hkey ..)
  case case3 p today hlimit =>
      by_cases hkey : ⟨p.userID, today⟩ = key
      · subst hkey
        exact .succeeded p _ rfl (Int.not_lt.mp hlimit) (increment_self ..)
      · exact .other (by simp [Check.succeeded, hkey]) rfl (increment_other hkey ..)
  case case4 undone _ =>
      by_cases hkey : undone = key
      · subst hkey
        exact .undone _ (increment_self ..)
      · exact .other rfl (by simp [Check.undoes, hkey]) (increment_other hkey ..)
  case case5 => cases hanswer

-- No execution goes back to its Increment.
theorem resume_ne_increment {dailyCalls next : DailyCalls} {check : Check} {p : CheckDailyLimitParams}
    {answer : CacheAnswer} : check.resume dailyCalls answer ≠ some (.increment p, next) := by
  fun_cases Check.resume dailyCalls check answer <;> simp

-- The counter counts the successes and the executions that will undo their increment.
structure Tallied (key : DailyCallKey) (dailyLimit : Int) (s : Checks) : Prop where
  requests : ∀ p, .increment p ∈ s.tasks → p.userID = key.userID → p.dailyLimit = dailyLimit
  counter : s.shared key = successes s key + undoing s key
  limit : (successes s key : Int) ≤ dailyLimit

theorem Tallied.step {key : DailyCallKey} {dailyLimit : Int} {s t : Checks}
    {l : Pool.Label CheckDailyLimitParams CacheAnswer} (h : Tallied key dailyLimit s)
    (hallowed : limited key.userID dailyLimit s l) (hstep : Pool.step program s l = some t) :
    Tallied key dailyLimit t := by
  cases l with
  | spawn p =>
      cases hstep
      refine ⟨?_, by simpa [successes, undoing, program, Check.succeeded, Check.undoes] using h.counter,
        by simpa [successes, program, Check.succeeded] using h.limit⟩
      intro q hq huser
      obtain hq | hq := List.mem_append.mp hq
      · exact h.requests q hq huser
      · cases List.mem_singleton.mp hq
        simpa [limited, huser] using hallowed
  | move i answer =>
      obtain ⟨check, after, next, hcheck, hresume, rfl⟩ := Pool.step_move.mp hstep
      have hsucceeded := Pool.countP_set_add (y := after) (Check.succeeded key) hcheck
      have hundoes := Pool.countP_set_add (y := after) (Check.undoes key) hcheck
      obtain ⟨hrequests, hcounter, hlimit⟩ := h
      simp only [successes, undoing] at hcounter hlimit
      refine ⟨?_, ?_, ?_⟩
      · intro p hp huser
        obtain rfl | ⟨j, _, hj⟩ := Pool.mem_set hp
        · exact absurd hresume resume_ne_increment
        · exact hrequests p (List.mem_of_getElem? hj) huser
      · simp only [successes, undoing]
        cases resume_counts hallowed hresume key with
        | succeeded | exceeded | undone =>
            simp only [Check.succeeded, Check.undoes, decide_true, Bool.toNat_true, Bool.toNat_false]
              at hsucceeded hundoes
            omega
        | other hsame hback hnext =>
            rw [hsame] at hsucceeded
            rw [hback] at hundoes
            omega
      · simp only [successes]
        cases resume_counts hallowed hresume key with
        | succeeded p response huser hle hnext =>
            have hp := hrequests p (List.mem_of_getElem? hcheck) huser
            simp only [Check.succeeded, decide_true, Bool.toNat_true, Bool.toNat_false] at hsucceeded
            omega
        | exceeded | undone =>
            simp only [Check.succeeded, Bool.toNat_false] at hsucceeded
            omega
        | other hsame hback hnext =>
            rw [hsame] at hsucceeded
            omega

-- For every interleaving of executions of one user with one limit and every day:
-- no more succeed than the limit allows, the counter never falls below the
-- successes, and it is their number once no execution of the user is in progress.
theorem dailyLimit_kept {key : DailyCallKey} {dailyLimit : Int} (hlimit : 0 ≤ dailyLimit)
    {labels : List (Pool.Label CheckDailyLimitParams CacheAnswer)} {s : Checks}
    (hrun : Machine.run (Machine.restrict (limited key.userID dailyLimit) (Pool.step program)) .empty labels =
      some s) :
    (successes s key : Int) ≤ dailyLimit ∧ (successes s key : Int) ≤ s.shared key ∧
      ((∀ check ∈ s.tasks, check.inProgress key.userID = false) → s.shared key = successes s key) := by
  have h : Tallied key dailyLimit s :=
    Machine.restrict_invariant (fun _ _ _ h hallowed hstep => h.step hallowed hstep)
      ⟨by simp [Checks.empty], rfl, by simpa [successes, Checks.empty] using hlimit⟩ hrun
  have hcounter := h.counter
  refine ⟨h.limit, by omega, fun hrest => ?_⟩
  have hnone : undoing s key = 0 := by
    refine List.countP_eq_zero.mpr fun check hcheck hundoes => ?_
    have hdone := hrest check hcheck
    cases check with
    | undo other =>
        obtain rfl : other = key := by simpa [Check.undoes] using hundoes
        simp [Check.inProgress] at hdone
    | increment | returned => cases hundoes
  omega

-- Two executions of a user who may make one call a day: the second finds the call
-- of the first, and undoes its increment.
def contended : List (Pool.Label CheckDailyLimitParams CacheAnswer) :=
  [.spawn ⟨7, 1⟩, .spawn ⟨7, 1⟩, .move 1 (.ok "2026-01-05"), .move 0 (.ok "2026-01-05"),
    .move 0 (.ok "2026-01-05")]

theorem dailyLimit_kept_contended :
    ∃ s, Machine.run (Machine.restrict (limited 7 1) (Pool.step program)) .empty contended = some s ∧
      s.tasks = [.returned ⟨7, "2026-01-05"⟩ (.error dailyLimitExceeded),
        .returned ⟨7, "2026-01-05"⟩ (.ok ⟨1⟩)] ∧
      (successes s ⟨7, "2026-01-05"⟩ : Int) ≤ 1 ∧
      (successes s ⟨7, "2026-01-05"⟩ : Int) ≤ s.shared ⟨7, "2026-01-05"⟩ ∧
      ((∀ check ∈ s.tasks, check.inProgress 7 = false) →
        s.shared ⟨7, "2026-01-05"⟩ = successes s ⟨7, "2026-01-05"⟩) :=
  ⟨_, rfl, rfl, @dailyLimit_kept ⟨7, "2026-01-05"⟩ 1 (by decide) contended _ rfl⟩

end Bos3000.Compliance
