import Bos3000.Callback.Initiate

-- What a request does to the daily counter of its user.
namespace Bos3000.Callback

-- The access leaves the daily counters alone.
def Access.sparesDaily : Access → Bool
  | .countDaily .. => false
  | _ => true

-- The daily counter has counted the request, and nothing has refused it since; or
-- CheckDailyLimit is about to undo the increment.
def InitiateStage.counts : InitiateStage → Bool
  | .uncountDaily _ | .resolveRate _ | .preDeduct _ | .acquireSlot _ | .pickALeg _ | .pickBLeg _ _
  | .selectDID _ _ _ | .insertCall _ _ _ _ | .store _ _ _ _ | .stored _ => true
  | _ => false

-- The answer refuses a request that the daily counter has counted.
def InitiateStage.refuses : InitiateStage → Reply → Bool
  | .resolveRate _, .fault _ | .preDeduct _, .fault _ | .acquireSlot _, .fault _ | .pickALeg _, .fault _
  | .pickBLeg _ _, .fault _ | .insertCall _ _ _ _, .fault _ => true
  | .acquireSlot hold, .count n => hold.maxConcurrent < n
  | _, _ => false

-- The cache answers an Increment of the daily counter, and the date is today.
def InitiateStage.countsOn (today : String) : InitiateStage → Reply → Bool
  | .countDaily _, .counted date _ => date = today
  | .countDaily _, .fault _ | .uncountDaily _, .fault _ => false
  | _, _ => true

inductive DailyChange (r : Request) (today : String) (stage next : InitiateStage) (x : Reply) : Access → Prop
  | counted (n : Int) (hstage : stage.counts = false) (hrefuses : stage.refuses x = false)
      (hcounts : next.counts = true) (hdate : ∀ date, next = .uncountDaily date → date = today) :
      DailyChange r today stage next x (.countDaily r.userID today 1 n)
  | undone (date : String) (n : Int) (hstage : stage = .uncountDaily date) (hrefuses : stage.refuses x = false)
      (hcounts : next.counts = false) : DailyChange r today stage next x (.countDaily r.userID date (-1) n)
  | refused {access : Access} (hspares : access.sparesDaily = true) (hrefuses : stage.refuses x = true)
      (hstage : stage.counts = true) (hcounts : next.counts = false) : DailyChange r today stage next x access
  | kept {access : Access} (hspares : access.sparesDaily = true) (hrefuses : stage.refuses x = false)
      (hcounts : next.counts = stage.counts) (hnext : ∀ date, next ≠ .uncountDaily date) :
      DailyChange r today stage next x access

theorem resume_daily {r : Request} {today : String} {stage next : InitiateStage} {x : Reply} {access : Access}
    (hday : stage.countsOn today x = true) (h : stage.resume r x = some (next, access)) :
    DailyChange r today stage next x access := by
  revert h
  fun_cases InitiateStage.resume r stage x <;> intro h <;> cases h
  case case5 m date n hlimit =>
      obtain rfl : date = today := by simpa [InitiateStage.countsOn] using hday
      exact .counted n rfl rfl rfl (by simp)
  case case6 m date n hlimit =>
      obtain rfl : date = today := by simpa [InitiateStage.countsOn] using hday
      exact .counted n rfl rfl rfl (by simp)
  case case7 | case10 => cases hday
  case case8 date n => exact .undone date n rfl rfl rfl
  case case12 | case14 | case17 => exact .refused rfl rfl rfl rfl
  case case15 hold n hexceeds => exact .refused rfl (by simpa [InitiateStage.refuses] using hexceeds) rfl rfl
  case case16 hold n hwithin =>
      exact .kept rfl (by simpa [InitiateStage.refuses] using hwithin) rfl (by simp)
  all_goals first
    | exact .kept rfl rfl rfl (by simp)
    | exact .refused rfl rfl rfl rfl

theorem resume_countDaily {r : Request} {stage next : InitiateStage} {x : Reply} {userID : UserID} {date : String}
    {delta n : Int} (h : stage.resume r x = some (next, .countDaily userID date delta n)) : userID = r.userID := by
  revert h
  fun_cases InitiateStage.resume r stage x <;> intro h <;> cases h <;> rfl

theorem ActiveCall.access_sparesDaily {w v : ActiveCall} {l : Label} (hstep : w.step l = some v) :
    (w.access l).sparesDaily = true := by
  by_cases hnone : w.access l = .none
  · rw [hnone]
    rfl
  · obtain ⟨o, stmt, body, _, _, hbody⟩ := access_body hstep hnone
    rw [hbody]
    fun_cases Stmt.access w.call body.slots stmt o <;> rfl

end Bos3000.Callback
