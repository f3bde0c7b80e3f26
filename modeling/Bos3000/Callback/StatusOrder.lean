import Bos3000.Callback.RunCall

-- The order in which runCall persists statuses, and how often it writes the
-- answer and bridge times.
namespace Bos3000.Callback

def Action.status? : Action → Option Status
  | .updateCallStatus s | .finalizeCall s => some s
  | _ => none

def Moment.status? : Moment → Option Status
  | .act a => a.status?
  | .input _ => none

-- The values of callback_calls.status, from the one insertCall wrote.
def persisted (history : History) : List Status := .initiating :: history.filterMap Moment.status?

def Monotone (history : History) : Prop :=
  (persisted history).Pairwise fun a b => a.rank ≤ b.rank

inductive Timestamp
  | AAnswerAt | BAnswerAt | BridgeAt
  deriving DecidableEq, Repr

def Action.assigns (field : Timestamp) : Action → Bool
  | .assign (.aAnswerAt _) => field = .AAnswerAt
  | .assign (.bAnswerAt _) => field = .BAnswerAt
  | .assign (.bridgeAt _) => field = .BridgeAt
  | _ => false

def Moment.assigns (field : Timestamp) : Moment → Bool
  | .act a => a.assigns field
  | .input _ => false

def assignments (history : History) (field : Timestamp) : Nat := history.countP (Moment.assigns field)

-- No answer or bridge time is written twice.
def WriteOnce (history : History) : Prop := ∀ field, assignments history field ≤ 1

-- An answer of B comes before every bridge, and neither is repeated.
def InOrder (e f : CallEvent) : Prop :=
  ¬(f.isAnswer .B ∧ (e.isAnswer .B ∨ e.isBridge)) ∧ ¬(f.isBridge ∧ e.isBridge)

instance (e f : CallEvent) : Decidable (InOrder e f) := inferInstanceAs (Decidable (_ ∧ _))

-- The status that the event loop persists on an event it stays in the loop for.
def loopStatus (e : CallEvent) : Option Status :=
  if e.isAnswer .B then some .b_connected else if e.isBridge then some .bridged else none

theorem loopStatus_inOrder (e f : CallEvent) :
    ((∀ a ∈ loopStatus e, ∀ b ∈ loopStatus f, a.rank ≤ b.rank) ∧
      ¬(e.isAnswer .B ∧ f.isAnswer .B) ∧ ¬(e.isBridge ∧ f.isBridge)) ↔ InOrder e f := by
  have hanswer : e.isAnswer .B = true → e.isBridge = false := by
    simp +contextual [CallEvent.isAnswer, CallEvent.isBridge]
  have hanswer' : f.isAnswer .B = true → f.isBridge = false := by
    simp +contextual [CallEvent.isAnswer, CallEvent.isBridge]
  cases he : e.isAnswer .B <;> cases he' : e.isBridge <;> cases hf : f.isAnswer .B <;>
    cases hf' : f.isBridge <;> simp_all [loopStatus, InOrder, Status.rank]

theorem countP_le_one {α : Type*} (p : α → Bool) (l : List α) :
    l.countP p ≤ 1 ↔ l.Pairwise fun a b => ¬(p a = true ∧ p b = true) := by
  induction l with
  | nil => simp
  | cons a l ih =>
      rw [List.pairwise_cons, ← ih]
      cases ha : p a
      · simp [ha]
      · have hzero : l.countP p + 1 ≤ 1 ↔ l.countP p = 0 := by omega
        simp only [List.countP_cons, ha, ite_true, hzero, List.countP_eq_zero, true_and]
        constructor
        · intro h
          exact ⟨h, by rw [List.countP_eq_zero.mpr h]; omega⟩
        · exact And.left

-- What a history writes, as statuses of the dialing phase, of the event loop and
-- of the exit.
structure Shaped (dialing exit : List Status) (loop : List CallEvent) (history : History) : Prop where
  statuses : history.filterMap Moment.status? = dialing ++ loop.filterMap loopStatus ++ exit
  aAnswerAt : assignments history .AAnswerAt = dialing.count .a_connected
  bAnswerAt : assignments history .BAnswerAt = loop.countP (CallEvent.isAnswer · .B)
  bridgeAt : assignments history .BridgeAt = loop.countP CallEvent.isBridge

theorem loopStatus_rank {e : CallEvent} {s : Status} (h : s ∈ loopStatus e) : 4 ≤ s.rank ∧ s.rank ≤ 5 := by
  unfold loopStatus at h
  split at h
  · cases h
    decide
  · split at h
    · cases h
      decide
    · cases h

theorem Shaped.ordered {dialing exit : List Status} {loop : List CallEvent} {history : History}
    (h : Shaped dialing exit loop history) (hsorted : dialing.Pairwise fun a b => a.rank ≤ b.rank)
    (hdialing : ∀ s ∈ dialing, s.rank ≤ 3) (honce : dialing.count .a_connected ≤ 1)
    (hexit : exit.length ≤ 1) (hterminal : ∀ s ∈ exit, s.rank = 6) :
    Monotone history ∧ WriteOnce history ↔ loop.Pairwise InOrder := by
  have hloop : ∀ s ∈ loop.filterMap loopStatus, 4 ≤ s.rank ∧ s.rank ≤ 5 := by
    intro s hs
    obtain ⟨e, _, he⟩ := List.mem_filterMap.mp hs
    exact loopStatus_rank he
  have hmonotone : Monotone history ↔
      (loop.filterMap loopStatus).Pairwise fun a b => a.rank ≤ b.rank := by
    unfold Monotone persisted
    rw [h.statuses, List.pairwise_cons, List.pairwise_append, List.pairwise_append]
    have hlast : exit.Pairwise fun a b => a.rank ≤ b.rank := by
      match exit, hexit with
      | [], _ => exact List.Pairwise.nil
      | [s], _ => exact List.pairwise_singleton _ _
    constructor
    · exact fun hall => hall.2.1.2.1
    · intro hall
      refine ⟨fun s _ => Nat.zero_le _, ⟨hsorted, hall, ?_⟩, hlast, ?_⟩
      · intro a ha b hb
        have := hdialing a ha
        have := hloop b hb
        omega
      · intro a ha b hb
        have hb := hterminal b hb
        rcases List.mem_append.mp ha with ha | ha
        · have := hdialing a ha
          omega
        · have := hloop a ha
          omega
  have hwrite : WriteOnce history ↔ loop.countP (CallEvent.isAnswer · .B) ≤ 1 ∧
      loop.countP CallEvent.isBridge ≤ 1 := by
    constructor
    · intro hall
      exact ⟨h.bAnswerAt ▸ hall .BAnswerAt, h.bridgeAt ▸ hall .BridgeAt⟩
    · rintro ⟨hb, hbridge⟩ field
      cases field with
      | AAnswerAt => rw [h.aAnswerAt]; exact honce
      | BAnswerAt => rw [h.bAnswerAt]; exact hb
      | BridgeAt => rw [h.bridgeAt]; exact hbridge
  rw [hmonotone, hwrite, List.pairwise_filterMap, countP_le_one, countP_le_one,
    ← List.pairwise_and_iff, ← List.pairwise_and_iff]
  constructor
  · exact List.Pairwise.imp fun {e f} hall => (loopStatus_inOrder e f).mp hall
  · exact List.Pairwise.imp fun {e f} hall => (loopStatus_inOrder e f).mpr hall

-- The first event was an answer of A.
def answered (inputs : List Input) : Bool := (events inputs).head?.any (CallEvent.isAnswer · .A)

-- The statuses persisted before the event loop.
def dialed (answered : Bool) : Stage → List Status
  | .start | .originatingA | .returned => []
  | .waitingA => [.a_dialing]
  | .originatingB => if answered then [.a_dialing, .a_connected] else [.a_dialing]
  | .loop _ | .bridging _ =>
      (if answered then [.a_dialing, .a_connected] else [.a_dialing]) ++ [.b_dialing]

theorem Shaped.of_dialed {stage : Stage} {answered : Bool} {exit : List Status}
    {loop : List CallEvent} {history : History} (h : Shaped (dialed answered stage) exit loop history)
    (hexit : exit.length ≤ 1) (hterminal : ∀ s ∈ exit, s.rank = 6) :
    Monotone history ∧ WriteOnce history ↔ loop.Pairwise InOrder := by
  apply h.ordered _ _ _ hexit hterminal <;> cases stage <;> cases answered <;>
    simp [dialed, Status.rank]

theorem Shaped.concat {dialing added last : List Status} {loop more : List CallEvent}
    {history : History} (h : Shaped dialing [] loop history) {i : Input} {script : List Action}
    (hearly : added = [] ∨ loop = [])
    (hstatuses : script.filterMap Action.status? = added ++ more.filterMap loopStatus ++ last)
    (haAnswerAt : script.countP (Action.assigns .AAnswerAt) = added.count .a_connected)
    (hbAnswerAt : script.countP (Action.assigns .BAnswerAt) = more.countP (CallEvent.isAnswer · .B))
    (hbridgeAt : script.countP (Action.assigns .BridgeAt) = more.countP CallEvent.isBridge) :
    Shaped (dialing ++ added) last (loop ++ more) (history ++ .input i :: script.map .act) := by
  have hcount : ∀ field, assignments (history ++ .input i :: script.map .act) field =
      assignments history field + script.countP (Action.assigns field) := by
    intro field
    simp [assignments, List.countP_map, Function.comp_def, Moment.assigns]
  constructor
  · have hscript : (script.map Moment.act).filterMap Moment.status? = script.filterMap Action.status? := by
      simp [List.filterMap_map, Function.comp_def, Moment.status?]
    simp only [List.filterMap_append, List.filterMap_cons, Moment.status?, hscript, hstatuses, h.statuses]
    rcases hearly with rfl | rfl <;> simp
  · rw [hcount, h.aAnswerAt, haAnswerAt, List.count_append]
  · rw [hcount, h.bAnswerAt, hbAnswerAt, List.countP_append]
  · rw [hcount, h.bridgeAt, hbridgeAt, List.countP_append]

-- What holds at each wait.
structure Driving (stage : Stage) (inputs : List Input) (history : History) : Prop where
  shaped : Shaped (dialed (answered inputs) stage) [] (events inputs).tail history
  first : events inputs = [] ↔ stage.pastFirstEvent = false
  second : stage = .originatingB → (events inputs).tail = []

theorem Driving.step {stage next : Stage} {inputs : List Input} {history : History}
    (h : Driving stage inputs history) {i : Input} {script : List Action}
    (added last : List Status) (more : List CallEvent)
    (htail : (events (inputs ++ [i])).tail = (events inputs).tail ++ more)
    (hdialed : dialed (answered (inputs ++ [i])) next = dialed (answered inputs) stage ++ added)
    (hearly : added = [] ∨ (events inputs).tail = [])
    (hstatuses : script.filterMap Action.status? = added ++ more.filterMap loopStatus ++ last)
    (haAnswerAt : script.countP (Action.assigns .AAnswerAt) = added.count .a_connected)
    (hbAnswerAt : script.countP (Action.assigns .BAnswerAt) = more.countP (CallEvent.isAnswer · .B))
    (hbridgeAt : script.countP (Action.assigns .BridgeAt) = more.countP CallEvent.isBridge) :
    Shaped (dialed (answered (inputs ++ [i])) next) last (events (inputs ++ [i])).tail
      (history ++ .input i :: script.map .act) := by
  rw [htail, hdialed]
  exact h.shaped.concat hearly hstatuses haAnswerAt hbAnswerAt hbridgeAt

theorem answered_concat (inputs : List Input) (i : Input) :
    answered (inputs ++ [i]) =
      if events inputs = [] then i.event?.any (CallEvent.isAnswer · .A) else answered inputs := by
  unfold answered
  rw [events_concat]
  cases events inputs <;> cases i.event? <;> simp

theorem driving_resume {call : CallbackCall} {inputs : List Input} {stage next : Stage}
    {history : History} {i : Input} {script : List Action} (h : Driving stage inputs history)
    (hresume : resume call stage i = some (script, next)) (hnext : next ≠ .returned) :
    Driving next (inputs ++ [i]) (history ++ .input i :: script.map .act) := by
  have hfirst := h.first
  have hsecond := h.second
  revert hresume hfirst hsecond
  fun_cases resume call stage i <;> intro hresume hfirst hsecond <;> cases hresume <;>
    try exact absurd rfl hnext
  all_goals
    simp only [Stage.pastFirstEvent, iff_true, Bool.true_eq_false, iff_false, reduceCtorEq,
      forall_const, IsEmpty.forall_iff] at hfirst hsecond
    refine ⟨?_, by simp [Input.event?, Stage.pastFirstEvent, hfirst], by simp [Input.event?, hfirst]⟩
  -- what the step adds to the dialed statuses and to the events of the loop
  case' case2 | case7 | case19 => apply h.step [] [] []
  case' case4 => apply h.step [.a_dialing] [] []
  case' case5 => apply h.step [.a_connected] [] []
  case' case11 => apply h.step [.b_dialing] [] []
  case' case12 _ e _ => apply h.step [] [] [e]
  case' case13 _ e _ _ => apply h.step [] [] [e]
  case' case16 _ e _ _ _ => apply h.step [] [] [e]
  all_goals
    simp_all [answered_concat, dialed, loopStatus, Input.event?, Action.status?, Action.assigns,
      CallEvent.isAnswer, CallEvent.isBridge, startRecording, List.filterMap_cons]

theorem Driving.exit {stage : Stage} {inputs : List Input} {history : History}
    (h : Driving stage inputs history) {i : Input} {script : List Action}
    (last : List Status) (more : List CallEvent)
    (htail : (events (inputs ++ [i])).tail = (events inputs).tail ++ more)
    (hstatuses : script.filterMap Action.status? = more.filterMap loopStatus ++ last)
    (haAnswerAt : script.countP (Action.assigns .AAnswerAt) = 0)
    (hbAnswerAt : script.countP (Action.assigns .BAnswerAt) = more.countP (CallEvent.isAnswer · .B))
    (hbridgeAt : script.countP (Action.assigns .BridgeAt) = more.countP CallEvent.isBridge)
    (hlast : last.length ≤ 1) (hterminal : ∀ s ∈ last, s.rank = 6) :
    Monotone (history ++ .input i :: script.map .act) ∧
        WriteOnce (history ++ .input i :: script.map .act) ↔
      (events (inputs ++ [i])).tail.Pairwise InOrder := by
  rw [htail]
  have hshaped := @Shaped.concat _ [] _ _ _ _ h.shaped i _ (.inl rfl) hstatuses haAnswerAt hbAnswerAt hbridgeAt
  rw [List.append_nil] at hshaped
  exact hshaped.of_dialed hlast hterminal

theorem ordered_resume {call : CallbackCall} {inputs : List Input} {stage : Stage}
    {history : History} {i : Input} {script : List Action} (h : Driving stage inputs history)
    (hresume : resume call stage i = some (script, .returned)) :
    Monotone (history ++ .input i :: script.map .act) ∧
        WriteOnce (history ++ .input i :: script.map .act) ↔
      (events (inputs ++ [i])).tail.Pairwise InOrder := by
  have hfirst := h.first
  revert hresume hfirst
  fun_cases resume call stage i <;> intro hresume hfirst <;> cases hresume
  case' case1 => apply h.exit [] []
  case' case3 | case6 | case8 | case9 | case10 | case20 => apply h.exit [.failed] []
  case' case17 bridged => cases bridged <;> apply h.exit [.finished] []
  case' case18 bridged => cases bridged <;> apply h.exit [.failed] []
  case' case14 e _ _ _ hangup =>
      simp only [hangup]
      cases hleg : e.leg <;> apply h.exit [.finished] [e]
  case' case15 e _ _ _ hangup _ =>
      simp only [hangup]
      cases hleg : e.leg <;> apply h.exit [.failed] [e]
  all_goals
    simp_all [Stage.pastFirstEvent, Input.event?, Action.status?, Action.assigns, loopStatus,
      stopRecording, List.filterMap_cons, Status.rank]

def OrderInv (inputs : List Input) (stage : Stage) (history : History) : Prop :=
  (Monotone history ∧ WriteOnce history ↔ (events inputs).tail.Pairwise InOrder) ∧
    (stage ≠ .returned → Driving stage inputs history)

theorem orderInv_drive {call : CallbackCall} {inputs : List Input} {stage : Stage}
    {history : History} (hrun : drive call inputs = some (stage, history)) :
    OrderInv inputs stage history := by
  have hwait : ∀ {inputs stage history}, Driving stage inputs history → OrderInv inputs stage history := by
    intro inputs stage history h
    exact ⟨h.shaped.of_dialed (Nat.zero_le _) (by simp), fun _ => h⟩
  refine drive_induction (motive := OrderInv) ?_ ?_ hrun
  · exact hwait ⟨⟨rfl, rfl, rfl, rfl⟩, by simp [Stage.pastFirstEvent], by simp⟩
  · intro inputs stage history i script next ih hresume
    -- a call that returned takes no input
    have hstage : stage ≠ .returned := by
      rintro rfl
      cases hresume
    by_cases hnext : next = .returned
    · subst hnext
      exact ⟨ordered_resume (ih.2 hstage) hresume, fun h => absurd rfl h⟩
    · exact hwait (driving_resume (ih.2 hstage) hresume hnext)

-- Whatever events a call receives, its status only grows and its answer and
-- bridge times are written once, exactly when the events after the first come in
-- order.
theorem monotone_writeOnce_iff {call : CallbackCall} {inputs : List Input} {stage : Stage}
    {history : History} (hrun : drive call inputs = some (stage, history)) :
    Monotone history ∧ WriteOnce history ↔ (events inputs).tail.Pairwise InOrder :=
  (orderInv_drive hrun).1

-- An answered and bridged call that A ends.
def bridgedCall : List Input :=
  [.load true, .originated .A true, .event ⟨"c1", .A, .CHANNEL_ANSWER, "", 100⟩, .originated .B true,
   .event ⟨"c1", .B, .CHANNEL_ANSWER, "", 200⟩, .bridged true, .event ⟨"c1", .B, .CHANNEL_BRIDGE, "", 210⟩,
   .event ⟨"c1", .A, .CHANNEL_HANGUP, "NORMAL_CLEARING", 900⟩]

theorem monotone_writeOnce_bridgedCall :
    ∃ history, drive sampleCall bridgedCall = some (.returned, history) ∧
      (Monotone history ∧ WriteOnce history ↔ (events bridgedCall).tail.Pairwise InOrder) :=
  ⟨_, rfl, @monotone_writeOnce_iff _ bridgedCall _ _ rfl⟩

-- The answer of B arrives once more after the bridge.
def repeatedAnswer : List Input :=
  [.load true, .originated .A true, .event ⟨"c1", .A, .CHANNEL_ANSWER, "", 100⟩, .originated .B true,
   .event ⟨"c1", .B, .CHANNEL_ANSWER, "", 200⟩, .bridged true, .event ⟨"c1", .B, .CHANNEL_BRIDGE, "", 210⟩,
   .event ⟨"c1", .B, .CHANNEL_ANSWER, "", 220⟩]

theorem decreases_repeatedAnswer :
    ∃ stage history, drive sampleCall repeatedAnswer = some (stage, history) ∧
      persisted history =
        [.initiating, .a_dialing, .a_connected, .b_dialing, .b_connected, .bridged, .b_connected] ∧
      ¬ Monotone history ∧ assignments history .BAnswerAt = 2 ∧ ¬ WriteOnce history := by
  refine ⟨_, _, rfl, by decide, by unfold Monotone; decide, by decide, ?_⟩
  intro honce
  exact absurd (honce .BAnswerAt) (by decide)

end Bos3000.Callback
