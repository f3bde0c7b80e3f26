import Mathlib.Data.List.Induction
import Mathlib.Tactic.Common

-- Machines whose labels carry every choice of the environment (which component
-- moves, what an operation returned, what the clock read), so that a step is a
-- partial function and a run is determined by its list of labels.
namespace Machine

variable {σ τ ι κ : Type*}

def run (step : σ → ι → Option σ) : σ → List ι → Option σ
  | s, [] => some s
  | s, label :: rest => (step s label).bind fun next => run step next rest

-- The machine that only takes the steps a condition allows. A run of it is a
-- run of the machine in which every step meets the condition.
def restrict (allowed : σ → ι → Bool) (step : σ → ι → Option σ) (s : σ) (label : ι) : Option σ :=
  if allowed s label then step s label else none

variable {step : σ → ι → Option σ}

theorem run_append (s : σ) (first second : List ι) :
    run step s (first ++ second) = (run step s first).bind fun middle => run step middle second := by
  induction first generalizing s with
  | nil => rfl
  | cons label rest ih =>
      simp only [List.cons_append, run]
      cases step s label with
      | none => rfl
      | some next => exact ih next

theorem run_concat (s t : σ) (labels : List ι) (label : ι) :
    run step s (labels ++ [label]) = some t ↔
      ∃ middle, run step s labels = some middle ∧ step middle label = some t := by
  rw [run_append, Option.bind_eq_some_iff]
  simp only [run, Option.bind_eq_some_iff, Option.some.injEq, exists_eq_right]

theorem run_singleton (s t : σ) (label : ι) :
    run step s [label] = some t ↔ step s label = some t := by
  simp [run]

-- Induction on a run from its last step, with the shorter run at hand.
theorem run_induction {s : σ} {motive : List ι → σ → Prop} (hnil : motive [] s)
    (hstep : ∀ labels label middle t, run step s labels = some middle → motive labels middle →
      step middle label = some t → motive (labels ++ [label]) t)
    {labels : List ι} {t : σ} (hrun : run step s labels = some t) : motive labels t := by
  induction labels using List.reverseRecOn generalizing t with
  | nil =>
      cases hrun
      exact hnil
  | append_singleton labels label ih =>
      obtain ⟨middle, hmiddle, hlast⟩ := (run_concat s t labels label).mp hrun
      exact hstep labels label middle t hmiddle (ih hmiddle) hlast

theorem invariant {P : σ → Prop} (hstep : ∀ s label t, P s → step s label = some t → P t)
    {s t : σ} {labels : List ι} (hs : P s) (hrun : run step s labels = some t) : P t :=
  run_induction (motive := fun _ t => P t) hs (fun _ label middle t _ hm hl => hstep middle label t hm hl) hrun

-- Every step of the lower machine is matched by a run of the upper one, under an
-- invariant of the lower machine.
theorem simulate {upper : τ → κ → Option τ} {P : σ → Prop} (abs : σ → τ)
    (hstep : ∀ s label t, P s → step s label = some t →
      P t ∧ ∃ labels, run upper (abs s) labels = some (abs t))
    {s t : σ} {labels : List ι} (hs : P s) (hrun : run step s labels = some t) :
    ∃ above, run upper (abs s) above = some (abs t) := by
  have hboth : P t ∧ ∃ above, run upper (abs s) above = some (abs t) := by
    refine run_induction (motive := fun _ t => P t ∧ ∃ above, run upper (abs s) above = some (abs t))
      ⟨hs, [], rfl⟩ ?_ hrun
    rintro _ label middle t _ ⟨hm, above, habove⟩ hlast
    obtain ⟨ht, more, hmore⟩ := hstep middle label t hm hlast
    exact ⟨ht, above ++ more, by rw [run_append, habove]; exact hmore⟩
  exact hboth.2

section Restrict

variable {allowed : σ → ι → Bool}

theorem restrict_eq_some {s t : σ} {label : ι} :
    restrict allowed step s label = some t ↔ allowed s label = true ∧ step s label = some t := by
  unfold restrict
  split <;> simp [*]

theorem run_of_restrict {s t : σ} {labels : List ι}
    (hrun : run (restrict allowed step) s labels = some t) : run step s labels = some t := by
  refine run_induction (motive := fun labels t => run step s labels = some t) rfl ?_ hrun
  intro labels label middle t _ hmiddle hlast
  exact (run_concat s t labels label).mpr ⟨middle, hmiddle, (restrict_eq_some.mp hlast).2⟩

-- What every step that meets the condition keeps.
theorem restrict_invariant {P : σ → Prop}
    (hstep : ∀ s label t, P s → allowed s label = true → step s label = some t → P t)
    {s t : σ} {labels : List ι} (hs : P s) (hrun : run (restrict allowed step) s labels = some t) : P t := by
  refine invariant (fun middle label u hm hlast => ?_) hs hrun
  obtain ⟨hallowed, hnext⟩ := restrict_eq_some.mp hlast
  exact hstep middle label u hm hallowed hnext

-- A run under a condition is one under any weaker condition.
theorem restrict_mono {weaker : σ → ι → Bool} (h : ∀ s label, allowed s label → weaker s label)
    {s t : σ} {labels : List ι}
    (hrun : run (restrict allowed step) s labels = some t) : run (restrict weaker step) s labels = some t := by
  refine run_induction (motive := fun labels t => run (restrict weaker step) s labels = some t) rfl ?_ hrun
  intro labels label middle t _ hmiddle hlast
  obtain ⟨hallowed, hstep⟩ := restrict_eq_some.mp hlast
  exact (run_concat s t labels label).mpr ⟨middle, hmiddle, restrict_eq_some.mpr ⟨h _ _ hallowed, hstep⟩⟩

theorem restrict_restrict (other : σ → ι → Bool) :
    restrict allowed (restrict other step) = restrict (fun s label => allowed s label && other s label) step := by
  funext s label
  unfold restrict
  cases hallowed : allowed s label <;> cases hother : other s label <;> simp [hallowed, hother]

-- Two conditions that each step of a run meets are met together.
theorem restrict_and {other : σ → ι → Bool} {s t u : σ} {labels : List ι}
    (hrun : run (restrict allowed step) s labels = some t)
    (hother : run (restrict other step) s labels = some u) :
    run (restrict (fun s label => allowed s label && other s label) step) s labels = some t := by
  induction labels generalizing s with
  | nil => exact hrun
  | cons label rest ih =>
      simp only [run, Option.bind_eq_some_iff, restrict_eq_some, Bool.and_eq_true] at hrun hother ⊢
      obtain ⟨next, ⟨hallowed, hstep⟩, hrest⟩ := hrun
      obtain ⟨next', ⟨hallowed', hstep'⟩, hrest'⟩ := hother
      rw [hstep] at hstep'
      cases hstep'
      exact ⟨next, ⟨⟨hallowed, hallowed'⟩, hstep⟩, ih hrest hrest'⟩

-- A run either meets the condition in every step, or has left it for good. What
-- is kept in either case may speak of the steps that were taken.
theorem restrict_or_along {P Q : List ι → σ → Prop} {s t : σ} {labels : List ι} (hs : P [] s)
    (hkeep : ∀ labels label middle t, run step s labels = some middle → P labels middle →
      allowed middle label = true → step middle label = some t → P (labels ++ [label]) t)
    (hleave : ∀ labels label middle t, run step s labels = some middle → P labels middle →
      allowed middle label = false → step middle label = some t → Q (labels ++ [label]) t)
    (hstay : ∀ labels label middle t, run step s labels = some middle → Q labels middle →
      step middle label = some t → Q (labels ++ [label]) t)
    (hrun : run step s labels = some t) :
    run (restrict allowed step) s labels = some t ∧ P labels t ∨
      run (restrict allowed step) s labels = none ∧ Q labels t := by
  refine run_induction (motive := fun labels t => run (restrict allowed step) s labels = some t ∧ P labels t ∨
    run (restrict allowed step) s labels = none ∧ Q labels t) (.inl ⟨rfl, hs⟩) ?_ hrun
  rintro labels label middle t hbefore (⟨hmiddle, hm⟩ | ⟨hmiddle, hm⟩) hlast
  · cases hallowed : allowed middle label with
    | true =>
        have hrestrict : restrict allowed step middle label = some t := restrict_eq_some.mpr ⟨hallowed, hlast⟩
        exact .inl ⟨(run_concat s t labels label).mpr ⟨middle, hmiddle, hrestrict⟩,
          hkeep labels label middle t hbefore hm hallowed hlast⟩
    | false =>
        refine .inr ⟨?_, hleave labels label middle t hbefore hm hallowed hlast⟩
        simp [run_append, hmiddle, run, restrict, hallowed]
  · refine .inr ⟨?_, hstay labels label middle t hbefore hm hlast⟩
    simp [run_append, hmiddle]

theorem restrict_or {P Q : σ → Prop} {s t : σ} {labels : List ι} (hs : P s)
    (hkeep : ∀ s label t, P s → allowed s label = true → step s label = some t → P t)
    (hleave : ∀ s label t, P s → allowed s label = false → step s label = some t → Q t)
    (hstay : ∀ s label t, Q s → step s label = some t → Q t) (hrun : run step s labels = some t) :
    run (restrict allowed step) s labels = some t ∧ P t ∨ run (restrict allowed step) s labels = none ∧ Q t :=
  restrict_or_along (P := fun _ s => P s) (Q := fun _ s => Q s) hs (fun _ label middle t _ => hkeep middle label t)
    (fun _ label middle t _ => hleave middle label t) (fun _ label middle t _ => hstay middle label t) hrun

-- In every state on the way, the last one included.
def Throughout (step : σ → ι → Option σ) (P : σ → Prop) (s : σ) (labels : List ι) : Prop :=
  ∀ first u, first <+: labels → run step s first = some u → P u

-- Where the steps that meet the condition keep an invariant, and one that fails it
-- leaves the property that the invariant is for, the runs that have the property
-- throughout are those in which every step meets the condition.
theorem restrict_iff_throughout {I P : σ → Prop} {s t : σ} {labels : List ι} (hs : I s)
    (himplies : ∀ s, I s → P s)
    (hkeep : ∀ s label t, I s → allowed s label = true → step s label = some t → I t)
    (hleave : ∀ s label t, I s → allowed s label = false → step s label = some t → ¬ P t)
    (hrun : run step s labels = some t) :
    run (restrict allowed step) s labels = some t ↔ Throughout step P s labels := by
  constructor
  · rintro hrestrict first u ⟨second, rfl⟩ hfirst
    rw [run_append, Option.bind_eq_some_iff] at hrestrict
    obtain ⟨middle, hmiddle, _⟩ := hrestrict
    have hsame : middle = u := Option.some.inj ((run_of_restrict hmiddle).symm.trans hfirst)
    exact hsame ▸ himplies middle (restrict_invariant hkeep hs hmiddle)
  · refine run_induction (motive := fun labels t => Throughout step P s labels →
      run (restrict allowed step) s labels = some t) (fun _ => rfl) ?_ hrun
    intro labels label middle t hbefore ih hlast hall
    have hsofar : Throughout step P s labels := fun first u hfirst =>
      hall first u (hfirst.trans (List.prefix_append labels [label]))
    have hmiddle : I middle := restrict_invariant hkeep hs (ih hsofar)
    have hend : P t :=
      hall _ t (List.prefix_refl _) ((run_concat s t labels label).mpr ⟨middle, hbefore, hlast⟩)
    refine (run_concat s t labels label).mpr ⟨middle, ih hsofar, restrict_eq_some.mpr ⟨?_, hlast⟩⟩
    cases hallowed : allowed middle label with
    | true => rfl
    | false => exact absurd hend (hleave middle label t hmiddle hallowed hlast)

end Restrict

end Machine
