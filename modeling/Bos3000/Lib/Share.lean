import Bos3000.Lib.Machine
import Mathlib.Tactic.Abel

-- What some of a run's steps change about a quantity, the effects of the other
-- steps aside.
namespace Machine

variable {σ ι M : Type*} {step : σ → ι → Option σ} {own : σ → ι → Bool} {measure : σ → M}

section Share

variable [Add M] [Sub M]

def shareFrom (step : σ → ι → Option σ) (own : σ → ι → Bool) (measure : σ → M) : σ → M →
    List ι → M
  | _, net, [] => net
  | s, net, label :: rest =>
      match step s label with
      | none => net
      | some next =>
          shareFrom step own measure next (if own s label then net + (measure next - measure s) else net) rest

theorem shareFrom_concat {s middle t : σ} {labels : List ι} {label : ι} (hrun : run step s labels = some middle)
    (hstep : step middle label = some t) (net : M) :
    shareFrom step own measure s net (labels ++ [label]) =
      if own middle label then shareFrom step own measure s net labels + (measure t - measure middle)
      else shareFrom step own measure s net labels := by
  induction labels generalizing s net with
  | nil =>
      cases hrun
      simp only [List.nil_append, shareFrom, hstep]
  | cons first rest ih =>
      obtain ⟨next, hnext, hrest⟩ := Option.bind_eq_some_iff.mp hrun
      simp only [List.cons_append, shareFrom, hnext]
      exact ih hrest _

def share [Zero M] (step : σ → ι → Option σ) (own : σ → ι → Bool) (measure : σ → M) (s : σ)
    (labels : List ι) : M :=
  shareFrom step own measure s 0 labels

theorem share_own [Zero M] {s middle t : σ} {labels : List ι} {label : ι} (hrun : run step s labels = some middle)
    (hstep : step middle label = some t) (hown : own middle label = true) :
    share step own measure s (labels ++ [label]) =
      share step own measure s labels + (measure t - measure middle) := by
  rw [share, shareFrom_concat hrun hstep, if_pos hown, share]

theorem share_other [Zero M] {s middle t : σ} {labels : List ι} {label : ι} (hrun : run step s labels = some middle)
    (hstep : step middle label = some t) (hown : own middle label = false) :
    share step own measure s (labels ++ [label]) = share step own measure s labels := by
  rw [share, shareFrom_concat hrun hstep, if_neg (by simp [hown]), share]

end Share

-- What the own steps and the others change makes up the whole change.
theorem share_add_others [AddCommGroup M] {s t : σ} {labels : List ι} (hrun : run step s labels = some t) :
    share step own measure s labels + share step (fun s label => !own s label) measure s labels =
      measure t - measure s := by
  refine run_induction (motive := fun labels t => share step own measure s labels +
    share step (fun s label => !own s label) measure s labels = measure t - measure s) ?_ ?_ hrun
  · simp [share, shareFrom]
  · intro labels label middle t hmiddle ih hlast
    cases hown : own middle label with
    | true =>
        rw [share_own hmiddle hlast hown, share_other hmiddle hlast (by simp [hown]), add_right_comm, ih]
        abel
    | false =>
        rw [share_other hmiddle hlast hown, share_own hmiddle hlast (by simp [hown]), ← add_assoc, ih]
        abel

end Machine
