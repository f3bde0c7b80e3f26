import Bos3000.Lib.Machine
import Mathlib.Logic.Function.Basic

-- Components under keys that take steps of their own, and messages that are
-- routed to the component of one key. A message for a key that nothing holds is
-- dropped.
namespace Keyed

variable {κ σ ι μ : Type*}

inductive Label (κ σ ι μ : Type*)
  | start (key : κ) (component : σ)
  | move (key : κ) (label : ι)
  | message (m : μ)

variable [DecidableEq κ]

def step (inner : σ → ι → Option σ) (route : μ → Option (κ × ι)) (s : κ → Option σ) :
    Label κ σ ι μ → Option (κ → Option σ)
  | .start key component => if (s key).isNone then some (Function.update s key (some component)) else none
  | .move key label =>
      (s key).bind fun component => (inner component label).map fun next => Function.update s key (some next)
  | .message m =>
      match route m with
      | none => some s
      | some (key, label) =>
          match s key with
          | none => some s
          | some component => (inner component label).map fun next => Function.update s key (some next)

-- What a label is to the component of a key.
def Label.own (route : μ → Option (κ × ι)) (key : κ) : Label κ σ ι μ → Option ι
  | .start .. => none
  | .move other label => if other = key then some label else none
  | .message m => (route m).bind fun (other, label) => if other = key then some label else none

variable {inner : σ → ι → Option σ} {route : μ → Option (κ × ι)} {s t : κ → Option σ}

end Keyed
