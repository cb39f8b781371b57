/-!
# The two sides of a function

Tensors, slots and pipeline rows belong to the inputs or to the outputs of a function.
-/

namespace TensorJit

/-- Which positions are meant. -/
inductive Side where
  /-- The positions of the inputs. -/
  | input
  /-- The positions of the outputs. -/
  | output
  deriving DecidableEq, Repr, Inhabited

/-- The name in messages. -/
def Side.name : Side → String
  | .input => "input"
  | .output => "output"

end TensorJit
