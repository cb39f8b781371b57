import TensorJit.Memory

/-!
# Output buffers

The host buffers that receive results. Before a call there must be one for each result, with
its spec; a buffer that has it already is kept, so that its identity stays the same from call
to call and the tensors bound to it can be used again. Every other is replaced by a new one,
all zero, and what is too much at the end is let go.
-/

namespace TensorJit

/-- The host buffers for the results of a unit. -/
structure OutputBuffers where
  /-- The buffers, by position. -/
  buffers : List HostBuffer
  deriving DecidableEq, Repr, Inhabited

namespace OutputBuffers

/-- No buffers. -/
def empty : OutputBuffers := ⟨[]⟩

/-- One buffer for each spec, the number of new ones, and the memory with these. -/
def refit : List HostBuffer → List TensorSpec → Memory → (List HostBuffer × Nat) × Memory
  | _, [], m => (([], 0), m)
  | buffers, spec :: specs, m =>
    let kept := buffers.head?.filter (·.spec = spec)
    let (buffer, m) := match kept with
      | some b => (b, m)
      | none => m.allocate (.zeros spec)
    let ((rest, count), m) := refit buffers.tail specs m
    ((buffer :: rest, count + if kept.isNone then 1 else 0), m)

/-- The buffers made ready for results with the given specs, and how many are new. -/
def prepare (o : OutputBuffers) (specs : List TensorSpec) (m : Memory) :
    (Nat × OutputBuffers) × Memory :=
  let ((buffers, count), m) := refit o.buffers specs m
  ((count, ⟨buffers⟩), m)

/-- The buffers handed over, and none left. -/
def take (o : OutputBuffers) : List HostBuffer × OutputBuffers := (o.buffers, empty)

end OutputBuffers

end TensorJit
