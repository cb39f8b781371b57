import TensorJit.Side

/-!
# Pipelines of tensor groups

On a pipelined backend the tensors of an artifact are made all at once, in as many groups as
the pipeline is deep, and a call borrows one group. A group has one tensor for each input and
one for each output; the matrix of all tensors has a row for each position and a column for
each group. Groups are handed out **first come, first served**: the one that has been free the
longest goes first, and one that comes back goes to the end. A group that is not in flight
cannot be given back.
-/

namespace TensorJit

/-- Why a pipeline cannot be built, or a group not given back. -/
inductive PipelineFault where
  /-- No inputs or no outputs. -/
  | noPositions (inputs outputs : Nat)
  /-- A position with another number of tensors than there are groups. -/
  | ragged (side : Side) (position found depth : Nat)
  /-- No groups. -/
  | noDepth
  /-- A group that is not in flight. -/
  | notInFlight (index : Nat)
  deriving DecidableEq, Repr

/-- The wording of a fault. -/
def PipelineFault.message : PipelineFault → String
  | .noPositions inputs outputs =>
    s!"bad input/output length, inputs: {inputs} outputs: {outputs}"
  | .ragged side position found depth =>
    s!"{side.name} {position} has {found} pipelined tensors, expected {depth}"
  | .noDepth => "pipeline depth must be at least 1"
  | .notInFlight index => s!"buffer index {index} is not in flight"

/-- The tensors that one call borrows. -/
structure PipelineGroup (τ : Type) where
  /-- The column of the group. -/
  index : Nat
  /-- A tensor for each input. -/
  inputs : List τ
  /-- A tensor for each output. -/
  outputs : List τ
  deriving DecidableEq, Repr

/-- All groups of an artifact, and which of them are free. -/
structure Pipeline (τ : Type) where
  /-- The rows of the inputs. -/
  inputs : List (List τ)
  /-- The rows of the outputs. -/
  outputs : List (List τ)
  /-- The number of groups. -/
  depth : Nat
  /-- The free groups, the one to hand out next first. -/
  free : List Nat
  /-- For each group whether it is in flight. -/
  flags : List Bool
  deriving DecidableEq, Repr

namespace Pipeline

variable {τ : Type}

/-- The first row, from a position on, that has another length than `depth`. -/
def raggedRow? (side : Side) (depth : Nat) : (position : Nat) → List (List τ) → Option PipelineFault
  | _, [] => none
  | position, row :: rest =>
    if row.length ≠ depth then some (.ragged side position row.length depth)
    else raggedRow? side depth (position + 1) rest

/-- The pipeline of the given rows, all groups free in order. -/
def ofRows (inputs outputs : List (List τ)) (depth : Nat) : Except PipelineFault (Pipeline τ) :=
  if inputs.isEmpty ∨ outputs.isEmpty then .error (.noPositions inputs.length outputs.length)
  else if depth = 0 then .error .noDepth
  else
    match (raggedRow? .input depth 0 inputs).or (raggedRow? .output depth 0 outputs) with
    | some fault => .error fault
    | none => .ok ⟨inputs, outputs, depth, List.range depth, List.replicate depth false⟩

/-- The number of groups in flight. -/
def inFlight (p : Pipeline τ) : Nat := p.depth - p.free.length

/-- The tensors of a group, one of each row. -/
def column (rows : List (List τ)) (index : Nat) : List τ := rows.filterMap (·[index]?)

/-- Hands out the group that has been free the longest, if one is free. -/
def acquire? (p : Pipeline τ) : Option (PipelineGroup τ × Pipeline τ) :=
  match p.free with
  | [] => none
  | index :: free =>
    some (⟨index, column p.inputs index, column p.outputs index⟩,
      { p with free, flags := p.flags.set index true })

/-- Takes a group back. -/
def giveBack (p : Pipeline τ) (index : Nat) : Except PipelineFault (Pipeline τ) :=
  if p.flags.getD index false then
    .ok { p with free := p.free ++ [index], flags := p.flags.set index false }
  else .error (.notInFlight index)

/-- The bytes that rows take, where `size` is what one tensor takes. -/
def rowBytes (size : τ → Nat) (rows : List (List τ)) : Nat :=
  (rows.flatten.map size).foldr (· + ·) 0

/-- The bytes that the inputs take. -/
def inputBytes (size : τ → Nat) (p : Pipeline τ) : Nat := rowBytes size p.inputs

/-- The bytes that the outputs take. -/
def outputBytes (size : τ → Nat) (p : Pipeline τ) : Nat := rowBytes size p.outputs

end Pipeline

end TensorJit
