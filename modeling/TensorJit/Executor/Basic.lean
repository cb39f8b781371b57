import TensorJit.OutputBuffers
import TensorJit.Platform

/-!
# Executors

An executor runs one unit, a graph that belongs to a named backend. It knows which inputs are
static, keeps the artifacts compiled so far, and counts what it does. Everything else that a
call touches is shared.

A call is a step on the executor, the output buffers it was given, and the platform. A step
that fails keeps what happened before it failed: a statistic, a tensor in its slot, bytes that
were copied.
-/

namespace TensorJit

/-- A graph that belongs to a backend. -/
structure ExecutionUnit where
  /-- The number that names the unit. -/
  clusterId : Nat
  /-- The number of the graph that the unit was cut from. -/
  graphId : Nat
  /-- The name of the backend. -/
  backendName : String
  /-- The graph. -/
  graph : Graph
  /-- The attributes. -/
  attributes : Attributes
  /-- Input positions bound elsewhere, which get no tensor. -/
  externalInputs : List Nat
  /-- Output positions bound elsewhere, which get no tensor. -/
  externalOutputs : List Nat

/-- The name of a unit. -/
def ExecutionUnit.name (u : ExecutionUnit) : String := "cluster_" ++ Text.ofNat u.clusterId

/-- What makes a function from a graph, the specs of its inputs and the values of its static
inputs. -/
abbrev Translator := Graph → List TensorSpec → List (Option Tensor) → Except Error Function

namespace Translator

/-- Lowering the graph. -/
def lowering : Translator := fun g inputs statics =>
  (g.lower inputs statics).mapError Error.ofLoweringFault

/-- The same function always. -/
def always (f : Function) : Translator := fun _ _ _ => .ok f

end Translator

/-- What an executor has counted. -/
structure Stats where
  /-- Signatures found in the cache. -/
  hits : Nat
  /-- Signatures not found in the cache. -/
  misses : Nat
  /-- Functions compiled. -/
  compiles : Nat
  /-- Executables loaded. -/
  loads : Nat
  /-- Artifacts evicted. -/
  evictions : Nat
  /-- Tensors made for slots. -/
  tensorsCreated : Nat
  /-- Inputs copied to the backend. -/
  inputCopies : Nat
  /-- Bytes copied to the backend. -/
  bytesCopied : Nat
  /-- Calls that succeeded. -/
  executions : Nat
  deriving DecidableEq, Repr, Inhabited

/-- Nothing counted. -/
def Stats.zero : Stats := ⟨0, 0, 0, 0, 0, 0, 0, 0, 0⟩

/-- An executor. -/
structure Executor where
  /-- The unit it runs. -/
  unit : ExecutionUnit
  /-- The backend it runs on. -/
  backend : BackendId
  /-- What makes functions, if anything does. -/
  translator : Option Translator
  /-- Whom it asks whether a copy is current. -/
  tracker : Tracker
  /-- The static inputs of the graph. -/
  statics : StaticInputs
  /-- The configuration. -/
  config : Config
  /-- The artifacts compiled so far. -/
  cache : Cache
  /-- What it has counted. -/
  stats : Stats

/-- What a call works on. -/
structure ExecState where
  /-- The executor. -/
  executor : Executor
  /-- The output buffers of the call. -/
  outputs : OutputBuffers
  /-- What is shared. -/
  platform : Platform

/-- A step of an executor. -/
abbrev ExecM := EStateM Error ExecState

namespace ExecM

/-- The executor at work. -/
def executor : ExecM Executor := return (← get).executor

/-- The platform. -/
def platform : ExecM Platform := return (← get).platform

/-- Changes the platform. -/
def changePlatform (change : Platform → Platform) : ExecM Unit :=
  modify fun s => { s with platform := change s.platform }

/-- Counts something. -/
def count (change : Stats → Stats) : ExecM Unit :=
  modify fun s => { s with executor.stats := change s.executor.stats }

/-- The class and mode of the backend. -/
def kind : ExecM BackendKind := do
  let s ← get
  return (s.platform.backend s.executor.backend).kind

/-- Stops with a fault inside the unit. -/
def fail {α : Type} (fault : InternalFault) : ExecM α := do
  throw (.internal (← executor).unit.name fault)

/-- Stops if a value is an error. -/
def ofExcept {α : Type} : Except Error α → ExecM α
  | .ok a => pure a
  | .error e => throw e

/-- A step, with its error as a value. -/
def observe {α : Type} (step : ExecM α) : ExecM (Except Error α) := fun s =>
  match step s with
  | .ok a s => .ok (.ok a) s
  | .error e s => .ok (.error e) s

/-- A step of the backend, with its error as a value. -/
def tryBackend {α : Type} (step : BackendM α) : ExecM (Except BackendError α) := do
  let s ← get
  let (result, platform) := s.platform.runBackend s.executor.backend step
  set { s with platform }
  return result

/-- A step of the backend, whose error becomes one of the executor. -/
def onBackend {α : Type} (fault : BackendError → InternalFault) (step : BackendM α) :
    ExecM α := do
  match ← tryBackend step with
  | .ok a => return a
  | .error e => fail (fault e)

/-- The artifact with an identity. -/
def artifact (id : ArtifactId) : ExecM Artifact := do
  match (← executor).cache.get? id with
  | some a => return a
  | none => fail (.notCached id)

/-- Replaces the artifact with an identity. -/
def setArtifact (id : ArtifactId) (a : Artifact) : ExecM Unit :=
  modify fun s => { s with executor.cache := s.executor.cache.update id a }

end ExecM

end TensorJit
