import TensorJit.Executor.Basic

/-!
# Building executors

An executor is built in a fixed order, and the first thing that is wrong decides the error: the
configuration, the attributes of the unit, whether there is anything to make functions, the
backend, the options of the backend, the indices of the graph's inputs. The table in the
attributes wins over the one in the configuration.
-/

namespace TensorJit

/-- What an executor is built from. -/
structure BuildRequest where
  /-- The unit. -/
  unit : ExecutionUnit
  /-- The class of backend that is wanted. -/
  backendClass : BackendClass
  /-- The configuration; without one the environment decides. -/
  config : Option Config
  /-- The environment. -/
  environment : SortedMap String String
  /-- What makes functions, if anything does. -/
  translator : Option Translator
  /-- Whom to ask whether a copy is current. -/
  tracker : Tracker
  /-- Which slots must be known when compiling. -/
  query : StaticQuery

namespace BuildRequest

/-- The configuration asked for, from the environment if none is given. -/
def chosenConfig (r : BuildRequest) : Except ConfigFault Config := do
  let c ← match r.config with
    | some c => .ok c
    | none => Config.ofEnvironment r.environment
  c.validate
  return c

/-- The configuration with the table of the attributes, and the options of the backend. -/
def settings (r : BuildRequest) : Except Misconfiguration (Config × BackendOptions) := do
  let c ← r.chosenConfig.mapError .config
  let attrs ← (UnitAttributes.ofAttributes r.unit.name r.unit.attributes).mapError .attributes
  let c := { c with aot := attrs.aot.or c.aot }
  if c.aot.isNone && r.translator.isNone then .error (.nothingToRun r.unit.name)
  return (c, attrs.options)

/-- Sets the options of the backend, if there are any. -/
def configureBackend (r : BuildRequest) (id : BackendId) (options : BackendOptions) :
    EStateM Error Platform Unit := do
  if options.isEmpty then return
  let (result, p) := (← get).runBackend id (Backend.configure options)
  set p
  match result with
  | .ok () => return
  | .error e => throw (.configInvalid (.options r.unit.name r.unit.backendName e))

end BuildRequest

/-- Builds an executor. -/
def Executor.build (r : BuildRequest) : EStateM Error Platform Executor := do
  let (config, options) ← match r.settings with
    | .ok settings => pure settings
    | .error cause => throw (.configInvalid cause)
  let backend ← match (← get).findBackend r.unit.backendName r.backendClass with
    | .ok id => pure id
    | .error e => throw e
  r.configureBackend backend options
  match StaticInputs.analyze r.unit.graph r.query with
  | .error fault => throw (.construction (.graph fault))
  | .ok statics =>
    return {
      unit := r.unit
      backend, config, statics
      translator := r.translator
      tracker := r.tracker
      cache := .new config.cacheDepth
      stats := .zero }

end TensorJit
