import TensorJit.AotTable
import TensorJit.Text.Blank

/-!
# Configuration of an executor

How many artifacts an executor keeps, how many groups of tensors a pipeline has, whether and
where functions are dumped, and a table to run on. Three of these may come from the environment
instead. Both depths must be at least one.
-/

namespace TensorJit

/-- The configuration of an executor. -/
structure Config where
  /-- The greatest number of artifacts kept. -/
  cacheDepth : Nat
  /-- The number of tensor groups of each artifact on a pipelined backend. -/
  pipelineDepth : Nat
  /-- Whether every newly compiled function is dumped. -/
  dumpOnCompile : Bool
  /-- The directory for dumps. -/
  dumpDirectory : String
  /-- The table to run on instead of compiling. -/
  aot : Option AotTable
  deriving DecidableEq

/-- Why a configuration is not accepted. -/
inductive ConfigFault where
  /-- No artifact could be kept. -/
  | noCache
  /-- A pipeline would have no group. -/
  | noPipeline
  /-- The depth given in the environment is no number. -/
  | depthText (text : String)
  deriving DecidableEq, Repr

/-- The environment variable for the cache depth. -/
def Config.depthVariable : String := "ENCAP_FUNCTION_CACHE_ITEM_DEPTH"

/-- The environment variable that asks for dumps. -/
def Config.dumpVariable : String := "ENCAP_ENABLE_SERIALIZE"

/-- The environment variable for the directory of dumps. -/
def Config.directoryVariable : String := "ENCAP_DUMP_DIR"

/-- The wording of a fault. -/
def ConfigFault.message : ConfigFault → String
  | .noCache => "cache depth must be at least 1"
  | .noPipeline => "pipeline depth must be at least 1"
  | .depthText text =>
    let name := Config.depthVariable
    s!"{name} must be a positive integer, got '{text}'"

namespace Config

/-- The configuration where nothing else is said. -/
def standard : Config := ⟨16, 2, false, ".", none⟩

instance : Inhabited Config := ⟨standard⟩

/-- Whether both depths are at least one. -/
def validate (c : Config) : Except ConfigFault Unit :=
  if c.cacheDepth = 0 then .error .noCache
  else if c.pipelineDepth = 0 then .error .noPipeline
  else .ok ()

/-- The value of an environment variable without blanks around it, if anything is left. -/
def setting? (environment : SortedMap String String) (name : String) : Option (List Char) :=
  match Text.trim ((environment.get? name).getD "").toList with
  | [] => none
  | value => some value

/-- Whether a setting means yes; letters count in either case. -/
def isYes (value : List Char) : Bool :=
  ["1", "true", "yes", "on"].contains (String.ofList (value.map Char.toLower))

/-- The standard configuration with what the environment says. -/
def ofEnvironment (environment : SortedMap String String) : Except ConfigFault Config := do
  let depth ← match setting? environment depthVariable with
    | none => .ok standard.cacheDepth
    | some text =>
      match Text.word? text with
      | some depth => .ok depth
      | none => .error (.depthText (.ofList text))
  let c := { standard with
    cacheDepth := depth
    dumpOnCompile := ((setting? environment dumpVariable).map isYes).getD false
    dumpDirectory :=
      ((setting? environment directoryVariable).map String.ofList).getD standard.dumpDirectory }
  c.validate
  return c

end Config

end TensorJit
