import TensorJit.SortedMap

/-!
# Profiling counters

Two tables of counters by name, one of cache events and one of compile steps. They are shared
by all units of a process, and nothing ever takes a count back.
-/

namespace TensorJit

/-- The counters of a process. -/
structure Profile where
  /-- How often each cache event happened. -/
  cacheEvents : SortedMap String Nat
  /-- How often each compile step ended, well or not. -/
  compileSteps : SortedMap String Nat
  deriving DecidableEq, Inhabited

namespace Profile

/-- The counters at the start. -/
def empty : Profile := ⟨.empty, .empty⟩

/-- The count under a name. -/
def countIn (table : SortedMap String Nat) (name : String) : Nat := (table.get? name).getD 0

/-- The table with one more under a name. -/
def increment (table : SortedMap String Nat) (name : String) : SortedMap String Nat :=
  table.insert name (countIn table name + 1)

/-- How often a cache event happened. -/
def cacheCount (p : Profile) (name : String) : Nat := countIn p.cacheEvents name

/-- How often a compile step ended. -/
def compileCount (p : Profile) (name : String) : Nat := countIn p.compileSteps name

/-- One more cache event. -/
def cacheEvent (p : Profile) (name : String) : Profile :=
  { p with cacheEvents := increment p.cacheEvents name }

/-- One more compile step. -/
def compileStep (p : Profile) (name : String) : Profile :=
  { p with compileSteps := increment p.compileSteps name }

/-- Every count with the table it is in, cache events first, each table in the order of names. -/
def rows (p : Profile) : List (String × String × Nat) :=
  p.cacheEvents.toList.map (("cache", ·)) ++ p.compileSteps.toList.map (("compile", ·))

/-- Counting under one name leaves the other counts alone. -/
@[simp]
theorem countIn_increment (table : SortedMap String Nat) (name other : String) :
    countIn (increment table name) other =
      if other = name then countIn table other + 1 else countIn table other := by
  unfold countIn increment
  rw [SortedMap.get?_insert]
  split
  · rename_i h
    simp [h, countIn]
  · rfl

end Profile

end TensorJit
