import TensorJit.Text.Blank
import TensorJit.Text.Decimal

/-!
# Memory usage of a process

The status text of a process has one line per figure, a name with a colon and then fields
between blanks. Two figures are read, the virtual and the resident size in kilobytes. A figure
that is missing or not a number counts as zero, and of two lines with one name the later
counts.
-/

namespace TensorJit

/-- The size of a process in kilobytes. -/
structure MemoryUsage where
  /-- The virtual size. -/
  virtual : Nat
  /-- The resident size. -/
  resident : Nat
  deriving DecidableEq, Repr, Inhabited

namespace MemoryUsage

/-- The first field after a name, zero if it is no number. -/
def figure (fields : List Char) : Nat :=
  ((Text.firstField? fields).bind Text.word?).getD 0

/-- The text after a name that a line begins with. -/
def after? (name : String) (line : List Char) : Option (List Char) :=
  if name.toList.isPrefixOf line then some (line.drop name.length) else none

/-- The usage with the figure of one line taken in. -/
def readLine (usage : MemoryUsage) (line : List Char) : MemoryUsage :=
  match after? "VmSize:" line with
  | some fields => { usage with virtual := figure fields }
  | none =>
    match after? "VmRSS:" line with
    | some fields => { usage with resident := figure fields }
    | none => usage

/-- The usage that a status text gives. -/
def ofStatus (status : String) : MemoryUsage :=
  (Text.splitLines status.toList).foldl readLine ⟨0, 0⟩

/-- The growth since an earlier moment, zero where there was none. -/
def growthSince (now earlier : MemoryUsage) : MemoryUsage :=
  ⟨now.virtual - earlier.virtual, now.resident - earlier.resident⟩

end MemoryUsage

end TensorJit
