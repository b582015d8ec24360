import EncounterTimeline.Pattern.Program

/-! # Synchronisation patterns

The pattern of an activity or a trigger: its text and what it compiles to. A text that does not compile is
kept as it is and matches no line.
-/
namespace EncounterTimeline

structure SyncPattern where
  source : String
  program : Option Pattern.Program
  compiled : program = Pattern.compile source

namespace SyncPattern

def ofSource (source : String) : SyncPattern := ⟨source, Pattern.compile source, rfl⟩

def ofAttribute (source : Option String) : Option SyncPattern :=
  match source with
  | none => none
  | some s => if s.isEmpty then none else some (ofSource s)

def isUsable (p : SyncPattern) : Bool := p.program.isSome

def isMatch (p : SyncPattern) (line : String) : Bool := p.program.any fun q => q.isMatch line

def captures (p : SyncPattern) (line : String) : Option (List (String × String)) :=
  p.program.bind fun q => q.captures line

/-- A pattern is its text. -/
theorem ext_source {p q : SyncPattern} (h : p.source = q.source) : p = q := by
  cases p with
  | mk s pr hp =>
    cases q with
    | mk s' pr' hq =>
      cases h
      subst hp hq
      rfl

instance : DecidableEq SyncPattern := fun p q =>
  if h : p.source = q.source then isTrue (ext_source h)
  else isFalse fun e => h (e ▸ rfl)

end SyncPattern

end EncounterTimeline
