import EncounterTimeline.Text.Blank

/-! # Locales and notice devices

The two closed vocabularies of a definition. A locale is read with white space around it allowed; a device
name has to be exact.
-/
namespace EncounterTimeline

inductive Locale where
  | ja | en | fr | de | ko | cn
  deriving DecidableEq, Repr, Inhabited

namespace Locale

def all : List Locale := [ja, en, fr, de, ko, cn]

def name : Locale → String
  | ja => "JA"
  | en => "EN"
  | fr => "FR"
  | de => "DE"
  | ko => "KO"
  | cn => "CN"

def parse (s : String) : Option Locale :=
  let trimmed := Text.trim s
  all.find? fun l => l.name == trimmed

end Locale

inductive Device where
  | both | main | sub
  deriving DecidableEq, Repr, Inhabited

namespace Device

def all : List Device := [both, main, sub]

def name : Device → String
  | both => "Both"
  | main => "Main"
  | sub => "Sub"

def parse (s : String) : Option Device := all.find? fun d => d.name == s

theorem parse_name (d : Device) : parse d.name = some d := by cases d <;> decide

end Device

end EncounterTimeline
