import EncounterTimeline.Proofs.Document.Origins
import EncounterTimeline.Proofs.Document.Restored
import Mathlib.Data.List.DropRight

/-! # Name and zone come back

What is read of a document can always be stored, so it can be written and read any number of times. Name and zone stand in
a document as text, and the blanks at the ends of a text are not read again, however they came in. So name and zone come
back if they neither begin nor end with a blank, and otherwise they do not.
-/
namespace EncounterTimeline

open Markup

namespace Text

variable {p : Char → Bool} {cs : List Char}

theorem trimBoth_isInfix (p : Char → Bool) (cs : List Char) : trimBoth p cs <:+: cs := by
  have front : cs.dropWhile p <:+ cs := List.dropWhile_suffix p
  have back : (cs.dropWhile p).rdropWhile p <+: cs.dropWhile p := List.rdropWhile_prefix p _
  exact back.isInfix.trans front.isInfix

/-- Trimming changes nothing exactly where neither end is a character of the class. -/
theorem trimBoth_eq_self_iff :
    trimBoth p cs = cs ↔ (∀ c ∈ cs.head?, p c = false) ∧ ∀ c ∈ cs.getLast?, p c = false := by
  have first : cs.dropWhile p = cs ↔ ∀ c ∈ cs.head?, p c = false := by
    rw [List.dropWhile_eq_self_iff]
    cases cs <;> simp
  have last : cs.rdropWhile p = cs ↔ ∀ c ∈ cs.getLast?, p c = false := by
    rw [List.rdropWhile_eq_self_iff]
    constructor
    · intro ends c mem
      obtain ⟨filled, rfl⟩ := List.mem_getLast?_eq_getLast mem
      exact Bool.eq_false_iff.mpr (ends filled)
    · intro ends filled
      exact Bool.eq_false_iff.mp (ends _ (List.getLast?_eq_some_getLast filled))
  have cut : trimBoth p cs = (cs.dropWhile p).rdropWhile p := rfl
  rw [← first, ← last, cut]
  constructor
  · intro same
    have back : (cs.dropWhile p).rdropWhile p <+: cs.dropWhile p := List.rdropWhile_prefix p _
    rw [same] at back
    have front : cs.dropWhile p = cs := (List.dropWhile_suffix p).eq_of_length_le back.length_le
    rw [front] at same
    exact ⟨front, same⟩
  · rintro ⟨front, back⟩
    rw [front, back]

end Text

namespace Document

variable {as : Attributes} {tag : Tag} {d : Document}

theorem source_of_pattern {key : String} : ∀ p ∈ as.pattern key, p.source ≠ "" := by
  intro p read
  simp only [Attributes.pattern, SyncPattern.ofAttribute] at read
  split at read
  · cases read
  · split at read
    · cases read
    · rename_i filled
      cases read
      exact fun empty => filled (String.isEmpty_iff.mpr empty)

theorem storable_cueOf {time : Duration} (h : readTime as = .ok time) : (cueOf as time).Storable where
  time := by
    simp only [readTime] at h
    split at h
    · cases h
      exact ⟨0, Nat.zero_le _, rfl⟩
    · split at h
      · rename_i read
        cases h
        exact TimeText.exists_of_parse read
      · cases h
  sync := source_of_pattern

theorem storable_of_readEntry {x : Draft} (h : readEntry tag = .ok (some x)) : x.Storable := by
  rcases readEntry_cases h with none | ⟨as, -, preset | trigger | ⟨-, time, read, activity⟩⟩
  · cases none
  · cases preset
    trivial
  · cases trigger
    exact source_of_pattern
  · cases activity
    exact storable_cueOf read

theorem storable_of_each {x : Draft} (h : x.Each Draft.Storable) : x.Storable := by
  cases x <;> exact h

theorem storable_of_ofText {text : String} (h : ofText text = .ok d) : d.Storable :=
  fun x mem => storable_of_each (each_of_ofText h (fun _ _ _ => storable_of_readEntry) x mem)

def Neat (value : String) : Prop :=
  (∀ c ∈ value.toList.head?, isSpace c = false) ∧ ∀ c ∈ value.toList.getLast?, isSpace c = false

theorem stripped_eq_self_iff {value : String} : stripped value = value ↔ Neat value := by
  rw [Neat, ← Text.trimBoth_eq_self_iff, ← String.toList_inj, stripped, String.toList_ofList]

theorem length_escape_stripped (value : String) :
    (escape (stripped value).toList).length ≤ (escape value.toList).length := by
  rw [stripped, String.toList_ofList, ← trimBoth_escape]
  exact (Text.trimBoth_isInfix isSpace _).length_le

theorem stripped_eq_self_of_length {value : String}
    (h : (escape (stripped value).toList).length = (escape value.toList).length) : stripped value = value := by
  have cut : escape (stripped value).toList = Text.trimBoth isSpace (escape value.toList) := by
    rw [stripped, String.toList_ofList, trimBoth_escape]
  have written : escape (stripped value).toList = escape value.toList :=
    cut.trans ((Text.trimBoth_isInfix isSpace _).eq_of_length (cut ▸ h))
  have read := congrArg unescape written
  rw [unescape_escape, unescape_escape] at read
  exact String.toList_inj.mp (Option.some.inj read)

/-- What comes back of a document is written like the document itself only if nothing was stripped of it: every blank that
is lost makes the text shorter. -/
theorem print_restored_iff : print d.restored = print d ↔ Neat d.name ∧ Neat d.zone := by
  rw [← stripped_eq_self_iff, ← stripped_eq_self_iff]
  constructor
  · intro same
    have name := length_escape_stripped d.name
    have zone := length_escape_stripped d.zone
    have length := congrArg List.length (String.ofList_injective same)
    simp only [render, fieldText, restored, List.length_append, List.length_cons] at length
    exact ⟨stripped_eq_self_of_length (by omega), stripped_eq_self_of_length (by omega)⟩
  · rintro ⟨name, zone⟩
    rw [restored, name, zone]

theorem document_workbench (d : Document) (first : ElementId) : (d.workbench first).definition.document = d := by
  obtain ⟨new, o, drafts, -, built⟩ := Workbench.addDrafts_spec
    { definition := { name := d.name, zone := d.zone, locale := d.locale }, nextId := first } d.entries
  rw [workbench, built, Definition.document, List.nil_append, drafts]

end Document

namespace Definition

open Document (Neat)

/-- The definition is what a text describes, with whatever identities. -/
def ReadFrom (d : Definition) (text : String) : Prop :=
  ∃ doc first, Document.ofText text = .ok doc ∧ d = (doc.workbench first).definition

variable {d e : Definition} {text : String}

theorem ReadFrom.ofText (h : d.ReadFrom text) : Document.ofText text = .ok d.document := by
  obtain ⟨doc, first, read, rfl⟩ := h
  rw [read, Document.document_workbench]

theorem ReadFrom.storable (h : d.ReadFrom text) : d.document.Storable := Document.storable_of_ofText h.ofText

theorem ofText_print (h : d.document.Timely) : Document.ofText d.document.print = .ok d.document.kept := by
  rw [Document.ofText, Document.read_print_kept h]

/-- What a definition is written as can always be read, and its name and its zone come back exactly if they are neat. A
definition that was itself read is written the same again exactly if both are. -/
theorem header_survives_iff (h : d.document.Timely) :
    (∃ e : Definition, e.ReadFrom d.document.print) ∧ ∀ e : Definition, e.ReadFrom d.document.print →
      (e.name = d.name ↔ Neat d.name) ∧ (e.zone = d.zone ↔ Neat d.zone) ∧
        ∀ text, d.ReadFrom text → (e.document.print = d.document.print ↔ Neat d.name ∧ Neat d.zone) := by
  refine ⟨⟨_, d.document.kept, 0, ofText_print h, rfl⟩, fun e read => ?_⟩
  have back : e.document = d.document.kept := Except.ok.inj (read.ofText.symm.trans (ofText_print h))
  have name : e.name = Document.stripped d.name := congrArg Document.name back
  have zone : e.zone = Document.stripped d.zone := congrArg Document.zone back
  rw [name, zone, Document.stripped_eq_self_iff, Document.stripped_eq_self_iff]
  refine ⟨Iff.rfl, Iff.rfl, fun text own => ?_⟩
  rw [back, own.storable.kept]
  exact Document.print_restored_iff

/-- Markup in a name and blanks inside it do no harm, and neither does a time that is no whole number of milliseconds. -/
theorem header_survives_iff_depths :
    let d : Definition :=
      { name := "Ruins  & <Depths>", elements := [.activity { id := 0, cue := { time := ⟨1500000⟩ } }] }
    d.document.Timely ∧ ∃ e : Definition, e.ReadFrom d.document.print ∧ e.name = d.name ∧ e.zone = d.zone := by
  intro d
  have timely : d.document.Timely := List.forall_mem_singleton.mpr (show 1500000 / 1000000 / 60000 ≤ _ by decide)
  obtain ⟨⟨e, read⟩, back⟩ := header_survives_iff timely
  obtain ⟨name, zone, -⟩ := back e read
  exact ⟨timely, e, read, name.mpr (by simp [Neat, d, isSpace]), zone.mpr (by simp [Neat, d])⟩

/-- A name in a character data section is read with the blanks at its ends. -/
theorem ofText_verbatim :
    Document.ofText "<timeline><name><![CDATA[ Ruins ]]></name></timeline>" = .ok { name := " Ruins " } := by
  have cut : lexemes (dropMark "<timeline><name><![CDATA[ Ruins ]]></name></timeline>".toList) =
      [.openTag "timeline".toList, .openTag "name".toList, .verbatim " Ruins ".toList, .closeTag "name".toList,
        .closeTag "timeline".toList] :=
    lexemes_cons rfl (lexemes_cons rfl (lexemes_cons rfl (lexemes_cons rfl (lexemes_cons rfl lexemes_nil))))
  rw [Document.ofText, Document.read, events, cut]
  rfl

/-- Such a name is written as a text, whose blanks are trimmed: another name comes back, and it is written otherwise. -/
theorem exists_header_lost : ∃ d e : Definition,
    d.ReadFrom "<timeline><name><![CDATA[ Ruins ]]></name></timeline>" ∧ d.document.Timely ∧
      e.ReadFrom d.document.print ∧ e.name ≠ d.name ∧ e.document.print ≠ d.document.print := by
  have storable := Document.storable_of_ofText ofText_verbatim
  let d := (Document.workbench { name := " Ruins " } 0).definition
  have written : d.document = { name := " Ruins " } := Document.document_workbench _ 0
  refine ⟨d, (d.document.restored.workbench 0).definition, ⟨_, 0, ofText_verbatim, rfl⟩, ?_, ⟨_, 0, ?_, rfl⟩, ?_, ?_⟩
  · rw [written]
    exact storable.timely
  · rw [written]
    exact Document.ofText_print storable
  · have name : d.document.name = " Ruins " := congrArg Document.name written
    have back := congrArg Document.name (Document.document_workbench d.document.restored 0)
    show (d.document.restored.workbench 0).definition.document.name ≠ d.document.name
    rw [back, name, Document.restored, name, Ne, Document.stripped_eq_self_iff]
    simp [Neat, isSpace]
  · rw [Document.document_workbench, Ne, Document.print_restored_iff, written]
    simp [Neat, isSpace]

end Definition

end EncounterTimeline
