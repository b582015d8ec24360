import EncounterTimeline.Document.File

/-! # Where entries come from

Every entry that is read is what one of the tags of the text says. Of a subroutine this is every statement. So what no tag
can say is not read.
-/
namespace EncounterTimeline

open Markup

def Markup.Event.tag? : Event → Option Tag
  | .enter tag | .single tag => some tag
  | .leave _ | .text _ | .verbatim _ | .malformed => none

def Markup.tags (text : String) : List Tag := (events text.toList).filterMap Event.tag?

def Draft.Each (Q : Draft → Prop) : Draft → Prop
  | .subroutine _ cues => ∀ c ∈ cues, Q (.activity c)
  | entry => Q entry

namespace Document

variable {Q : Draft → Prop} {as : Attributes} {tag : Tag} {entry : Option Draft} {d e : Document} {s : OpenRoutine}

/-- What a tag other than a subroutine's can give. -/
theorem readEntry_cases (h : readEntry tag = .ok entry) :
    entry = none ∨ ∃ as, attributesOf tag = .ok as ∧ (entry = some (.preset (readPreset as)) ∨
      entry = some (.trigger (readRule as)) ∨ String.ofList tag.name = "a" ∧
        ∃ time, readTime as = .ok time ∧ entry = some (.activity (cueOf as time))) := by
  unfold readEntry at h
  split at h
  · obtain ⟨as, attributes, h⟩ := except_bind_eq_ok h
    cases h
    exact .inr ⟨as, attributes, .inl rfl⟩
  · rename_i name
    obtain ⟨as, attributes, h⟩ := except_bind_eq_ok h
    obtain ⟨time, timed, h⟩ := except_bind_eq_ok h
    cases h
    exact .inr ⟨as, attributes, .inr (.inr ⟨name, time, timed, rfl⟩)⟩
  · obtain ⟨as, attributes, h⟩ := except_bind_eq_ok h
    cases h
    exact .inr ⟨as, attributes, .inr (.inl rfl)⟩
  · cases h
    exact .inl rfl

def Grants (Q : Draft → Prop) (tag : Tag) : Prop := ∀ x, readEntry tag = .ok (some x) → Q x

theorem Grants.each (h : Grants Q tag) (read : readEntry tag = .ok entry) : ∀ x ∈ entry, x.Each Q := by
  rintro x rfl
  have own := h x read
  rcases readEntry_cases read with none | ⟨as, -, preset | trigger | ⟨-, time, -, activity⟩⟩
  · cases none
  · cases preset
    exact own
  · cases trigger
    exact own
  · cases activity
    exact own

def Each (Q : Draft → Prop) (d : Document) : Prop := ∀ x ∈ d.entries, x.Each Q

theorem Each.push {x : Draft} (h : d.Each Q) (own : x.Each Q) : (d.push x).Each Q := by
  intro y mem
  rcases List.mem_append.mp mem with mem | mem
  · exact h y mem
  · rw [List.mem_singleton.mp mem]
    exact own

theorem Each.addEntry (h : d.Each Q) (own : ∀ x ∈ entry, x.Each Q) : (addEntry d entry).Each Q := by
  cases entry with
  | none => exact h
  | some x => exact h.push (own x rfl)

theorem Each.setField {f : Field} {content : List Char} (h : d.Each Q) (stores : setField d f content = .ok e) :
    e.Each Q := by
  cases f with
  | name | zone =>
    cases stores
    exact h
  | locale =>
    simp only [Document.setField] at stores
    split at stores
    · cases stores
      exact h
    · cases stores

def OpenRoutine.Each (Q : Draft → Prop) (s : OpenRoutine) : Prop := ∀ c ∈ s.cues, Q (.activity c)

theorem OpenRoutine.each_empty (name : Option String) : OpenRoutine.Each Q ⟨name, []⟩ :=
  fun _ mem => absurd mem List.not_mem_nil

theorem OpenRoutine.Each.add (h : s.Each Q) (own : ∀ x ∈ entry, x.Each Q) : (s.add entry).Each Q := by
  rcases entry with _ | _ | c | _ | _
  case some.activity =>
    intro x mem
    rcases List.mem_append.mp mem with mem | mem
    · exact h x mem
    · rw [List.mem_singleton.mp mem]
      exact own _ rfl
  all_goals exact h

/-- The statements of a subroutine that is still open have the property, whether the reader is in it or skips something
of it. -/
def Place.Each (Q : Draft → Prop) : Place → Prop
  | .routine s => s.Each Q
  | .skipping _ _ back => ∀ s ∈ back, s.Each Q
  | _ => True

structure Reader.Each (Q : Draft → Prop) (r : Reader) : Prop where
  place : r.place.Each Q
  document : r.document.Each Q

namespace Reader.Each

variable {r r' : Reader} {e : Event}

theorem standAt {p : Place} (h : r.Each Q) (there : p.Each Q) : (r.standAt p).Each Q := ⟨there, h.document⟩

theorem stepProlog (h : r.Each Q) (step : r.stepProlog e = .ok r') : r'.Each Q := by
  cases e with
  | enter | single =>
    simp only [Reader.stepProlog] at step
    split at step
    · cases step
      exact h.standAt trivial
    · cases step
  | malformed => cases step
  | leave | text | verbatim =>
    cases step
    exact h

theorem stepRoot (h : r.Each Q) (grants : ∀ tag ∈ e.tag?, Grants Q tag) (step : r.stepRoot e = .ok r') : r'.Each Q := by
  cases e with
  | enter tag =>
    simp only [Reader.stepRoot] at step
    split at step
    · cases step
      exact h.standAt trivial
    · split at step
      · obtain ⟨name, -, step⟩ := except_bind_eq_ok step
        cases step
        exact h.standAt (OpenRoutine.each_empty name)
      · obtain ⟨entry, read, step⟩ := except_bind_eq_ok step
        cases step
        exact ⟨by rintro _ ⟨⟩, h.document.addEntry ((grants tag rfl).each read)⟩
  | single tag =>
    simp only [Reader.stepRoot] at step
    split at step
    · obtain ⟨name, -, step⟩ := except_bind_eq_ok step
      cases step
      exact ⟨h.place, h.document.push (OpenRoutine.each_empty name)⟩
    · obtain ⟨entry, read, step⟩ := except_bind_eq_ok step
      cases step
      exact ⟨h.place, h.document.addEntry ((grants tag rfl).each read)⟩
  | leave name =>
    cases step
    split
    · exact h.standAt trivial
    · exact h
  | malformed => cases step
  | text | verbatim =>
    cases step
    exact h

theorem stepField {f : Field} {content : List Char} (h : r.Each Q) (step : r.stepField f content e = .ok r') :
    r'.Each Q := by
  cases e with
  | text raw =>
    simp only [Reader.stepField] at step
    split at step
    · cases step
      exact h.standAt trivial
    · cases step
  | verbatim more =>
    cases step
    exact h.standAt trivial
  | leave name =>
    simp only [Reader.stepField] at step
    split at step
    · obtain ⟨d, stores, step⟩ := except_bind_eq_ok step
      cases step
      exact ⟨trivial, h.document.setField stores⟩
    · cases step
      exact h
  | malformed => cases step
  | enter | single =>
    cases step
    exact h

theorem stepRoutine (h : r.Each Q) (opened : s.Each Q) (grants : ∀ tag ∈ e.tag?, Grants Q tag)
    (step : r.stepRoutine s e = .ok r') : r'.Each Q := by
  cases e with
  | enter tag =>
    obtain ⟨entry, read, step⟩ := except_bind_eq_ok step
    cases step
    refine h.standAt ?_
    rintro _ ⟨⟩
    exact opened.add ((grants tag rfl).each read)
  | single tag =>
    obtain ⟨entry, read, step⟩ := except_bind_eq_ok step
    cases step
    exact h.standAt (opened.add ((grants tag rfl).each read))
  | leave name =>
    cases step
    split
    · exact ⟨trivial, h.document.push opened⟩
    · exact h
  | malformed => cases step
  | text | verbatim =>
    cases step
    exact h

theorem stepSkipping {name : List Char} {depth : Nat} {back : Option OpenRoutine} (h : r.Each Q)
    (opened : ∀ s ∈ back, s.Each Q) (step : r.stepSkipping name depth back e = .ok r') : r'.Each Q := by
  have returned : (backTo back).Each Q := by
    cases back with
    | none => trivial
    | some s => exact opened s rfl
  cases e with
  | enter tag =>
    cases step
    split
    · exact h.standAt opened
    · exact h
  | leave n =>
    simp only [Reader.stepSkipping] at step
    split at step
    · cases depth with
      | zero =>
        cases step
        exact h.standAt returned
      | succ depth =>
        cases step
        exact h.standAt opened
    · cases step
      exact h
  | malformed => cases step
  | single | text | verbatim =>
    cases step
    exact h

/-- Whatever event comes, what was read has the property as long as what its tag says has it. -/
theorem step (h : r.Each Q) (grants : ∀ tag ∈ e.tag?, Grants Q tag) (taken : r.step e = .ok r') : r'.Each Q := by
  have there := h.place
  simp only [Reader.step] at taken
  split at taken
  · exact h.stepProlog taken
  · exact h.stepRoot grants taken
  · exact h.stepField taken
  · rename_i place
    rw [place] at there
    exact h.stepRoutine there grants taken
  · rename_i place
    rw [place] at there
    exact h.stepSkipping there taken
  · cases taken
    exact h

theorem fold {es : List Event} (h : r.Each Q) (grants : ∀ tag ∈ es.filterMap Event.tag?, Grants Q tag)
    (taken : es.foldlM Reader.step r = .ok r') : r'.Each Q := by
  induction es generalizing r with
  | nil =>
    cases taken
    exact h
  | cons e es ih =>
    rw [List.foldlM_cons] at taken
    obtain ⟨x, first, rest⟩ := except_bind_eq_ok taken
    have own : ∀ tag ∈ e.tag?, Grants Q tag := fun tag mem =>
      grants tag (List.mem_filterMap.mpr ⟨e, List.mem_cons_self, mem⟩)
    refine ih (h.step own first) (fun tag mem => grants tag ?_) rest
    obtain ⟨e', later, opens⟩ := List.mem_filterMap.mp mem
    exact List.mem_filterMap.mpr ⟨e', List.mem_cons_of_mem e later, opens⟩

end Reader.Each

/-- What every tag of a text says is true of all that is read of it. -/
theorem each_of_ofText {text : String} (h : ofText text = .ok d) (grants : ∀ tag ∈ tags text, Grants Q tag) : d.Each Q := by
  have read : read text = .ok d := by
    simp only [ofText] at h
    split at h
    · rename_i read
      cases h
      exact read
    · cases h
  obtain ⟨r, taken, finished⟩ := except_bind_eq_ok (show _ >>= Reader.finish = Except.ok d from read)
  have start : Reader.Each Q {} := ⟨trivial, fun _ mem => absurd mem List.not_mem_nil⟩
  have final := (start.fold grants taken).document
  simp only [Reader.finish] at finished
  split at finished <;> cases finished
  exact final

end Document

/-- What is true of every entry of a document is true of every activity of the definition. -/
theorem Definition.cue_of_each {Q : Draft → Prop} {d : Definition} (h : d.document.Each Q) :
    ∀ a ∈ d.activities, Q (.activity a.cue) := by
  intro a mem
  obtain ⟨e, he, ha⟩ := List.mem_flatMap.mp mem
  have own := h e.draft (List.mem_map_of_mem he)
  cases e with
  | preset | trigger => cases ha
  | activity b =>
    rw [List.mem_singleton.mp ha]
    exact own
  | subroutine r => exact own a.cue (List.mem_map_of_mem ha)

end EncounterTimeline
