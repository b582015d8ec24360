import EncounterTimeline.Proofs.Document.Header
import EncounterTimeline.Proofs.Document.Tree
import Mathlib.Data.List.Infix

/-! # What a page says

A page is read exactly if the children of its root can be understood, and then it says what they say: the last name, zone and
locale, and one entry for each child that gives one, in order.
-/
namespace EncounterTimeline

open Markup Document

namespace Markup.Attributes

def time? (as : Attributes) : Option Duration :=
  match as.text "time" with
  | none => some .zero
  | some s => TimeText.parse s

end Markup.Attributes

namespace Markup.Tag

def entry (tag : Tag) : Option Draft := do
  let as ← tag.attributes?
  match String.ofList tag.name with
  | "default" => some (.preset (readPreset as))
  | "a" => as.time?.map fun time => .activity (cueOf as time)
  | "t" => some (.trigger (readRule as))
  | _ => none

def cue (tag : Tag) : Option Cue :=
  match tag.entry with
  | some (.activity c) => some c
  | _ => none

structure Sound (tag : Tag) : Prop where
  attributes : String.ofList tag.name ∈ ["default", "a", "t"] → ∃ as, tag.attributes? = some as
  time : String.ofList tag.name = "a" → ∀ as, tag.attributes? = some as → ∃ time, as.time? = some time

variable {tag : Tag}

theorem sound_of_other (h : String.ofList tag.name ∉ ["default", "a", "t"]) : tag.Sound where
  attributes listed := absurd listed h
  time name := absurd (by simp [name]) h

theorem entry_of_other (h : String.ofList tag.name ∉ ["default", "a", "t"]) : tag.entry = none := by
  simp only [List.mem_cons, List.not_mem_nil, or_false, not_or] at h
  obtain ⟨noPreset, noActivity, noTrigger⟩ := h
  rw [entry]
  cases tag.attributes? with
  | none => rfl
  | some as =>
    rw [Option.bind_eq_bind, Option.bind_some]
    split
    · exact absurd ‹_› noPreset
    · exact absurd ‹_› noActivity
    · exact absurd ‹_› noTrigger
    · rfl

end Markup.Tag

namespace Child

def text? (x : Child) (f : Field) : Option String :=
  if x.name = f.tag then (x.inner.bind Content.text?).map String.ofList else none

def locale? (x : Child) : Option Locale := (x.text? .locale).bind Locale.parse

def entry (x : Child) : Option Draft :=
  if x.name = "s" then
    x.tag.attributes?.map fun as => .subroutine (as.text "name") (x.parts.filterMap fun part => part.tag.cue)
  else x.tag.entry

structure Sound (x : Child) : Prop where
  tag : x.tag.Sound
  routine : x.name = "s" → (∃ as, x.tag.attributes? = some as) ∧ ∀ part ∈ x.parts, part.tag.Sound
  text : ∀ f : Field, x.name = f.tag → ∀ inner ∈ x.inner, ∃ text, inner.text? = some text
  locale : x.name = "locale" → ∀ inner ∈ x.inner, ∀ text ∈ inner.text?, ∃ l, Locale.parse (String.ofList text) = some l

end Child

namespace Document

variable {as : Attributes} {tag : Tag} {x : Child} {d e : Document}

theorem readTime_eq_ok_iff {time : Duration} : readTime as = .ok time ↔ as.time? = some time := by
  rw [readTime, Attributes.time?]
  cases as.text "time" with
  | none => simp
  | some s => cases parsed : TimeText.parse s <;> simp [parsed]

theorem attributesOf_eq_ok_iff : attributesOf tag = .ok as ↔ tag.attributes? = some as := by
  rw [attributesOf]
  split <;> simp [*]

/-- An entry that asks for nothing but its attributes. -/
theorem written_eq_ok_iff {f : Attributes → Draft} {entry : Option Draft} (timeless : String.ofList tag.name ≠ "a")
    (listed : String.ofList tag.name ∈ ["default", "a", "t"])
    (gives : ∀ as, tag.attributes? = some as → tag.entry = some (f as)) :
    (attributesOf tag >>= fun as => .ok (some (f as))) = .ok entry ↔ tag.Sound ∧ entry = tag.entry := by
  constructor
  · intro h
    obtain ⟨as, attributes, h⟩ := except_bind_eq_ok h
    rw [attributesOf_eq_ok_iff] at attributes
    cases h
    exact ⟨⟨fun _ => ⟨as, attributes⟩, fun name => absurd name timeless⟩, (gives as attributes).symm⟩
  · rintro ⟨sound, rfl⟩
    obtain ⟨as, attributes⟩ := sound.attributes listed
    rw [attributesOf_eq_ok_iff.mpr attributes, gives as attributes]
    rfl

theorem readEntry_eq_ok_iff {entry : Option Draft} : readEntry tag = .ok entry ↔ tag.Sound ∧ entry = tag.entry := by
  rw [readEntry]
  split
  · rename_i name
    exact written_eq_ok_iff (by simp [name]) (by simp [name]) fun as attributes => by simp [Tag.entry, attributes, name]
  · rename_i name
    constructor
    · intro h
      obtain ⟨as, attributes, h⟩ := except_bind_eq_ok h
      obtain ⟨time, timed, h⟩ := except_bind_eq_ok h
      cases h
      rw [attributesOf_eq_ok_iff] at attributes
      rw [readTime_eq_ok_iff] at timed
      refine ⟨⟨fun _ => ⟨as, attributes⟩, fun _ as' same => ?_⟩, by simp [Tag.entry, attributes, name, timed]⟩
      cases attributes.symm.trans same
      exact ⟨time, timed⟩
    · rintro ⟨sound, rfl⟩
      obtain ⟨as, attributes⟩ := sound.attributes (by simp [name])
      obtain ⟨time, timed⟩ := sound.time name as attributes
      simp [attributesOf_eq_ok_iff.mpr attributes, readTime_eq_ok_iff.mpr timed, Tag.entry, attributes, timed, name, bind,
        Except.bind, pure, Except.pure]
  · rename_i name
    exact written_eq_ok_iff (by simp [name]) (by simp [name]) fun as attributes => by simp [Tag.entry, attributes, name]
  · rename_i noPreset noActivity noTrigger
    have other : String.ofList tag.name ∉ ["default", "a", "t"] := by
      simp only [List.mem_cons, List.not_mem_nil, or_false]
      rintro (name | name | name)
      · exact noPreset name
      · exact noActivity name
      · exact noTrigger name
    rw [Tag.entry_of_other other]
    exact ⟨fun h => ⟨Tag.sound_of_other other, (Except.ok.inj h).symm⟩, fun ⟨_, h⟩ => congrArg Except.ok h.symm⟩

/-- A fold that goes on as long as each step finds its element sound. -/
theorem foldlM_eq_ok_iff {α β ε : Type} {step : β → α → Except ε β} {sound : α → Prop} {next : β → α → β}
    (h : ∀ b a b', step b a = .ok b' ↔ sound a ∧ b' = next b a) {l : List α} {b b' : β} :
    l.foldlM step b = .ok b' ↔ (∀ a ∈ l, sound a) ∧ b' = l.foldl next b := by
  induction l generalizing b with
  | nil =>
    show Except.ok b = .ok b' ↔ _
    simp [eq_comm]
  | cons a l ih =>
    rw [List.foldlM_cons, List.forall_mem_cons, List.foldl_cons]
    constructor
    · intro taken
      obtain ⟨x, first, rest⟩ := except_bind_eq_ok taken
      obtain ⟨own, rfl⟩ := (h b a x).mp first
      obtain ⟨others, result⟩ := ih.mp rest
      exact ⟨⟨own, others⟩, result⟩
    · rintro ⟨⟨own, others⟩, result⟩
      rw [(h b a _).mpr ⟨own, rfl⟩]
      exact ih.mpr ⟨others, result⟩

theorem map_eq_ok_iff {ε α β : Type} {f : α → β} {y : Except ε α} {b : β} :
    f <$> y = .ok b ↔ ∃ a, y = .ok a ∧ b = f a := by
  cases y with
  | error fault =>
    constructor
    · intro h
      cases h
    · rintro ⟨_, h, -⟩
      cases h
  | ok a =>
    show Except.ok (f a) = .ok b ↔ _
    simp [eq_comm]

theorem takePart_eq_ok_iff (s : OpenRoutine) (x : Child) (s' : OpenRoutine) :
    takePart s x = .ok s' ↔ x.tag.Sound ∧ s' = s.add x.tag.entry := by
  rw [takePart, map_eq_ok_iff]
  constructor
  · rintro ⟨entry, read, rfl⟩
    obtain ⟨sound, rfl⟩ := readEntry_eq_ok_iff.mp read
    exact ⟨sound, rfl⟩
  · rintro ⟨sound, rfl⟩
    exact ⟨_, readEntry_eq_ok_iff.mpr ⟨sound, rfl⟩, rfl⟩

theorem foldl_add (parts : List Child) (s : OpenRoutine) :
    parts.foldl (fun s x => s.add x.tag.entry) s =
      { s with cues := s.cues ++ parts.filterMap fun part => part.tag.cue } := by
  induction parts generalizing s with
  | nil => simp
  | cons x parts ih =>
    have own : s.add x.tag.entry = { s with cues := s.cues ++ x.tag.cue.toList } := by
      rw [Tag.cue]
      rcases x.tag.entry with _ | _ | _ | _ | _ <;> simp [OpenRoutine.add]
    rw [List.foldl_cons, own, ih, List.filterMap_cons]
    cases x.tag.cue <;> simp

theorem routineOf_eq_ok_iff (name : x.name = "s") {entry : Draft} : routineOf x = .ok entry ↔
    ((∃ as, x.tag.attributes? = some as) ∧ ∀ part ∈ x.parts, part.tag.Sound) ∧ x.entry = some entry := by
  have parts (n : Option String) (s : OpenRoutine) : x.parts.foldlM takePart ⟨n, []⟩ = .ok s ↔
      (∀ part ∈ x.parts, part.tag.Sound) ∧ s = ⟨n, x.parts.filterMap fun part => part.tag.cue⟩ := by
    rw [foldlM_eq_ok_iff takePart_eq_ok_iff, foldl_add, List.nil_append]
  rw [routineOf, Child.entry, if_pos name]
  constructor
  · intro h
    obtain ⟨n, named, h⟩ := except_bind_eq_ok h
    obtain ⟨as, attributes, h'⟩ := except_bind_eq_ok named
    obtain ⟨s, taken, result⟩ := except_bind_eq_ok h
    obtain ⟨sound, rfl⟩ := (parts n s).mp taken
    rw [attributesOf_eq_ok_iff] at attributes
    cases h'
    cases result
    exact ⟨⟨⟨as, attributes⟩, sound⟩, by rw [attributes]; rfl⟩
  · rintro ⟨⟨⟨as, attributes⟩, sound⟩, shown⟩
    rw [attributes] at shown
    cases shown
    rw [routineName, attributesOf_eq_ok_iff.mpr attributes]
    show (x.parts.foldlM takePart ⟨as.text "name", []⟩ >>= _) = _
    rw [(parts _ _).mpr ⟨sound, rfl⟩]
    rfl

def take (d : Document) (x : Child) : Document where
  name := (x.text? .name).getD d.name
  zone := (x.text? .zone).getD d.zone
  locale := x.locale?.getD d.locale
  entries := d.entries ++ x.entry.toList

theorem ofTag?_tag (f : Field) : Field.ofTag? f.tag = some f := by cases f <;> decide

/-- A field with content is sound if its text can be read, and names a locale where one is asked for. -/
theorem takeChild_field_eq_ok_iff {f : Field} {c : Content} (name : String.ofList tag.name = f.tag) :
    takeChild d ⟨tag, some c⟩ = .ok e ↔ Child.Sound ⟨tag, some c⟩ ∧ e = d.take ⟨tag, some c⟩ := by
  have other : String.ofList tag.name ∉ ["default", "a", "t"] ∧ String.ofList tag.name ≠ "s" := by
    rw [name]
    cases f <;> decide
  have silent : Child.entry ⟨tag, some c⟩ = none := by
    rw [Child.entry, if_neg (show ¬ Child.name ⟨tag, some c⟩ = "s" from other.2), Tag.entry_of_other other.1]
  rw [takeChild_field (name ▸ ofTag?_tag f)]
  cases text : c.text? with
  | none =>
    constructor
    · intro h
      cases h
    · rintro ⟨sound, -⟩
      obtain ⟨t, found⟩ := sound.text f name c rfl
      cases text.symm.trans found
  | some t =>
    have sound : Child.Sound ⟨tag, some c⟩ ↔ (f = .locale → ∃ l, Locale.parse (String.ofList t) = some l) := by
      constructor
      · rintro sound rfl
        exact sound.locale name c rfl t text
      · intro named
        refine ⟨Tag.sound_of_other other.1, fun routine => absurd routine other.2, ?_, ?_⟩
        · rintro _ - _ ⟨⟩
          exact ⟨t, text⟩
        · rintro locale _ ⟨⟩ t' found
          cases text.symm.trans found
          have same : f.tag = "locale" := name.symm.trans locale
          exact named (by cases f <;> first | rfl | exact absurd same (by decide))
    have shown (g : Field) : Child.text? ⟨tag, some c⟩ g = if f.tag = g.tag then some (String.ofList t) else none := by
      simp only [Child.text?, Child.name, name, Option.bind_some, text, Option.map_some]
    rw [sound]
    show setField d f t = .ok e ↔ _
    cases f with
    | name => simp [setField, take, Child.locale?, shown, silent, Field.tag, eq_comm]
    | zone => simp [setField, take, Child.locale?, shown, silent, Field.tag, eq_comm]
    | locale =>
      cases parsed : Locale.parse (String.ofList t) with
      | none => simp [setField, parsed]
      | some l => simp [setField, parsed, take, Child.locale?, shown, silent, Field.tag, eq_comm]

theorem takeChild_other_eq_ok_iff (h : ∀ f : Field, x.name = f.tag → x.inner = none) :
    takeChild d x = .ok e ↔ x.Sound ∧ e = d.take x := by
  obtain ⟨tag, inner⟩ := x
  have texts (f : Field) : Child.text? ⟨tag, inner⟩ f = none := by
    rw [Child.text?]
    split
    · rename_i name
      have empty : inner = none := h f name
      rw [empty]
      rfl
    · rfl
  have taken : d.take ⟨tag, inner⟩ = { d with entries := d.entries ++ (Child.entry ⟨tag, inner⟩).toList } := by
    simp only [take, texts, Child.locale?, Option.bind_none, Option.getD_none]
  have other : Field.ofTag? (String.ofList tag.name) = none ∨ inner = none := by
    cases field : Field.ofTag? (String.ofList tag.name) with
    | none => exact .inl rfl
    | some f => exact .inr (h f (tag_of_ofTag? field))
  have sound : Child.Sound ⟨tag, inner⟩ ↔ tag.Sound ∧ (String.ofList tag.name = "s" →
      (∃ as, tag.attributes? = some as) ∧ ∀ part ∈ Child.parts ⟨tag, inner⟩, part.tag.Sound) := by
    constructor
    · exact fun sound => ⟨sound.tag, sound.routine⟩
    · rintro ⟨own, routine⟩
      refine ⟨own, routine, fun f name c mem => ?_, fun name c mem => ?_⟩
      · cases (h f name).symm.trans mem
      · cases (h .locale name).symm.trans mem
  rw [takeChild_other other, taken, sound]
  by_cases name : String.ofList tag.name = "s"
  · rw [if_pos (beq_iff_eq.mpr name), map_eq_ok_iff]
    constructor
    · rintro ⟨entry, read, rfl⟩
      obtain ⟨routine, shown⟩ := (routineOf_eq_ok_iff (x := ⟨tag, inner⟩) name).mp read
      rw [shown]
      exact ⟨⟨Tag.sound_of_other (by simp [name]), fun _ => routine⟩, rfl⟩
    · rintro ⟨⟨-, routine⟩, rfl⟩
      obtain ⟨as, attributes⟩ := (routine name).1
      have shown : ∃ entry, Child.entry ⟨tag, inner⟩ = some entry := by
        rw [Child.entry, if_pos (show Child.name ⟨tag, inner⟩ = "s" from name)]
        simp [attributes]
      obtain ⟨entry, shown⟩ := shown
      exact ⟨entry, (routineOf_eq_ok_iff (x := ⟨tag, inner⟩) name).mpr ⟨routine name, shown⟩, by rw [shown]; rfl⟩
  · rw [if_neg (by simpa using name), map_eq_ok_iff, Child.entry, if_neg (show ¬ Child.name ⟨tag, inner⟩ = "s" from name)]
    have added : addEntry d tag.entry = { d with entries := d.entries ++ tag.entry.toList } := by
      cases tag.entry with
      | none => simp [addEntry]
      | some entry => rfl
    constructor
    · rintro ⟨entry, read, rfl⟩
      obtain ⟨own, rfl⟩ := readEntry_eq_ok_iff.mp read
      exact ⟨⟨own, fun routine => absurd routine name⟩, added⟩
    · rintro ⟨⟨own, -⟩, rfl⟩
      exact ⟨_, readEntry_eq_ok_iff.mpr ⟨own, rfl⟩, added.symm⟩

theorem takeChild_eq_ok_iff (d : Document) (x : Child) (e : Document) :
    takeChild d x = .ok e ↔ x.Sound ∧ e = d.take x := by
  by_cases written : ∃ (f : Field) (c : Content), x.name = f.tag ∧ x.inner = some c
  · obtain ⟨f, c, name, inner⟩ := written
    obtain ⟨tag, _⟩ := x
    cases inner
    exact takeChild_field_eq_ok_iff name
  · refine takeChild_other_eq_ok_iff fun f name => ?_
    cases inner : x.inner with
    | none => rfl
    | some c => exact absurd ⟨f, c, name, inner⟩ written

def ofChildren (children : List Child) : Document where
  name := (children.filterMap fun x => x.text? .name).getLast?.getD ""
  zone := (children.filterMap fun x => x.text? .zone).getLast?.getD ""
  locale := (children.filterMap Child.locale?).getLast?.getD .ja
  entries := children.filterMap Child.entry

theorem getLast?_filterMap_cons {α β : Type} (f : α → Option β) (x : α) (l : List α) (b : β) :
    ((x :: l).filterMap f).getLast?.getD b = (l.filterMap f).getLast?.getD ((f x).getD b) := by
  rw [List.filterMap_cons]
  cases f x with
  | none => rfl
  | some y => rw [List.getLast?_cons, Option.getD_some, Option.getD_some]

theorem foldl_take (children : List Child) (d : Document) : children.foldl take d =
    { name := (children.filterMap fun x => x.text? .name).getLast?.getD d.name
      zone := (children.filterMap fun x => x.text? .zone).getLast?.getD d.zone
      locale := (children.filterMap Child.locale?).getLast?.getD d.locale
      entries := d.entries ++ children.filterMap Child.entry } := by
  induction children generalizing d with
  | nil => simp
  | cons x children ih =>
    have entries : (d.take x).entries ++ children.filterMap Child.entry =
        d.entries ++ (x :: children).filterMap Child.entry := by
      rw [List.filterMap_cons, take]
      cases x.entry <;> simp
    rw [List.foldl_cons, ih, entries]
    simp only [getLast?_filterMap_cons]
    rfl

theorem foldlM_takeChild {children : List Child} :
    children.foldlM takeChild {} = .ok d ↔ (∀ x ∈ children, x.Sound) ∧ d = ofChildren children := by
  rw [foldlM_eq_ok_iff takeChild_eq_ok_iff, foldl_take]
  rfl

/-- A sound tag gives an entry exactly if it is one of the three that do, and an activity exactly if it is one. -/
theorem isSome_of_sound (h : tag.Sound) : (tag.entry.isSome ↔ String.ofList tag.name ∈ ["default", "a", "t"]) ∧
    (tag.cue.isSome ↔ String.ofList tag.name = "a") := by
  by_cases listed : String.ofList tag.name ∈ ["default", "a", "t"]
  · obtain ⟨as, attributes⟩ := h.attributes listed
    have cases : String.ofList tag.name = "default" ∨ String.ofList tag.name = "a" ∨ String.ofList tag.name = "t" := by
      simpa using listed
    rcases cases with name | name | name
    · simp [Tag.cue, Tag.entry, attributes, name]
    · obtain ⟨time, timed⟩ := h.time name as attributes
      simp [Tag.cue, Tag.entry, attributes, name, timed]
    · simp [Tag.cue, Tag.entry, attributes, name]
  · have other : String.ofList tag.name ≠ "a" := fun name => listed (by simp [name])
    rw [Tag.cue, Tag.entry_of_other listed]
    exact ⟨⟨fun gives => (by cases gives), fun mem => absurd mem listed⟩,
      ⟨fun gives => (by cases gives), fun name => absurd name other⟩⟩

end Document

namespace Child

/-- A sound child of the root gives one entry if it is of one of the four kinds, and else none; of the parts of a
subroutine those are kept that are activities. -/
theorem Sound.kinds {x : Child} (h : x.Sound) : (x.entry.isSome ↔ x.name ∈ ["default", "a", "t", "s"]) ∧
    (x.name = "s" → ∀ part ∈ x.parts, part.tag.cue.isSome ↔ part.name = "a") := by
  constructor
  · rw [entry]
    split
    · rename_i name
      obtain ⟨⟨as, attributes⟩, -⟩ := h.routine name
      simp [attributes, name]
    · rename_i other
      have own : x.tag.entry.isSome ↔ x.name ∈ ["default", "a", "t"] := (Document.isSome_of_sound h.tag).1
      simpa [other] using own
  · intro name part mem
    exact (Document.isSome_of_sound ((h.routine name).2 part mem)).2

end Child

namespace Markup.Page

def Sound (p : Page) : Prop := ∀ x ∈ p.children, x.Sound

end Markup.Page

namespace Definition

variable {p : Page}

theorem readFrom_write_iff (wellFormed : p.WellFormed) (paired : p.Paired) (h : p.Describes) {doc : Document} :
    ofText (String.ofList p.write) = .ok doc ↔ p.Sound ∧ doc = ofChildren p.children := by
  have taken : p.children.foldlM takeChild {} = .ok doc ↔ _ := foldlM_takeChild
  rw [← Page.read_write wellFormed paired h] at taken
  rw [← Page.Sound] at taken
  rw [← taken, Document.ofText]
  cases Document.read (String.ofList p.write) <;> simp

/-- A page is read exactly if its children are sound, and then what it describes is what they say: the last name, zone and
locale, one element for each child of the four kinds, in order, and in a subroutine the activities that stand directly in
it. Nothing else that is nested anywhere counts. -/
theorem readFrom_page_iff (wellFormed : p.WellFormed) (paired : p.Paired) (h : p.Describes) :
    ((∃ d : Definition, d.ReadFrom (String.ofList p.write)) ↔ p.Sound) ∧
      ∀ d : Definition, d.ReadFrom (String.ofList p.write) →
        d.document = ofChildren p.children ∧
          ∀ x ∈ p.children, (x.entry.isSome ↔ x.name ∈ ["default", "a", "t", "s"]) ∧
            (x.name = "s" → ∀ part ∈ x.parts, part.tag.cue.isSome ↔ part.name = "a") := by
  have reads {doc : Document} : ofText (String.ofList p.write) = .ok doc ↔ p.Sound ∧ doc = ofChildren p.children :=
    readFrom_write_iff wellFormed paired h
  refine ⟨⟨?_, fun sound => ?_⟩, fun d read => ?_⟩
  · rintro ⟨d, read⟩
    exact (reads.mp read.ofText).1
  · exact ⟨_, _, 0, reads.mpr ⟨sound, rfl⟩, rfl⟩
  · obtain ⟨sound, document⟩ := reads.mp read.ofText
    exact ⟨document, fun x mem => (sound x mem).kinds⟩

/-! Tags without attributes. -/

theorem wellFormed_bare {name : List Char} (h : TagName name) : (⟨name, []⟩ : Tag).WellFormed :=
  { named := h, parted := by simp, balanced := balanced_nil }

theorem opens_bare {name gap : List Char} (h : TagName name) (last : name.getLast? ≠ some '/')
    (blank : ∀ c ∈ gap, isSpace c = true) : Opens ⟨name, []⟩ gap :=
  { wellFormed := wellFormed_bare h, last := by rwa [Tag.body, List.append_nil], gap := blank }

theorem attributes_bare (name : List Char) : (⟨name, []⟩ : Tag).attributes? = some [] := by
  rw [Tag.attributes?, readAttributes]
  rfl

theorem sound_bare (name : List Char) : (⟨name, []⟩ : Tag).Sound where
  attributes _ := ⟨[], attributes_bare name⟩
  time _ as attributes := by
    cases (attributes_bare name).symm.trans attributes
    exact ⟨.zero, rfl⟩

theorem sound_of_bare {name : List Char} {inner : Option Content} (h : Field.ofTag? (String.ofList name) = none)
    (parts : String.ofList name = "s" → ∀ part ∈ Child.parts ⟨⟨name, []⟩, inner⟩, part.tag.Sound) :
    Child.Sound ⟨⟨name, []⟩, inner⟩ where
  tag := sound_bare name
  routine named := ⟨⟨[], attributes_bare name⟩, parts named⟩
  text f field := by
    have found : Field.ofTag? (String.ofList name) = some f := (congrArg Field.ofTag? field).trans (ofTag?_tag f)
    cases h.symm.trans found
  locale field := by
    have found : Field.ofTag? (String.ofList name) = some .locale := (congrArg Field.ofTag? field).trans (ofTag?_tag .locale)
    cases h.symm.trans found

def deep : Content :=
  .element [] ⟨['a'], []⟩ (.element [] ⟨['a'], []⟩ (.ends []) [] (.ends [])) [] (.ends [])

def loop : Content :=
  .element [] ⟨['a'], []⟩ deep [] (.element [] ⟨['s'], []⟩ deep [] (.leaf [] (.single ⟨['t'], []⟩) (.ends [])))

/-- A page that has activities also where they do not count: in an unknown tag, in an activity, and in a subroutine inside a
subroutine. -/
def nested : Page where
  headings := [([], .aside (.instruction "xml".toList)), (['\n'], .doctype " timeline".toList)]
  root := ⟨"timeline".toList, []⟩
  inside := some
    (.element ['\n'] ⟨"name".toList, []⟩ (.leaf " Ruins".toList (.verbatim " <1>".toList) (.ends [])) [' ']
      (.element [] ⟨['x'], []⟩ deep [] (.element [] ⟨['s'], []⟩ loop [] (.element [] ⟨['a'], []⟩ deep [] (.ends ['\n'])))),
      [])

theorem children_nested : nested.children =
    [⟨⟨"name".toList, []⟩, some (.leaf " Ruins".toList (.verbatim " <1>".toList) (.ends []))⟩, ⟨⟨['x'], []⟩, some deep⟩,
      ⟨⟨['s'], []⟩, some loop⟩, ⟨⟨['a'], []⟩, some deep⟩] := rfl

theorem wellFormed_nested : nested.WellFormed := by
  have a : Opens ⟨['a'], []⟩ [] := opens_bare ⟨rfl, rfl⟩ (by decide) (by simp)
  have s : Opens ⟨['s'], []⟩ [] := opens_bare ⟨rfl, rfl⟩ (by decide) (by simp)
  have x : Opens ⟨['x'], []⟩ [] := opens_bare ⟨rfl, rfl⟩ (by decide) (by simp)
  have name : Opens ⟨"name".toList, []⟩ [' '] := opens_bare ⟨rfl, rfl⟩ (by decide) (List.forall_mem_singleton.mpr rfl)
  have t : Tag.WellFormed ⟨['t'], []⟩ := wellFormed_bare ⟨rfl, rfl⟩
  have root : Opens ⟨"timeline".toList, []⟩ [] := opens_bare ⟨rfl, rfl⟩ (by decide) (by simp)
  refine ⟨?_, by simp [nested], by simp [nested], ?_⟩
  · have declared : Declares " timeline".toList := Declares.append_plain " timeline".toList (by decide) .nil
    simp only [nested, List.forall_mem_cons]
    exact ⟨⟨by simp, ⟨'x', rfl, by decide⟩, by decide⟩, ⟨⟨rfl, by simp⟩, declared, by decide⟩, by simp⟩
  · rintro _ _ ⟨⟩
    refine ⟨root, ?_⟩
    have plain : '<' ∉ " Ruins".toList := by decide
    have clear : ¬ "]]>".toList <:+: " <1>".toList := by decide
    simp only [Content.WellFormed, loop, deep, Leaf.WellFormed, a, s, x, name, t, plain, clear, List.mem_singleton,
      List.not_mem_nil, not_false_eq_true, and_true, Char.reduceEq]

theorem paired_nested : nested.Paired := by
  simp only [Page.Paired, nested, List.forall_mem_cons]
  refine ⟨trivial, ⟨by decide, fun front back split => ?_⟩, by simp⟩
  have inside : '>' ∈ " timeline".toList := split ▸ List.mem_append_right _ List.mem_cons_self
  exact absurd inside (by decide)

theorem describes_nested : nested.Describes := by
  refine ⟨rfl, ?_⟩
  rw [children_nested]
  simp only [List.forall_mem_cons]
  refine ⟨?_, by rintro ⟨⟩, by rintro ⟨⟩, by rintro ⟨⟩, by simp⟩
  rintro - _ ⟨⟩
  rfl

theorem sound_nested : nested.Sound := by
  rw [Page.Sound, children_nested]
  simp only [List.forall_mem_cons]
  refine ⟨?_, sound_of_bare rfl fun named => absurd named (by decide), sound_of_bare rfl fun _ => ?_,
    sound_of_bare rfl fun named => absurd named (by decide), by simp⟩
  · refine ⟨sound_bare _, fun named => absurd named (by decide), ?_, fun named => absurd named (by decide)⟩
    rintro _ - _ ⟨⟩
    exact ⟨_, rfl⟩
  · have parts : ∀ part ∈ loop.children, part.tag.Sound := by
      simp only [loop, Content.children, List.forall_mem_cons]
      exact ⟨sound_bare _, sound_bare _, sound_bare _, by simp⟩
    exact parts

theorem entries_nested : (ofChildren nested.children).entries = [.subroutine none [{}], .activity {}] := by
  have activity : Tag.entry ⟨['a'], []⟩ = some (.activity {}) := by rw [Tag.entry, attributes_bare]; rfl
  have parts : loop.children.filterMap (fun part => part.tag.cue) = [{}] := by
    have kept : Tag.cue ⟨['a'], []⟩ = some {} := by rw [Tag.cue, activity]
    have inside : Tag.cue ⟨['s'], []⟩ = none := by rw [Tag.cue, Tag.entry_of_other (by decide)]
    have dropped : Tag.cue ⟨['t'], []⟩ = none := by rw [Tag.cue, Tag.entry, attributes_bare]; rfl
    simp only [loop, Content.children, List.filterMap_cons, kept, inside, dropped, List.filterMap_nil]
  have name (inner : Option Content) : Child.entry ⟨⟨"name".toList, []⟩, inner⟩ = none :=
    show Tag.entry ⟨"name".toList, []⟩ = none from Tag.entry_of_other (by decide)
  have unknown : Child.entry ⟨⟨['x'], []⟩, some deep⟩ = none :=
    show Tag.entry ⟨['x'], []⟩ = none from Tag.entry_of_other (by decide)
  have routine : Child.entry ⟨⟨['s'], []⟩, some loop⟩ = some (.subroutine none [{}]) := by
    have within : Child.parts ⟨⟨['s'], []⟩, some loop⟩ = loop.children := rfl
    have named : Child.name ⟨⟨['s'], []⟩, some loop⟩ = "s" := rfl
    rw [Child.entry, if_pos named, attributes_bare, within, parts]
    rfl
  have own : Child.entry ⟨⟨['a'], []⟩, some deep⟩ = some (.activity {}) := activity
  simp only [children_nested, ofChildren, List.filterMap_cons, name, unknown, routine, own, List.filterMap_nil]

theorem readFrom_page_iff_nested : nested.WellFormed ∧ nested.Paired ∧ nested.Describes ∧
    ∃ d : Definition, d.ReadFrom (String.ofList nested.write) ∧ d.name = "Ruins <1>" ∧
      d.document.entries = [.subroutine none [{}], .activity {}] := by
  obtain ⟨reads, gives⟩ := readFrom_page_iff wellFormed_nested paired_nested describes_nested
  obtain ⟨d, read⟩ := reads.mpr sound_nested
  have document := (gives d read).1
  have name : (ofChildren nested.children).name = "Ruins <1>" := rfl
  refine ⟨wellFormed_nested, paired_nested, describes_nested, d, read, ?_, ?_⟩
  · exact (congrArg Document.name document).trans name
  · rw [document, entries_nested]

/-- The text of a literal in a document type is not looked at for what it is. -/
theorem exists_page_unread : ∃ p : Page, p.WellFormed ∧ p.Describes ∧ p.Sound ∧
    String.ofList p.write = "<!DOCTYPE timeline SYSTEM \"><x/>\"><timeline/>" ∧
      ∀ d : Definition, ¬ d.ReadFrom (String.ofList p.write) := by
  let p : Page :=
    { headings := [([], .doctype " timeline SYSTEM \"><x/>\"".toList)], root := ⟨"timeline".toList, []⟩ }
  have children : p.children = [] := rfl
  have literal : Declares " timeline SYSTEM \"><x/>\"".toList := by
    have quoted : Declares ('"' :: "><x/>".toList ++ '"' :: []) := .literal (.inl rfl) (by decide) .nil
    exact Declares.append_plain " timeline SYSTEM ".toList (by decide) quoted
  have wellFormed : p.WellFormed :=
    { headings := by
        refine List.forall_mem_singleton.mpr ⟨by simp, literal, ?_⟩
        decide
      gap := by simp [p]
      root := fun _ => wellFormed_bare ⟨rfl, rfl⟩
      inside := by rintro _ _ ⟨⟩ }
  refine ⟨p, wellFormed, ⟨rfl, by simp [children]⟩, by simp [Page.Sound, children], rfl, fun d read => ?_⟩
  have declared : lexemes p.write = .remark :: lexemes "<x/>\"><timeline/>".toList := lexemes_piece rfl
  have unexpected : lexemes "<x/>\"><timeline/>".toList = .emptyTag ['x'] :: lexemes "\"><timeline/>".toList :=
    lexemes_piece rfl
  have document := read.ofText
  rw [Document.ofText, Document.read, String.toList_ofList, events, show dropMark p.write = p.write from rfl, declared,
    unexpected] at document
  cases document

end Definition

end EncounterTimeline
