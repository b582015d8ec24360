import EncounterTimeline.Proofs.Decimal.Plain
import EncounterTimeline.Proofs.Document.Events
import EncounterTimeline.Proofs.Timeline.TimeText

/-! # Documents come back

What is written of a definition is read again: the locale and the elements in order, with everything that is written about
them. Only the blanks at the ends of name and zone are lost, times are cut to the milliseconds that a counter holds, and a
pattern without text is none.
-/
namespace EncounterTimeline

open Markup

/-- The time is a whole number of milliseconds that fits into a counter, and a pattern is not the empty text. -/
structure Cue.Storable (c : Cue) : Prop where
  time : ∃ n ≤ Decimal.maxCount, c.time = Duration.ofMillis n
  sync : ∀ p ∈ c.sync, p.source ≠ ""

def Rule.Storable (r : Rule) : Prop := ∀ p ∈ r.sync, p.source ≠ ""

def Draft.Storable : Draft → Prop
  | .preset _ => True
  | .activity c => c.Storable
  | .trigger r => r.Storable
  | .subroutine _ cues => ∀ c ∈ cues, c.Storable

def Document.Storable (d : Document) : Prop := ∀ entry ∈ d.entries, entry.Storable

def Cue.Timely (c : Cue) : Prop := c.time.millis / 60000 ≤ Decimal.maxCount

def Draft.Timely : Draft → Prop
  | .activity c => c.Timely
  | .subroutine _ cues => ∀ c ∈ cues, c.Timely
  | .preset _ | .trigger _ => True

def Document.Timely (d : Document) : Prop := ∀ entry ∈ d.entries, entry.Timely

def SyncPattern.kept (p : Option SyncPattern) : Option SyncPattern := p.filter fun q => q.source ≠ ""

def Cue.kept (c : Cue) : Cue := { c with time := TimeText.counted c.time, sync := SyncPattern.kept c.sync }

def Rule.kept (r : Rule) : Rule := { r with sync := SyncPattern.kept r.sync }

def Draft.kept : Draft → Draft
  | .preset p => .preset p
  | .activity c => .activity c.kept
  | .trigger r => .trigger r.kept
  | .subroutine name cues => .subroutine name (cues.map Cue.kept)

theorem SyncPattern.kept_eq {p : Option SyncPattern} (h : ∀ q ∈ p, q.source ≠ "") : kept p = p := by
  cases p with
  | none => rfl
  | some q => rw [kept, Option.filter_some, if_pos (decide_eq_true (h q rfl))]

namespace Cue.Storable

variable {c : Cue}

theorem timely (h : c.Storable) : c.Timely := by
  obtain ⟨n, le, time⟩ := h.time
  rw [Timely, time, Duration.millis_ofMillis]
  exact (Nat.div_le_self n _).trans le

theorem kept (h : c.Storable) : c.kept = c := by
  obtain ⟨n, le, time⟩ := h.time
  have counted : TimeText.counted c.time = c.time := by rw [time, TimeText.counted_ofMillis le]
  rw [Cue.kept, counted, SyncPattern.kept_eq h.sync]

end Cue.Storable

theorem Draft.Storable.timely {entry : Draft} (h : entry.Storable) : entry.Timely := by
  cases entry with
  | preset | trigger => trivial
  | activity c => exact Cue.Storable.timely h
  | subroutine name cues => exact fun c mem => (h c mem).timely

theorem Draft.Storable.kept {entry : Draft} (h : entry.Storable) : entry.kept = entry := by
  cases entry with
  | preset => rfl
  | activity c => exact congrArg Draft.activity (Cue.Storable.kept h)
  | trigger r =>
    have same : r.kept = r := by rw [Rule.kept, SyncPattern.kept_eq h]
    exact congrArg Draft.trigger same
  | subroutine name cues =>
    have same : cues.map Cue.kept = cues.map id := List.map_congr_left fun c mem => (h c mem).kept
    rw [Draft.kept, same, List.map_id]

namespace Markup.Attributes

variable {as : Document.Written} {key : String}

theorem number_present (distinct : (as.map Prod.fst).Nodup) {x : Option Float}
    (found : as.lookup key = some (x.map Decimal.plainText)) : (present as).number key = x := by
  rw [number, text_present distinct, found, Option.join_some]
  cases x with
  | none => rfl
  | some x => rw [Option.map_some, Option.bind_some, Decimal.read_trim_plainText]

theorem device_present (distinct : (as.map Prod.fst).Nodup) {x : Option Device}
    (found : as.lookup key = some (x.map Device.name)) : (present as).device key = x := by
  rw [device, text_present distinct, found, Option.join_some]
  cases x with
  | none => rfl
  | some x => rw [Option.map_some, Option.bind_some, Device.parse_name]

theorem pattern_present (distinct : (as.map Prod.fst).Nodup) {x : Option SyncPattern}
    (found : as.lookup key = some (x.map SyncPattern.source)) :
    (present as).pattern key = SyncPattern.kept x := by
  rw [pattern, text_present distinct, found]
  cases x with
  | none => rfl
  | some p =>
    have read : SyncPattern.ofSource p.source = p := SyncPattern.ext_source rfl
    simp only [Option.map_some, Option.join_some, SyncPattern.ofAttribute, String.isEmpty_iff, read, SyncPattern.kept,
      Option.filter_some, ne_eq, decide_not, Bool.not_eq_true', decide_eq_false_iff_not, ite_not]

end Markup.Attributes

namespace Document

open Markup.Attributes

theorem readPreset_present (p : Preset) : readPreset (present (presetAttributes p)) = p := by
  have distinct := (writable_presetAttributes p).distinct
  simp only [readPreset, text_present distinct]
  simp [presetAttributes, List.lookup_cons]

theorem readRule_present (r : Rule) : readRule (present (ruleAttributes r)) = r.kept := by
  have distinct := (writable_ruleAttributes r).distinct
  have sync : (present (ruleAttributes r)).pattern "sync" = SyncPattern.kept r.sync := pattern_present distinct rfl
  have device : (present (ruleAttributes r)).device "notice-d" = r.noticeDevice := device_present distinct rfl
  simp only [readRule, sync, device, text_present distinct]
  simp [ruleAttributes, List.lookup_cons, Rule.kept]

theorem readTime_present {c : Cue} (h : c.Timely) :
    readTime (present (cueAttributes c)) = .ok (TimeText.counted c.time) := by
  have distinct := (writable_cueAttributes c).distinct
  have written : (present (cueAttributes c)).text "time" = some (TimeText.format c.time) := by
    rw [text_present distinct]
    rfl
  simp only [readTime, written, TimeText.parse_format h]

theorem cueOf_present (c : Cue) : cueOf (present (cueAttributes c)) (TimeText.counted c.time) = c.kept := by
  have distinct := (writable_cueAttributes c).distinct
  have sync : (present (cueAttributes c)).pattern "sync" = SyncPattern.kept c.sync := pattern_present distinct rfl
  have device : (present (cueAttributes c)).device "notice-d" = c.noticeDevice := device_present distinct rfl
  have starts : (present (cueAttributes c)).number "sync-s" = c.syncStart := number_present distinct rfl
  have ends : (present (cueAttributes c)).number "sync-e" = c.syncEnd := number_present distinct rfl
  have offset : (present (cueAttributes c)).number "notice-o" = c.noticeOffset := number_present distinct rfl
  simp only [cueOf, sync, device, starts, ends, offset, text_present distinct]
  simp [cueAttributes, List.lookup_cons, Cue.kept]

theorem attributesOf_written {name : List Char} {as : Written} (h : TagName name) (writable : Writable as) :
    attributesOf (Tag.ofBody (name ++ attributeText as)) = .ok (present as) := by
  have read : readAttributes [] (attributeText as) = some ([] ++ present as) :=
    readAttributes_attributeText writable fun _ _ => rfl
  rw [List.nil_append] at read
  rw [ofBody_written h.key, attributesOf, Tag.attributes?, read]

def tagName : Draft → String
  | .preset _ => "default"
  | .activity _ => "a"
  | .trigger _ => "t"
  | .subroutine _ _ => "s"

theorem name_entryTag (entry : Draft) : String.ofList (entryTag entry).name = tagName entry := by
  have written (name : List Char) (h : TagName name) (as : Written) :
      String.ofList (Tag.ofBody (name ++ attributeText as)).name = String.ofList name := by
    rw [ofBody_written h.key]
  cases entry with
  | preset p => exact written "default".toList ⟨rfl, rfl⟩ _
  | activity c => exact written ['a'] ⟨rfl, rfl⟩ _
  | trigger r => exact written ['t'] ⟨rfl, rfl⟩ _
  | subroutine name cues => exact written ['s'] ⟨rfl, rfl⟩ _

/-- What an entry's own tag gives, unless it is a subroutine. -/
theorem readEntry_entryTag {entry : Draft} (h : entry.Timely) (leaf : ∀ name cues, entry ≠ .subroutine name cues) :
    readEntry (entryTag entry) = .ok (some entry.kept) := by
  cases entry with
  | preset p =>
    have tagged : TagName "default".toList := ⟨rfl, rfl⟩
    have attributes : attributesOf (entryTag (.preset p)) = .ok (present (presetAttributes p)) :=
      attributesOf_written tagged (writable_presetAttributes p)
    simp only [readEntry, name_entryTag, tagName, attributes, bind, Except.bind, readPreset_present]
    rfl
  | activity c =>
    have tagged : TagName ['a'] := ⟨rfl, rfl⟩
    have attributes : attributesOf (entryTag (.activity c)) = .ok (present (cueAttributes c)) :=
      attributesOf_written tagged (writable_cueAttributes c)
    simp only [readEntry, name_entryTag, tagName, attributes, bind, Except.bind, readTime_present h, cueOf_present]
    rfl
  | trigger r =>
    have tagged : TagName ['t'] := ⟨rfl, rfl⟩
    have attributes : attributesOf (entryTag (.trigger r)) = .ok (present (ruleAttributes r)) :=
      attributesOf_written tagged (writable_ruleAttributes r)
    simp only [readEntry, name_entryTag, tagName, attributes, bind, Except.bind, readRule_present]
    rfl
  | subroutine name cues => exact absurd rfl (leaf name cues)

theorem routineName_entryTag (name : Option String) (cues : List Cue) :
    routineName (entryTag (.subroutine name cues)) = .ok name := by
  have attributes : attributesOf (entryTag (.subroutine name cues)) = .ok (present [("name", name)]) :=
    attributesOf_written (show TagName ['s'] from ⟨rfl, rfl⟩) (writable_name name)
  have text : (present [("name", name)]).text "name" = name := by
    rw [text_present (writable_name name).distinct]
    rfl
  simp only [routineName, attributes, bind, Except.bind, text]
  rfl

variable {d : Document}

theorem fold_cons {es : List Event} {e : Event} {r s : Reader} (h : r.step e = .ok s) :
    (e :: es).foldlM Reader.step r = es.foldlM Reader.step s := by
  rw [List.foldlM_cons, h]
  rfl

theorem fold_append {es fs : List Event} {r s : Reader} (h : es.foldlM Reader.step r = .ok s) :
    (es ++ fs).foldlM Reader.step r = fs.foldlM Reader.step s := by
  rw [List.foldlM_append, h]
  rfl

/-- What is written of a text is read without the blanks at its ends. -/
theorem fold_textEvents (f : Field) (value : List Char) :
    (textEvents (Text.trimBoth isSpace (escape value))).foldlM Reader.step ⟨.field f [], d⟩ =
      .ok ⟨.field f (Text.trimBoth isSpace value), d⟩ := by
  rw [trimBoth_escape]
  cases h : Text.trimBoth isSpace value with
  | nil => rfl
  | cons c cs =>
    have filled : (escape (c :: cs)).isEmpty = false := by
      cases empty : (escape (c :: cs)).isEmpty with
      | false => rfl
      | true =>
        have unescaped := unescape_escape (c :: cs)
        rw [List.isEmpty_iff.mp empty] at unescaped
        cases unescaped
    have step : Reader.step ⟨.field f [], d⟩ (.text (escape (c :: cs))) = .ok ⟨.field f (c :: cs), d⟩ := by
      simp only [Reader.step, Reader.stepField, unescape_escape]
      rfl
    rw [textEvents, if_neg (by simp [filled]), fold_cons step]
    rfl

/-- In the root the events of a field store its text. -/
theorem fold_fieldEvents {f : Field} {value : String} {e : Document}
    (stores : setField d f (Text.trimBoth isSpace value.toList) = .ok e) :
    (fieldEvents f.tag value).foldlM Reader.step ⟨.root, d⟩ = .ok ⟨.root, e⟩ := by
  have tag : Field.ofTag? f.tag = some f := by cases f <;> decide
  have enters : Reader.step ⟨.root, d⟩ (.enter ⟨f.tag.toList, []⟩) = .ok ⟨.field f [], d⟩ := by
    simp only [Reader.step, Reader.stepRoot, String.ofList_toList, tag]
    rfl
  have leaves : Reader.step ⟨.field f (Text.trimBoth isSpace value.toList), d⟩ (.leave f.tag.toList) =
      .ok ⟨.root, e⟩ := by
    simp only [Reader.step, Reader.stepField, String.ofList_toList, beq_self_eq_true, if_true, stores]
    rfl
  rw [fieldEvents, List.cons_append, fold_cons enters, fold_append (fold_textEvents f value.toList), fold_cons leaves]
  rfl

/-- In the root a single tag adds what it says, unless it is a subroutine's. -/
theorem step_single {tag : Tag} {entry : Option Draft} (other : String.ofList tag.name ≠ "s")
    (read : readEntry tag = .ok entry) : Reader.step ⟨.root, d⟩ (.single tag) = .ok ⟨.root, addEntry d entry⟩ := by
  simp only [Reader.step, Reader.stepRoot, beq_false_of_ne other, Bool.false_eq_true, if_false, read, bind, Except.bind]
  rfl

theorem fold_leaf {entry : Draft} (h : entry.Timely) (leaf : ∀ name cues, entry ≠ .subroutine name cues)
    (other : String.ofList (entryTag entry).name ≠ "s") :
    [Event.single (entryTag entry)].foldlM Reader.step ⟨.root, d⟩ = .ok ⟨.root, d.push entry.kept⟩ := by
  rw [fold_cons (step_single other (readEntry_entryTag h leaf))]
  rfl

theorem fold_statements {cues : List Cue} (h : ∀ c ∈ cues, c.Timely) (s : OpenRoutine) :
    (cues.map fun c => Event.single (entryTag (.activity c))).foldlM Reader.step ⟨.routine s, d⟩ =
      .ok ⟨.routine { s with cues := s.cues ++ cues.map Cue.kept }, d⟩ := by
  -- Each statement is appended to those of the open subroutine, whatever these are.
  induction cues generalizing s with
  | nil => simp; rfl
  | cons c cues ih =>
    obtain ⟨own, others⟩ := List.forall_mem_cons.mp h
    have timely : (Draft.activity c).Timely := own
    have read : readEntry (entryTag (.activity c)) = .ok (some (.activity c.kept)) :=
      readEntry_entryTag timely (by simp)
    have step : Reader.step ⟨.routine s, d⟩ (.single (entryTag (.activity c))) =
        .ok ⟨.routine { s with cues := s.cues ++ [c.kept] }, d⟩ := by
      simp only [Reader.step, Reader.stepRoutine, read, bind, Except.bind]
      rfl
    rw [List.map_cons, fold_cons step, ih others]
    simp

theorem fold_entryEvents {entry : Draft} (h : entry.Timely) :
    (entryEvents entry).foldlM Reader.step ⟨.root, d⟩ = .ok ⟨.root, d.push entry.kept⟩ := by
  cases entry with
  | preset | activity | trigger => exact fold_leaf h (by simp) (by simp [name_entryTag, tagName])
  | subroutine name cues =>
    have enters : Reader.step ⟨.root, d⟩ (.enter (entryTag (.subroutine name cues))) = .ok ⟨.routine ⟨name, []⟩, d⟩ := by
      have field : Field.ofTag? "s" = none := by decide
      simp only [Reader.step, Reader.stepRoot, name_entryTag, tagName, field, routineName_entryTag, bind, Except.bind]
      rfl
    have leaves : Reader.step ⟨.routine ⟨name, [] ++ cues.map Cue.kept⟩, d⟩ (.leave ['s']) =
        .ok ⟨.root, d.push (.subroutine name (cues.map Cue.kept))⟩ := rfl
    rw [entryEvents, List.cons_append, fold_cons enters, fold_append (fold_statements h _), fold_cons leaves]
    rfl

theorem fold_entries {entries : List Draft} (h : ∀ entry ∈ entries, entry.Timely) (d : Document) :
    (entries.flatMap entryEvents).foldlM Reader.step ⟨.root, d⟩ =
      .ok ⟨.root, { d with entries := d.entries ++ entries.map Draft.kept }⟩ := by
  induction entries generalizing d with
  | nil => simp; rfl
  | cons entry entries ih =>
    obtain ⟨own, others⟩ := List.forall_mem_cons.mp h
    rw [List.flatMap_cons, fold_append (fold_entryEvents own), ih others]
    simp [push]

def stripped (value : String) : String := String.ofList (Text.trimBoth isSpace value.toList)

/-- What comes back of a document: everything but the blanks at the ends of its name and its zone. -/
def restored (d : Document) : Document := { d with name := stripped d.name, zone := stripped d.zone }

def kept (d : Document) : Document := { d.restored with entries := d.entries.map Draft.kept }

theorem Storable.timely (h : d.Storable) : d.Timely := fun entry mem => (h entry mem).timely

theorem Storable.kept (h : d.Storable) : d.kept = d.restored := by
  have same : d.entries.map Draft.kept = d.entries.map id := List.map_congr_left fun entry mem => (h entry mem).kept
  rw [Document.kept, same, List.map_id]
  rfl

theorem fold_writtenEvents (h : d.Timely) :
    (writtenEvents d).foldlM Reader.step {} = .ok ⟨.finished, d.kept⟩ := by
  have name : (fieldEvents "name" d.name).foldlM Reader.step ⟨.root, {}⟩ =
      .ok ⟨.root, { name := stripped d.name }⟩ := fold_fieldEvents (f := .name) rfl
  have zone : (fieldEvents "zone" d.zone).foldlM Reader.step ⟨.root, { name := stripped d.name }⟩ =
      .ok ⟨.root, { name := stripped d.name, zone := stripped d.zone }⟩ := fold_fieldEvents (f := .zone) rfl
  have locale : (fieldEvents "locale" d.locale.name).foldlM Reader.step
      ⟨.root, { name := stripped d.name, zone := stripped d.zone }⟩ =
        .ok ⟨.root, { name := stripped d.name, zone := stripped d.zone, locale := d.locale }⟩ := by
    refine fold_fieldEvents (f := .locale) ?_
    cases d.locale <;> rfl
  have opens : Reader.step {} (.enter ⟨rootName, []⟩) = .ok ⟨.root, {}⟩ := rfl
  have leaves (e : Document) : Reader.step ⟨.root, e⟩ (.leave rootName) = .ok ⟨.finished, e⟩ := rfl
  rw [writtenEvents]
  simp only [List.cons_append, List.append_assoc]
  rw [fold_cons opens, fold_append name, fold_append zone, fold_append locale, fold_append (fold_entries h _),
    fold_cons (leaves _)]
  rfl

/-- Blanks may follow the document. -/
theorem read_render_kept (h : d.Timely) {after : List Char} (blank : ∀ c ∈ after, isSpace c = true) :
    read (String.ofList (render d ++ after)) = .ok d.kept := by
  rw [read, String.toList_ofList, events_render d blank, ofEvents, fold_writtenEvents h]
  rfl

theorem read_print_kept (h : d.Timely) : read (print d) = .ok d.kept := by
  rw [print, ← List.append_nil (render d)]
  exact read_render_kept h (by simp)

theorem read_render (h : d.Storable) {after : List Char} (blank : ∀ c ∈ after, isSpace c = true) :
    read (String.ofList (render d ++ after)) = .ok d.restored := by
  rw [read_render_kept h.timely blank, h.kept]

theorem read_print (h : d.Storable) : read (print d) = .ok d.restored := by rw [read_print_kept h.timely, h.kept]

end Document

end EncounterTimeline
