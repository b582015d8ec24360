import EncounterTimeline.Document.File
import EncounterTimeline.Proofs.Document.RoundTrip
import EncounterTimeline.Proofs.Storage
import EncounterTimeline.Proofs.Text.Utf8
import EncounterTimeline.Proofs.Timeline.Editing

/-! # Definitions come back

The document of a definition, read from its text or from the file it was saved to, describes the elements of the definition
again, in order and as they are before any run. Whether it can be saved is up to storage alone.
-/
namespace EncounterTimeline

namespace Document

variable {d : Document} {s t : Storage} {path : String}

theorem ofText_print (h : d.Storable) : ofText (print d) = .ok d.restored := by rw [ofText, read_print h]

/-- The first byte of a file is that of `<`. -/
theorem fileBytes_cons (d : Document) : ∃ more, d.fileBytes = 0x3C :: more := by
  have first : declaration = '<' :: "?xml version=\"1.0\" encoding=\"utf-8\"?>".toList := rfl
  have byte : String.utf8EncodeChar '<' = [0x3C] := by decide
  simp only [fileBytes, Text.encode, render, first, List.cons_append, List.flatMap_cons, byte]
  exact ⟨_, rfl⟩

theorem ofBytes_fileBytes (h : d.Storable) (path : String) : ofBytes path d.fileBytes = .ok d.restored := by
  have unmarked : Text.stripMark d.fileBytes = d.fileBytes := by
    obtain ⟨more, bytes⟩ := fileBytes_cons d
    rw [bytes]
    rfl
  have text : Text.decode d.fileBytes = .ok (render d ++ ['\n']) := Text.decode_encode _
  have feed : ∀ c ∈ ['\n'], Markup.isSpace c = true := List.forall_mem_singleton.mpr rfl
  simp only [ofBytes, unmarked, text, read_render h feed]

theorem save_cases (s : Storage) (path : String) (d : Document) :
    (∃ fault, (save s path d).1 = .error fault) ∨
      ∃ u t, s.createDirectories (Route.parentPath path) = .ok u ∧ u.write path d.fileBytes = .ok t ∧
        save s path d = (.ok (), t) := by
  generalize result : save s path d = r
  simp only [save] at result
  split at result
  · exact .inl ⟨_, by rw [← result]⟩
  · rename_i u created
    split at result
    · exact .inl ⟨_, by rw [← result]⟩
    · rename_i t written
      exact .inr ⟨u, t, created, written, result.symm⟩

theorem load_of_save (h : d.Storable) (saved : save s path d = (.ok (), t)) :
    load t path = .ok (some d.restored) := by
  rcases save_cases s path d with ⟨fault, failed⟩ | ⟨u, t', -, written, result⟩
  · rw [saved] at failed
    cases failed
  · cases saved.symm.trans result
    obtain ⟨more, bytes⟩ := fileBytes_cons d
    have loaded := ofBytes_fileBytes h path
    rw [bytes] at loaded
    rw [load, Storage.read_of_write written, bytes]
    simp only [loaded]
    rfl

/-- A save succeeds where storage accepts a file, whatever the document. -/
theorem save_ok_iff : (save s path d).1 = .ok () ↔ s.Accepts path := by
  constructor
  · intro ok
    rcases save_cases s path d with ⟨fault, failed⟩ | ⟨u, t, created, written, -⟩
    · rw [failed] at ok
      cases ok
    · obtain ⟨x, old, found, here, -⟩ := Storage.update_eq_ok written
      refine ⟨u, created, fun blocked => ?_⟩
      cases found.symm.trans blocked
      rcases here with here | ⟨here, -⟩ <;> cases here
  · rintro ⟨u, created, free⟩
    have found := Storage.find_of_createDirectories created
    have vacant : u.entryAt (Route.ofPath path) ≠ some .directory :=
      fun blocked => free (found.trans (congrArg Except.ok blocked))
    obtain ⟨t, written⟩ := Storage.write_of_find found vacant d.fileBytes
    simp only [save, created, written]

end Document

structure Activity.Unplayed (a : Activity) : Prop where
  seq : a.seq = 0
  remaining : a.remaining = 0.0
  progress : a.progress = 0.0
  latches : a.latches = {}

structure Element.Unplayed (e : Element) : Prop where
  activities : ∀ a ∈ e.activities, a.Unplayed
  triggers : ∀ t ∈ e.asTrigger, t.fired = 0

theorem Draft.cue_activities (first : ElementId) (cues : List Cue) :
    (Draft.activities first cues).map Activity.cue = cues := by
  induction cues generalizing first with
  | nil => rfl
  | cons c cues ih => rw [Draft.activities, List.map_cons, ih]

theorem Draft.draft_element (first : ElementId) (entry : Draft) : (entry.element first).draft = entry := by
  cases entry with
  | preset | activity | trigger => rfl
  | subroutine name cues => rw [Draft.element, Element.draft, Draft.cue_activities]

theorem Draft.unplayed_activities (first : ElementId) (cues : List Cue) :
    ∀ a ∈ Draft.activities first cues, a.Unplayed := by
  induction cues generalizing first with
  | nil => simp [Draft.activities]
  | cons c cues ih => exact List.forall_mem_cons.mpr ⟨⟨rfl, rfl, rfl, rfl⟩, ih _⟩

theorem Draft.unplayed_element (first : ElementId) (entry : Draft) : (entry.element first).Unplayed := by
  cases entry with
  | preset p => exact { activities := by simp [Draft.element, Element.activities], triggers := by rintro _ ⟨⟩ }
  | activity c =>
    exact
      { activities := List.forall_mem_singleton.mpr ⟨rfl, rfl, rfl, rfl⟩
        triggers := by rintro _ ⟨⟩ }
  | trigger r =>
    exact { activities := by simp [Draft.element, Element.activities], triggers := by rintro _ ⟨⟩; rfl }
  | subroutine name cues =>
    exact { activities := unplayed_activities _ cues, triggers := by rintro _ ⟨⟩ }

theorem Element.unplayed_numberActivities {l : List Activity} (h : ∀ a ∈ l, a.Unplayed) (first : ElementId) :
    ∀ a ∈ numberActivities first l, a.Unplayed := by
  induction l generalizing first with
  | nil => simp [numberActivities]
  | cons a l ih =>
    obtain ⟨own, others⟩ := List.forall_mem_cons.mp h
    exact List.forall_mem_cons.mpr ⟨{ own with }, ih others _⟩

theorem Element.Unplayed.withIds {e : Element} (h : e.Unplayed) (first : ElementId) : (e.withIds first).Unplayed := by
  cases e with
  | preset => exact { h with }
  | activity a =>
    have own := h.activities a (List.mem_singleton.mpr rfl)
    exact { activities := List.forall_mem_singleton.mpr { own with }, triggers := h.triggers }
  | trigger t =>
    have own := h.triggers t rfl
    exact { activities := h.activities, triggers := by rintro _ ⟨⟩; exact own }
  | subroutine s =>
    exact { activities := unplayed_numberActivities h.activities _, triggers := by rintro _ ⟨⟩ }

namespace Workbench

theorem unplayed_admitted (w : Workbench) {e : Element} (h : e.Unplayed) : (w.admitted e).1.Unplayed := by
  unfold admitted
  split
  · exact h.withIds _
  · exact h

/-- A draft that is built and added becomes the last element of the definition. -/
theorem add_build (w : Workbench) (entry : Draft) : ∃ e, e.draft = entry ∧ e.Unplayed ∧
    ((w.build entry).2.add (w.build entry).1).2.definition = { w.definition with
      elements := w.definition.elements ++ [e], ownership := w.definition.ownership.enter e } := by
  refine ⟨((w.build entry).2.admitted (w.build entry).1).1, ?_, ?_, ?_⟩
  · exact (draft_admitted _ _).trans (Draft.draft_element w.nextId entry)
  · exact unplayed_admitted _ (Draft.unplayed_element w.nextId entry)
  · rw [add, insert_eq, Nat.min_self, List.insertIdx_length_self]
    rfl

/-- Only the elements and the table of owners change. -/
theorem addDrafts_spec (w : Workbench) (entries : List Draft) :
    ∃ new o, new.map Element.draft = entries ∧ (∀ e ∈ new, e.Unplayed) ∧ (w.addDrafts entries).definition =
      { w.definition with elements := w.definition.elements ++ new, ownership := o } := by
  -- Every draft that is added takes identities, so the workbench is another one for the next.
  induction entries generalizing w with
  | nil => exact ⟨[], w.definition.ownership, rfl, by simp, by rw [List.append_nil]; rfl⟩
  | cons entry entries ih =>
    obtain ⟨e, own, unplayed, added⟩ := add_build w entry
    obtain ⟨new, o, others, fresh, rest⟩ := ih ((w.build entry).2.add (w.build entry).1).2
    have unfolded : w.addDrafts (entry :: entries) =
        ((w.build entry).2.add (w.build entry).1).2.addDrafts entries := rfl
    refine ⟨e :: new, o, by rw [List.map_cons, own, others], List.forall_mem_cons.mpr ⟨unplayed, fresh⟩, ?_⟩
    rw [unfolded, rest, added]
    simp

end Workbench

/-- The definition has the locale and the elements of another, and nothing of it was played. -/
structure Definition.Restores (e d : Definition) : Prop where
  locale : e.locale = d.locale
  elements : e.elements.map Element.draft = d.elements.map Element.draft
  inactive : e.isActive = false
  unplayed : ∀ x ∈ e.elements, x.Unplayed

theorem Document.restores_workbench {doc : Document} {d : Definition} (locale : doc.locale = d.locale)
    (entries : doc.entries = d.elements.map Element.draft) (first : ElementId) :
    (doc.workbench first).definition.Restores d := by
  obtain ⟨new, o, drafts, unplayed, built⟩ := Workbench.addDrafts_spec
    { definition := { name := doc.name, zone := doc.zone, locale := doc.locale }, nextId := first } doc.entries
  rw [workbench, built]
  exact { locale, elements := by simpa using drafts.trans entries, inactive := rfl, unplayed }

/-- A definition can be written, what was written is read without a fault, and from whatever identity on it is described,
the elements are those that were written, in order and before any run. It is the same through a file, and a file can be
saved wherever storage accepts one. -/
theorem Definition.restored_from_document {d : Definition} (h : d.document.Storable) :
    ∃ doc, Document.ofText d.document.print = .ok doc ∧ (∀ first, (doc.workbench first).definition.Restores d) ∧
      ∀ (s : Storage) path, (s.Accepts path → (Document.save s path d.document).1 = .ok ()) ∧
        ∀ t, Document.save s path d.document = (.ok (), t) → Document.load t path = .ok (some doc) := by
  refine ⟨_, Document.ofText_print h, Document.restores_workbench rfl rfl, fun s path => ?_⟩
  exact ⟨Document.save_ok_iff.mpr, fun t saved => Document.load_of_save h saved⟩

def Definition.sundries : Definition where
  name := "Ruins"
  locale := .fr
  isActive := true
  elements :=
    [.preset 0 { name := some "", value := some "\"1 < 2\" & '2 > 1'" },
      .activity { id := 1, seq := 4, latches := { active := true }, cue :=
        { name := some "\tPull\n", time := .ofMillis 61005, text := some "", sync := some (.ofSource "Engage!|<wipe>"),
          syncStart := some (0.0 / 0.0), syncEnd := some (1.0 / 0.0), noticeOffset := some (-0.0),
          noticeDevice := some .sub } },
      .trigger { id := 2, rule := { sync := some (.ofSource "enrage"), call := some "Loop" }, fired := 7 },
      .subroutine { id := 3, name := some "Loop", statements := [{ id := 4, cue := { style := some "&amp;" } }] },
      .subroutine { id := 5, name := none }]

/-- Such a definition comes back through a file in a directory that has to be created. -/
theorem Definition.restored_from_document_sundries : Definition.sundries.document.Storable ∧
    ∃ doc t, (doc.workbench 8).definition.Restores Definition.sundries ∧
      Document.save {} "timelines/ruins.xml" Definition.sundries.document = (.ok (), t) ∧
      Document.load t "timelines/ruins.xml" = .ok (some doc) := by
  have storable : Definition.sundries.document.Storable := by
    have pull : ∀ p ∈ some (SyncPattern.ofSource "Engage!|<wipe>"), p.source ≠ "" := by
      rintro _ ⟨⟩
      decide
    have enrage : ∀ p ∈ some (SyncPattern.ofSource "enrage"), p.source ≠ "" := by
      rintro _ ⟨⟩
      decide
    have looped : Cue.Storable { style := some "&amp;" } :=
      { time := ⟨0, Nat.zero_le _, rfl⟩, sync := by rintro _ ⟨⟩ }
    simp only [Document.Storable, Definition.document, Definition.sundries, List.map_cons, List.map_nil,
      List.forall_mem_cons, Element.draft, Draft.Storable]
    exact ⟨trivial, { time := ⟨61005, by decide, rfl⟩, sync := pull }, enrage, ⟨looped, by simp⟩, by simp, by simp⟩
  obtain ⟨doc, -, restores, file⟩ := Definition.restored_from_document storable
  have accepted : Storage.Accepts {} "timelines/ruins.xml" := by
    refine ⟨{ entries := [(["timelines"], .directory)] }, ?_, ?_⟩
    · decide
    · decide
  obtain ⟨saves, loads⟩ := file {} "timelines/ruins.xml"
  cases result : Document.save {} "timelines/ruins.xml" Definition.sundries.document with
  | mk answer t =>
    have ok := saves accepted
    rw [result] at ok
    cases ok
    exact ⟨storable, doc, t, restores 8, rfl, loads t result⟩

end EncounterTimeline
