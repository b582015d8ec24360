import EncounterTimeline.Proofs.Document.Header
import EncounterTimeline.Proofs.Playback.Offsets

/-! # Offsets of a file

An offset is what the text of its attribute is read to. A decimal gives the nearest double and any other text gives none. But
the names of the infinities and of no number are read too, and so are decimals out of the range of doubles, and what is read of
them is kept.
-/
namespace EncounterTimeline

open Markup Decimal
open Document (Written attributeText)

/-- The offsets of an activity: where a line moves the clock to, how long the activity stays after that, and how early its
notice is given. -/
inductive Offset where
  | start | grace | notice
  deriving DecidableEq, Repr

def Offset.key : Offset → String
  | start => "sync-s"
  | grace => "sync-e"
  | notice => "notice-o"

def Cue.offset (c : Cue) : Offset → Option Float
  | .start => c.syncStart
  | .grace => c.syncEnd
  | .notice => c.noticeOffset

def Markup.Attributes.Gives (as : Attributes) (o : Offset) (kind : List Char → Prop) : Prop :=
  ∃ s, as.text o.key = some s ∧ kind (Text.trim s).toList

structure Cue.OffsetsFrom (as : Attributes) (c : Cue) : Prop where
  absent : ∀ o : Offset, as.text o.key = none → c.offset o = none
  read : ∀ (o : Offset) (s : String), as.text o.key = some s → Reads (Text.trim s).toList (c.offset o)
  finite : ∀ o : Offset, (∀ x ∈ c.offset o, x.isFinite = true) ↔ ¬ as.Gives o Boundless
  due : ∀ a : Activity, a.cue = c → (a.NeverDue ↔ a.latches.synced = true ∧ as.Gives .grace (Infinite false))
  noticed : c.AlwaysNoticed ↔ as.Gives .notice fun cs => Infinite false cs ∨ word cs = "nan"

section Attributes

variable {as : Attributes} {time : Duration} {o : Offset}

theorem offset_cueOf (as : Attributes) (time : Duration) (o : Offset) :
    (Document.cueOf as time).offset o = (as.text o.key).bind fun s => Decimal.read (Text.trim s) := by cases o <;> rfl

/-- A property of what is read is a property of the text. -/
theorem gives_iff {P : Option Float → Prop} {kind : List Char → Prop} (none : ¬ P none)
    (some : ∀ {cs x}, Reads cs x → (P x ↔ kind cs)) : P ((Document.cueOf as time).offset o) ↔ as.Gives o kind := by
  rw [offset_cueOf, Attributes.Gives]
  cases as.text o.key with
  | none => exact iff_of_false none (by simp)
  | some s => simp [some (reads (Text.trim s))]

theorem offsetsFrom_cueOf (as : Attributes) (fits : time.Fits) : (Document.cueOf as time).OffsetsFrom as where
  absent o absent := by rw [offset_cueOf, absent, Option.bind_none]
  read o s there := by
    rw [offset_cueOf, there]
    exact reads _
  finite o := by
    rw [← gives_iff (P := fun x => ¬ ∀ y ∈ x, y.isFinite = true) (by simp) fun read => by rw [read.isFinite_iff, not_not],
      not_not]
  due a same := by
    have fits' : a.cue.time.Fits := same ▸ fits
    have grace : a.cue.syncEnd = some (infinity false) ↔ as.Gives .grace (Infinite false) := by
      rw [same]
      exact gives_iff (o := .grace) (P := (· = some (infinity false))) nofun Reads.eq_infinity_iff
    rw [Activity.neverDue_iff fits', grace]
  noticed := by
    rw [Cue.alwaysNoticed_iff]
    refine gives_iff (o := .notice) (P := fun x => ∃ y ∈ x, y.isNaN = true ∨ y = infinity false) (by simp)
      fun {cs x} read => ?_
    rw [← read.isNaN_iff, ← read.eq_infinity_iff]
    constructor
    · rintro ⟨y, rfl, nan | rfl⟩
      · exact .inr ⟨y, rfl, nan⟩
      · exact .inl rfl
    · rintro (rfl | ⟨y, rfl, nan⟩)
      · exact ⟨_, rfl, .inr rfl⟩
      · exact ⟨y, rfl, .inl nan⟩

end Attributes

namespace Definition

variable {d : Definition} {text : String}

theorem ReadFrom.timed (h : d.ReadFrom text) : d.Timed := by
  have each : d.document.Each Draft.Storable := Document.each_of_ofText h.ofText fun _ _ _ => Document.storable_of_readEntry
  intro a mem
  obtain ⟨n, le, time⟩ := (cue_of_each each a mem : a.cue.Storable).time
  have bound : n ≤ 2 ^ 64 - 1 := le
  rw [time]
  show n * 1000000 / 1000000000 < 18446744073709551616
  omega

/-- Every activity comes from a tag of the text. -/
theorem ReadFrom.origin (h : d.ReadFrom text) : ∀ a ∈ d.activities, ∃ tag ∈ tags text, ∃ as time,
    String.ofList tag.name = "a" ∧ Document.attributesOf tag = .ok as ∧ Document.readTime as = .ok time ∧
      a.cue = Document.cueOf as time := by
  have each : d.document.Each fun x => ∃ tag ∈ tags text, Document.readEntry tag = .ok (some x) :=
    Document.each_of_ofText h.ofText fun tag mem x read => ⟨tag, mem, read⟩
  intro a mem
  obtain ⟨tag, there, read⟩ := cue_of_each each a mem
  rcases Document.readEntry_cases read with none | ⟨as, attributes, preset | trigger | ⟨name, time, timed, activity⟩⟩
  · cases none
  · cases preset
  · cases trigger
  · exact ⟨tag, there, as, time, name, attributes, timed, Draft.activity.inj (Option.some.inj activity)⟩

/-- The offsets of a definition that was read are what the attributes of its tags say. They are finite but where a text names
an infinity or no number or is a decimal out of range. Such a grace may keep an activity from ever being due, and such a notice
be given at any distance. In every run a line moves the clock to where the activity that it synchronises is due, shifted by the
offset of its start; if no double is there, the clock goes back to zero. -/
theorem offsets_of_text (h : d.ReadFrom text) :
    (∀ a ∈ d.activities, ∃ tag ∈ tags text, ∃ as time, String.ofList tag.name = "a" ∧ Document.attributesOf tag = .ok as ∧
      Document.readTime as = .ok time ∧ a.cue = Document.cueOf as time ∧ a.cue.OffsetsFrom as) ∧
    ∀ p s line host f m, Scene.Reached p d ⟨.rest, s⟩ → s.cursor.frame = some f →
      s.definition.findSync f p.visible line = some m → ∃ a ∈ d.activities, a.cue = m.activity.cue ∧
        let moment := a.cue.effectiveTime f.base
        let offset := (a.cue.offset .start).getD 0.0
        let clock := (s.synchronize p line host).2.clock
        moment.isFinite = true ∧
          (Shifts moment offset → clock = moment + offset ∧ Closest clock (valueOf moment + valueOf offset)) ∧
          (¬ Shifts moment offset → clock = 0.0) := by
  refine ⟨fun a mem => ?_, fun p s line host f m reached hf hm => ?_⟩
  · obtain ⟨tag, there, as, time, name, attributes, timed, written⟩ := h.origin a mem
    have fits := h.timed a mem
    rw [written] at fits ⊢
    exact ⟨tag, there, as, time, name, attributes, timed, rfl, offsetsFrom_cueOf as fits⟩
  · obtain ⟨a, mem, same, finite, moved⟩ := Session.clock_synchronize h.timed reached hf hm host
    refine ⟨a, mem, same, finite, ?_⟩
    rw [moved]
    exact Clock.settle_add finite

def phasedCue : Cue :=
  { time := ⟨20000000000⟩, sync := some (.ofSource "(?-i)Phase"), syncStart := some 1.5, syncEnd := some 3.0 }

def phased : Document := { entries := [.activity phasedCue] }

theorem offsets_of_text_phased : (phased.workbench 0).definition.ReadFrom phased.print ∧
    ∃ s f m, Scene.Reached ({} : Settings).pace (phased.workbench 0).definition ⟨.rest, s⟩ ∧ s.cursor.frame = some f ∧
      s.definition.findSync f ({} : Settings).pace.visible "Phase 2" = some m ∧
      (s.synchronize ({} : Settings).pace "Phase 2" ⟨7⟩).2.clock = 21.5 := by
  have storable : phased.Storable := by
    refine List.forall_mem_singleton.mpr (show Cue.Storable _ from ⟨⟨20000, by decide, rfl⟩, ?_⟩)
    rintro _ ⟨⟩
    decide
  have read : (phased.workbench 0).definition.ReadFrom phased.print := ⟨_, 0, Document.ofText_print storable, rfl⟩
  let s := Session.start { definition := (phased.workbench 0).definition } ({} : Settings).pace .zero
  have hf : s.cursor.frame = some .start := rfl
  have found : (s.definition.findSync .start ({} : Settings).pace.visible "Phase 2").isSome = true := by decide +kernel
  obtain ⟨m, hm⟩ := Option.isSome_iff_exists.mp found
  have reached : Scene.Reached ({} : Settings).pace (phased.workbench 0).definition ⟨.rest, s⟩ := .start _ _ rfl
  obtain ⟨a, mem, same, finite, shifted, -⟩ := (offsets_of_text read).2 _ s "Phase 2" ⟨7⟩ _ m reached hf hm
  have only : a = { id := 0, cue := phasedCue } := List.mem_singleton.mp mem
  subst only
  have shifts : Shifts (phasedCue.effectiveTime 0.0) 1.5 := (isFinite_add_iff finite).mp (by decide +kernel)
  have sum : phasedCue.effectiveTime 0.0 + 1.5 = 21.5 := by decide +kernel
  exact ⟨read, s, _, m, reached, hf, hm, (shifted shifts).1.trans sum⟩

def unbounded : Written := [("sync-s", some "inf"), ("sync-e", some "inf"), ("notice-o", some "nan")]

theorem ofText_unbounded :
    Document.ofText "<timeline><a sync-s=\"inf\" sync-e=\"inf\" notice-o=\"nan\"/></timeline>" =
      .ok { entries := [.activity (Document.cueOf (present unbounded) .zero)] } := by
  have cut : lexemes (dropMark "<timeline><a sync-s=\"inf\" sync-e=\"inf\" notice-o=\"nan\"/></timeline>".toList) =
      [.openTag "timeline".toList, .emptyTag (['a'] ++ attributeText unbounded), .closeTag "timeline".toList] :=
    lexemes_cons rfl (lexemes_cons rfl (lexemes_cons rfl lexemes_nil))
  have shown : events "<timeline><a sync-s=\"inf\" sync-e=\"inf\" notice-o=\"nan\"/></timeline>".toList =
      [.enter ⟨"timeline".toList, []⟩, .single (Tag.ofBody (['a'] ++ attributeText unbounded)),
        .leave "timeline".toList] := by
    rw [events, cut]
    rfl
  have tagged : Document.TagName ['a'] := ⟨rfl, rfl⟩
  have writable : Writable unbounded := ⟨by decide, by decide⟩
  have name : (Tag.ofBody (['a'] ++ attributeText unbounded)).name = ['a'] :=
    congrArg Tag.name (Document.ofBody_written tagged.key unbounded)
  have read : Document.readEntry (Tag.ofBody (['a'] ++ attributeText unbounded)) =
      .ok (some (.activity (Document.cueOf (present unbounded) .zero))) := by
    have untimed : (present unbounded).text "time" = none := text_present writable.distinct "time"
    simp only [Document.readEntry, name, Document.attributesOf_written tagged writable, bind, Except.bind,
      Document.readTime, untimed]
    rfl
  have enters : Document.Reader.step {} (.enter ⟨"timeline".toList, []⟩) = .ok ⟨.root, {}⟩ := rfl
  have adds := Document.step_single (d := {}) (by rw [name]; decide) read
  rw [Document.ofText, Document.read, shown, Document.ofEvents, Document.fold_cons enters, Document.fold_cons adds]
  rfl

/-- The infinities and no number are read as offsets. That of the start is not finite, the activity stays for ever once a line
synchronised it, and its notice is given from the start. -/
theorem exists_offsets_boundless : ∃ d : Definition,
    d.ReadFrom "<timeline><a sync-s=\"inf\" sync-e=\"inf\" notice-o=\"nan\"/></timeline>" ∧ ∃ a ∈ d.activities,
      (∃ x ∈ a.cue.offset .start, x.isFinite = false) ∧ a.latchSync.NeverDue ∧ a.cue.AlwaysNoticed := by
  have writable : Writable unbounded := ⟨by decide, by decide⟩
  have gives {o : Offset} {s : String} {kind : List Char → Prop} (text : (unbounded.lookup o.key).join = some s)
      (h : kind (Text.trim s).toList) : (present unbounded).Gives o kind :=
    ⟨s, (text_present writable.distinct o.key).trans text, h⟩
  have infinite : Infinite false (Text.trim "inf").toList := ⟨rfl, .inl (by decide)⟩
  have fits : Duration.zero.Fits := show 0 / 1000000000 < UInt64.size by decide
  have offsets := offsetsFrom_cueOf (present unbounded) fits
  let a : Activity := { id := 0, cue := Document.cueOf (present unbounded) .zero }
  refine ⟨_, ⟨_, 0, ofText_unbounded, rfl⟩, a, List.mem_singleton.mpr rfl, ?_, ?_, ?_⟩
  · have broken := mt (offsets.finite .start).mp (not_not.mpr (gives rfl (.inl ⟨false, infinite⟩)))
    simpa using broken
  · exact (offsets.due a.latchSync rfl).mpr ⟨rfl, gives (o := .grace) rfl infinite⟩
  · exact offsets.noticed.mpr (gives (o := .notice) rfl (.inr (by decide)))

end Definition

end EncounterTimeline
