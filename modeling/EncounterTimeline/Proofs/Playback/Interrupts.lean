import EncounterTimeline.Proofs.Playback.Unresolved
import EncounterTimeline.Proofs.Timeline.Naming

/-! # Triggers whose jumps are listed

The jump of a trigger is listed if it lands nowhere from the root, and it is followed from wherever the cursor stands. A
listed call leads nowhere from there either. A listed goto does, unless the cursor stands in a subroutine with a statement
of that name.
-/
namespace EncounterTimeline

namespace Definition

variable {d : Definition} {origin : Scope} {j : Jump} {dest : Destination}

/-- The jump is a goto out of a subroutine that has a statement of its name. -/
def HasInside (d : Definition) (origin : Scope) (j : Jump) : Prop :=
  j.isCall = false ∧ origin ≠ .root ∧ ∃ i, d.Bears j.name (.statement origin i)

/-- What lands nowhere from the root lands in its own subroutine or nowhere. -/
theorem resolve_eq_some_iff_of_root (lost : d.resolve .root j = none) : d.resolve origin j = some dest ↔
    j.isCall = false ∧ origin ≠ .root ∧
      ∃ i, dest = .statement origin i ∧ IsLeast {n | d.Bears j.name (.statement origin n)} i := by
  cases j with
  | call name =>
    have same : d.resolve origin (.call name) = d.resolve .root (.call name) := rfl
    simp [same, lost, Jump.isCall]
  | goto name =>
    have outside : d.rootLanding? name = none := lost
    rw [resolve, outside, Option.or_none, localLanding?_eq_some_iff]
    constructor
    · rintro ⟨k, i, rfl, rfl, least⟩
      exact ⟨rfl, Scope.noConfusion, i, rfl, least⟩
    · rintro ⟨-, inside, i, rfl, least⟩
      cases origin with
      | root => exact absurd rfl inside
      | subroutine k => exact ⟨k, i, rfl, rfl, least⟩

theorem resolve_eq_none_iff_of_root (lost : d.resolve .root j = none) :
    d.resolve origin j = none ↔ ¬ d.HasInside origin j := by
  rw [Option.eq_none_iff_forall_ne_some]
  constructor
  · rintro nowhere ⟨goto, inside, i, bears⟩
    obtain ⟨n, least⟩ := exists_isLeast (p := fun n => d.Bears j.name (.statement origin n)) bears
    exact nowhere _ ((resolve_eq_some_iff_of_root lost).mpr ⟨goto, inside, n, rfl, least⟩)
  · intro without dest lands
    obtain ⟨goto, inside, i, -, least⟩ := (resolve_eq_some_iff_of_root lost).mp lands
    exact without ⟨goto, inside, i, least.1⟩

/-- A jump that is listed, of whatever element, lands nowhere from the root. -/
theorem resolve_root_of_listed {u : UnresolvedTarget} (listed : u ∈ d.unresolvedTargets) :
    d.resolve .root u.jump = none := by
  rcases mem_unresolvedTargets.mp listed with ⟨c, i, entry⟩ | ⟨t, -, entry⟩
  · obtain ⟨a, -, entry⟩ := mem_unresolvedAt.mp entry
    exact resolve_root_of_none (mem_unresolvedOf.mp entry).2.2
  · exact (mem_unresolvedOf.mp entry).2.2

end Definition

namespace Scene

variable {p : Pace} {d : Definition} {s : Session} {t : Trigger} {fired : List Trigger} {j : Jump}

/-- When a trigger whose jump is listed has fired, its jump leads nowhere, and leaves the cursor and the definition as they
are, exactly if the cursor does not stand in a subroutine with a statement that a goto of that name finds. There it lands
on the first such statement. -/
theorem listed_falls_iff (h : Reached p d ⟨.jumping (t :: fired), s⟩) (jump : t.rule.jump = some j)
    (listed : ⟨t.id, j⟩ ∈ d.unresolvedTargets) :
    (s.cursor.follow s.definition t.rule.jump s.clock 0 = (.unresolved j, s.cursor, s.definition) ↔
      ¬ d.HasInside s.cursor.scope j) ∧
    (¬ d.HasInside s.cursor.scope j → s.follow t.id t.rule.jump 0 = s.record [.unresolved ⟨t.id, j⟩]) ∧
    (d.HasInside s.cursor.scope j → ∃ i, IsLeast {n | d.Bears j.name (.statement s.cursor.scope n)} i ∧
      (s.cursor.follow s.definition t.rule.jump s.clock 0).1 =
        .jumped (Cursor.entry s.definition s.clock (.statement s.cursor.scope i))) := by
  have lost := Definition.resolve_root_of_listed listed
  have same : s.definition.resolve s.cursor.scope j = d.resolve s.cursor.scope j := Definition.resolve_congr h.script j
  have nowhere : s.definition.resolve s.cursor.scope j = none ↔ ¬ d.HasInside s.cursor.scope j := by
    rw [same]
    exact Definition.resolve_eq_none_iff_of_root lost
  rw [jump]
  refine ⟨⟨fun falls => ?_, fun without => ?_⟩, fun without => ?_, ?_⟩
  · exact nowhere.mp (Cursor.follow_eq_unresolved_iff.mp (congrArg Prod.fst falls)).2
  · simp only [Cursor.follow, nowhere.mpr without, Cursor.passBy, Nat.lt_irrefl, if_false]
  · rw [Session.follow_unresolved (nowhere.mpr without)]
    rfl
  · rintro ⟨goto, inside, i, bears⟩
    obtain ⟨n, least⟩ :=
      Definition.exists_isLeast (p := fun n => d.Bears j.name (.statement s.cursor.scope n)) bears
    have lands := (Definition.resolve_eq_some_iff_of_root lost).mpr ⟨goto, inside, n, rfl, least⟩
    refine ⟨n, least, ?_⟩
    simp only [Cursor.follow, same, lands, goto, Bool.false_eq_true, if_false]

def ambush : Session :=
  { definition :=
      { elements :=
          [.trigger { id := 0, rule := { sync := some (.ofSource "(?-i)Wipe"), goto := some "Retry" } },
            .activity { id := 1, cue := { call := some "Adds" } },
            .subroutine
              { id := 2
                name := some "Adds"
                statements := [{ id := 3, cue := { name := some "Retry", time := ⟨10000000000⟩ } }] }] } }

def ambushed (ops : List Operation) : Session :=
  (((ambush.start ({} : Settings).pace .zero).run ({} : Settings).pace ops).synchronize ({} : Settings).pace "Wipe" .zero).2

theorem exists_jumping_ambushed (ops : List Operation) (fires : (ambushed ops).definition.firedBy "Wipe" ≠ []) :
    ∃ t fired, Reached ({} : Settings).pace ambush.definition ⟨.jumping (t :: fired), (ambushed ops).countFired "Wipe"⟩ ∧
      t.id = 0 ∧ t.rule.jump = some (.goto "Retry") := by
  obtain ⟨t, fired, hits⟩ := List.exists_cons_of_ne_nil fires
  have rested := (Reached.start (p := ({} : Settings).pace) ambush .zero rfl).run ops
  have heard := (rested.next (.hear _ "Wipe" .zero)).next (.fire (ambushed ops) "Wipe")
  rw [hits] at heard
  obtain ⟨u, hu, id, rule⟩ := heard.mem_triggers t List.mem_cons_self
  cases List.mem_singleton.mp hu
  refine ⟨t, fired, heard, id.symm, ?_⟩
  rw [← rule]
  rfl

theorem listed_ambush : ⟨0, .goto "Retry"⟩ ∈ ambush.definition.unresolvedTargets := by decide +kernel

/-- Before the call the jump falls through, and after it the jump lands. -/
theorem listed_falls_iff_ambush : ∃ t fired u fired' s s',
    Reached ({} : Settings).pace ambush.definition ⟨.jumping (t :: fired), s⟩ ∧
    Reached ({} : Settings).pace ambush.definition ⟨.jumping (u :: fired'), s'⟩ ∧
    s.cursor.scope = .root ∧ s.follow t.id t.rule.jump 0 = s.record [.unresolved ⟨t.id, .goto "Retry"⟩] ∧
    s'.cursor.scope = .subroutine 2 ∧
      s'.cursor.follow s'.definition u.rule.jump s'.clock 0 ≠ (.unresolved (.goto "Retry"), s'.cursor, s'.definition) := by
  obtain ⟨t, fired, reached, own, jump⟩ := exists_jumping_ambushed [] (by decide +kernel)
  obtain ⟨u, fired', reached', own', jump'⟩ := exists_jumping_ambushed [.step] (by decide +kernel)
  have outside : ((ambushed []).countFired "Wipe").cursor.scope = .root := by decide +kernel
  have inside : ((ambushed [.step]).countFired "Wipe").cursor.scope = .subroutine 2 := by decide +kernel
  obtain ⟨-, falls, -⟩ := listed_falls_iff reached jump (own ▸ listed_ambush)
  obtain ⟨lands, -, -⟩ := listed_falls_iff reached' jump' (own' ▸ listed_ambush)
  refine ⟨t, fired, u, fired', _, _, reached, reached', outside, falls ?_, inside, fun through => lands.mp through ?_⟩
  · exact fun has => has.2.1 outside
  · rw [inside]
    exact ⟨rfl, Scope.noConfusion, 0, _, rfl, rfl⟩

/-- A listed goto of a trigger that lands. -/
theorem exists_listed_lands : ¬ ∀ (p : Pace) (d : Definition) (t : Trigger) (fired : List Trigger) (s : Session)
    (j : Jump), Reached p d ⟨.jumping (t :: fired), s⟩ → t.rule.jump = some j → ⟨t.id, j⟩ ∈ d.unresolvedTargets →
      (s.cursor.follow s.definition t.rule.jump s.clock 0).1 = .unresolved j := by
  intro all
  obtain ⟨t, fired, reached, own, jump⟩ := exists_jumping_ambushed [.step] (by decide +kernel)
  have lost := all _ _ t fired _ _ reached jump (own ▸ listed_ambush)
  have lands : ((ambushed [.step]).countFired "Wipe").definition.resolve
      ((ambushed [.step]).countFired "Wipe").cursor.scope (.goto "Retry") = some (.statement (.subroutine 2) 0) := by
    decide +kernel
  cases lands.symm.trans (Cursor.follow_eq_unresolved_iff.mp lost).2

end Scene

end EncounterTimeline
