import EncounterTimeline.Proofs.Playback.Nesting

/-! # Jumps that lead nowhere

A definition lists the jumps that land nowhere from the scope they are written in. An activity is executed in that
scope, so its jump leads nowhere exactly if it is listed; the jump of a trigger may be followed from any scope, from
each of which it lands if it lands from the root.
-/
namespace EncounterTimeline

namespace Definition

variable {d : Definition} {c : Scope} {i : Nat} {j : Jump} {u : UnresolvedTarget}

theorem mem_unresolvedOf {id : ElementId} {jump : Option Jump} :
    u ∈ d.unresolvedOf id jump c ↔ u.element = id ∧ jump = some u.jump ∧ d.resolve c u.jump = none := by
  obtain ⟨element, target⟩ := u
  cases jump with
  | none => simp [unresolvedOf]
  | some j =>
    simp only [unresolvedOf, Option.isNone_iff_eq_none, List.mem_ite_nil_right, List.mem_singleton,
      UnresolvedTarget.mk.injEq, Option.some.injEq]
    constructor
    · rintro ⟨lost, rfl, rfl⟩
      exact ⟨rfl, rfl, lost⟩
    · rintro ⟨rfl, rfl, lost⟩
      exact ⟨lost, rfl, rfl⟩

def unresolvedAt (d : Definition) (c : Scope) (i : Nat) : List UnresolvedTarget :=
  match d.statement? c i with
  | some a => d.unresolvedOf a.id a.cue.jump c
  | none => []

theorem mem_unresolvedAt : u ∈ d.unresolvedAt c i ↔
    ∃ a, d.statement? c i = some a ∧ u ∈ d.unresolvedOf a.id a.cue.jump c := by
  cases h : d.statement? c i <;> simp [unresolvedAt, h]

theorem mem_triggers {t : Trigger} : t ∈ d.triggers ↔ .trigger t ∈ d.elements := by
  rw [triggers, List.mem_filterMap]
  constructor
  · rintro ⟨e, he, ht⟩
    cases e with
    | trigger t' => exact Option.some.inj ht ▸ he
    | preset | activity | subroutine => cases ht
  · exact fun h => ⟨_, h, rfl⟩

theorem mem_unresolvedTargets : u ∈ d.unresolvedTargets ↔
    (∃ c i, u ∈ d.unresolvedAt c i) ∨ ∃ t ∈ d.triggers, u ∈ d.unresolvedOf t.id t.rule.jump .root := by
  simp only [unresolvedTargets, List.mem_flatten, List.mem_mapIdx, mem_unresolvedAt, mem_triggers]
  constructor
  · rintro ⟨listed, ⟨i, lt, rfl⟩, hu⟩
    have here := List.getElem?_eq_getElem lt
    cases he : d.elements[i] with
    | preset id q => simp [he] at hu
    | activity a =>
      rw [he] at hu here
      exact .inl ⟨.root, i, a, statement?_root.mpr here, hu⟩
    | trigger t =>
      rw [he] at hu here
      exact .inr ⟨t, List.mem_of_getElem? here, hu⟩
    | subroutine r =>
      rw [he] at hu here
      obtain ⟨a, ha, hu⟩ := List.mem_flatMap.mp hu
      obtain ⟨n, hn⟩ := List.mem_iff_getElem?.mp ha
      exact .inl ⟨.subroutine i, n, a, statement?_subroutine.mpr ⟨r, subroutineAt?_eq_some_iff.mpr here, hn⟩, hu⟩
  · rintro (⟨c, i, a, ha, hu⟩ | ⟨t, ht, hu⟩)
    · cases c with
      | root =>
        obtain ⟨lt, he⟩ := List.getElem?_eq_some_iff.mp (statement?_root.mp ha)
        exact ⟨_, ⟨i, lt, rfl⟩, by rw [he]; exact hu⟩
      | subroutine k =>
        obtain ⟨r, hr, hi⟩ := statement?_subroutine.mp ha
        obtain ⟨lt, he⟩ := List.getElem?_eq_some_iff.mp (subroutineAt?_eq_some_iff.mp hr)
        refine ⟨_, ⟨k, lt, rfl⟩, ?_⟩
        rw [he]
        exact List.mem_flatMap.mpr ⟨a, List.mem_of_getElem? hi, hu⟩
    · obtain ⟨i, lt, he⟩ := List.mem_iff_getElem.mp ht
      exact ⟨_, ⟨i, lt, rfl⟩, by rw [he]; exact hu⟩

/-- What lands from the root lands from everywhere. -/
theorem resolve_root_of_none (h : d.resolve c j = none) : d.resolve .root j = none := by
  cases j with
  | call name => exact h
  | goto name =>
    simp only [resolve, Option.or_eq_none_iff] at h
    simp only [resolve, localLanding?, Option.none_or, h.2]

end Definition

theorem Cursor.follow_eq_unresolved_iff {c : Cursor} {d : Definition} {jump : Option Jump} {clock : Float}
    {resume : Nat} {j : Jump} : (c.follow d jump clock resume).1 = .unresolved j ↔
      jump = some j ∧ d.resolve c.scope j = none := by
  cases jump with
  | none => simp [follow]
  | some k =>
    cases hr : d.resolve c.scope k with
    | none =>
      simp only [follow, hr, Transfer.unresolved.injEq, Option.some.injEq]
      constructor
      · rintro rfl
        exact ⟨rfl, hr⟩
      · exact And.left
    | some dest =>
      have lands : (c.follow d (some k) clock resume).1 ≠ .unresolved j := by
        simp only [follow, hr]
        split <;> simp
      refine iff_of_false lands ?_
      rintro ⟨he, hn⟩
      cases he
      cases hn.symm.trans hr

namespace Scene

variable {p : Pace} {d : Definition} {s : Session} {a : Activity} {left : Nat} {fired : List Trigger} {j : Jump}

theorem Reached.mem_triggers (h : Reached p d ⟨.jumping fired, s⟩) :
    ∀ t ∈ fired, ∃ u ∈ d.triggers, u.id = t.id ∧ u.rule = t.rule := by
  generalize hx : (⟨.jumping fired, s⟩ : Scene) = x at h
  induction h generalizing fired s with
  | start => cases hx
  | next reached move ih =>
    cases move with
    | fire s line =>
      cases hx
      intro t ht
      exact Definition.exists_mem_triggers_congr reached.script (List.mem_of_mem_filter ht)
    | jump s t rest =>
      cases hx
      exact fun u hu => ih rfl u (List.mem_cons_of_mem _ hu)
    | _ => cases hx

/-- An activity that is being left is written where the cursor stands. -/
theorem Reached.stands (h : Reached p d ⟨.leaving a left, s⟩) :
    ∃ f b, s.cursor.frame = some f ∧ f.activity? d = some b ∧ b.id = a.id ∧ b.cue = a.cue := by
  cases h with
  | next reached move =>
    cases move with
    | execute s n f a hf ha due =>
      obtain ⟨b, hb, same⟩ := Frame.activity?_congr reached.script ha
      exact ⟨f, b, hf, hb, same⟩

/-- An activity is executed in the scope it is written in. -/
theorem Reached.leaves_unresolved_iff {f : Frame} (h : Reached p d ⟨.leaving a left, s⟩)
    (hf : s.cursor.frame = some f) : (s.cursor.follow s.definition a.cue.jump s.clock 1).1 = .unresolved j ↔
      ⟨a.id, j⟩ ∈ d.unresolvedAt f.scope f.index := by
  obtain ⟨g, b, hg, hb, id, cue⟩ := h.stands
  cases hf.symm.trans hg
  have scope : s.cursor.scope = f.scope := by rw [Cursor.scope, hf]; rfl
  rw [Cursor.follow_eq_unresolved_iff, scope, Definition.resolve_congr h.script, Definition.mem_unresolvedAt,
    ← id, ← cue]
  constructor
  · rintro ⟨jump, lost⟩
    exact ⟨b, hb, Definition.mem_unresolvedOf.mpr ⟨rfl, jump, lost⟩⟩
  · rintro ⟨b', hb', listed⟩
    cases hb.symm.trans hb'
    exact (Definition.mem_unresolvedOf.mp listed).2

theorem Reached.leaving_listed (h : Reached p d ⟨.leaving a left, s⟩)
    (lost : (s.cursor.follow s.definition a.cue.jump s.clock 1).1 = .unresolved j) :
    ⟨a.id, j⟩ ∈ d.unresolvedTargets := by
  obtain ⟨f, -, hf, -⟩ := h.stands
  exact Definition.mem_unresolvedTargets.mpr (.inl ⟨_, _, (h.leaves_unresolved_iff hf).mp lost⟩)

/-- The scope that the jump of a trigger is followed from does not matter. -/
theorem Reached.jumping_listed {t : Trigger} (h : Reached p d ⟨.jumping (t :: fired), s⟩)
    (lost : (s.cursor.follow s.definition t.rule.jump s.clock 0).1 = .unresolved j) :
    ⟨t.id, j⟩ ∈ d.unresolvedTargets := by
  obtain ⟨u, hu, id, rule⟩ := h.mem_triggers t List.mem_cons_self
  obtain ⟨jump, lost⟩ := Cursor.follow_eq_unresolved_iff.mp lost
  rw [Definition.resolve_congr h.script] at lost
  refine Definition.mem_unresolvedTargets.mpr (.inr ⟨u, hu, Definition.mem_unresolvedOf.mpr ⟨id.symm, ?_, ?_⟩⟩)
  · rw [rule]
    exact jump
  · exact Definition.resolve_root_of_none lost

/-- Every jump of a run that leads nowhere is listed, and a listed activity leads nowhere whenever it is executed. -/
theorem unresolved_listed (p : Pace) (d : Definition) :
    (∀ t fired s j, Reached p d ⟨.jumping (t :: fired), s⟩ →
      (s.cursor.follow s.definition t.rule.jump s.clock 0).1 = .unresolved j → ⟨t.id, j⟩ ∈ d.unresolvedTargets) ∧
    (∀ a left s j, Reached p d ⟨.leaving a left, s⟩ →
      (s.cursor.follow s.definition a.cue.jump s.clock 1).1 = .unresolved j → ⟨a.id, j⟩ ∈ d.unresolvedTargets) ∧
    (d.unresolvedTargets = [] → ∀ x j, Reached p d x → x.jumpAhead = some j →
      ∃ dest, x.session.definition.resolve x.session.cursor.scope j = some dest) ∧
    (∀ a left s f, Reached p d ⟨.leaving a left, s⟩ → s.cursor.frame = some f →
      ∀ u ∈ d.unresolvedAt f.scope f.index,
        (s.cursor.follow s.definition a.cue.jump s.clock 1).1 = .unresolved u.jump) ∧
    (d.ids.Nodup → ∀ a left s, Reached p d ⟨.leaving a left, s⟩ →
      ∀ u ∈ d.unresolvedTargets, u.element = a.id →
        (s.cursor.follow s.definition a.cue.jump s.clock 1).1 = .unresolved u.jump) := by
  refine ⟨fun t fired s j => Reached.jumping_listed, fun a left s j => Reached.leaving_listed, ?_, ?_, ?_⟩
  · rintro empty ⟨stage, s⟩ j h ahead
    cases hr : s.definition.resolve s.cursor.scope j with
    | some dest => exact ⟨dest, rfl⟩
    | none =>
      have unlisted (u : UnresolvedTarget) : u ∉ d.unresolvedTargets := by simp [empty]
      cases stage with
      | jumping fired =>
        cases fired with
        | nil => cases ahead
        | cons t fired => exact (unlisted _ (h.jumping_listed (Cursor.follow_eq_unresolved_iff.mpr ⟨ahead, hr⟩))).elim
      | leaving a left => exact (unlisted _ (h.leaving_listed (Cursor.follow_eq_unresolved_iff.mpr ⟨ahead, hr⟩))).elim
      | rest | hearing | playing | showing => cases ahead
  · intro a left s f h hf u hu
    obtain ⟨g, b, hg, hb, id, -⟩ := h.stands
    cases hf.symm.trans hg
    obtain ⟨b', hb', entry⟩ := Definition.mem_unresolvedAt.mp hu
    cases hb.symm.trans hb'
    apply (h.leaves_unresolved_iff hf).mpr
    rw [← id, ← (Definition.mem_unresolvedOf.mp entry).1]
    exact hu
  · intro unique a left s h u hu own
    obtain ⟨f, b, hf, hb, id, -⟩ := h.stands
    rcases Definition.mem_unresolvedTargets.mp hu with ⟨c, i, listed⟩ | ⟨t, ht, listed⟩
    · obtain ⟨b', hb', entry⟩ := Definition.mem_unresolvedAt.mp listed
      have here : b'.id = b.id := by
        rw [← (Definition.mem_unresolvedOf.mp entry).1, own, id]
      obtain ⟨rfl, rfl⟩ := Definition.address_eq_of_id_eq unique hb' hb here
      apply (h.leaves_unresolved_iff hf).mpr
      rw [← own]
      exact listed
    · have other : t.id = b.id := by
        rw [← (Definition.mem_unresolvedOf.mp listed).1, own, id]
      exact (Definition.trigger_id_ne unique hb (Definition.mem_triggers.mp ht) other).elim

def astray : Session :=
  { definition := { elements := [.activity { id := 0, cue := { goto := some "Nowhere" } }] } }

theorem unresolved_listed_astray : ∃ (a : Activity) (s : Session),
    Reached ({ maxStepsPerTick := 1 } : Settings).pace astray.definition ⟨.leaving a 0, s⟩ ∧
      (s.cursor.follow s.definition a.cue.jump s.clock 1).1 = .unresolved (.goto "Nowhere") ∧
      ⟨a.id, .goto "Nowhere"⟩ ∈ astray.definition.unresolvedTargets := by
  let p := ({ maxStepsPerTick := 1 } : Settings).pace
  let s := astray.start p .zero
  let a := (Frame.activity? s.definition .start).get (by decide +kernel)
  have due : a.isDue s.clock Frame.start.base = true := by decide +kernel
  have reached : Reached p astray.definition ⟨.playing 1, s⟩ := .next (.start astray .zero rfl) (.step s)
  have leaving : Reached p astray.definition ⟨.leaving a 0, s.strike p .start a⟩ :=
    .next reached (.execute s 0 .start a rfl (Option.some_get _).symm due)
  obtain ⟨-, listed, -, -, lost⟩ := unresolved_listed p astray.definition
  have written : ⟨0, .goto "Nowhere"⟩ ∈ astray.definition.unresolvedTargets := by decide +kernel
  have own : 0 = a.id := by decide +kernel
  have fails := lost (by decide) a 0 _ leaving _ written own
  exact ⟨a, _, leaving, fails, listed a 0 _ _ leaving fails⟩

end Scene

end EncounterTimeline
