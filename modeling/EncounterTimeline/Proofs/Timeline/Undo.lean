import EncounterTimeline.Proofs.Timeline.Editing

/-! # Undoing an edit

What is inserted and removed again, or removed and put back where it was, leaves no trace. For the lists this is a fact
about lists; the table of owners follows them, since a list has no more than one right table.
-/
namespace EncounterTimeline

def Activity.Twin (a b : Activity) : Prop := b = { a with id := b.id }

/-- The elements differ at most in identities, their own and those of their statements. -/
inductive Element.Twin : Element → Element → Prop
  | preset (i j : ElementId) (p : Preset) : Twin (.preset i p) (.preset j p)
  | activity {a b : Activity} (same : a.Twin b) : Twin (.activity a) (.activity b)
  | trigger (t : Trigger) (j : ElementId) : Twin (.trigger t) (.trigger { t with id := j })
  | subroutine (i j : ElementId) (name : Option String) {l m : List Activity}
      (same : List.Forall₂ Activity.Twin l m) : Twin (.subroutine ⟨i, name, l⟩) (.subroutine ⟨j, name, m⟩)

inductive Definition.Listed (d : Definition) : Owner → Nat → Element → Prop
  | root {i : Nat} {e : Element} (here : d.elements[i]? = some e) : Listed d .root i e
  | statement {i j : Nat} {s : Subroutine} {a : Activity} (owner : d.elements[i]? = some (.subroutine s))
      (here : s.statements[j]? = some a) : Listed d (.subroutine s.id) j (.activity a)

variable {w : Workbench} {d : Definition} {e : Element} {L : List Element} {o : Ownership} {s : Subroutine}
  {a : Activity} {owner : Owner} {id : ElementId} {i j : Nat}

namespace Ownership.Right

/-- A list has one right table at most. -/
theorem unique {o' : Ownership} (h : o.Right L) (h' : o'.Right L) : o = o' := by
  cases o with
  | mk f =>
    cases o' with
    | mk g =>
      congr 1
      funext id
      exact Option.ext fun owner => (h.owners id owner).trans (h'.owners id owner).symm

/-- An identity occurs in one element only. -/
theorem place_eq (h : o.Right L) {f : Element} (he : L[i]? = some e) (hf : L[j]? = some f) (inE : id ∈ e.ids)
    (inF : id ∈ f.ids) : i = j := by
  have apart := List.pairwise_iff_getElem.mp (List.nodup_flatMap.mp h.distinct).2
  obtain ⟨hi, rfl⟩ := List.getElem?_eq_some_iff.mp he
  obtain ⟨hj, rfl⟩ := List.getElem?_eq_some_iff.mp hf
  rcases Nat.lt_trichotomy i j with before | same | after
  · exact absurd inF (fun inF => apart i j hi hj before inE inF)
  · exact same
  · exact absurd inE (fun inE => apart j i hj hi after inF inE)

/-- An element is the first with its identity. -/
theorem findIdx?_root (h : o.Right L) (here : L[i]? = some e) : L.findIdx? (fun f => f.id == e.id) = some i := by
  obtain ⟨lt, same⟩ := List.getElem?_eq_some_iff.mp here
  refine List.findIdx?_eq_some_iff_getElem.mpr ⟨lt, by simp [same], fun j before found => ?_⟩
  have hj : L[j]? = some L[j] := List.getElem?_eq_getElem (Nat.lt_trans before lt)
  have shared : e.id ∈ L[j].ids := by
    rw [← eq_of_beq found]
    exact List.mem_cons_self
  exact absurd (h.place_eq hj here shared List.mem_cons_self) (Nat.ne_of_lt before)

/-- A statement is the first of its subroutine with its identity. -/
theorem findIdx?_statement (h : o.Right L) (member : .subroutine s ∈ L) (here : s.statements[j]? = some a) :
    s.statements.findIdx? (fun b => b.id == a.id) = some j := by
  have distinct : (s.statements.map Activity.id).Nodup := (List.nodup_cons.mp (h.nodup_of_mem member)).2
  obtain ⟨lt, same⟩ := List.getElem?_eq_some_iff.mp here
  refine List.findIdx?_eq_some_iff_getElem.mpr ⟨lt, by simp [same], fun k before found => ?_⟩
  have others := List.pairwise_iff_getElem.mp (List.pairwise_map.mp distinct) k j (Nat.lt_trans before lt) lt before
  rw [same] at others
  exact others (eq_of_beq found)

end Ownership.Right

namespace Element

theorem twin_numberActivities (n : ElementId) (l : List Activity) :
    List.Forall₂ Activity.Twin l (numberActivities n l) := by
  induction l generalizing n with
  | nil => exact .nil
  | cons a l ih => exact .cons rfl (ih (n + 1))

theorem twin_withIds (n : ElementId) (e : Element) : e.Twin (e.withIds n) := by
  cases e with
  | preset i p => exact .preset i n p
  | activity a => exact .activity rfl
  | trigger t => exact .trigger t n
  | subroutine s => exact .subroutine s.id n s.name (twin_numberActivities (n + 1) s.statements)

end Element

namespace Workbench

theorem Takes.shares_eq_false (h : w.Sound) (takes : w.Takes e) : w.shares e = false := by
  rw [shares, List.any_eq_false]
  intro id new known
  exact takes.absent id new (h.right.knows_iff.mp known)

/-- A new element is stored as it is. -/
theorem Takes.admitted_eq (h : w.Sound) (takes : w.Takes e) : w.admitted e = (e, w) := by
  rw [admitted, takes.shares_eq_false h]
  rfl

theorem subroutineIndex?_of_listed (h : w.Sound) (here : w.definition.elements[i]? = some (.subroutine s)) :
    w.subroutineIndex? s.id = some i := by
  have first := h.right.findIdx?_root here
  obtain ⟨lt, -, earlier⟩ := List.findIdx?_eq_some_iff_getElem.mp first
  obtain ⟨_, same⟩ := List.getElem?_eq_some_iff.mp here
  refine List.findIdx?_eq_some_iff_getElem.mpr ⟨lt, by simp [same, Element.asSubroutine], fun j before found => ?_⟩
  refine earlier j before ?_
  revert found
  cases w.definition.elements[j] <;> simp [Element.asSubroutine, Element.id]

theorem statementPlace?_of_listed (h : w.Sound) (here : w.definition.elements[i]? = some (.subroutine s))
    (ha : s.statements[j]? = some a) : w.statementPlace? s.id a.id = some (i, s, j) := by
  have subroutine : w.definition.subroutineAt? i = some s := by
    simp [Definition.subroutineAt?, here, Element.asSubroutine]
  simp [statementPlace?, subroutineIndex?_of_listed h here, subroutine,
    h.right.findIdx?_statement (List.mem_of_getElem? here) ha]

theorem ownerOf_root (h : w.Sound) (here : w.definition.elements[i]? = some e) :
    w.definition.ownerOf e.id = some .root :=
  (h.right.owners _ _).mpr ⟨e, List.mem_of_getElem? here, Element.owner?_eq_root.mpr rfl⟩

theorem ownerOf_statement (h : w.Sound) (here : w.definition.elements[i]? = some (.subroutine s))
    (ha : s.statements[j]? = some a) : w.definition.ownerOf a.id = some (.subroutine s.id) :=
  (h.right.owners _ _).mpr ⟨_, List.mem_of_getElem? here,
    (Element.owner?_eq_subroutine (h.right.nodup_of_mem (List.mem_of_getElem? here))).mpr
      ⟨rfl, List.mem_map_of_mem (List.mem_of_getElem? ha)⟩⟩

theorem remove_root (h : w.Sound) (here : w.definition.elements[i]? = some e) :
    w.remove e.id = (some e, { w with definition := { w.definition with
      elements := w.definition.elements.eraseIdx i, ownership := w.definition.ownership.strike e } }) := by
  simp only [remove, ownerOf_root h here, h.right.findIdx?_root here, here]

theorem remove_statement (h : w.Sound) (here : w.definition.elements[i]? = some (.subroutine s))
    (ha : s.statements[j]? = some a) :
    w.remove a.id = (some (.activity a), (w.setSubroutine i { s with statements := s.statements.eraseIdx j }).setOwnership
      (w.definition.ownership.erase a.id)) := by
  simp only [remove, ownerOf_statement h here ha, statementPlace?_of_listed h here ha, ha]

theorem insert_of_takes (h : w.Sound) (takes : w.Takes e) (i : Nat) :
    w.insert i e = (e.id, { w with definition := { w.definition with
      elements := w.definition.elements.insertIdx (min i w.definition.elements.length) e
      ownership := w.definition.ownership.enter e } }) := by
  rw [insert_eq, takes.admitted_eq h]

theorem addStatement_of_takes (h : w.Sound) (here : w.definition.elements[i]? = some (.subroutine s))
    (takes : w.Takes (.activity a)) :
    w.addStatement s.id (.activity a) = (some a.id,
      (w.setSubroutine i (s.push a)).setOwnership (w.definition.ownership.put a.id (.subroutine s.id))) := by
  have subroutine : w.definition.subroutineAt? i = some s := by
    simp [Definition.subroutineAt?, here, Element.asSubroutine]
  simp only [addStatement, takes.admitted_eq h, subroutineIndex?_of_listed h here, subroutine]

theorem duplicateElement_root (h : w.Sound) (here : w.definition.elements[i]? = some e) :
    w.duplicateElement e.id = (some (e.withIds w.nextId).id,
      { definition := { w.definition with
          elements := w.definition.elements.insertIdx (min (i + 1) w.definition.elements.length) (e.withIds w.nextId)
          ownership := w.definition.ownership.enter (e.withIds w.nextId) }
        nextId := w.nextId + e.ids.length }) := by
  have fresh := insert_of_takes (h.generate e.ids.length) (h.takes_withIds e) (i + 1)
  simp only [duplicateElement, ownerOf_root h here, h.right.findIdx?_root here, here, duplicate, fresh]

theorem duplicateElement_statement (h : w.Sound) (here : w.definition.elements[i]? = some (.subroutine s))
    (ha : s.statements[j]? = some a) :
    w.duplicateElement a.id = (some w.nextId, (setSubroutine { w with nextId := w.nextId + 1 } i
      { s with statements := s.statements.insertIdx (j + 1) { a with id := w.nextId } }).setOwnership
        (w.definition.ownership.put w.nextId (.subroutine s.id))) := by
  simp only [duplicateElement, ownerOf_statement h here ha, statementPlace?_of_listed h here ha, ha]

variable {v : Workbench}

theorem eq_of_definition (same : v.definition = w.definition) (ids : v.nextId = w.nextId) : v = w := by
  cases v
  cases w
  cases same
  cases ids
  rfl

def Agrees (v w : Workbench) : Prop :=
  v.definition = { w.definition with elements := v.definition.elements, ownership := v.definition.ownership }

/-- In sound workbenches the lists decide on the table. -/
theorem Sound.definition_eq (h : w.Sound) (h' : v.Sound) (header : v.Agrees w)
    (lists : v.definition.elements = w.definition.elements) : v.definition = w.definition := by
  have table : v.definition.ownership = w.definition.ownership := h'.right.unique (lists ▸ h.right)
  rw [header, lists, table]

/-- What was stored last is taken out by its identity, and the definition is as it was. -/
theorem remove_of_stored (h : w.Sound) (h' : v.Sound) (header : v.Agrees w)
    (stored : Stored w.definition v.definition owner j e) :
    v.remove e.id = (some e, { v with definition := w.definition }) := by
  have sound := h'.remove e.id
  cases stored with
  | root place elements =>
    have here : v.definition.elements[j]? = some e := by
      rw [elements, List.getElem?_insertIdx_self, if_pos place]
    have removed := remove_root h' here
    rw [removed] at sound ⊢
    have back := h.definition_eq sound (by rw [Agrees, header]) (by simp only [elements, List.eraseIdx_insertIdx_self])
    exact Prod.ext rfl (eq_of_definition back rfl)
  | @statement i _ s a owner place elements =>
    obtain ⟨lt, same⟩ := List.getElem?_eq_some_iff.mp owner
    have here : v.definition.elements[i]? = some (.subroutine { s with statements := s.statements.insertIdx j a }) := by
      rw [elements, List.getElem?_set_self lt]
    have ha : (s.statements.insertIdx j a)[j]? = some a := by
      rw [List.getElem?_insertIdx_self, if_pos place]
    have removed : v.remove (Element.activity a).id = _ := remove_statement h' here ha
    rw [removed] at sound ⊢
    have back := h.definition_eq sound (by rw [Agrees, setOwnership, setSubroutine, header]) (by
      simp only [setOwnership, setSubroutine, elements, List.set_set, List.eraseIdx_insertIdx_self]
      rw [← same, List.set_getElem_self])
    exact Prod.ext rfl (eq_of_definition back rfl)

/-- What leaves the root leaves behind a workbench that takes it again. -/
theorem takes_of_stored (h : w.Sound) (stored : Stored v.definition w.definition .root i e)
    (ids : v.nextId = w.nextId) : v.Takes e := by
  cases stored with
  | root place elements =>
    have order : w.definition.elements.Perm (e :: v.definition.elements) :=
      elements ▸ List.perm_insertIdx e v.definition.elements place
    have distinct := (h.right.perm order).distinct
    rw [List.flatMap_cons, List.nodup_append'] at distinct
    exact
      { distinct := distinct.1
        generated := fun id own => ids ▸ h.generated id ((mem_ids_of_perm order).mpr (.inl own))
        absent := fun id own => distinct.2.2 own }

/-- What was taken out of the root is put back at its place, and the definition is as it was. -/
theorem insert_of_stored (h : w.Sound) (h' : v.Sound) (header : v.Agrees w) (ids : v.nextId = w.nextId)
    (stored : Stored v.definition w.definition .root i e) : v.insert i e = (e.id, w) := by
  have takes := takes_of_stored h stored ids
  have inserted := insert_of_takes h' takes i
  have sound := h'.insert takes.toAdmits i
  cases stored with
  | root place elements =>
    rw [inserted] at sound ⊢
    have back := h.definition_eq sound (by rw [Agrees, header]) (by rw [elements, Nat.min_eq_left place])
    exact Prod.ext rfl (eq_of_definition back ids)

/-- A known element stands in the list of its owner. -/
theorem listed_of_mem_ids (known : id ∈ w.definition.ids) :
    ∃ owner j e, w.definition.Listed owner j e ∧ e.id = id := by
  obtain ⟨e, he, own⟩ := List.mem_flatMap.mp known
  obtain ⟨i, here⟩ := List.mem_iff_getElem?.mp he
  rcases List.mem_cons.mp own with rfl | nested
  · exact ⟨.root, i, e, .root here, rfl⟩
  · obtain ⟨a, ha, rfl⟩ := List.mem_map.mp nested
    cases e with
    | subroutine s =>
      obtain ⟨j, ha⟩ := List.mem_iff_getElem?.mp ha
      exact ⟨.subroutine s.id, j, .activity a, .statement here ha, rfl⟩
    | preset | activity | trigger => cases ha

/-- A root element is taken out of its place. -/
theorem stored_remove_of_listed (h : w.Sound) (here : w.definition.elements[i]? = some e) :
    ∃ v, w.remove e.id = (some e, v) ∧ v.Agrees w ∧ v.nextId = w.nextId ∧
      Stored v.definition w.definition .root i e := by
  obtain ⟨lt, rfl⟩ := List.getElem?_eq_some_iff.mp here
  refine ⟨_, remove_root h here, rfl, rfl, .root ?_ (List.insertIdx_eraseIdx_getElem lt).symm⟩
  have short := List.length_eraseIdx_of_lt lt
  simp only [short]
  omega

/-- A new element is stored as it is. -/
theorem stored_insert_of_takes (h : w.Sound) (takes : w.Takes e) (i : Nat) :
    ∃ v, w.insert i e = (e.id, v) ∧ v.Agrees w ∧ v.nextId = w.nextId ∧
      Stored w.definition v.definition .root (min i w.definition.elements.length) e :=
  ⟨_, insert_of_takes h takes i, rfl, rfl, .root (Nat.min_le_right _ _) rfl⟩

/-- A new statement is stored as it is. -/
theorem stored_addStatement_of_takes (h : w.Sound) (member : .subroutine s ∈ w.definition.elements)
    (takes : w.Takes (.activity a)) :
    ∃ v, w.addStatement s.id (.activity a) = (some a.id, v) ∧ v.Agrees w ∧ v.nextId = w.nextId ∧
      Stored w.definition v.definition (.subroutine s.id) s.statements.length (.activity a) := by
  obtain ⟨i, here⟩ := List.mem_iff_getElem?.mp member
  refine ⟨_, addStatement_of_takes h here takes, rfl, rfl, .statement here (Nat.le_refl _) ?_⟩
  rw [List.insertIdx_length_self]
  rfl

/-- A known element is copied to the place after it. -/
theorem stored_duplicateElement_of_listed (h : w.Sound) (listed : w.definition.Listed owner j e) :
    ∃ v, w.duplicateElement e.id = (some (e.withIds w.nextId).id, v) ∧ v.Agrees w ∧
      Stored w.definition v.definition owner (j + 1) (e.withIds w.nextId) := by
  cases listed with
  | root here =>
    obtain ⟨lt, -⟩ := List.getElem?_eq_some_iff.mp here
    refine ⟨_, duplicateElement_root h here, rfl, .root lt ?_⟩
    rw [Nat.min_eq_left lt]
  | statement owner ha =>
    obtain ⟨lt, -⟩ := List.getElem?_eq_some_iff.mp ha
    exact ⟨_, duplicateElement_statement h owner ha, rfl, .statement owner lt rfl⟩

/-- An edit and its reverse leave no trace. In a workbench whose identities are distinct and whose table is right, a root
element that is removed can be put back at its place under its identity; a new element that is inserted, or added to a
subroutine, is removed again by its identity; and every element has a copy made right after it, equal to it but for
fresh identities, that is removed again by the identity that was answered. Each time lists and table are as before. -/
theorem edits_undone (h : w.Sound) :
    (∀ i e, w.definition.elements[i]? = some e → ∃ v, w.remove e.id = (some e, v) ∧
      Stored v.definition w.definition .root i e ∧ v.insert i e = (e.id, w)) ∧
    (∀ i e, w.Takes e → ∃ v, w.insert i e = (e.id, v) ∧
      Stored w.definition v.definition .root (min i w.definition.elements.length) e ∧ v.remove e.id = (some e, w)) ∧
    (∀ s a, .subroutine s ∈ w.definition.elements → w.Takes (.activity a) → ∃ v,
      w.addStatement s.id (.activity a) = (some a.id, v) ∧
      Stored w.definition v.definition (.subroutine s.id) s.statements.length (.activity a) ∧
      v.remove a.id = (some (.activity a), w)) ∧
    ∀ id ∈ w.definition.ids, ∃ owner j e copy v, w.definition.Listed owner j e ∧ e.id = id ∧
      w.duplicateElement id = (some copy.id, v) ∧ Stored w.definition v.definition owner (j + 1) copy ∧ e.Twin copy ∧
      copy.ids.Nodup ∧ (∀ new ∈ copy.ids, w.nextId ≤ new) ∧
      v.remove copy.id = (some copy, { v with definition := w.definition }) := by
  refine ⟨fun i e here => ?_, fun i e takes => ?_, fun s a member takes => ?_, fun id known => ?_⟩
  · obtain ⟨v, removed, header, ids, stored⟩ := stored_remove_of_listed h here
    have sound : v.Sound := by simpa only [removed] using h.remove e.id
    exact ⟨v, removed, stored, insert_of_stored h sound header ids stored⟩
  · obtain ⟨v, inserted, header, ids, stored⟩ := stored_insert_of_takes h takes i
    have sound : v.Sound := by simpa only [inserted] using h.insert takes.toAdmits i
    have removed := remove_of_stored h sound header stored
    rw [ids] at removed
    exact ⟨v, inserted, stored, removed⟩
  · obtain ⟨v, added, header, ids, stored⟩ := stored_addStatement_of_takes h member takes
    have sound : v.Sound := by simpa only [added] using h.addStatement takes.toAdmits s.id
    have removed := remove_of_stored h sound header stored
    rw [ids] at removed
    exact ⟨v, added, stored, removed⟩
  · obtain ⟨owner, j, e, listed, rfl⟩ := listed_of_mem_ids known
    obtain ⟨v, copied, header, stored⟩ := stored_duplicateElement_of_listed h listed
    have sound : v.Sound := by simpa only [copied] using h.duplicateElement e.id
    have fresh (new : ElementId) (own : new ∈ (e.withIds w.nextId).ids) : w.nextId ≤ new := by
      rw [ids_withIds, List.mem_range'_1] at own
      exact own.1
    exact ⟨owner, j, e, _, v, listed, rfl, copied, stored, e.twin_withIds _, (h.takes_withIds e).distinct, fresh,
      remove_of_stored h sound header stored⟩

/-- A loop with one statement is removed and put back, an activity is inserted far beyond the end and into the loop, and
the statement is copied. -/
theorem edits_undone_loop :
    let loop : Element := .subroutine { id := 0, name := some "Loop", statements := [{ id := 1, cue := {} }] }
    let pull : Activity := { id := 2, cue := {} }
    ∃ w : Workbench, w.Sound ∧ w.definition.elements = [loop] ∧
      (∃ v, w.remove 0 = (some loop, v) ∧ v.insert 0 loop = (0, w)) ∧
      (∃ v, w.insert 7 (.activity pull) = (2, v) ∧ v.remove 2 = (some (.activity pull), w)) ∧
      (∃ v, w.addStatement 0 (.activity pull) = (some 2, v) ∧ v.remove 2 = (some (.activity pull), w)) ∧
      ∃ copy v, w.duplicateElement 1 = (some copy.id, v) ∧
        v.remove copy.id = (some copy, { v with definition := w.definition }) := by
  intro loop pull
  let bare : Workbench := { definition := {}, nextId := 3 }
  have handed : ∀ e ∈ (Edit.add loop).element?, bare.Admits e := by
    rintro _ ⟨⟩
    exact { distinct := by decide, generated := by decide }
  have sound := ((Edited.empty {} 3 rfl rfl).edit (.add loop) handed).sound
  have takes : Takes ((Edit.add loop).perform bare).2 (.activity pull) :=
    { distinct := by decide, generated := by decide, absent := by decide }
  obtain ⟨removed, inserted, added, copied⟩ := edits_undone sound
  obtain ⟨v₁, there₁, -, back₁⟩ := removed 0 loop rfl
  obtain ⟨v₂, there₂, -, back₂⟩ := inserted 7 (.activity pull) takes
  obtain ⟨v₃, there₃, -, back₃⟩ := added _ pull List.mem_cons_self takes
  obtain ⟨owner, j, e, copy, v₄, -, -, there₄, -, -, -, -, back₄⟩ := copied 1 (by decide)
  exact ⟨_, sound, rfl, ⟨v₁, there₁, back₁⟩, ⟨v₂, there₂, back₂⟩, ⟨v₃, there₃, back₃⟩, copy, v₄, there₄, back₄⟩

end Workbench

end EncounterTimeline
