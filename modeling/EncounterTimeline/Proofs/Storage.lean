import EncounterTimeline.Storage
import Mathlib.Data.List.Basic

/-! # What storage keeps

What was written to a path is read from it again. Writing and creating directories leave alone what stands elsewhere, and
once the directory of a path was created, a file can be written there unless a directory stands in its place.
-/
namespace EncounterTimeline

namespace Storage

variable {s t : Storage} {route other done rest : Route} {entry : StorageEntry} {path : String}

theorem entryAt_put (h : route ≠ []) : (s.put route entry).entryAt route = some entry := by
  rw [entryAt, if_neg (by simpa using h), put, List.lookup_cons_self]

theorem lookup_filter_ne (h : other ≠ route) (l : List (Route × StorageEntry)) :
    (l.filter fun p => p.1 ≠ route).lookup other = l.lookup other := by
  induction l with
  | nil => rfl
  | cons p l ih =>
    by_cases struck : p.1 = route
    · have passed : (other == p.1) = false := beq_false_of_ne (struck ▸ h)
      rw [List.filter_cons_of_neg (by simpa using struck), List.lookup_cons, passed, ih]
    · rw [List.filter_cons_of_pos (by simpa using struck), List.lookup_cons, List.lookup_cons, ih]

theorem entryAt_put_of_ne (h : other ≠ route) : (s.put route entry).entryAt other = s.entryAt other := by
  have passed : (other == route) = false := beq_false_of_ne h
  rw [entryAt, entryAt, put, List.lookup_cons, passed, lookup_filter_ne h]

/-- A way can be followed if a directory stands at every name but the last. -/
theorem walk_eq_ok {x : Option StorageEntry} : s.walk done rest = .ok x ↔
    (∀ front name back, rest = front ++ name :: back → s.entryAt (done ++ front) = some .directory) ∧
      s.entryAt (done ++ rest) = x := by
  induction rest generalizing done with
  | nil => simp [walk]
  | cons name rest ih =>
    rw [walk]
    split
    case h_1 here =>
      rw [ih, List.append_assoc, List.singleton_append]
      -- A front of the whole way is empty, or it is the first name and a front of what follows.
      refine and_congr_left fun _ => ⟨fun h front next back same => ?_, fun h front next back same => ?_⟩
      · cases front with
        | nil => rwa [List.append_nil]
        | cons first front =>
          rw [List.cons_append] at same
          obtain ⟨rfl, after⟩ := List.cons.inj same
          simpa using h front next back after
      · subst same
        simpa using h (name :: front) next back rfl
    all_goals
      rename_i here
      refine ⟨by simp, fun h => ?_⟩
      have first := h.1 [] name rest rfl
      rw [List.append_nil, here] at first
      cases first

theorem find_eq_ok {x : Option StorageEntry} : s.find path = .ok x ↔
    (∀ front name back, Route.ofPath path = front ++ name :: back → s.entryAt front = some .directory) ∧
      s.entryAt (Route.ofPath path) = x := walk_eq_ok

/-- Putting a file in the place of what is no directory leaves the way there. -/
theorem find_put {x : Option StorageEntry} (h : s.find path = .ok x) (free : x ≠ some .directory) :
    (s.put (Route.ofPath path) entry).find path = .ok (some entry) := by
  obtain ⟨way, rfl⟩ := find_eq_ok.mp h
  refine find_eq_ok.mpr ⟨fun front name back same => ?_, ?_⟩
  · have shorter : front ≠ Route.ofPath path := by
      rw [same]
      simp
    rw [entryAt_put_of_ne shorter]
    exact way front name back same
  · refine entryAt_put fun empty => ?_
    rw [empty] at free
    exact free rfl

theorem update_eq_ok {f : Text.Bytes → Text.Bytes} (h : s.update path f = .ok t) :
    ∃ x old, s.find path = .ok x ∧ (x = some (.file old) ∨ x = none ∧ old = []) ∧
      t = s.put (Route.ofPath path) (.file (f old)) := by
  rw [update] at h
  split at h
  · cases h
  · cases h
  · rename_i old found
    cases h
    exact ⟨_, old, found, .inl rfl, rfl⟩
  · rename_i found
    cases h
    exact ⟨_, [], found, .inr ⟨rfl, rfl⟩, rfl⟩

theorem read_of_write {bytes : Text.Bytes} (h : s.write path bytes = .ok t) : t.read path = .ok bytes := by
  obtain ⟨x, old, found, here, rfl⟩ := update_eq_ok h
  have free : x ≠ some .directory := by rcases here with rfl | ⟨rfl, -⟩ <;> simp
  rw [read, find_put found free]

theorem write_of_find {x : Option StorageEntry} (h : s.find path = .ok x) (free : x ≠ some .directory)
    (bytes : Text.Bytes) : ∃ t, s.write path bytes = .ok t := by
  rw [write, update, h]
  cases x with
  | none => exact ⟨_, rfl⟩
  | some entry =>
    cases entry with
    | file old => exact ⟨_, rfl⟩
    | directory => exact absurd rfl free

/-- Whatever stands somewhere still stands there. -/
theorem entryAt_createFrom (h : s.createFrom done rest = .ok t) (stands : s.entryAt other = some entry) :
    t.entryAt other = some entry := by
  -- Something is put only where nothing stands, so never in this place.
  induction rest generalizing s done with
  | nil =>
    cases h
    exact stands
  | cons name rest ih =>
    rw [createFrom] at h
    split at h
    · exact ih h stands
    · cases h
    · rename_i missing
      refine ih h ?_
      rwa [entryAt_put_of_ne]
      rintro rfl
      cases stands.symm.trans missing

theorem directory_createFrom (h : s.createFrom done rest = .ok t) (stands : s.entryAt done = some .directory)
    {front back : Route} (same : rest = front ++ back) : t.entryAt (done ++ front) = some .directory := by
  induction rest generalizing s done front with
  | nil =>
    obtain ⟨rfl, -⟩ := List.append_eq_nil_iff.mp same.symm
    rw [List.append_nil]
    exact entryAt_createFrom h stands
  | cons name rest ih =>
    cases front with
    | nil =>
      rw [List.append_nil]
      exact entryAt_createFrom h stands
    | cons first front =>
      rw [List.cons_append] at same
      obtain ⟨rfl, after⟩ := List.cons.inj same
      rw [← List.singleton_append, ← List.append_assoc]
      rw [createFrom] at h
      split at h
      · rename_i here
        exact ih h here after
      · cases h
      · exact ih h (entryAt_put (by simp)) after

end Storage

namespace Route

structure Named (name : String) : Prop where
  filled : name ≠ ""
  apart : name ≠ "."
  whole : '/' ∉ name.toList

theorem not_mem_of_mem_splitOn {cs piece : List Char} (h : piece ∈ cs.splitOn '/') : '/' ∉ piece := by
  induction cs generalizing piece with
  | nil =>
    rw [List.splitOn_nil, List.mem_singleton] at h
    simp [h]
  | cons c cs ih =>
    rw [List.splitOn, List.splitOnP_cons_eq_if_modifyHead] at h
    split at h
    · rcases List.mem_cons.mp h with rfl | h
      · simp
      · exact ih h
    · rename_i other
      cases pieces : cs.splitOnP (· == '/') with
      | nil => exact absurd pieces (List.splitOnP_ne_nil _ cs)
      | cons first more =>
        rw [pieces, List.modifyHead_cons] at h
        have mem : ∀ p ∈ first :: more, '/' ∉ p := by
          rw [← pieces]
          intro p hp
          exact ih hp
        rcases List.mem_cons.mp h with rfl | h
        · rw [List.mem_cons, not_or]
          exact ⟨fun same => other (beq_iff_eq.mpr same.symm), mem first List.mem_cons_self⟩
        · exact mem piece (List.mem_cons_of_mem _ h)

theorem named_ofPath {path name : String} (h : name ∈ ofPath path) : Named name := by
  obtain ⟨listed, told⟩ := List.mem_filter.mp h
  obtain ⟨piece, cut, rfl⟩ := List.mem_map.mp listed
  obtain ⟨filled, apart⟩ := of_decide_eq_true told
  exact { filled, apart, whole := by rw [String.toList_ofList]; exact not_mem_of_mem_splitOn cut }

/-- Names put together to a path are the names of that path. -/
theorem ofPath_intercalate {names : List String} (named : ∀ name ∈ names, Named name) :
    ofPath (String.intercalate "/" names) = names := by
  cases names with
  | nil => decide
  | cons first more =>
    have whole : ∀ l ∈ (first :: more).map String.toList, '/' ∉ l := by
      intro l hl
      obtain ⟨name, listed, rfl⟩ := List.mem_map.mp hl
      exact (named name listed).whole
    have texts : ((first :: more).map String.toList).map String.ofList = first :: more := by
      rw [List.map_map]
      exact List.map_id'' (fun name => String.ofList_toList) _
    have slash : "/".toList = ['/'] := rfl
    rw [ofPath, String.toList_intercalate, slash, List.splitOn_intercalate '/' whole (by simp), texts,
      List.filter_eq_self]
    intro name listed
    exact decide_eq_true ⟨(named name listed).filled, (named name listed).apart⟩

theorem ofPath_parentPath (path : String) : ofPath (parentPath path) = (ofPath path).dropLast :=
  ofPath_intercalate fun _ listed => named_ofPath (List.dropLast_subset _ listed)

end Route

namespace Storage

variable {s t : Storage} {path : String}

/-- A file can be written: its directory stands or can be created, and no directory stands at its own place. -/
def Accepts (s : Storage) (path : String) : Prop :=
  ∃ t, s.createDirectories (Route.parentPath path) = .ok t ∧ t.find path ≠ .ok (some .directory)

/-- Once the directory of a path was created there is a way to it. -/
theorem find_of_createDirectories (h : s.createDirectories (Route.parentPath path) = .ok t) :
    t.find path = .ok (t.entryAt (Route.ofPath path)) := by
  refine find_eq_ok.mpr ⟨fun front name back same => ?_, rfl⟩
  rw [createDirectories, Route.ofPath_parentPath, same, List.dropLast_append_of_ne_nil (by simp)] at h
  exact directory_createFrom h rfl rfl

end Storage

end EncounterTimeline
