import ClassDiagram.Model.Relationships
import Mathlib.Data.List.Sort

/-! Indices from entities to the ids of relationships, and the sorting that restores the insertion
order of ids taken from two entries. -/

namespace ClassDiagram

namespace Index

theorem ids_cons (e entity : EntityId) (ids : List RelationshipId) (rest : Index) :
    Index.ids ((e, ids) :: rest) entity = if entity = e then ids else rest.ids entity := by
  unfold Index.ids
  rw [List.lookup_cons]
  by_cases here : entity = e
  · simp [here]
  · have missed : (entity == e) = false := by simpa using here
    simp [here, missed]

theorem ids_of_not_mem {index : Index} {entity : EntityId} (absent : entity ∉ index.map (·.1)) :
    index.ids entity = [] := by
  induction index with
  | nil => rfl
  | cons head tail ih =>
      rw [List.map_cons, List.mem_cons, not_or] at absent
      rw [ids_cons, if_neg absent.1]
      exact ih absent.2

theorem ids_insert (index : Index) (entity other : EntityId) (id : RelationshipId) :
    (index.insert entity id).ids other =
      if other = entity then index.ids other ++ [id] else index.ids other := by
  induction index with
  | nil =>
      rw [insert, ids_cons]
      rfl
  | cons head tail ih =>
      obtain ⟨e, ids⟩ := head
      rw [insert]
      by_cases here : e = entity
      · subst here
        by_cases sought : other = e <;> simp [ids_cons, sought]
      · by_cases sought : other = e
        · simp [here, ids_cons, sought]
        · simp [here, ids_cons, sought, ih]

theorem keys_insert (index : Index) (entity other : EntityId) (id : RelationshipId) :
    other ∈ (index.insert entity id).map (·.1) ↔ other = entity ∨ other ∈ index.map (·.1) := by
  induction index with
  | nil => simp [insert]
  | cons head tail ih =>
      rw [insert]
      by_cases here : head.1 = entity
      · simp [here]
      · simp only [here, ↓reduceIte, List.map_cons, List.mem_cons, ih]
        exact or_left_comm

theorem distinct_insert {index : Index} (distinct : (index.map (·.1)).Nodup) (entity : EntityId)
    (id : RelationshipId) : ((index.insert entity id).map (·.1)).Nodup := by
  induction index with
  | nil => simp [insert]
  | cons head tail ih =>
      rw [List.map_cons, List.nodup_cons] at distinct
      rw [insert]
      by_cases here : head.1 = entity
      · simpa [here] using distinct
      · simp only [here, ↓reduceIte, List.map_cons, List.nodup_cons]
        refine ⟨?_, ih distinct.2⟩
        rw [keys_insert, not_or]
        exact ⟨here, distinct.1⟩

theorem occupied_insert {index : Index} (occupied : ∀ entry ∈ index, entry.2 ≠ [])
    (entity : EntityId) (id : RelationshipId) :
    ∀ entry ∈ index.insert entity id, entry.2 ≠ [] := by
  induction index with
  | nil => simp [insert]
  | cons head tail ih =>
      rw [List.forall_mem_cons] at occupied
      rw [insert]
      split
      · rw [List.forall_mem_cons]
        exact ⟨by simp, occupied.2⟩
      · rw [List.forall_mem_cons]
        exact ⟨occupied.1, ih occupied.2⟩

theorem erase_cons (e entity : EntityId) (ids : List RelationshipId) (rest : Index)
    (id : RelationshipId) :
    Index.erase entity id ((e, ids) :: rest) =
      if e = entity then
        if ids.filter (· ≠ id) = [] then rest else (e, ids.filter (· ≠ id)) :: rest
      else (e, ids) :: Index.erase entity id rest := by
  rw [erase]
  simp only [List.isEmpty_iff]

theorem ids_erase {index : Index} (distinct : (index.map (·.1)).Nodup) (entity other : EntityId)
    (id : RelationshipId) :
    (index.erase entity id).ids other =
      if other = entity then (index.ids other).filter (· ≠ id) else index.ids other := by
  induction index with
  | nil => by_cases sought : other = entity <;> simp [erase, sought, Index.ids]
  | cons head tail ih =>
      obtain ⟨e, ids⟩ := head
      rw [List.map_cons, List.nodup_cons] at distinct
      rw [erase_cons, ids_cons]
      by_cases here : e = entity
      · subst here
        rw [if_pos rfl]
        by_cases sought : other = e
        · subst sought
          rw [if_pos rfl, if_pos rfl]
          split
          next gone => rw [gone, ids_of_not_mem distinct.1]
          next => rw [ids_cons, if_pos rfl]
        · rw [if_neg sought, if_neg sought]
          split
          next => rfl
          next => rw [ids_cons, if_neg sought]
      · rw [if_neg here, ids_cons, ih distinct.2]
        by_cases sought : other = e
        · have missed : other ≠ entity := fun same => here (sought.symm.trans same)
          rw [if_pos sought, if_neg missed, if_pos sought]
        · rw [if_neg sought, if_neg sought]

theorem keys_erase (index : Index) (entity : EntityId) (id : RelationshipId) :
    ((index.erase entity id).map (·.1)).Sublist (index.map (·.1)) := by
  induction index with
  | nil => exact .slnil
  | cons head tail ih =>
      rw [erase_cons]
      split
      · split
        · exact .cons _ (.refl _)
        · exact .refl _
      · exact ih.cons_cons _

theorem occupied_erase {index : Index} (occupied : ∀ entry ∈ index, entry.2 ≠ [])
    (entity : EntityId) (id : RelationshipId) :
    ∀ entry ∈ index.erase entity id, entry.2 ≠ [] := by
  induction index with
  | nil => simp [erase]
  | cons head tail ih =>
      rw [List.forall_mem_cons] at occupied
      rw [erase_cons]
      split
      · split
        next => exact occupied.2
        next left => exact List.forall_mem_cons.mpr ⟨left, occupied.2⟩
      · exact List.forall_mem_cons.mpr ⟨occupied.1, ih occupied.2⟩

end Index

section Increasing

/-- The loop keeps, of each run of equal ids, the one it holds in its hand. -/
theorem mem_eraseReps_loop (held : RelationshipId) (ids done : List RelationshipId)
    (id : RelationshipId) :
    id ∈ List.eraseRepsBy.loop (· == ·) held ids done ↔ id ∈ held :: ids ∨ id ∈ done := by
  induction ids generalizing held done with
  | nil => simp [List.eraseRepsBy.loop, or_comm]
  | cons next rest ih =>
      rw [List.eraseRepsBy.loop]
      split
      next same =>
        rw [ih, ← beq_iff_eq.mp same]
        simp
      next =>
        rw [ih]
        simp only [List.mem_cons]
        tauto

theorem increasing_eraseReps_loop (held : RelationshipId) (ids done : List RelationshipId)
    (sorted : (held :: ids).Pairwise (·.number ≤ ·.number))
    (kept : (held :: done).Pairwise (·.number > ·.number)) :
    (List.eraseRepsBy.loop (· == ·) held ids done).Pairwise (·.number < ·.number) := by
  induction ids generalizing held done with
  | nil =>
      rw [List.eraseRepsBy.loop, List.pairwise_reverse]
      exact kept
  | cons next rest ih =>
      have least := (List.pairwise_cons.mp sorted).1
      have tail := (List.pairwise_cons.mp sorted).2
      rw [List.eraseRepsBy.loop]
      split
      next same =>
        have equal : held = next := beq_iff_eq.mp same
        exact ih held done (equal ▸ tail) kept
      next other =>
        have less : held.number < next.number := by
          refine Nat.lt_of_le_of_ne (least next (by simp)) fun same => ?_
          rw [RelationshipId.ext same, beq_self_eq_true] at other
          exact absurd other (by decide)
        refine ih next (held :: done) tail (List.pairwise_cons.mpr ⟨?_, kept⟩)
        intro earlier member
        rcases List.mem_cons.mp member with rfl | before
        · exact less
        · exact Nat.lt_trans ((List.pairwise_cons.mp kept).1 earlier before) less

theorem mem_increasing {ids : List RelationshipId} {id : RelationshipId} :
    id ∈ increasing ids ↔ id ∈ ids := by
  have sorted : (id ∈ ids.mergeSort fun a b => decide (a.number ≤ b.number)) ↔ id ∈ ids :=
    List.mem_mergeSort
  rw [← sorted, increasing]
  cases ids.mergeSort fun a b => decide (a.number ≤ b.number) with
  | nil => rfl
  | cons head tail => simp [List.eraseReps, List.eraseRepsBy, mem_eraseReps_loop]

theorem pairwise_increasing (ids : List RelationshipId) :
    (increasing ids).Pairwise (·.number < ·.number) := by
  have sorted : (ids.mergeSort fun a b => decide (a.number ≤ b.number)).Pairwise
      fun a b => decide (a.number ≤ b.number) = true :=
    List.pairwise_mergeSort (by simp; omega) (by simp; omega) ids
  simp only [decide_eq_true_eq] at sorted
  unfold increasing
  revert sorted
  cases ids.mergeSort fun a b => decide (a.number ≤ b.number) with
  | nil => exact fun _ => .nil
  | cons head tail =>
      exact fun sorted =>
        increasing_eraseReps_loop head tail [] sorted (List.pairwise_singleton _ _)

theorem increasing_eq {ids sorted : List RelationshipId}
    (grows : sorted.Pairwise (·.number < ·.number)) (same : ∀ id, id ∈ ids ↔ id ∈ sorted) :
    increasing ids = sorted := by
  let less (a b : RelationshipId) : Prop := a.number < b.number
  have irreflexive : Std.Irrefl less := ⟨fun a => Nat.lt_irrefl a.number⟩
  have antisymmetric : Std.Antisymm less :=
    ⟨fun _ _ ab ba => absurd (Nat.lt_trans ab ba) (Nat.lt_irrefl _)⟩
  refine List.Pairwise.eq_of_mem_iff (r := less) (pairwise_increasing ids) grows fun id => ?_
  rw [mem_increasing, same]

end Increasing

end ClassDiagram
