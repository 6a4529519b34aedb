import ClassDiagram.Proofs.Lists
import ClassDiagram.Proofs.Model.Sound
import Mathlib.Data.List.Perm.Basic

/-! Removing entities. An entity goes with what is nested in it and with the relationships of both;
everything else stays as it is and where it is. What is left of the relationships is known by its
items alone, indices included, so the order of removals does not matter. -/

namespace ClassDiagram

namespace Index

variable {index other : Index}

theorem ids_of_mem (distinct : (index.map (·.1)).Nodup) {entry : EntityId × List RelationshipId}
    (member : entry ∈ index) : index.ids entry.1 = entry.2 := by
  unfold Index.ids
  rw [lookup_of_mem distinct member, Option.getD_some]

theorem eq_map_ids (distinct : (index.map (·.1)).Nodup) :
    index = (index.map (·.1)).map fun entity => (entity, index.ids entity) := by
  rw [List.map_map]
  calc
    index = index.map id := (List.map_id index).symm
    _ = _ := List.map_congr_left fun entry member => by simp [ids_of_mem distinct member]

theorem Files.mem_keys {ending : Relationship → EntityId} {items : List Relationship}
    (h : index.Files ending items) {entity : EntityId} :
    entity ∈ index.map (·.1) ↔ ∃ r ∈ items, ending r = entity := by
  constructor
  · intro key
    obtain ⟨entry, member, rfl⟩ := List.mem_map.mp key
    have occupied := h.occupied entry member
    rw [← ids_of_mem h.distinct member, h.exact] at occupied
    obtain ⟨id, inside⟩ := List.exists_mem_of_ne_nil _ occupied
    obtain ⟨r, filed, -⟩ := List.mem_map.mp inside
    obtain ⟨present, here⟩ := List.mem_filter.mp filed
    exact ⟨r, present, by simpa using here⟩
  · rintro ⟨r, present, rfl⟩
    by_contra absent
    have empty := h.exact (ending r)
    rw [ids_of_not_mem absent, eq_comm, List.map_eq_nil_iff, List.filter_eq_nil_iff] at empty
    simpa using empty r present

theorem Files.unique {ending : Relationship → EntityId} {items : List Relationship}
    {keys : List EntityId} (h : index.Files ending items) (h' : other.Files ending items)
    (distinct : keys.Nodup) (part : (index.map (·.1)).Sublist keys)
    (part' : (other.map (·.1)).Sublist keys) : index = other := by
  have same : index.map (·.1) = other.map (·.1) := by
    apply (distinct.perm_iff_eq_of_sublist part part').mp
    apply (List.perm_ext_iff_of_nodup h.distinct h'.distinct).mpr
    intro entity
    rw [h.mem_keys, h'.mem_keys]
  rw [eq_map_ids h.distinct, eq_map_ids h'.distinct, same]
  apply List.map_congr_left
  intro entity _
  rw [h.exact, h'.exact]

end Index

namespace Relationships

variable {rs left : Relationships}

/-- What is left after removals: no number is drawn, and no entry of an index is added or moved. -/
structure Remnant (rs left : Relationships) : Prop where
  ids : left.ids = rs.ids
  outgoing : (left.outgoing.map (·.1)).Sublist (rs.outgoing.map (·.1))
  incoming : (left.incoming.map (·.1)).Sublist (rs.incoming.map (·.1))

theorem Remnant.refl (rs : Relationships) : rs.Remnant rs :=
  ⟨rfl, .refl _, .refl _⟩

theorem Remnant.remove (h : rs.Remnant left) (id : RelationshipId) :
    rs.Remnant (left.remove id) := by
  unfold Relationships.remove
  split
  next => exact h
  next r _ =>
    exact
      { ids := h.ids
        outgoing := (Index.keys_erase _ _ _).trans h.outgoing
        incoming := (Index.keys_erase _ _ _).trans h.incoming }

theorem Remnant.removeAll (h : rs.Remnant left) (ids : List RelationshipId) :
    rs.Remnant (ids.foldl Relationships.remove left) := by
  induction ids generalizing left with
  | nil => exact h
  | cons id ids ih => exact ih (h.remove id)

theorem Remnant.detachAll (h : rs.Remnant left) (entities : List EntityId) :
    rs.Remnant (entities.foldl Relationships.detach left) := by
  induction entities generalizing left with
  | nil => exact h
  | cons entity entities ih => exact ih (h.removeAll _)

theorem Remnant.unique {left' : Relationships} (h : rs.Remnant left) (filed : rs.Filed)
    (h' : rs.Remnant left') (leftFiled : left.Filed) (leftFiled' : left'.Filed)
    (same : left.items = left'.items) : left = left' := by
  have outgoing : left.outgoing = left'.outgoing :=
    leftFiled.outgoing.unique (same ▸ leftFiled'.outgoing) filed.outgoing.distinct h.outgoing
      h'.outgoing
  have incoming : left.incoming = left'.incoming :=
    leftFiled.incoming.unique (same ▸ leftFiled'.incoming) filed.incoming.distinct h.incoming
      h'.incoming
  have ids : left.ids = left'.ids := h.ids.trans h'.ids.symm
  cases left
  cases left'
  simp_all

end Relationships

def Entities.withNested (es : Entities) (id : EntityId) : List Entity :=
  es.items.filter fun e => e.id = id ∨ e.parent = some id

theorem Entities.mem_withNested {es : Entities} {id : EntityId} {e : Entity} :
    e ∈ es.withNested id ↔ e ∈ es.items ∧ (e.id = id ∨ e.parent = some id) := by
  simp [withNested]

namespace Model

variable {m : Model}

theorem Sound.mem_doomed_iff (h : m.Sound) {id x : EntityId} :
    x ∈ m.entities.doomed id ↔ ∃ e ∈ m.entities.withNested id, e.id = x := by
  constructor
  · intro doomed
    unfold Entities.doomed at doomed
    split at doomed
    next live =>
      rcases List.mem_append.mp doomed with nested | self
      · obtain ⟨e, child, rfl⟩ := List.mem_map.mp nested
        obtain ⟨present, inside⟩ := Entities.mem_children.mp child
        exact ⟨e, Entities.mem_withNested.mpr ⟨present, .inr inside⟩, rfl⟩
      · obtain ⟨e, present, same⟩ := Entities.contains_iff_mem.mp live
        rw [List.mem_singleton.mp self]
        exact ⟨e, Entities.mem_withNested.mpr ⟨present, .inl same⟩, same⟩
    next => cases doomed
  · rintro ⟨e, goes, rfl⟩
    obtain ⟨present, rfl | inside⟩ := Entities.mem_withNested.mp goes
    · exact Entities.self_mem_doomed (Entities.contains_of_mem present)
    · exact Entities.child_mem_doomed present inside (h.parent_live present inside)

theorem Sound.entities_removeEntity (h : m.Sound) (id : EntityId) :
    (m.removeEntity id).entities =
      { m.entities with items := m.entities.items.filter (· ∉ m.entities.withNested id) } := by
  have kept : ∀ e ∈ m.entities.items,
      (!(m.entities.doomed id).contains e.id) = decide (e ∉ m.entities.withNested id) := by
    intro e present
    rw [Bool.eq_iff_iff, Bool.not_eq_true', List.contains_eq_mem, decide_eq_false_iff_not,
      decide_eq_true_iff, not_iff_not, h.mem_doomed_iff]
    constructor
    · rintro ⟨other, goes, same⟩
      have equal : other = e :=
        h.ordered.eq_of_id (Entities.mem_withNested.mp goes).1 present same
      exact equal ▸ goes
    · intro goes
      exact ⟨e, goes, rfl⟩
  show m.entities.remove (m.entities.doomed id) = _
  unfold Entities.remove
  rw [List.filter_congr kept]

theorem Sound.relationships_removeEntity (h : m.Sound) (id : EntityId) :
    (m.removeEntity id).relationships.items =
      m.relationships.items.filter fun r => ∀ e ∈ m.entities.withNested id, ¬ r.touches e.id := by
  show ((m.entities.doomed id).foldl Relationships.detach m.relationships).items = _
  rw [(h.filed.detachAll _).2]
  apply List.filter_congr
  intro r _
  rw [decide_eq_decide, h.mem_doomed_iff, h.mem_doomed_iff]
  simp only [Relationship.touches, Bool.or_eq_true, decide_eq_true_eq, not_or, not_exists, not_and]
  constructor
  · rintro ⟨source, target⟩ e goes
    exact ⟨fun same => source e goes same.symm, fun same => target e goes same.symm⟩
  · intro apart
    exact ⟨fun e goes same => (apart e goes).1 same.symm,
      fun e goes same => (apart e goes).2 same.symm⟩

theorem remnant_removeEntity (m : Model) (id : EntityId) :
    m.relationships.Remnant (m.removeEntity id).relationships :=
  (Relationships.Remnant.refl _).detachAll _

theorem removeEntity_of_unknown {id : EntityId} (unknown : m.entities.contains id = false) :
    m.removeEntity id = m := by
  have none : m.entities.doomed id = [] := by simp [Entities.doomed, unknown]
  simp [removeEntity, none, Entities.remove]

theorem Sound.removeEntity_twice (h : m.Sound) (id : EntityId) :
    (m.removeEntity id).removeEntity id = m.removeEntity id := by
  apply removeEntity_of_unknown
  apply Bool.eq_false_iff.mpr
  intro live
  obtain ⟨e, present, same⟩ := Entities.contains_iff_mem.mp live
  rw [h.entities_removeEntity] at present
  obtain ⟨old, stays⟩ := List.mem_filter.mp present
  have goes : e ∈ m.entities.withNested id := Entities.mem_withNested.mpr ⟨old, .inl same⟩
  simp [goes] at stays

/-- What goes with a second entity is what went with it before, but for what is gone already. -/
theorem Sound.withNested_removeEntity (h : m.Sound) (a b : EntityId) :
    (m.removeEntity a).entities.withNested b =
      (m.entities.withNested b).filter (· ∉ m.entities.withNested a) := by
  unfold Entities.withNested
  rw [h.entities_removeEntity, List.filter_filter, List.filter_filter]
  apply List.filter_congr
  intro e _
  exact Bool.and_comm _ _

theorem Sound.entities_removeBoth (h : m.Sound) (a b : EntityId) :
    ((m.removeEntity a).removeEntity b).entities =
      { m.entities with
        items := m.entities.items.filter fun e =>
          e ∉ m.entities.withNested a ∧ e ∉ m.entities.withNested b } := by
  rw [(h.remove a).entities_removeEntity, h.withNested_removeEntity, h.entities_removeEntity,
    List.filter_filter]
  dsimp only
  congr 1
  apply List.filter_congr
  intro e _
  rw [Bool.eq_iff_iff]
  simp only [List.mem_filter, Bool.and_eq_true, decide_eq_true_eq]
  tauto

theorem Sound.relationships_removeBoth (h : m.Sound) (a b : EntityId) :
    ((m.removeEntity a).removeEntity b).relationships.items =
      m.relationships.items.filter fun r =>
        (∀ e ∈ m.entities.withNested a, ¬ r.touches e.id) ∧
          ∀ e ∈ m.entities.withNested b, ¬ r.touches e.id := by
  rw [(h.remove a).relationships_removeEntity, h.withNested_removeEntity,
    h.relationships_removeEntity, List.filter_filter]
  apply List.filter_congr
  intro r _
  rw [Bool.eq_iff_iff]
  simp only [List.mem_filter, Bool.and_eq_true, decide_eq_true_eq]
  constructor
  · rintro ⟨second, first⟩
    refine ⟨first, fun e goes => ?_⟩
    by_cases early : e ∈ m.entities.withNested a
    · exact first e early
    · exact second e ⟨goes, early⟩
  · rintro ⟨first, second⟩
    exact ⟨fun e goes => second e goes.1, first⟩

theorem Sound.removeEntity_comm (h : m.Sound) (a b : EntityId) :
    (m.removeEntity a).removeEntity b = (m.removeEntity b).removeEntity a := by
  have entities : ((m.removeEntity a).removeEntity b).entities =
      ((m.removeEntity b).removeEntity a).entities := by
    rw [h.entities_removeBoth, h.entities_removeBoth]
    simp only [and_comm]
  have items : ((m.removeEntity a).removeEntity b).relationships.items =
      ((m.removeEntity b).removeEntity a).relationships.items := by
    rw [h.relationships_removeBoth, h.relationships_removeBoth]
    simp only [and_comm]
  have relationships : ((m.removeEntity a).removeEntity b).relationships =
      ((m.removeEntity b).removeEntity a).relationships := by
    have first := (m.remnant_removeEntity a).detachAll ((m.removeEntity a).entities.doomed b)
    have second := (m.remnant_removeEntity b).detachAll ((m.removeEntity b).entities.doomed a)
    exact first.unique h.filed second ((h.remove a).remove b).filed ((h.remove b).remove a).filed
      items
  exact congrArg₂ Model.mk entities relationships

/-- In every model that operations lead to, removing an entity takes out exactly this entity and
what is nested in it, and exactly the relationships that end at one of these. What is left keeps its
order, and no number is drawn. Removing it again changes nothing, and neither does removing two
entities in the other order. -/
theorem run_removeEntity (operations : List Operation) (a b : EntityId) :
    let m := Model.empty.run operations
    let gone := m.entities.withNested a
    (m.removeEntity a).entities =
        { m.entities with items := m.entities.items.filter (· ∉ gone) } ∧
      (m.removeEntity a).relationships.items =
        m.relationships.items.filter (fun r => ∀ e ∈ gone, ¬ r.touches e.id) ∧
      (m.removeEntity a).relationships.ids = m.relationships.ids ∧
      (m.removeEntity a).removeEntity a = m.removeEntity a ∧
      (m.removeEntity a).removeEntity b = (m.removeEntity b).removeEntity a := by
  intro m gone
  have h : m.Sound := sound_run operations
  exact ⟨h.entities_removeEntity a, h.relationships_removeEntity a,
    (m.remnant_removeEntity a).ids, h.removeEntity_twice a, h.removeEntity_comm a b⟩

end Model

end ClassDiagram
