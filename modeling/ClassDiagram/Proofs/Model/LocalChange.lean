import ClassDiagram.Proofs.Model.Sound

/-! Changes near one entity: of the relationships they concern only those that have the entity as an
end. The others stay as they are, in the same order. -/

namespace ClassDiagram

inductive Model.LocalChange (entity : EntityId) (m : Model) : Model → Prop where
  | none : LocalChange entity m m
  | related {source target : EntityId} {kind : RelationshipKind}
      {sourceMultiplicity targetMultiplicity label : String} {id : RelationshipId} {next : Model}
      (touches : source = entity ∨ target = entity)
      (made : m.relate source target kind sourceMultiplicity targetMultiplicity label =
        .ok (id, next)) : LocalChange entity m next
  | unrelated {r : Relationship} (present : r ∈ m.relationships.items)
      (touches : r.touches entity = true) : LocalChange entity m (m.unrelate r.id)
  | turned {r : Relationship} {kind : RelationshipKind} {next : Model}
      (present : r ∈ m.relationships.items) (touches : r.touches entity = true)
      (made : m.setKind r.id kind = .ok next) : LocalChange entity m next

namespace Model

/-- What a local change does to the relationships: those apart from the entity stay as they are,
and new ones come last. -/
structure Revision (entity : EntityId) (m next : Model) where
  stays : Relationship → Bool
  edit : Relationship → Relationship
  added : List Relationship
  items : next.relationships.items = (m.relationships.items.filter stays).map edit ++ added
  id_edit : ∀ r, (edit r).id = r.id
  touches_edit : ∀ r ∈ m.relationships.items, (edit r).touches entity = r.touches entity
  apart : ∀ r ∈ m.relationships.items, r.touches entity = false → stays r = true ∧ edit r = r
  added_touches : ∀ r ∈ added, r.touches entity = true
  added_fresh : ∀ r ∈ added, ∀ old ∈ m.relationships.items, old.id ≠ r.id

variable {m next : Model} {entity : EntityId}

theorem LocalChange.sound (change : m.LocalChange entity next) (h : m.Sound) : next.Sound := by
  cases change with
  | none => exact h
  | related touches made =>
      obtain ⟨⟨s, sourceFound⟩, ⟨t, targetFound⟩, -, rfl⟩ := relate_eq_ok.mp made
      exact h.relate _ _ _ _ (Entities.contains_of_find? sourceFound)
        (Entities.contains_of_find? targetFound)
  | unrelated present touches => exact h.unrelate _
  | @turned r kind _ present touches made =>
      have performed : m.perform (.setKind r.id kind) = .ok (.done, next) := by
        rw [perform, made]
        rfl
      exact (change_of_perform performed).sound h

theorem setKind_eq_ok {id : RelationshipId} {kind : RelationshipKind} :
    m.setKind id kind = .ok next ↔
      ∃ r, m.relationships.find? id = some r ∧
        next = { m with relationships := m.relationships.replace { r with kind } } := by
  simp only [setKind, Relationships.setKind, bind_eq_ok, pure_eq_ok, Relationships.require_eq_ok]
  constructor
  · rintro ⟨_, ⟨r, found, rfl⟩, rfl⟩
    exact ⟨r, found, rfl⟩
  · rintro ⟨r, found, rfl⟩
    exact ⟨_, ⟨r, found, rfl⟩, rfl⟩

namespace Revision

def unchanged (entity : EntityId) (m : Model) : m.Revision entity m where
  stays _ := true
  edit := id
  added := []
  items := by simp
  id_edit _ := rfl
  touches_edit _ _ := rfl
  apart _ _ _ := ⟨rfl, rfl⟩
  added_touches := by simp
  added_fresh := by simp

def append (h : m.Sound) (new : Relationship)
    (items : next.relationships.items = m.relationships.items ++ [new])
    (number : new.id.number = m.relationships.ids.fresh) (touches : new.touches entity = true) :
    m.Revision entity next where
  stays _ := true
  edit := id
  added := [new]
  items := by simp [items]
  id_edit _ := rfl
  touches_edit _ _ := rfl
  apart _ _ _ := ⟨rfl, rfl⟩
  added_touches := by simpa using touches
  added_fresh := by
    intro r member old present same
    have drawn := h.filed.numbered.drawn old present
    rw [same, List.mem_singleton.mp member, number] at drawn
    exact Nat.not_succ_le_self _ drawn

def unrelate (h : m.Sound) {r : Relationship} (present : r ∈ m.relationships.items)
    (touches : r.touches entity = true) : m.Revision entity (m.unrelate r.id) where
  stays other := other.id ≠ r.id
  edit := id
  added := []
  items := by
    rw [List.map_id, List.append_nil]
    exact h.filed.items_remove r.id
  id_edit _ := rfl
  touches_edit _ _ := rfl
  apart := by
    intro other there apart
    refine ⟨?_, rfl⟩
    have differs : other.id ≠ r.id := by
      intro same
      rw [h.filed.eq_of_id present there same, touches] at apart
      cases apart
    simpa using differs
  added_touches := by simp
  added_fresh := by simp

def replace (h : m.Sound) {old new : Relationship} (present : old ∈ m.relationships.items)
    (touches : old.touches entity = true) (id_eq : new.id = old.id)
    (touches_eq : new.touches entity = old.touches entity) :
    m.Revision entity { m with relationships := m.relationships.replace new } where
  stays _ := true
  edit other := if other.id = new.id then new else other
  added := []
  items := by simp [Relationships.replace]
  id_edit := by
    intro other
    split
    next here => exact here.symm
    next => rfl
  touches_edit := by
    intro other there
    split
    next here => rw [touches_eq, h.filed.eq_of_id present there (here.trans id_eq)]
    next => rfl
  apart := by
    intro other there apart
    refine ⟨rfl, if_neg fun here => ?_⟩
    rw [h.filed.eq_of_id present there (here.trans id_eq), touches] at apart
    cases apart
  added_touches := by simp
  added_fresh := by simp

theorem mem_items (revision : m.Revision entity next) (r : Relationship) :
    r ∈ next.relationships.items ↔
      (∃ old ∈ m.relationships.items, revision.stays old = true ∧ revision.edit old = r) ∨
        r ∈ revision.added := by
  rw [revision.items, List.mem_append, List.mem_map]
  simp only [List.mem_filter, and_assoc]

theorem filter_eq (revision : m.Revision entity next) {choice : Relationship → Bool}
    (apart : ∀ r, choice r = true → r.touches entity = false) :
    next.relationships.items.filter choice = m.relationships.items.filter choice := by
  have none : revision.added.filter choice = [] := by
    rw [List.filter_eq_nil_iff]
    intro r new chosen
    have touches := revision.added_touches r new
    rw [apart r chosen] at touches
    cases touches
  have chosen : ∀ r ∈ m.relationships.items,
      (choice (revision.edit r) && revision.stays r) = choice r := by
    intro r there
    by_cases touches : r.touches entity = true
    · have old : choice r = false := by
        by_contra taken
        rw [apart r (by simpa using taken)] at touches
        cases touches
      have new : choice (revision.edit r) = false := by
        by_contra taken
        rw [← revision.touches_edit r there, apart _ (by simpa using taken)] at touches
        cases touches
      rw [old, new, Bool.false_and]
    · obtain ⟨stays, same⟩ := revision.apart r there (by simpa using touches)
      rw [stays, same, Bool.and_true]
  have kept : (m.relationships.items.filter choice).map revision.edit =
      m.relationships.items.filter choice := by
    calc
      (m.relationships.items.filter choice).map revision.edit
          = (m.relationships.items.filter choice).map id := by
        refine List.map_congr_left fun r member => ?_
        obtain ⟨there, taken⟩ := List.mem_filter.mp member
        exact (revision.apart r there (apart r taken)).2
      _ = m.relationships.items.filter choice := List.map_id _
  rw [revision.items, List.filter_append, none, List.append_nil, List.filter_map,
    List.filter_filter]
  simp only [Function.comp_apply]
  rw [List.filter_congr chosen, kept]

theorem mem_apart (revision : m.Revision entity next) {r : Relationship}
    (member : r ∈ next.relationships.items) (apart : r.touches entity = false) :
    r ∈ m.relationships.items := by
  have chosen : r ∈ next.relationships.items.filter (!·.touches entity) :=
    List.mem_filter.mpr ⟨member, by simp [apart]⟩
  rw [revision.filter_eq (by simp)] at chosen
  exact List.mem_of_mem_filter chosen

theorem stays_iff (revision : m.Revision entity next) (h : m.Sound) (h' : next.Sound)
    {r : Relationship} (there : r ∈ m.relationships.items) :
    revision.stays r = (next.relationships.find? r.id).isSome := by
  rw [Bool.eq_iff_iff, Option.isSome_iff_exists]
  constructor
  · intro stays
    refine ⟨revision.edit r, h'.filed.find?_eq_some.mpr ⟨?_, revision.id_edit r⟩⟩
    exact (revision.mem_items _).mpr (.inl ⟨r, there, stays, rfl⟩)
  · rintro ⟨x, found⟩
    obtain ⟨present, same⟩ := h'.filed.find?_eq_some.mp found
    rcases (revision.mem_items x).mp present with ⟨old, inside, stays, rfl⟩ | new
    · rw [revision.id_edit] at same
      rwa [h.filed.eq_of_id there inside same] at stays
    · exact absurd same.symm (revision.added_fresh x new r there)

theorem filter_added (revision : m.Revision entity next) (h : m.Sound) :
    (next.relationships.items.filter (·.touches entity)).filter
        (fun r => (m.relationships.find? r.id).isNone) = revision.added := by
  have old : ∀ r ∈ (m.relationships.items.filter revision.stays).map revision.edit,
      ¬ (m.relationships.find? r.id).isNone = true := by
    intro r member
    obtain ⟨before, kept, rfl⟩ := List.mem_map.mp member
    have found := h.filed.find?_eq_some.mpr ⟨List.mem_of_mem_filter kept, rfl⟩
    simp [revision.id_edit, found]
  have new : ∀ r ∈ revision.added,
      ((m.relationships.find? r.id).isNone && r.touches entity) = true := by
    intro r member
    have missing : m.relationships.find? r.id = none :=
      Relationships.find?_eq_none.mpr (revision.added_fresh r member)
    simp [missing, revision.added_touches r member]
  rw [List.filter_filter, revision.items, List.filter_append, List.filter_eq_self.mpr new,
    List.filter_eq_nil_iff.mpr, List.nil_append]
  intro r member both
  exact old r member (Bool.and_eq_true_iff.mp both).1

end Revision

theorem LocalChange.exists_revision (change : m.LocalChange entity next) (h : m.Sound) :
    Nonempty (m.Revision entity next) := by
  cases change with
  | none => exact ⟨.unchanged entity m⟩
  | related touches made =>
      obtain ⟨-, -, -, rfl⟩ := relate_eq_ok.mp made
      exact ⟨.append h _ rfl rfl (by simpa [Relationship.touches] using touches)⟩
  | unrelated present touches => exact ⟨.unrelate h present touches⟩
  | turned present touches made =>
      obtain ⟨old, found, rfl⟩ := setKind_eq_ok.mp made
      obtain ⟨there, same⟩ := h.filed.find?_eq_some.mp found
      obtain rfl := h.filed.eq_of_id present there same
      exact ⟨.replace h present touches rfl rfl⟩

end Model

end ClassDiagram
