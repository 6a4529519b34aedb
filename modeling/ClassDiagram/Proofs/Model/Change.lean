import ClassDiagram.Model.Operation
import ClassDiagram.Proofs.Model.Entities
import ClassDiagram.Proofs.Model.Relationships

/-! The ways in which a model can change. Every operation that is not refused takes one of them, so
what holds after each of them holds along every run. -/

namespace ClassDiagram

inductive Entities.Edit (es : Entities) (e : Entity) : Entity → Prop where
  | titled (title : String) (filled : Text.IsFilled title) : Edit es e { e with title }
  | left (id : MemberId) : Edit es e { e with members := e.members.filter (·.1 ≠ id) }
  | revised (id : MemberId) (m : Member) :
      Edit es e
        { e with members := e.members.map fun old => if old.1 = id then (old.1, m) else old }
  | moved (id : MemberId) (index : Nat) :
      Edit es e { e with members := ClassDiagram.moveMember id index e.members }
  | nested (container : Entity) (present : container ∈ es.items)
      (isPackage : container.kind = .package) (child : e.kind ≠ .package) :
      Edit es e { e with parent := some container.id }
  | unnested : Edit es e { e with parent := none }

inductive Entities.Change (es : Entities) : Entities → Prop where
  | created (kind : EntityKind) (title : String) (filled : Text.IsFilled title) :
      Change es
        { ids := es.ids.advance
          items := es.items ++ [{ id := ⟨es.ids.fresh⟩, kind, title }] }
  | joined (e : Entity) (m : Member) (present : e ∈ es.items)
      (holds : e.kind.holdsMembers = true) :
      Change es
        { es.replace { e with members := e.members ++ [(⟨es.ids.fresh⟩, m)] } with
          ids := es.ids.advance }
  | edited (e new : Entity) (present : e ∈ es.items) (edit : es.Edit e new) :
      Change es (es.replace new)

inductive Relationship.Edit (r : Relationship) : Relationship → Prop where
  | labelled (label : String) : Edit r { r with label := Text.trimmed label }
  | counted (source target : String) :
      Edit r
        { r with
          sourceMultiplicity := Text.trimmed source
          targetMultiplicity := Text.trimmed target }
  | turned (kind : RelationshipKind) : Edit r { r with kind }

inductive Model.Change (m : Model) : Model → Prop where
  | entities (es : Entities) (change : m.entities.Change es) : Change m { m with entities := es }
  | removed (id : EntityId) : Change m (m.removeEntity id)
  | related (source target : EntityId) (kind : RelationshipKind)
      (sourceMultiplicity targetMultiplicity label : String)
      (sourceLive : m.entities.contains source = true)
      (targetLive : m.entities.contains target = true) :
      Change m
        { m with
          relationships :=
            (m.relationships.add source target kind sourceMultiplicity targetMultiplicity label).2 }
  | redrawn (r new : Relationship) (present : r ∈ m.relationships.items) (edit : r.Edit new) :
      Change m { m with relationships := m.relationships.replace new }
  | unrelated (id : RelationshipId) : Change m (m.unrelate id)

namespace Entities

variable {es next : Entities} {id : EntityId} {member : MemberId}

theorem change_of_create {kind : EntityKind} {title : String}
    (made : es.create kind title = .ok (id, next)) : es.Change next := by
  obtain ⟨filled, rfl, rfl⟩ := create_eq_ok.mp made
  exact .created kind _ filled

theorem change_of_rename {title : String} (made : es.rename id title = .ok next) :
    es.Change next := by
  obtain ⟨e, found, filled, rfl⟩ := rename_eq_ok.mp made
  exact .edited e _ (List.mem_of_find?_eq_some found) (.titled _ filled)

theorem change_of_addMember {m : Member} (made : es.addMember id m = .ok (member, next)) :
    es.Change next := by
  obtain ⟨e, found, holds, rfl, rfl⟩ := addMember_eq_ok.mp made
  exact .joined e m (List.mem_of_find?_eq_some found) holds

theorem change_of_removeMember (made : es.removeMember id member = .ok next) : es.Change next := by
  obtain ⟨e, found, rfl⟩ := removeMember_eq_ok.mp made
  exact .edited e _ (List.mem_of_find?_eq_some found) (.left member)

theorem change_of_editMember {edit : Member → Except ModelError Member}
    (made : es.editMember id member edit = .ok next) : es.Change next := by
  obtain ⟨e, found, old, _, new, _, rfl⟩ := editMember_eq_ok.mp made
  exact .edited e _ (List.mem_of_find?_eq_some found) (.revised member new)

theorem change_of_moveMember {index : Nat} (made : es.moveMember id member index = .ok next) :
    es.Change next := by
  obtain ⟨e, found, _, rfl⟩ := moveMember_eq_ok.mp made
  exact .edited e _ (List.mem_of_find?_eq_some found) (.moved member index)

theorem change_of_nest {child package : EntityId} (made : es.nest child package = .ok next) :
    es.Change next := by
  obtain ⟨container, foundContainer, e, found, isPackage, free, rfl⟩ := nest_eq_ok.mp made
  have named : container.id = package := by simpa using List.find?_some foundContainer
  subst named
  exact .edited e _ (List.mem_of_find?_eq_some found)
    (.nested container (List.mem_of_find?_eq_some foundContainer) isPackage free)

theorem change_of_unnest {child : EntityId} (made : es.unnest child = .ok next) :
    es.Change next := by
  obtain ⟨e, found, rfl⟩ := unnest_eq_ok.mp made
  exact .edited e _ (List.mem_of_find?_eq_some found) .unnested

end Entities

namespace Relationships

variable {rs next : Relationships} {id : RelationshipId}

theorem require_eq_ok {r : Relationship} : rs.require id = .ok r ↔ rs.find? id = some r := by
  unfold require
  cases rs.find? id <;> simp

theorem edit_of_setLabel {label : String} (made : rs.setLabel id label = .ok next) :
    ∃ r ∈ rs.items, ∃ new, r.Edit new ∧ next = rs.replace new := by
  simp only [setLabel, bind_eq_ok, pure_eq_ok, require_eq_ok] at made
  obtain ⟨r, found, rfl⟩ := made
  exact ⟨r, List.mem_of_find?_eq_some found, _, .labelled label, rfl⟩

theorem edit_of_setMultiplicities {source target : String}
    (made : rs.setMultiplicities id source target = .ok next) :
    ∃ r ∈ rs.items, ∃ new, r.Edit new ∧ next = rs.replace new := by
  simp only [setMultiplicities, bind_eq_ok, pure_eq_ok, require_eq_ok] at made
  obtain ⟨r, found, rfl⟩ := made
  exact ⟨r, List.mem_of_find?_eq_some found, _, .counted source target, rfl⟩

theorem edit_of_setKind {kind : RelationshipKind} (made : rs.setKind id kind = .ok next) :
    ∃ r ∈ rs.items, ∃ new, r.Edit new ∧ next = rs.replace new := by
  simp only [setKind, bind_eq_ok, pure_eq_ok, require_eq_ok] at made
  obtain ⟨r, found, rfl⟩ := made
  exact ⟨r, List.mem_of_find?_eq_some found, _, .turned kind, rfl⟩

end Relationships

namespace Model

variable {m next : Model}

theorem relate_eq_ok {source target : EntityId} {kind : RelationshipKind}
    {sourceMultiplicity targetMultiplicity label : String} {id : RelationshipId} :
    m.relate source target kind sourceMultiplicity targetMultiplicity label = .ok (id, next) ↔
      (∃ e, m.entities.find? source = some e) ∧ (∃ e, m.entities.find? target = some e) ∧
        id = ⟨m.relationships.ids.fresh⟩ ∧
        next =
          { m with
            relationships :=
              (m.relationships.add source target kind sourceMultiplicity targetMultiplicity
                label).2 } := by
  simp only [relate, bind_eq_ok, pure_eq_ok, Entities.require_eq_ok]
  constructor
  · rintro ⟨s, foundSource, t, foundTarget, h⟩
    cases h
    exact ⟨⟨s, foundSource⟩, ⟨t, foundTarget⟩, rfl, rfl⟩
  · rintro ⟨⟨s, foundSource⟩, ⟨t, foundTarget⟩, rfl, rfl⟩
    exact ⟨s, foundSource, t, foundTarget, rfl⟩

theorem exists_entities {result : Except ModelError Entities} {outcome : Outcome}
    (made : (do return { m with entities := ← result } : Except ModelError Model).map
      (Outcome.done, ·) = .ok (outcome, next)) :
    ∃ es, result = .ok es ∧ next = { m with entities := es } := by
  simp only [map_eq_ok, bind_eq_ok, pure_eq_ok] at made
  obtain ⟨_, ⟨es, changed, rfl⟩, h⟩ := made
  cases h
  exact ⟨es, changed, rfl⟩

theorem exists_relationships {result : Except ModelError Relationships} {outcome : Outcome}
    (made : (do return { m with relationships := ← result } : Except ModelError Model).map
      (Outcome.done, ·) = .ok (outcome, next)) :
    ∃ rs, result = .ok rs ∧ next = { m with relationships := rs } := by
  simp only [map_eq_ok, bind_eq_ok, pure_eq_ok] at made
  obtain ⟨_, ⟨rs, changed, rfl⟩, h⟩ := made
  cases h
  exact ⟨rs, changed, rfl⟩

theorem change_of_entities {result : Except ModelError Entities} {outcome : Outcome}
    (change : ∀ {es}, result = .ok es → m.entities.Change es)
    (made : (do return { m with entities := ← result } : Except ModelError Model).map
      (Outcome.done, ·) = .ok (outcome, next)) : m.Change next := by
  obtain ⟨es, changed, rfl⟩ := exists_entities made
  exact .entities es (change changed)

theorem change_of_relationships {result : Except ModelError Relationships} {outcome : Outcome}
    (redrawn : ∀ {rs}, result = .ok rs →
      ∃ r ∈ m.relationships.items, ∃ new, r.Edit new ∧ rs = m.relationships.replace new)
    (made : (do return { m with relationships := ← result } : Except ModelError Model).map
      (Outcome.done, ·) = .ok (outcome, next)) : m.Change next := by
  obtain ⟨rs, changed, rfl⟩ := exists_relationships made
  obtain ⟨r, present, new, edit, rfl⟩ := redrawn changed
  exact .redrawn r new present edit

/-- Whatever an operation makes of a model is one of the ways in which models change. -/
theorem change_of_perform {operation : Operation} {outcome : Outcome}
    (made : m.perform operation = .ok (outcome, next)) : m.Change next := by
  cases operation with
  | createEntity kind title =>
      simp only [perform, createEntity, map_eq_ok, bind_eq_ok, pure_eq_ok] at made
      obtain ⟨_, ⟨⟨id, es⟩, created, rfl⟩, h⟩ := made
      cases h
      exact .entities es (Entities.change_of_create created)
  | renameEntity entity title =>
      exact change_of_entities Entities.change_of_rename made
  | removeEntity entity =>
      cases made
      exact .removed entity
  | addMember entity member =>
      simp only [perform, addMember, map_eq_ok, bind_eq_ok, pure_eq_ok] at made
      obtain ⟨_, ⟨⟨id, es⟩, added, rfl⟩, h⟩ := made
      cases h
      exact .entities es (Entities.change_of_addMember added)
  | addNewMember entity kind visibility name typeName =>
      simp only [perform, addNewMember, map_eq_ok, bind_eq_ok, pure_eq_ok] at made
      obtain ⟨_, ⟨⟨id, es⟩, added, rfl⟩, h⟩ := made
      cases h
      obtain ⟨_, v, _, member, _, joined⟩ := Entities.addNewMember_eq_ok.mp added
      exact .entities es (Entities.change_of_addMember joined)
  | removeMember entity member =>
      exact change_of_entities Entities.change_of_removeMember made
  | setMemberVisibility entity member word =>
      exact change_of_entities Entities.change_of_editMember made
  | renameMember entity member name =>
      exact change_of_entities Entities.change_of_editMember made
  | setMemberType entity member typeName =>
      exact change_of_entities Entities.change_of_editMember made
  | moveMember entity member index =>
      exact change_of_entities Entities.change_of_moveMember made
  | nest child package =>
      exact change_of_entities Entities.change_of_nest made
  | unnest child =>
      exact change_of_entities Entities.change_of_unnest made
  | relate source target kind sourceMultiplicity targetMultiplicity label =>
      simp only [perform, map_eq_ok] at made
      obtain ⟨⟨id, _⟩, related, h⟩ := made
      cases h
      obtain ⟨⟨s, foundSource⟩, ⟨t, foundTarget⟩, -, rfl⟩ := relate_eq_ok.mp related
      exact .related source target kind _ _ _ (Entities.contains_of_find? foundSource)
        (Entities.contains_of_find? foundTarget)
  | unrelate relationship =>
      cases made
      exact .unrelated relationship
  | setLabel relationship label =>
      exact change_of_relationships Relationships.edit_of_setLabel made
  | setMultiplicities relationship source target =>
      exact change_of_relationships Relationships.edit_of_setMultiplicities made
  | setKind relationship kind =>
      exact change_of_relationships Relationships.edit_of_setKind made

theorem change_of_step (m : Model) (operation : Operation) :
    (m.step operation).2 = m ∨ m.Change (m.step operation).2 := by
  unfold step
  split
  next outcome next made => exact .inr (change_of_perform made)
  next => exact .inl rfl

/-- What holds of the empty model and is kept by every change holds after every run. -/
theorem invariant_of_run {holds : Model → Prop} (start : holds .empty)
    (kept : ∀ m next, holds m → m.Change next → holds next) (operations : List Operation) :
    holds (Model.empty.run operations) := by
  suffices ∀ m, holds m → holds (m.run operations) from this _ start
  induction operations with
  | nil => exact fun _ h => h
  | cons operation rest ih =>
      intro m h
      refine ih (m.step operation).2 ?_
      rcases m.change_of_step operation with same | change
      · rwa [same]
      · exact kept m _ h change

end Model

end ClassDiagram
