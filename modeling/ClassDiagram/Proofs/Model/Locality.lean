import ClassDiagram.Proofs.Member
import ClassDiagram.Proofs.Model.Component

/-! Changes that take no element out of a model are local: one field of one element differs, and
everything else, the order of the elements and the relationships of each entity among it, is as
before. -/

namespace ClassDiagram

def PutInPlace {α : Type} (old new : α) (before after : List α) : Prop :=
  ∃ front back, before = front ++ old :: back ∧ after = front ++ new :: back

theorem PutInPlace.map_eq {α β : Type} {old new : α} {before after : List α}
    (h : PutInPlace old new before after) {f : α → β} (same : f new = f old) :
    after.map f = before.map f := by
  obtain ⟨front, back, rfl, rfl⟩ := h
  simp only [List.map_append, List.map_cons, same]

theorem PutInPlace.map_filter_eq {α β : Type} {old new : α} {before after : List α}
    (h : PutInPlace old new before after) {f : α → β} {p : α → Bool} (same : f new = f old)
    (chosen : p new = p old) : (after.filter p).map f = (before.filter p).map f := by
  obtain ⟨front, back, rfl, rfl⟩ := h
  simp only [List.filter_append, List.filter_cons, chosen]
  split <;> simp [same]

def Operation.edits : Operation → Bool
  | .createEntity .. | .removeEntity _ | .relate .. | .unrelate _ => false
  | _ => true

namespace Model

/-- Only one entity differs, in the way that `edit` says, and the numbers drawn are `ids`. -/
structure EditsEntity (m : Model) (id : EntityId) (ids : Sequence) (edit : Entity → Entity → Prop)
    (next : Model) : Prop where
  replaced : ∃ old new, old.id = id ∧ edit old new ∧
    PutInPlace old new m.entities.items next.entities.items
  others : ∀ other, other ≠ id → next.entities.find? other = m.entities.find? other
  ids_eq : next.entities.ids = ids
  relationships_eq : next.relationships = m.relationships

def EditsMember (m : Model) (entity : EntityId) (id : MemberId) (edit : Member → Member → Prop)
    (next : Model) : Prop :=
  m.EditsEntity entity m.entities.ids
    (fun old new => ∃ before after, edit before after ∧
      PutInPlace (id, before) (id, after) old.members new.members ∧
      new = { old with members := new.members }) next

structure EditsRelationship (m : Model) (id : RelationshipId) (edit : Relationship → Relationship)
    (next : Model) : Prop where
  replaced : ∃ old, old.id = id ∧
    PutInPlace old (edit old) m.relationships.items next.relationships.items
  others : ∀ other, other ≠ id → next.relationships.find? other = m.relationships.find? other
  ids_eq : next.relationships.ids = m.relationships.ids
  outgoing_eq : next.relationships.outgoing = m.relationships.outgoing
  incoming_eq : next.relationships.incoming = m.relationships.incoming
  entities_eq : next.entities = m.entities

/-- A relationship is added behind the others, and the queries about its ends find it last. -/
structure Adds (m : Model) (r : Relationship) (next : Model) : Prop where
  items : next.relationships.items = m.relationships.items ++ [r]
  ids_eq : next.relationships.ids = m.relationships.ids.advance
  touching : ∀ entity, next.relationships.touching entity =
    m.relationships.touching entity ++ if r.source = entity ∨ r.target = entity then [r] else []
  between : ∀ source target, next.relationships.between source target =
    m.relationships.between source target ++
      if r.source = source ∧ r.target = target then [r] else []
  entities_eq : next.entities = m.entities

/-- What an operation may do to a model. Taking elements out is not local. -/
def Effect (m : Model) (next : Model) : Operation → Prop
  | .createEntity kind title =>
    next =
      { m with
        entities :=
          { ids := m.entities.ids.advance
            items := m.entities.items ++
              [{ id := ⟨m.entities.ids.fresh⟩, kind, title := Text.trimmed title }] } }
  | .renameEntity entity title =>
    m.EditsEntity entity m.entities.ids
      (fun old new => new = { old with title := Text.trimmed title }) next
  | .addMember entity member =>
    m.EditsEntity entity m.entities.ids.advance
      (fun old new =>
        new = { old with members := old.members ++ [(⟨m.entities.ids.fresh⟩, member)] }) next
  | .addNewMember entity kind visibility name typeName =>
    ∃ member : Member, member.kind = kind ∧ member.visibility.keyword = visibility ∧
      member.name = Text.trimmed name ∧ member.typeName = Text.trimmed typeName ∧
      m.EditsEntity entity m.entities.ids.advance
        (fun old new =>
          new = { old with members := old.members ++ [(⟨m.entities.ids.fresh⟩, member)] }) next
  | .removeMember entity member =>
    m.EditsEntity entity m.entities.ids
      (fun old new => new = { old with members := old.members.filter (·.1 ≠ member) }) next
  | .setMemberVisibility entity member word =>
    m.EditsMember entity member
      (fun old new => new.visibility.keyword = word ∧ new.kind = old.kind ∧
        new.name = old.name ∧ new.typeName = old.typeName) next
  | .renameMember entity member name =>
    m.EditsMember entity member
      (fun old new => new.name = Text.trimmed name ∧ new.kind = old.kind ∧
        new.visibility = old.visibility ∧ new.typeName = old.typeName) next
  | .setMemberType entity member typeName =>
    m.EditsMember entity member
      (fun old new => new.typeName = Text.trimmed typeName ∧ new.kind = old.kind ∧
        new.visibility = old.visibility ∧ new.name = old.name) next
  | .moveMember entity member index =>
    m.EditsEntity entity m.entities.ids
      (fun old new => ∃ front value back, old.members = front ++ (member, value) :: back ∧
        new = { old with
          members :=
            (front ++ back).insertIdx (min index (front ++ back).length) (member, value) }) next
  | .nest child package =>
    m.EditsEntity child m.entities.ids (fun old new => new = { old with parent := some package })
      next
  | .unnest child =>
    m.EditsEntity child m.entities.ids (fun old new => new = { old with parent := none }) next
  | .relate source target kind sourceMultiplicity targetMultiplicity label =>
    m.Adds
      { id := ⟨m.relationships.ids.fresh⟩, source, target, kind
        sourceMultiplicity := Text.trimmed sourceMultiplicity
        targetMultiplicity := Text.trimmed targetMultiplicity
        label := Text.trimmed label } next
  | .setLabel relationship label =>
    m.EditsRelationship relationship (fun old => { old with label := Text.trimmed label }) next
  | .setMultiplicities relationship source target =>
    m.EditsRelationship relationship
      (fun old =>
        { old with
          sourceMultiplicity := Text.trimmed source
          targetMultiplicity := Text.trimmed target }) next
  | .setKind relationship kind =>
    m.EditsRelationship relationship (fun old => { old with kind }) next
  | .removeEntity _ | .unrelate _ => True

structure SameElements (m next : Model) : Prop where
  entities : next.entities.items.map (·.id) = m.entities.items.map (·.id)
  kinds : next.entities.items.map (·.kind) = m.entities.items.map (·.kind)
  relationships : next.relationships.items.map (·.id) = m.relationships.items.map (·.id)
  touching : ∀ entity, (next.relationships.touching entity).map (·.id) =
    (m.relationships.touching entity).map (·.id)
  between : ∀ source target, (next.relationships.between source target).map (·.id) =
    (m.relationships.between source target).map (·.id)

variable {m next : Model}

section Entities

variable {id : EntityId} {e new : Entity}

theorem editsEntity_replace (h : m.Accounted) (ids : Sequence) {edit : Entity → Entity → Prop}
    (found : m.entities.find? id = some e) (same : new.id = e.id) (edited : edit e new) :
    m.EditsEntity id ids edit { m with entities := { m.entities.replace new with ids } } := by
  obtain ⟨present, named⟩ := (Entities.find?_eq_some h.sound.ordered).mp found
  obtain ⟨front, back, split⟩ := List.append_of_mem present
  exact
    { replaced := ⟨e, new, named, edited, front, back, split,
        Entities.items_replace h.sound.ordered split same⟩
      others := by
        intro other differs
        have apart : other ≠ new.id := fun here => differs (here.trans (same.trans named))
        exact (Entities.find?_replace new other).trans (if_neg apart)
      ids_eq := rfl
      relationships_eq := rfl }

theorem editsMember (h : m.Accounted) {member : MemberId}
    {change : Member → Except ModelError Member} {edit : Member → Member → Prop} {es : Entities}
    (edits : ∀ {old new}, change old = .ok new → edit old new)
    (made : m.entities.editMember id member change = .ok es) :
    m.EditsMember id member edit { m with entities := es } := by
  obtain ⟨e, found, before, inside, after, changed, rfl⟩ := Entities.editMember_eq_ok.mp made
  obtain ⟨entry, first, rfl⟩ := Option.map_eq_some_iff.mp inside
  have named : entry.1 = member := by simpa using List.find?_some first
  obtain ⟨front, back, split, -⟩ := exists_split_of_find? first
  have distinct := h.enrolled.distinct e (List.mem_of_find?_eq_some found)
  rw [Entity.memberIds, split] at distinct
  refine editsEntity_replace h m.entities.ids found rfl
    ⟨entry.2, after, edits changed, ⟨front, back, ?_, ?_⟩, rfl⟩
  · rw [split, ← named]
  · simp only [split, ← named]
    exact map_replace distinct fun x => (x.1, after)

theorem editsEntity_move (h : m.Accounted) {member : MemberId} {index : Nat} {es : Entities}
    (made : m.entities.moveMember id member index = .ok es) :
    m.Effect { m with entities := es } (.moveMember id member index) := by
  obtain ⟨e, found, ⟨value, inside⟩, rfl⟩ := Entities.moveMember_eq_ok.mp made
  obtain ⟨entry, first, rfl⟩ := Option.map_eq_some_iff.mp inside
  obtain rfl : entry.1 = member := by simpa using List.find?_some first
  obtain ⟨front, back, split, others⟩ := exists_split_of_find? first
  refine editsEntity_replace h m.entities.ids found rfl ⟨front, entry.2, back, split, ?_⟩
  rw [moveMember_eq_insertIdx first, others]

theorem editsEntity_join (h : m.Accounted) {member : Member} {memberId : MemberId} {es : Entities}
    (made : m.entities.addMember id member = .ok (memberId, es)) :
    m.Effect { m with entities := es } (.addMember id member) := by
  obtain ⟨e, found, -, rfl, rfl⟩ := Entities.addMember_eq_ok.mp made
  exact editsEntity_replace h m.entities.ids.advance found rfl rfl

end Entities

section Relationships

theorem editsRelationship_replace (h : m.Accounted) {id : RelationshipId} {r : Relationship}
    {edit : Relationship → Relationship} (same : ∀ r, (edit r).id = r.id)
    (found : m.relationships.require id = .ok r) :
    m.EditsRelationship id edit
      { m with relationships := m.relationships.replace (edit r) } := by
  have filed := h.sound.filed
  obtain ⟨present, named⟩ := filed.find?_eq_some.mp (Relationships.require_eq_ok.mp found)
  obtain ⟨front, back, split⟩ := List.append_of_mem present
  have after : (m.relationships.replace (edit r)).items = front ++ edit r :: back := by
    unfold Relationships.replace
    rw [split, same]
    exact map_replace (split ▸ filed.distinct_ids) fun _ => edit r
  exact
    { replaced := ⟨r, named, front, back, split, after⟩
      others := by
        intro other differs
        have missed : decide ((edit r).id = other) = false := by
          simpa [same, named] using Ne.symm differs
        have missed' : decide (r.id = other) = false := by simpa [named] using Ne.symm differs
        simp only [Relationships.find?, after, split, List.find?_append, List.find?_cons, missed,
          missed']
      ids_eq := rfl
      outgoing_eq := rfl
      incoming_eq := rfl
      entities_eq := rfl }

theorem adds_relate (h : m.Accounted) (source target : EntityId) (kind : RelationshipKind)
    (sourceMultiplicity targetMultiplicity label : String) :
    m.Adds
      { id := ⟨m.relationships.ids.fresh⟩, source, target, kind
        sourceMultiplicity := Text.trimmed sourceMultiplicity
        targetMultiplicity := Text.trimmed targetMultiplicity
        label := Text.trimmed label }
      { m with
        relationships :=
          (m.relationships.add source target kind sourceMultiplicity targetMultiplicity
            label).2 } := by
  have before := h.sound.filed
  have after := before.add source target kind sourceMultiplicity targetMultiplicity label
  exact
    { items := rfl
      ids_eq := rfl
      touching := by
        intro entity
        rw [after.touching_eq, before.touching_eq, Relationships.add, List.filter_append]
        simp [Relationship.touches, List.filter_cons]
      between := by
        intro first last
        rw [after.between_eq, before.between_eq, Relationships.add, List.filter_append]
        simp [List.filter_cons]
      entities_eq := rfl }

end Relationships

theorem effect_of_perform (h : m.Accounted) {operation : Operation} {outcome : Outcome}
    (made : m.perform operation = .ok (outcome, next)) : m.Effect next operation := by
  cases operation with
  | createEntity kind title =>
      simp only [perform, createEntity, map_eq_ok, bind_eq_ok, pure_eq_ok] at made
      obtain ⟨_, ⟨⟨id, es⟩, created, rfl⟩, h⟩ := made
      cases h
      obtain ⟨-, rfl, rfl⟩ := Entities.create_eq_ok.mp created
      rfl
  | renameEntity entity title =>
      obtain ⟨es, renamed, rfl⟩ := exists_entities made
      obtain ⟨e, found, -, rfl⟩ := Entities.rename_eq_ok.mp renamed
      exact editsEntity_replace h m.entities.ids found rfl rfl
  | addMember entity member =>
      simp only [perform, addMember, map_eq_ok, bind_eq_ok, pure_eq_ok] at made
      obtain ⟨_, ⟨⟨id, es⟩, added, rfl⟩, same⟩ := made
      cases same
      exact editsEntity_join h added
  | addNewMember entity kind visibility name typeName =>
      simp only [perform, addNewMember, map_eq_ok, bind_eq_ok, pure_eq_ok] at made
      obtain ⟨_, ⟨⟨id, es⟩, added, rfl⟩, same⟩ := made
      cases same
      obtain ⟨-, v, known, member, built, joined⟩ := Entities.addNewMember_eq_ok.mp added
      obtain ⟨sameKind, rfl, sameName, sameType⟩ := Member.make_eq_ok.mp built
      exact ⟨member, sameKind, Visibility.parse_eq_ok.mp known, sameName, sameType,
        editsEntity_join h joined⟩
  | removeMember entity member =>
      obtain ⟨es, removed, rfl⟩ := exists_entities made
      obtain ⟨e, found, rfl⟩ := Entities.removeMember_eq_ok.mp removed
      exact editsEntity_replace h m.entities.ids found rfl rfl
  | setMemberVisibility entity member word =>
      obtain ⟨es, edited, rfl⟩ := exists_entities made
      exact editsMember h Member.setVisibility_eq_ok.mp edited
  | renameMember entity member name =>
      obtain ⟨es, edited, rfl⟩ := exists_entities made
      exact editsMember h Member.rename_eq_ok.mp edited
  | setMemberType entity member typeName =>
      obtain ⟨es, edited, rfl⟩ := exists_entities made
      exact editsMember h Member.setType_eq_ok.mp edited
  | moveMember entity member index =>
      obtain ⟨es, moved, rfl⟩ := exists_entities made
      exact editsEntity_move h moved
  | nest child package =>
      obtain ⟨es, nested, rfl⟩ := exists_entities made
      obtain ⟨-, -, e, found, -, -, rfl⟩ := Entities.nest_eq_ok.mp nested
      exact editsEntity_replace h m.entities.ids found rfl rfl
  | unnest child =>
      obtain ⟨es, unnested, rfl⟩ := exists_entities made
      obtain ⟨e, found, rfl⟩ := Entities.unnest_eq_ok.mp unnested
      exact editsEntity_replace h m.entities.ids found rfl rfl
  | relate source target kind sourceMultiplicity targetMultiplicity label =>
      simp only [perform, map_eq_ok] at made
      obtain ⟨⟨id, _⟩, related, same⟩ := made
      cases same
      obtain ⟨-, -, -, rfl⟩ := relate_eq_ok.mp related
      exact adds_relate h source target kind sourceMultiplicity targetMultiplicity label
  | setLabel relationship label =>
      obtain ⟨rs, labelled, rfl⟩ := exists_relationships made
      simp only [Relationships.setLabel, bind_eq_ok, pure_eq_ok] at labelled
      obtain ⟨r, found, rfl⟩ := labelled
      exact editsRelationship_replace h (fun _ => rfl) found
  | setMultiplicities relationship source target =>
      obtain ⟨rs, counted, rfl⟩ := exists_relationships made
      simp only [Relationships.setMultiplicities, bind_eq_ok, pure_eq_ok] at counted
      obtain ⟨r, found, rfl⟩ := counted
      exact editsRelationship_replace h (fun _ => rfl) found
  | setKind relationship kind =>
      obtain ⟨rs, turned, rfl⟩ := exists_relationships made
      simp only [Relationships.setKind, bind_eq_ok, pure_eq_ok] at turned
      obtain ⟨r, found, rfl⟩ := turned
      exact editsRelationship_replace h (fun _ => rfl) found
  | removeEntity | unrelate => trivial

section Elements

theorem EditsEntity.sameElements {id : EntityId} {ids : Sequence} {edit : Entity → Entity → Prop}
    (h : m.EditsEntity id ids edit next)
    (keeps : ∀ old new, edit old new → new.id = old.id ∧ new.kind = old.kind) :
    m.SameElements next := by
  obtain ⟨old, new, -, edited, place⟩ := h.replaced
  obtain ⟨sameId, sameKind⟩ := keeps old new edited
  exact
    { entities := place.map_eq sameId
      kinds := place.map_eq sameKind
      relationships := by rw [h.relationships_eq]
      touching := fun _ => by rw [h.relationships_eq]
      between := fun _ _ => by rw [h.relationships_eq] }

theorem EditsMember.sameElements {owner : EntityId} {id : MemberId} {edit : Member → Member → Prop}
    (h : m.EditsMember owner id edit next) : m.SameElements next := by
  refine EditsEntity.sameElements h ?_
  rintro old new ⟨before, after, -, -, same⟩
  rw [same]
  exact ⟨rfl, rfl⟩

theorem EditsRelationship.sameElements {id : RelationshipId} {edit : Relationship → Relationship}
    (h : m.EditsRelationship id edit next) (before : m.relationships.Filed)
    (after : next.relationships.Filed)
    (keeps : ∀ r, (edit r).id = r.id ∧ (edit r).source = r.source ∧ (edit r).target = r.target) :
    m.SameElements next := by
  obtain ⟨old, -, place⟩ := h.replaced
  obtain ⟨sameId, sameSource, sameTarget⟩ := keeps old
  exact
    { entities := by rw [h.entities_eq]
      kinds := by rw [h.entities_eq]
      relationships := place.map_eq sameId
      touching := by
        intro entity
        rw [after.touching_eq, before.touching_eq]
        exact place.map_filter_eq sameId (by simp [Relationship.touches, sameSource, sameTarget])
      between := by
        intro source target
        rw [after.between_eq, before.between_eq]
        exact place.map_filter_eq sameId (by simp [sameSource, sameTarget]) }

theorem Effect.sameElements {operation : Operation} (effect : m.Effect next operation)
    (edits : operation.edits = true) (before : m.relationships.Filed)
    (after : next.relationships.Filed) : m.SameElements next := by
  cases operation with
  | createEntity | removeEntity | relate | unrelate => cases edits
  | renameEntity | addMember | removeMember | nest | unnest =>
      exact EditsEntity.sameElements effect fun _ _ same => same ▸ ⟨rfl, rfl⟩
  | addNewMember =>
      obtain ⟨member, -, -, -, -, effect⟩ := effect
      exact EditsEntity.sameElements effect fun _ _ same => same ▸ ⟨rfl, rfl⟩
  | moveMember =>
      refine EditsEntity.sameElements effect ?_
      rintro old new ⟨front, value, back, -, same⟩
      exact same ▸ ⟨rfl, rfl⟩
  | setMemberVisibility | renameMember | setMemberType => exact EditsMember.sameElements effect
  | setLabel | setMultiplicities | setKind =>
      exact EditsRelationship.sameElements effect before after fun _ => ⟨rfl, rfl, rfl⟩

end Elements

theorem perform_of_step {operation : Operation} {outcome : Outcome}
    (made : (m.step operation).1 = .ok outcome) :
    m.perform operation = .ok (outcome, (m.step operation).2) := by
  unfold step at made ⊢
  cases performed : m.perform operation with
  | error e => simp [performed] at made
  | ok result =>
      simp only [performed, Except.ok.injEq] at made
      rw [← made]

/-- After every run, an operation that is made changes what it names and nothing else. -/
theorem run_local (operations : List Operation) {operation : Operation} {outcome : Outcome}
    (made : ((Model.empty.run operations).step operation).1 = .ok outcome) :
    let m := Model.empty.run operations
    let next := (m.step operation).2
    m.Effect next operation ∧ (operation.edits = true → m.SameElements next) := by
  intro m next
  have h : m.Accounted := accounted_run operations
  have after : next.Accounted := step_accounted h operation
  have effect := effect_of_perform h (perform_of_step made)
  exact ⟨effect, fun edits => effect.sameElements edits h.sound.filed after.sound.filed⟩

theorem run_local_kind :
    let operations : List Operation :=
      [.createEntity .plainClass "Whole", .createEntity .plainClass "Part",
        .relate ⟨1⟩ ⟨2⟩ .association "1" "*" "parts", .relate ⟨1⟩ ⟨2⟩ .association "" "" "uses"]
    let m := Model.empty.run operations
    let next := (m.step (.setKind ⟨1⟩ .composition)).2
    (m.step (.setKind ⟨1⟩ .composition)).1 = .ok .done ∧
      m.EditsRelationship ⟨1⟩ (fun old => { old with kind := .composition }) next ∧
      m.SameElements next := by
  intro operations m next
  have made : (m.step (.setKind ⟨1⟩ .composition)).1 = .ok .done := by decide
  obtain ⟨effect, same⟩ := run_local operations made
  exact ⟨made, effect, same rfl⟩

end Model

end ClassDiagram
