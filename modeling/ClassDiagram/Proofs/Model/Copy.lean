import ClassDiagram.Proofs.Lists
import ClassDiagram.Proofs.Model.Sound

/-! Models that are the same but for the ids of their elements. -/

namespace ClassDiagram

structure Entity.Copies (translate : EntityId → EntityId) (e copy : Entity) : Prop where
  id : copy.id = translate e.id
  kind : copy.kind = e.kind
  title : copy.title = e.title
  members : copy.members.map (·.2) = e.members.map (·.2)
  parent : copy.parent = e.parent.map translate

structure Relationship.Copies (translate : EntityId → EntityId)
    (rename : RelationshipId → RelationshipId) (r copy : Relationship) : Prop where
  id : copy.id = rename r.id
  source : copy.source = translate r.source
  target : copy.target = translate r.target
  kind : copy.kind = r.kind
  sourceMultiplicity : copy.sourceMultiplicity = r.sourceMultiplicity
  targetMultiplicity : copy.targetMultiplicity = r.targetMultiplicity
  label : copy.label = r.label

/-- A model that has the elements of another one, in the same order, under other ids. -/
structure Model.Copy (m n : Model) where
  entity : EntityId → EntityId
  relationship : RelationshipId → RelationshipId
  entities : List.Forall₂ (Entity.Copies entity) m.entities.items n.entities.items
  relationships : List.Forall₂ (Relationship.Copies entity relationship)
    m.relationships.items n.relationships.items
  entity_less : ∀ a ∈ m.entities.items, ∀ b ∈ m.entities.items,
    a.id.number < b.id.number → (entity a.id).number < (entity b.id).number
  relationship_less : ∀ a ∈ m.relationships.items, ∀ b ∈ m.relationships.items,
    a.id.number < b.id.number → (relationship a.id).number < (relationship b.id).number

namespace Model.Copy

variable {m n : Model} (copy : m.Copy n)

section Entities

theorem entity_inj {a b : EntityId} (liveA : m.entities.contains a = true)
    (liveB : m.entities.contains b = true) : copy.entity a = copy.entity b ↔ a = b := by
  constructor
  · intro same
    obtain ⟨e, memberE, rfl⟩ := Entities.contains_iff_mem.mp liveA
    obtain ⟨f, memberF, rfl⟩ := Entities.contains_iff_mem.mp liveB
    have numbers := congrArg EntityId.number same
    rcases Nat.lt_trichotomy e.id.number f.id.number with less | equal | greater
    · exact absurd numbers (Nat.ne_of_lt (copy.entity_less e memberE f memberF less))
    · exact EntityId.ext equal
    · exact absurd numbers.symm (Nat.ne_of_lt (copy.entity_less f memberF e memberE greater))
  · intro same
    rw [same]

theorem exists_entity {id : EntityId} (live : m.entities.contains id = true) (h : m.Sound)
    (h' : n.Sound) :
    ∃ e e', m.entities.find? id = some e ∧ n.entities.find? (copy.entity id) = some e' ∧
      Entity.Copies copy.entity e e' := by
  obtain ⟨e, member, rfl⟩ := Entities.contains_iff_mem.mp live
  obtain ⟨e', member', copies⟩ := exists_of_mem_left copy.entities member
  refine ⟨e, e', ?_, ?_, copies⟩
  · exact Entities.find?_of_mem h.ordered member
  · exact (Entities.find?_eq_some h'.ordered).mpr ⟨member', copies.id⟩

theorem children (h : m.Sound) {id : EntityId} (live : m.entities.contains id = true) :
    List.Forall₂ (fun e e' => e ∈ m.entities.items ∧ Entity.Copies copy.entity e e')
      (m.entities.children id) (n.entities.children (copy.entity id)) := by
  refine filter_agree copy.entities fun e member e' copies => ?_
  rw [decide_eq_decide, copies.parent]
  cases nested : e.parent with
  | none => simp
  | some package =>
      rw [Option.map_some, Option.some.injEq, Option.some.injEq,
        copy.entity_inj (h.parent_live member nested) live]

theorem topLevel :
    List.Forall₂ (fun e e' => e ∈ m.entities.items ∧ Entity.Copies copy.entity e e')
      m.entities.topLevel n.entities.topLevel := by
  refine filter_agree copy.entities fun e _ e' copies => ?_
  rw [decide_eq_decide, copies.parent, Option.map_eq_none_iff]

end Entities

theorem touching (h : m.Sound) (h' : n.Sound) {id : EntityId}
    (live : m.entities.contains id = true) :
    List.Forall₂
      (fun r r' => r ∈ m.relationships.items ∧
        Relationship.Copies copy.entity copy.relationship r r')
      (m.relationships.touching id) (n.relationships.touching (copy.entity id)) := by
  rw [h.filed.touching_eq, h'.filed.touching_eq]
  refine filter_agree copy.relationships fun r member r' copies => ?_
  unfold Relationship.touches
  rw [copies.source, copies.target,
    decide_eq_decide.mpr (copy.entity_inj (h.wellFormed.source_live r member) live),
    decide_eq_decide.mpr (copy.entity_inj (h.wellFormed.target_live r member) live)]

end Model.Copy

end ClassDiagram
