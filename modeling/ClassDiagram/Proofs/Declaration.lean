import ClassDiagram.Declaration
import ClassDiagram.Proofs.Model.Copy

/-! Declarations do not show ids: a copy of a model has the same ones. -/

namespace ClassDiagram.Model.Copy

variable {m n : Model} (copy : m.Copy n)

theorem superclass_title (h : m.Sound) (h' : n.Sound) {id : EntityId}
    (live : m.entities.contains id = true) :
    (n.superclass? (copy.entity id)).map (·.title) = (m.superclass? id).map (·.title) := by
  have agree := find?_agree (p := fun r => r.kind = .inheritance && r.target = id)
    (q := fun r => r.kind = .inheritance && r.target = copy.entity id)
    (copy.touching h h' live) ?_
  · unfold superclass?
    generalize (m.relationships.touching id).find? _ = first at agree
    generalize (n.relationships.touching (copy.entity id)).find? _ = second at agree
    cases agree with
    | none => rfl
    | @some r r' found =>
        obtain ⟨member, copies⟩ := found
        obtain ⟨e, e', found, found', same⟩ :=
          copy.exists_entity (h.wellFormed.source_live r member) h h'
        rw [Option.bind_some, Option.bind_some, copies.source, found, found']
        exact congrArg some same.title
  · rintro r r' ⟨member, copies⟩
    simp [copies.kind, copies.target,
      copy.entity_inj (h.wellFormed.target_live r member) live]

theorem header_eq (h : m.Sound) (h' : n.Sound) {e e' : Entity} (member : e ∈ m.entities.items)
    (copies : Entity.Copies copy.entity e e') : n.header e' = m.header e := by
  have live := Entities.contains_of_mem member
  have same := copy.superclass_title h h' live
  unfold header
  rw [copies.kind, copies.title, copies.id]
  cases left : m.superclass? e.id <;> cases right : n.superclass? (copy.entity e.id) <;>
    simp_all

theorem trace_eq (h : m.Sound) (h' : n.Sound) {r r' : Relationship}
    (member : r ∈ m.relationships.items)
    (copies : Relationship.Copies copy.entity copy.relationship r r') :
    m.trace? r = n.trace? r' := by
  obtain ⟨s, s', source, source', sameSource⟩ :=
    copy.exists_entity (h.wellFormed.source_live r member) h h'
  obtain ⟨t, t', target, target', sameTarget⟩ :=
    copy.exists_entity (h.wellFormed.target_live r member) h h'
  unfold trace?
  rw [copies.source, copies.target, copies.kind, source, source', target, target']
  simp [sameSource.title, sameTarget.title]

theorem traces_eq (h : m.Sound) (h' : n.Sound) {id : EntityId}
    (live : m.entities.contains id = true) : m.traces id = n.traces (copy.entity id) := by
  have shown := filter_agree (p := (·.kind ≠ .inheritance)) (q := (·.kind ≠ .inheritance))
    (copy.touching h h' live) fun r _ r' here => by rw [here.2.kind]
  exact filterMap_eq_filterMap shown fun r r' here => copy.trace_eq h h' here.2.1 here.2.2

theorem rows_eq {e e' : Entity} (copies : Entity.Copies copy.entity e e') :
    e.members.map (fun entry => (⟨1, entry.2.declaration⟩ : Line)) =
      e'.members.map fun entry => ⟨1, entry.2.declaration⟩ := by
  have same := congrArg (List.map fun m : Member => (⟨1, m.declaration⟩ : Line)) copies.members
  rw [List.map_map, List.map_map] at same
  exact same.symm

/-- By induction on the levels that are shown, since what is nested in a package is copied too. -/
theorem declaration_eq (h : m.Sound) (h' : n.Sound) (trace : Bool) (depth : Nat) {e e' : Entity}
    (member : e ∈ m.entities.items) (copies : Entity.Copies copy.entity e e') :
    m.declaration trace depth e = n.declaration trace depth e' := by
  induction depth generalizing e e' with
  | zero =>
      have live := Entities.contains_of_mem member
      unfold declaration
      rw [copy.header_eq h h' member copies, copies.id, copy.traces_eq h h' live, copies.kind,
        copy.rows_eq copies]
      cases e.kind <;> rfl
  | succ depth ih =>
      have live := Entities.contains_of_mem member
      have blocks : (m.entities.children e.id).map (m.declaration trace depth) =
          (n.entities.children (copy.entity e.id)).map (n.declaration trace depth) :=
        map_eq_map (copy.children h live) fun child child' here => ih here.1 here.2
      unfold declaration
      rw [copy.header_eq h h' member copies, copies.id, copy.traces_eq h h' live, copies.kind,
        copy.rows_eq copies]
      cases e.kind with
      | package => simp only [blocks]
      | plainClass | interface => rfl

theorem generateAll_eq (copy : m.Copy n) (h : m.Sound) (h' : n.Sound) (settings : CodegenSettings) :
    m.generateAll settings = n.generateAll settings := by
  have depth : m.fullDepth = n.fullDepth :=
    congrArg (· + 1) copy.entities.length_eq
  have blocks : m.entities.topLevel.map (m.declarationLines settings) =
      n.entities.topLevel.map (n.declarationLines settings) := by
    refine map_eq_map copy.topLevel fun e e' here => ?_
    unfold declarationLines
    rw [depth]
    exact copy.declaration_eq h h' settings.trace _ here.1 here.2
  unfold generateAll allLines
  rw [blocks]

end ClassDiagram.Model.Copy
