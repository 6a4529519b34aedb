import ClassDiagram.Proofs.Model.WellFormed

/-! What all models have in common that operations lead to, from the empty one on: they are well
formed, and their indices agree with their relationships. -/

namespace ClassDiagram

/-- What every change keeps. The order of the entities and the indices of the relationships are
part of it, since removing an entity goes by both. -/
structure Model.Sound (m : Model) : Prop where
  ordered : m.entities.Ordered
  filed : m.relationships.Filed
  wellFormed : m.WellFormed

namespace Model

variable {m next : Model}

theorem sound_empty : Model.empty.Sound where
  ordered := .nil
  filed := Relationships.filed_empty
  wellFormed :=
    { entities :=
        { parent_package := by simp [Model.empty]
          package_bare := by simp [Model.empty]
          title_filled := by simp [Model.empty]
          member_filled := by simp [Model.empty] }
      source_live := by simp [Model.empty]
      target_live := by simp [Model.empty]
      text_trimmed := by simp [Model.empty] }

theorem Sound.entities (h : m.Sound) {es : Entities} (change : m.entities.Change es) :
    Model.Sound { m with entities := es } where
  ordered := change.ordered h.ordered
  filed := h.filed
  wellFormed :=
    { entities := change.wellFormed h.ordered h.wellFormed.entities
      source_live := fun r member => change.contains (h.wellFormed.source_live r member)
      target_live := fun r member => change.contains (h.wellFormed.target_live r member)
      text_trimmed := h.wellFormed.text_trimmed }

theorem Sound.remove (h : m.Sound) (id : EntityId) : (m.removeEntity id).Sound := by
  obtain ⟨filed, items⟩ := h.filed.detachAll (m.entities.doomed id)
  have kept : ∀ r ∈ (m.removeEntity id).relationships.items,
      r ∈ m.relationships.items ∧ r.source ∉ m.entities.doomed id ∧
        r.target ∉ m.entities.doomed id := by
    intro r member
    have left : r ∈ ((m.entities.doomed id).foldl Relationships.detach m.relationships).items :=
      member
    rw [items, List.mem_filter, decide_eq_true_iff] at left
    exact left
  exact
    { ordered := h.ordered.remove _
      filed := filed
      wellFormed :=
        { entities := h.wellFormed.entities.remove h.ordered id
          source_live := fun r member =>
            Entities.contains_remove (h.wellFormed.source_live r (kept r member).1)
              (kept r member).2.1
          target_live := fun r member =>
            Entities.contains_remove (h.wellFormed.target_live r (kept r member).1)
              (kept r member).2.2
          text_trimmed := fun r member => h.wellFormed.text_trimmed r (kept r member).1 } }

theorem Sound.relate (h : m.Sound) {source target : EntityId} (kind : RelationshipKind)
    (sourceMultiplicity targetMultiplicity label : String)
    (sourceLive : m.entities.contains source = true)
    (targetLive : m.entities.contains target = true) :
    Model.Sound
      { m with
        relationships :=
          (m.relationships.add source target kind sourceMultiplicity targetMultiplicity
            label).2 } where
  ordered := h.ordered
  filed := h.filed.add ..
  wellFormed :=
    { entities := h.wellFormed.entities
      source_live := by
        intro r member
        rcases List.mem_append.mp member with old | new
        · exact h.wellFormed.source_live r old
        · rw [List.mem_singleton.mp new]
          exact sourceLive
      target_live := by
        intro r member
        rcases List.mem_append.mp member with old | new
        · exact h.wellFormed.target_live r old
        · rw [List.mem_singleton.mp new]
          exact targetLive
      text_trimmed := by
        intro r member
        rcases List.mem_append.mp member with old | new
        · exact h.wellFormed.text_trimmed r old
        · rw [List.mem_singleton.mp new]
          exact ⟨Text.isTrimmed_trimmed _, Text.isTrimmed_trimmed _, Text.isTrimmed_trimmed _⟩ }

theorem Sound.redraw (h : m.Sound) {r new : Relationship} (present : r ∈ m.relationships.items)
    (edit : r.Edit new) :
    Model.Sound { m with relationships := m.relationships.replace new } := by
  have sameId : new.id = r.id := by cases edit <;> rfl
  have sameSource : new.source = r.source := by cases edit <;> rfl
  have sameTarget : new.target = r.target := by cases edit <;> rfl
  have trimmed : Text.IsTrimmed new.label ∧ Text.IsTrimmed new.sourceMultiplicity ∧
      Text.IsTrimmed new.targetMultiplicity := by
    obtain ⟨label, source, target⟩ := h.wellFormed.text_trimmed r present
    cases edit with
    | labelled => exact ⟨Text.isTrimmed_trimmed _, source, target⟩
    | counted => exact ⟨label, Text.isTrimmed_trimmed _, Text.isTrimmed_trimmed _⟩
    | turned => exact ⟨label, source, target⟩
  exact
    { ordered := h.ordered
      filed := h.filed.replace present sameId sameSource sameTarget
      wellFormed :=
        { entities := h.wellFormed.entities
          source_live := by
            intro x member
            rcases Relationships.mem_replace member with rfl | old
            · rw [sameSource]
              exact h.wellFormed.source_live r present
            · exact h.wellFormed.source_live x old
          target_live := by
            intro x member
            rcases Relationships.mem_replace member with rfl | old
            · rw [sameTarget]
              exact h.wellFormed.target_live r present
            · exact h.wellFormed.target_live x old
          text_trimmed := by
            intro x member
            rcases Relationships.mem_replace member with rfl | old
            · exact trimmed
            · exact h.wellFormed.text_trimmed x old } }

theorem Sound.unrelate (h : m.Sound) (id : RelationshipId) : (m.unrelate id).Sound := by
  have kept : ∀ r ∈ (m.unrelate id).relationships.items, r ∈ m.relationships.items := by
    intro r member
    have left : r ∈ (m.relationships.remove id).items := member
    rw [h.filed.items_remove] at left
    exact List.mem_of_mem_filter left
  exact
    { ordered := h.ordered
      filed := h.filed.remove id
      wellFormed :=
        { entities := h.wellFormed.entities
          source_live := fun r member => h.wellFormed.source_live r (kept r member)
          target_live := fun r member => h.wellFormed.target_live r (kept r member)
          text_trimmed := fun r member => h.wellFormed.text_trimmed r (kept r member) } }

theorem Sound.parent_live (h : m.Sound) {e : Entity} {package : EntityId}
    (member : e ∈ m.entities.items) (nested : e.parent = some package) :
    m.entities.contains package = true := by
  obtain ⟨container, found, -⟩ := h.wellFormed.entities.parent_package e member package nested
  exact Entities.contains_of_find? found

theorem Change.sound (change : m.Change next) (h : m.Sound) : next.Sound := by
  cases change with
  | entities es change => exact h.entities change
  | removed id => exact h.remove id
  | related source target kind sourceMultiplicity targetMultiplicity label sourceLive targetLive =>
      exact h.relate kind _ _ _ sourceLive targetLive
  | redrawn r new present edit => exact h.redraw present edit
  | unrelated id => exact h.unrelate id

theorem sound_run (operations : List Operation) : (Model.empty.run operations).Sound :=
  invariant_of_run sound_empty (fun _ _ h change => change.sound h) operations

theorem run_wellFormed (operations : List Operation) : (Model.empty.run operations).WellFormed :=
  (sound_run operations).wellFormed

/-- After every run the indices name, in insertion order, exactly the relationships that leave and
reach each entity, and the queries answer what a scan of all relationships would. -/
theorem run_indices_exact (operations : List Operation) :
    let rs := (Model.empty.run operations).relationships
    rs.items.Pairwise (·.id.number < ·.id.number) ∧
      (∀ entity, rs.outgoing.ids entity = (rs.items.filter (·.source = entity)).map (·.id)) ∧
      (∀ entity, rs.incoming.ids entity = (rs.items.filter (·.target = entity)).map (·.id)) ∧
      (∀ entry ∈ rs.outgoing ++ rs.incoming, entry.2 ≠ []) ∧
      (∀ entity, rs.touching entity = rs.items.filter (·.touches entity)) ∧
      ∀ source target,
        rs.between source target =
          rs.items.filter fun r => r.source = source ∧ r.target = target := by
  intro rs
  have filed := (sound_run operations).filed
  refine ⟨filed.numbered.increasing, filed.outgoing.exact, filed.incoming.exact, ?_,
    filed.touching_eq, filed.between_eq⟩
  intro entry member
  rcases List.mem_append.mp member with out | inc
  · exact filed.outgoing.occupied entry out
  · exact filed.incoming.occupied entry inc

end Model

end ClassDiagram
