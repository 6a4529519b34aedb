import ClassDiagram.Proofs.Model.Change

/-! Every model that operations lead to is well formed: relationships end at entities of the model,
nesting goes one level deep into packages, packages have no members, and texts are stored
trimmed. -/

namespace ClassDiagram

structure Entities.WellFormed (es : Entities) : Prop where
  parent_package : ∀ e ∈ es.items, ∀ p, e.parent = some p →
    ∃ container, es.find? p = some container ∧ container.kind = .package
  package_bare : ∀ e ∈ es.items, e.kind = .package → e.parent = none ∧ e.members = []
  title_filled : ∀ e ∈ es.items, Text.IsFilled e.title
  member_filled : ∀ e ∈ es.items, ∀ entry ∈ e.members,
    Text.IsFilled entry.2.name ∧ Text.IsFilled entry.2.typeName

structure Model.WellFormed (m : Model) : Prop where
  entities : m.entities.WellFormed
  source_live : ∀ r ∈ m.relationships.items, m.entities.contains r.source = true
  target_live : ∀ r ∈ m.relationships.items, m.entities.contains r.target = true
  text_trimmed : ∀ r ∈ m.relationships.items,
    Text.IsTrimmed r.label ∧ Text.IsTrimmed r.sourceMultiplicity ∧
      Text.IsTrimmed r.targetMultiplicity

namespace Entities

variable {es next : Entities}

theorem Edit.id_eq {e new : Entity} (edit : es.Edit e new) : new.id = e.id := by
  cases edit <;> rfl

theorem Edit.kind_eq {e new : Entity} (edit : es.Edit e new) : new.kind = e.kind := by
  cases edit <;> rfl

theorem Edit.title_filled {e new : Entity} (edit : es.Edit e new) (filled : Text.IsFilled e.title) :
    Text.IsFilled new.title := by
  cases edit with
  | titled title filled => exact filled
  | left | revised | moved | nested | unnested => exact filled

theorem Edit.package_bare {e new : Entity} (edit : es.Edit e new)
    (bare : e.kind = .package → e.parent = none ∧ e.members = []) (package : new.kind = .package) :
    new.parent = none ∧ new.members = [] := by
  obtain ⟨top, empty⟩ := bare (edit.kind_eq.symm.trans package)
  cases edit with
  | titled => exact ⟨top, empty⟩
  | left | revised => simp [top, empty]
  | moved => simp [top, empty, ClassDiagram.moveMember]
  | nested container present isPackage child => exact absurd package child
  | unnested => exact ⟨rfl, empty⟩

theorem Edit.parent_package {e new : Entity} (edit : es.Edit e new) (ordered : es.Ordered)
    (old : ∀ p, e.parent = some p →
      ∃ container, es.find? p = some container ∧ container.kind = .package) :
    ∀ p, new.parent = some p →
      ∃ container, es.find? p = some container ∧ container.kind = .package := by
  intro p nested
  cases edit with
  | titled | left | revised | moved => exact old p nested
  | nested container present isPackage child =>
      cases nested
      exact ⟨container, find?_of_mem ordered present, isPackage⟩
  | unnested => cases nested

theorem WellFormed.replace (h : es.WellFormed) (ordered : es.Ordered) {e new : Entity}
    (present : e ∈ es.items) (sameId : new.id = e.id) (sameKind : new.kind = e.kind)
    (parent : ∀ p, new.parent = some p →
      ∃ container, es.find? p = some container ∧ container.kind = .package)
    (bare : new.kind = .package → new.parent = none ∧ new.members = [])
    (filled : Text.IsFilled new.title) : (es.replace new).WellFormed where
  parent_package := by
    have kept : ∀ p container, es.find? p = some container → container.kind = .package →
        ∃ container, (es.replace new).find? p = some container ∧ container.kind = .package := by
      intro p container found package
      rw [find?_replace]
      split
      next here =>
        have same : es.find? p = some e := by
          rw [here, sameId]
          exact find?_of_mem ordered present
        cases same.symm.trans found
        exact ⟨new, by rw [found]; rfl, sameKind.trans package⟩
      next => exact ⟨container, found, package⟩
    intro x member p nested
    rcases mem_replace member with rfl | old
    · obtain ⟨container, found, package⟩ := parent p nested
      exact kept p container found package
    · obtain ⟨container, found, package⟩ := h.parent_package x old p nested
      exact kept p container found package
  package_bare x member := by
    rcases mem_replace member with rfl | old
    · exact bare
    · exact h.package_bare x old
  title_filled x member := by
    rcases mem_replace member with rfl | old
    · exact filled
    · exact h.title_filled x old
  member_filled _ _ entry _ := ⟨entry.2.name_filled, entry.2.type_filled⟩

theorem Change.ordered (change : es.Change next) (ordered : es.Ordered) : next.Ordered := by
  cases change with
  | created kind title filled => exact Sequence.Numbers.append_fresh ordered _ rfl
  | joined e m present holds =>
      exact Sequence.Numbers.later (ordered.replace _) (Nat.le_succ _)
  | edited e new present edit => exact ordered.replace new

theorem WellFormed.draw (h : es.WellFormed) (ids : Sequence) :
    Entities.WellFormed { es with ids } where
  parent_package := h.parent_package
  package_bare := h.package_bare
  title_filled := h.title_filled
  member_filled := h.member_filled

theorem WellFormed.create (h : es.WellFormed) (kind : EntityKind)
    (title : String) (filled : Text.IsFilled title) :
    Entities.WellFormed
      { ids := es.ids.advance
        items := es.items ++ [{ id := ⟨es.ids.fresh⟩, kind, title }] } where
  parent_package := by
    intro x member p nested
    rcases List.mem_append.mp member with old | new
    · obtain ⟨container, found, package⟩ := h.parent_package x old p nested
      refine ⟨container, ?_, package⟩
      unfold find? at found ⊢
      rw [List.find?_append, found]
      rfl
    · rw [List.mem_singleton.mp new] at nested
      cases nested
  package_bare x member := by
    rcases List.mem_append.mp member with old | new
    · exact h.package_bare x old
    · rw [List.mem_singleton.mp new]
      exact fun _ => ⟨rfl, rfl⟩
  title_filled x member := by
    rcases List.mem_append.mp member with old | new
    · exact h.title_filled x old
    · rw [List.mem_singleton.mp new]
      exact filled
  member_filled _ _ entry _ := ⟨entry.2.name_filled, entry.2.type_filled⟩

theorem Change.wellFormed (change : es.Change next) (ordered : es.Ordered) (h : es.WellFormed) :
    next.WellFormed := by
  cases change with
  | created kind title filled => exact h.create kind title filled
  | joined e m present holds =>
      have other : e.kind ≠ .package := by simpa [EntityKind.holdsMembers] using holds
      have placed :
          (es.replace { e with members := e.members ++ [(⟨es.ids.fresh⟩, m)] }).WellFormed :=
        h.replace ordered present rfl rfl (h.parent_package e present)
          (fun package => absurd package other) (h.title_filled e present)
      exact placed.draw _
  | edited e new present edit =>
      exact h.replace ordered present edit.id_eq edit.kind_eq
        (edit.parent_package ordered (h.parent_package e present))
        (edit.package_bare (h.package_bare e present))
        (edit.title_filled (h.title_filled e present))

theorem Change.contains (change : es.Change next) {id : EntityId} (live : es.contains id = true) :
    next.contains id = true := by
  cases change with
  | created kind title filled =>
      unfold Entities.contains at live ⊢
      rw [List.any_append, live, Bool.true_or]
  | joined e m present holds => exact (contains_replace _ id).trans live
  | edited e new present edit => exact (contains_replace _ id).trans live

theorem mem_remove {ids : List EntityId} {e : Entity} :
    e ∈ (es.remove ids).items ↔ e ∈ es.items ∧ e.id ∉ ids := by
  unfold remove
  rw [List.mem_filter, Bool.not_eq_true', List.contains_eq_mem, decide_eq_false_iff_not]

theorem Ordered.remove (ordered : es.Ordered) (ids : List EntityId) : (es.remove ids).Ordered :=
  Sequence.Numbers.sublist ordered List.filter_sublist

theorem mem_doomed {id x : EntityId} (doomed : x ∈ es.doomed id) :
    x = id ∨ ∃ e ∈ es.items, e.parent = some id ∧ e.id = x := by
  unfold Entities.doomed at doomed
  split at doomed
  · rw [List.mem_append, List.mem_map, List.mem_singleton] at doomed
    rcases doomed with ⟨e, nested, rfl⟩ | here
    · obtain ⟨present, parent⟩ := List.mem_filter.mp nested
      exact .inr ⟨e, present, by simpa using parent, rfl⟩
    · exact .inl here
  · cases doomed

theorem self_mem_doomed {id : EntityId} (live : es.contains id = true) : id ∈ es.doomed id := by
  rw [Entities.doomed, if_pos live]
  exact List.mem_append_right _ List.mem_cons_self

theorem child_mem_doomed {e : Entity} {package : EntityId} (present : e ∈ es.items)
    (nested : e.parent = some package) (live : es.contains package = true) :
    e.id ∈ es.doomed package := by
  have child : e ∈ es.children package := List.mem_filter.mpr ⟨present, by simpa using nested⟩
  rw [Entities.doomed, if_pos live]
  exact List.mem_append_left _ (List.mem_map_of_mem child)

/-- A package goes together with what is nested in it, and what goes with a package is none. -/
theorem WellFormed.remove (h : es.WellFormed) (ordered : es.Ordered) (id : EntityId) :
    (es.remove (es.doomed id)).WellFormed where
  parent_package := by
    intro e member p nested
    obtain ⟨old, kept⟩ := mem_remove.mp member
    obtain ⟨container, found, package⟩ := h.parent_package e old p nested
    obtain ⟨present, rfl⟩ := (find?_eq_some ordered).mp found
    refine ⟨container, find?_of_mem (ordered.remove _) (mem_remove.mpr ⟨present, ?_⟩), package⟩
    intro doomed
    have live := contains_of_find? found
    rcases mem_doomed doomed with rfl | ⟨other, there, inside, same⟩
    · exact kept (child_mem_doomed old nested live)
    · have equal : es.find? container.id = some other :=
        (find?_eq_some ordered).mpr ⟨there, same⟩
      cases equal.symm.trans found
      rw [(h.package_bare container present package).1] at inside
      cases inside
  package_bare e member := h.package_bare e (mem_remove.mp member).1
  title_filled e member := h.title_filled e (mem_remove.mp member).1
  member_filled e member := h.member_filled e (mem_remove.mp member).1

theorem contains_remove {ids : List EntityId} {id : EntityId} (live : es.contains id = true)
    (kept : id ∉ ids) : (es.remove ids).contains id = true := by
  obtain ⟨e, present, rfl⟩ := contains_iff_mem.mp live
  exact contains_of_mem (mem_remove.mpr ⟨present, kept⟩)

end Entities

end ClassDiagram
