import ClassDiagram.Proofs.Model.Index
import ClassDiagram.Proofs.Model.Numbering
import ClassDiagram.Proofs.Result

/-! The indices of the relationships say the same as the relationships themselves. Adding, editing
and removing keep it so, and therefore the queries, which go through the indices, answer what a scan
of all relationships would. -/

namespace ClassDiagram

/-- The index has, for each entity, the ids of the relationships that have it at one end. -/
structure Index.Files (index : Index) (ending : Relationship → EntityId)
    (items : List Relationship) : Prop where
  distinct : (index.map (·.1)).Nodup
  occupied : ∀ entry ∈ index, entry.2 ≠ []
  exact : ∀ entity, index.ids entity = (items.filter (ending · = entity)).map (·.id)

namespace Index.Files

variable {index : Index} {ending : Relationship → EntityId} {items : List Relationship}

theorem nil : Index.Files [] ending [] where
  distinct := .nil
  occupied := by simp
  exact _ := rfl

theorem insert (h : index.Files ending items) (r : Relationship) :
    (index.insert (ending r) r.id).Files ending (items ++ [r]) where
  distinct := distinct_insert h.distinct _ _
  occupied := occupied_insert h.occupied _ _
  exact entity := by
    rw [ids_insert, h.exact, List.filter_append, List.map_append]
    by_cases sought : entity = ending r
    · subst sought
      simp
    · have missed : ¬ ending r = entity := fun same => sought same.symm
      simp [sought, missed]

/-- Only the relationship `r` has its id, so no other entry changes. -/
theorem erase (h : index.Files ending items) {r : Relationship}
    (only : ∀ other ∈ items, other.id = r.id → other = r) :
    (index.erase (ending r) r.id).Files ending (items.filter (·.id ≠ r.id)) where
  distinct := (keys_erase index _ _).nodup h.distinct
  occupied := occupied_erase h.occupied _ _
  exact entity := by
    rw [ids_erase h.distinct, h.exact, List.filter_map, List.filter_filter, List.filter_filter]
    split
    next =>
      congr 1
      refine List.filter_congr fun other _ => ?_
      simp [Bool.and_comm]
    next sought =>
      congr 1
      refine List.filter_congr fun other member => ?_
      by_cases here : ending other = entity
      · have kept : other.id ≠ r.id := fun same => sought (only other member same ▸ here.symm)
        simp [here, kept]
      · simp [here]

theorem map (h : index.Files ending items) {f : Relationship → Relationship}
    (sameId : ∀ r ∈ items, (f r).id = r.id) (sameEnd : ∀ r ∈ items, ending (f r) = ending r) :
    index.Files ending (items.map f) where
  distinct := h.distinct
  occupied := h.occupied
  exact entity := by
    rw [h.exact, List.filter_map, List.map_map]
    have kept : items.filter ((fun r => decide (ending r = entity)) ∘ f) =
        items.filter (fun r => decide (ending r = entity)) :=
      List.filter_congr fun r member => by simp [sameEnd r member]
    rw [kept]
    refine List.map_congr_left fun r member => ?_
    exact (sameId r (List.mem_of_mem_filter member)).symm

end Index.Files

namespace Relationships

variable {rs next : Relationships} {id : RelationshipId}

/-- The relationships stand in the order of their numbers and are filed under their ends. -/
structure Filed (rs : Relationships) : Prop where
  numbered : rs.ids.Numbers (·.id.number) rs.items
  outgoing : rs.outgoing.Files (·.source) rs.items
  incoming : rs.incoming.Files (·.target) rs.items

theorem filed_empty : Filed {} where
  numbered := .nil
  outgoing := .nil
  incoming := .nil

theorem Filed.eq_of_id (h : rs.Filed) {r other : Relationship} (hr : r ∈ rs.items)
    (ho : other ∈ rs.items) (same : other.id = r.id) : other = r :=
  h.numbered.eq_of_number ho hr (congrArg RelationshipId.number same)

theorem Filed.distinct_ids (h : rs.Filed) : (rs.items.map (·.id)).Nodup :=
  h.numbered.nodup_map fun _ _ same => congrArg RelationshipId.number same

theorem Filed.find?_eq_some (h : rs.Filed) {r : Relationship} :
    rs.find? id = some r ↔ r ∈ rs.items ∧ r.id = id := by
  rw [find?, h.numbered.find?_eq_some (n := id.number)]
  · exact and_congr_right fun _ => by rw [RelationshipId.ext_iff]
  · intro b
    rw [decide_eq_true_iff, RelationshipId.ext_iff]

theorem find?_eq_none : rs.find? id = none ↔ ∀ r ∈ rs.items, r.id ≠ id := by
  simp [find?]

theorem Filed.add (h : rs.Filed) (source target : EntityId) (kind : RelationshipKind)
    (sourceMultiplicity targetMultiplicity label : String) :
    (rs.add source target kind sourceMultiplicity targetMultiplicity label).2.Filed := by
  let added : Relationship :=
    { id := ⟨rs.ids.fresh⟩, source, target, kind
      sourceMultiplicity := Text.trimmed sourceMultiplicity
      targetMultiplicity := Text.trimmed targetMultiplicity
      label := Text.trimmed label }
  exact
    { numbered := h.numbered.append_fresh added rfl
      outgoing := h.outgoing.insert added
      incoming := h.incoming.insert added }

theorem mem_replace {r x : Relationship} (member : x ∈ (rs.replace r).items) :
    x = r ∨ x ∈ rs.items := by
  obtain ⟨old, present, rfl⟩ := List.mem_map.mp member
  split
  · exact .inl rfl
  · exact .inr present

theorem Filed.replace (h : rs.Filed) {r edited : Relationship} (member : r ∈ rs.items)
    (sameId : edited.id = r.id) (sameSource : edited.source = r.source)
    (sameTarget : edited.target = r.target) : (rs.replace edited).Filed := by
  have unique : ∀ other ∈ rs.items, other.id = edited.id → other = r :=
    fun other present same => h.eq_of_id member present (same.trans sameId)
  have keeps : ∀ {β : Type} (field : Relationship → β), field edited = field r →
      ∀ other ∈ rs.items, field (if other.id = edited.id then edited else other) = field other := by
    intro β field same other present
    split
    next here => rw [same, unique other present here]
    next => rfl
  exact
    { numbered := h.numbered.map (keeps (·.id.number) (congrArg _ sameId))
      outgoing := h.outgoing.map (keeps (·.id) sameId) (keeps (·.source) sameSource)
      incoming := h.incoming.map (keeps (·.id) sameId) (keeps (·.target) sameTarget) }

theorem Filed.eraseP_eq_filter (h : rs.Filed) (id : RelationshipId) :
    rs.items.eraseP (·.id = id) = rs.items.filter (·.id ≠ id) := by
  rw [h.numbered.eraseP_eq_filter (n := id.number)]
  · refine List.filter_congr fun r _ => ?_
    rw [decide_not]
  · intro b
    rw [decide_eq_true_iff, RelationshipId.ext_iff]

theorem Filed.items_remove (h : rs.Filed) (id : RelationshipId) :
    (rs.remove id).items = rs.items.filter (·.id ≠ id) := by
  unfold Relationships.remove
  split
  next missing =>
    refine (List.filter_eq_self.mpr fun r member => ?_).symm
    have other : r.id ≠ id := by simpa using List.find?_eq_none.mp missing r member
    simp [other]
  next => exact h.eraseP_eq_filter id

theorem ids_remove (rs : Relationships) (id : RelationshipId) : (rs.remove id).ids = rs.ids := by
  unfold Relationships.remove
  split <;> rfl

theorem Filed.remove (h : rs.Filed) (id : RelationshipId) : (rs.remove id).Filed := by
  unfold Relationships.remove
  split
  next => exact h
  next r found =>
    obtain ⟨member, rfl⟩ := h.find?_eq_some.mp found
    have only : ∀ other ∈ rs.items, other.id = r.id → other = r :=
      fun other present same => h.eq_of_id member present same
    rw [h.eraseP_eq_filter]
    exact
      { numbered := h.numbered.sublist List.filter_sublist
        outgoing := h.outgoing.erase only
        incoming := h.incoming.erase only }

theorem Filed.filterMap_find? (h : rs.Filed) {kept : List Relationship}
    (present : ∀ r ∈ kept, r ∈ rs.items) : (kept.map (·.id)).filterMap rs.find? = kept := by
  rw [List.filterMap_map]
  calc
    kept.filterMap (rs.find? ∘ (·.id)) = kept.filterMap some :=
      List.filterMap_congr fun r member => h.find?_eq_some.mpr ⟨present r member, rfl⟩
    _ = kept := List.filterMap_some

theorem Filed.touching_eq (h : rs.Filed) (entity : EntityId) :
    rs.touching entity = rs.items.filter (·.touches entity) := by
  have grows : ((rs.items.filter (·.touches entity)).map (·.id)).Pairwise
      (·.number < ·.number) := by
    rw [List.pairwise_map]
    exact h.numbered.increasing.filter _
  have same : ∀ id, id ∈ rs.outgoing.ids entity ++ rs.incoming.ids entity ↔
      id ∈ (rs.items.filter (·.touches entity)).map (·.id) := by
    intro id
    rw [h.outgoing.exact, h.incoming.exact, ← List.map_append, List.mem_map, List.mem_map]
    refine exists_congr fun r => and_congr_left fun _ => ?_
    simp only [List.mem_append, List.mem_filter, Relationship.touches, decide_eq_true_eq,
      Bool.or_eq_true]
    tauto
  unfold touching
  rw [increasing_eq grows same]
  exact h.filterMap_find? fun r member => List.mem_of_mem_filter member

theorem Filed.between_eq (h : rs.Filed) (source target : EntityId) :
    rs.between source target =
      rs.items.filter fun r => r.source = source ∧ r.target = target := by
  unfold between
  rw [h.outgoing.exact, h.filterMap_find? fun r member => List.mem_of_mem_filter member,
    List.filter_filter]
  refine List.filter_congr fun r _ => ?_
  simp [Bool.and_comm]

theorem Filed.removeAll (h : rs.Filed) (ids : List RelationshipId) :
    (ids.foldl Relationships.remove rs).Filed ∧
      (ids.foldl Relationships.remove rs).items = rs.items.filter (·.id ∉ ids) := by
  induction ids generalizing rs with
  | nil => exact ⟨h, by simp⟩
  | cons id ids ih =>
      obtain ⟨filed, items⟩ := ih (h.remove id)
      refine ⟨filed, ?_⟩
      rw [List.foldl_cons, items, h.items_remove, List.filter_filter]
      refine List.filter_congr fun r _ => ?_
      simp [not_or, Bool.and_comm]

theorem Filed.items_detach (h : rs.Filed) (entity : EntityId) :
    (rs.detach entity).items = rs.items.filter (!·.touches entity) := by
  rw [detach, (h.removeAll _).2, h.touching_eq]
  refine List.filter_congr fun r member => ?_
  rw [Bool.eq_iff_iff, decide_eq_true_iff, List.mem_map, Bool.not_eq_true', ← Bool.not_eq_true,
    not_iff_not]
  constructor
  · rintro ⟨other, touching, same⟩
    obtain ⟨present, touches⟩ := List.mem_filter.mp touching
    rwa [h.eq_of_id member present same] at touches
  · intro touches
    exact ⟨r, List.mem_filter.mpr ⟨member, touches⟩, rfl⟩

theorem Filed.detach (h : rs.Filed) (entity : EntityId) : (rs.detach entity).Filed :=
  (h.removeAll _).1

theorem Filed.detachAll (h : rs.Filed) (entities : List EntityId) :
    (entities.foldl Relationships.detach rs).Filed ∧
      (entities.foldl Relationships.detach rs).items =
        rs.items.filter fun r => r.source ∉ entities ∧ r.target ∉ entities := by
  induction entities generalizing rs with
  | nil => exact ⟨h, by simp⟩
  | cons entity entities ih =>
      obtain ⟨filed, items⟩ := ih (h.detach entity)
      refine ⟨filed, ?_⟩
      rw [List.foldl_cons, items, h.items_detach, List.filter_filter]
      refine List.filter_congr fun r _ => ?_
      rw [Bool.eq_iff_iff]
      simp only [Relationship.touches, List.mem_cons, Bool.and_eq_true, Bool.not_eq_true',
        Bool.or_eq_false_iff, decide_eq_true_eq, decide_eq_false_iff_not]
      tauto

theorem ids_removeAll (rs : Relationships) (ids : List RelationshipId) :
    (ids.foldl Relationships.remove rs).ids = rs.ids := by
  induction ids generalizing rs with
  | nil => rfl
  | cons id ids ih => rw [List.foldl_cons, ih, ids_remove]

theorem ids_detachAll (rs : Relationships) (entities : List EntityId) :
    (entities.foldl Relationships.detach rs).ids = rs.ids := by
  induction entities generalizing rs with
  | nil => rfl
  | cons entity entities ih => rw [List.foldl_cons, ih, Relationships.detach, ids_removeAll]

end Relationships

end ClassDiagram
