import ClassDiagram.Proofs.Declaration
import ClassDiagram.Proofs.Notation.Printing
import ClassDiagram.Proofs.Project.Keys
import ClassDiagram.Proofs.Project.Replaying

/-! Taking a snapshot of a model and replaying it gives the model back, but for the ids of its
elements. -/

namespace ClassDiagram

namespace MemberRecord

theorem mapM_toMember (members : List Member) :
    (members.map ofMember).mapM toMember = .ok members := by
  induction members with
  | nil => rfl
  | cons m members ih =>
      rw [List.map_cons, List.mapM_cons, toMember_ofMember, ih]
      rfl

end MemberRecord

namespace Model

variable {m : Model} {name : String} {shapes : Shapes Float32}

theorem key_mem_snapshot {id : EntityId} (live : m.entities.contains id = true) :
    m.keyOf id ∈ (m.snapshot name shapes).entities.map (·.key) := by
  obtain ⟨e, present, rfl⟩ := Entities.contains_iff_mem.mp live
  exact List.mem_map.mpr ⟨m.entityRecord shapes e, List.mem_map_of_mem present, rfl⟩

theorem Sound.snapshot_valid (h : m.Sound) (name : String) (shapes : Shapes Float32) :
    (m.snapshot name shapes).Valid where
  keys_distinct := by
    have keys : (m.snapshot name shapes).entities.map (·.key) =
        m.entities.items.map fun e => m.keyOf e.id := List.map_map
    rw [keys]
    exact nodup_keyOf h.ordered
  title_filled record member := by
    obtain ⟨e, present, rfl⟩ := List.mem_map.mp member
    have filled := h.wellFormed.entities.title_filled e present
    show Text.IsFilled (Text.trimmed e.title)
    rwa [filled.trimmed]
  member_valid record member line recorded := by
    obtain ⟨e, present, rfl⟩ := List.mem_map.mp member
    obtain ⟨entry, -, rfl⟩ := List.mem_map.mp recorded
    exact ⟨entry.2, MemberRecord.toMember_ofMember entry.2⟩
  package_bare record member package := by
    obtain ⟨e, present, rfl⟩ := List.mem_map.mp member
    have bare := (h.wellFormed.entities.package_bare e present package).2
    show e.members.map _ = []
    rw [bare, List.map_nil]
  package_known record member key nested := by
    obtain ⟨e, present, rfl⟩ := List.mem_map.mp member
    obtain ⟨package, inside, rfl⟩ := Option.map_eq_some_iff.mp nested
    obtain ⟨container, found, isPackage⟩ :=
      h.wellFormed.entities.parent_package e present package inside
    obtain ⟨there, rfl⟩ := (Entities.find?_eq_some h.ordered).mp found
    refine ⟨fun kind => ?_, m.entityRecord shapes container, List.mem_map_of_mem there, rfl,
      isPackage⟩
    have top := (h.wellFormed.entities.package_bare e present kind).1
    rw [top] at inside
    cases inside
  ends_known record member := by
    obtain ⟨r, present, rfl⟩ := List.mem_map.mp member
    exact ⟨key_mem_snapshot (h.wellFormed.source_live r present),
      key_mem_snapshot (h.wellFormed.target_live r present)⟩

namespace Copy

variable {n : Model} (copy : m.Copy n)

theorem keyOf_eq (h : m.Sound) (h' : n.Sound) {id : EntityId}
    (live : m.entities.contains id = true) : n.keyOf (copy.entity id) = m.keyOf id := by
  have titles : m.entities.items.map (·.title) = n.entities.items.map (·.title) :=
    map_eq_map copy.entities fun e e' copies => copies.title.symm
  have keys : m.entities.items.map (fun e => m.keyOf e.id) =
      n.entities.items.map fun e => n.keyOf e.id := by
    rw [map_keyOf h.ordered, map_keyOf h'.ordered, titles]
  rw [← List.forall₂_eq_eq_eq, List.forall₂_map_left_iff, List.forall₂_map_right_iff] at keys
  obtain ⟨e, present, rfl⟩ := Entities.contains_iff_mem.mp live
  have places := List.Forall₂.mp (fun e e' => And.intro) keys copy.entities
  obtain ⟨e', -, same, copies⟩ := exists_of_mem_left places present
  rw [same, copies.id]

theorem entityRecord_eq (h : m.Sound) (h' : n.Sound) {e e' : Entity}
    (present : e ∈ m.entities.items) (copies : Entity.Copies copy.entity e e') :
    m.entityRecord (fun _ => none) e = n.entityRecord (fun _ => none) e' := by
  have live := Entities.contains_of_mem present
  have members : e.members.map (fun entry => MemberRecord.ofMember entry.2) =
      e'.members.map fun entry => MemberRecord.ofMember entry.2 := by
    have same := congrArg (List.map MemberRecord.ofMember) copies.members
    rw [List.map_map, List.map_map] at same
    exact same.symm
  have package : e.parent.map m.keyOf = e'.parent.map n.keyOf := by
    rw [copies.parent, Option.map_map]
    cases nested : e.parent with
    | none => rfl
    | some package =>
        exact congrArg some (copy.keyOf_eq h h' (h.parent_live present nested)).symm
  unfold entityRecord
  rw [copies.id, copy.keyOf_eq h h' live, copies.kind, copies.title, members, package]

theorem snapshot_eq (copy : m.Copy n) (h : m.Sound) (h' : n.Sound) (name : String) :
    m.snapshot name (fun _ => none) = n.snapshot name (fun _ => none) := by
  have entities : m.entities.items.map (m.entityRecord fun _ => none) =
      n.entities.items.map (n.entityRecord fun _ => none) :=
    map_eq_map (forall₂_mem copy.entities) fun e e' here =>
      copy.entityRecord_eq h h' here.1 here.2.2
  have relationships : m.relationships.items.map m.relationshipRecord =
      n.relationships.items.map n.relationshipRecord := by
    refine map_eq_map (forall₂_mem copy.relationships) fun r r' here => ?_
    obtain ⟨present, -, copies⟩ := here
    unfold relationshipRecord
    rw [copies.source, copies.target, copies.kind, copies.sourceMultiplicity,
      copies.targetMultiplicity, copies.label,
      copy.keyOf_eq h h' (h.wellFormed.source_live r present),
      copy.keyOf_eq h h' (h.wellFormed.target_live r present)]
  unfold snapshot
  rw [entities, relationships]

end Copy

end Model

namespace LoadedProject

variable {m : Model} {p : LoadedProject} {name : String} {shapes : Shapes Float32}

def successor (m : Model) (p : LoadedProject) (id : EntityId) : EntityId :=
  (p.entityId? (m.keyOf id)).getD id

def Restores (p : LoadedProject) (m : Model) (name : String) (shapes : Shapes Float32) : Prop :=
  p.Holds (m.snapshot name shapes).entities [] (m.snapshot name shapes).relationships

theorem Restores.entities_paired (h : p.Restores m name shapes) :
    List.Forall₂
      (fun e e' => p.Shows (m.entityRecord shapes e) e' ∧
        e'.parent = (e.parent.map m.keyOf).bind p.entityId?)
      m.entities.items p.model.entities.items := by
  obtain ⟨inside, outside, split, done, left⟩ := h.entities
  obtain rfl := List.forall₂_nil_left_iff.mp left
  rw [split, List.append_nil]
  exact List.forall₂_map_left_iff.mp done

theorem Restores.successor_known (h : p.Restores m name shapes) {id : EntityId}
    (live : m.entities.contains id = true) :
    p.entityId? (m.keyOf id) = some (successor m p id) := by
  obtain ⟨e, present, rfl⟩ := Entities.contains_iff_mem.mp live
  obtain ⟨e', -, shows, -⟩ := exists_of_mem_left h.entities_paired present
  have known : p.entityId? (m.keyOf e.id) = some e'.id := shows.known
  unfold successor
  rw [known, Option.getD_some]

theorem Restores.entities_copied (h : p.Restores m name shapes) (sound : m.Sound) :
    List.Forall₂ (Entity.Copies (successor m p)) m.entities.items p.model.entities.items := by
  refine (forall₂_mem h.entities_paired).imp ?_
  rintro e e' ⟨present, -, shows, parent⟩
  have live := Entities.contains_of_mem present
  have filled := sound.wellFormed.entities.title_filled e present
  have lines : (m.entityRecord shapes e).members =
      (e.members.map (·.2)).map MemberRecord.ofMember := by
    rw [List.map_map]
    rfl
  have members := shows.members
  rw [lines, MemberRecord.mapM_toMember] at members
  exact
    { id := Option.some.inj (shows.known.symm.trans (h.successor_known live))
      kind := shows.kind
      title := shows.title.trans filled.trimmed
      members := (Except.ok.inj members).symm
      parent := by
        rw [parent]
        cases nested : e.parent with
        | none => rfl
        | some package =>
            exact h.successor_known (sound.parent_live present nested) }

theorem Restores.relationships_copied (h : p.Restores m name shapes) (sound : m.Sound) :
    ∃ rename : RelationshipId → RelationshipId,
      List.Forall₂ (Relationship.Copies (successor m p) rename)
        m.relationships.items p.model.relationships.items := by
  have related : List.Forall₂ (fun r r' => p.Relates (m.relationshipRecord r) r')
      m.relationships.items p.model.relationships.items :=
    List.forall₂_map_left_iff.mp h.relationships
  have distinct : (m.relationships.items.map (·.id)).Nodup := sound.filed.distinct_ids
  obtain ⟨rename, renamed⟩ := exists_renaming related (·.id) distinct
  refine ⟨rename, (forall₂_mem renamed).imp ?_⟩
  rintro r r' ⟨present, -, relates, id⟩
  have source := h.successor_known (sound.wellFormed.source_live r present)
  have target := h.successor_known (sound.wellFormed.target_live r present)
  obtain ⟨label, sourceMultiplicity, targetMultiplicity⟩ :=
    sound.wellFormed.text_trimmed r present
  exact
    { id := id
      source := Option.some.inj (relates.source.symm.trans source)
      target := Option.some.inj (relates.target.symm.trans target)
      kind := relates.kind
      sourceMultiplicity := relates.sourceMultiplicity.trans sourceMultiplicity
      targetMultiplicity := relates.targetMultiplicity.trans targetMultiplicity
      label := relates.label.trans label }

theorem Restores.exists_copy (h : p.Restores m name shapes) (sound : m.Sound) :
    ∃ copy : m.Copy p.model, copy.entity = successor m p := by
  obtain ⟨rename, renamed⟩ := h.relationships_copied sound
  have entities := h.entities_copied sound
  exact
    ⟨{ entity := successor m p
       relationship := rename
       entities := entities
       relationships := renamed
       entity_less :=
         less_of_less entities sound.ordered.increasing h.sound.ordered.increasing
           fun e e' copies => congrArg EntityId.number copies.id
       relationship_less :=
         less_of_less renamed sound.filed.numbered.increasing h.sound.filed.numbered.increasing
           fun r r' copies => congrArg RelationshipId.number copies.id },
      rfl⟩

end LoadedProject

end ClassDiagram
