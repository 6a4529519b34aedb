import ClassDiagram.Proofs.FirstFault
import ClassDiagram.Proofs.Member
import ClassDiagram.Proofs.Model.Refusal
import ClassDiagram.Project.Record
import Mathlib.Algebra.GroupWithZero.Nat

/-! What can be wrong with the records of a project, in the order in which it is checked. Nothing is
wrong exactly if the records fit together. -/

namespace ClassDiagram

/-- The records of a project fit together. -/
structure Project.Valid (project : Project) : Prop where
  keys_distinct : (project.entities.map (·.key)).Nodup
  title_filled : ∀ record ∈ project.entities, Text.IsFilled (Text.trimmed record.title)
  member_valid : ∀ record ∈ project.entities, ∀ m ∈ record.members,
    ∃ member, m.toMember = .ok member
  package_bare : ∀ record ∈ project.entities, record.kind = .package → record.members = []
  package_known : ∀ record ∈ project.entities, ∀ key, record.package = some key →
    record.kind ≠ .package ∧
      ∃ container ∈ project.entities, container.key = key ∧ container.kind = .package
  ends_known : ∀ record ∈ project.relationships,
    record.source ∈ project.entities.map (·.key) ∧ record.target ∈ project.entities.map (·.key)

/-- The entity that the next record is to be. Each entity takes a number, and so does each of its
members. -/
def place (earlier : List EntityRecord) : EntityId :=
  ⟨(earlier.map fun record => record.members.length + 1).sum + 1⟩

def placement (records : List EntityRecord) : List (EntityRecord × EntityId) :=
  alongside (fun earlier record => (record, place earlier)) [] records

def MemberRecord.Gives (record : MemberRecord) (member : Member) : Prop :=
  match record with
  | .line text => Notation.parseMember text = .ok member
  | .fields kind visibility name typeName =>
    member.kind = kind ∧ member.visibility = visibility ∧ member.name = Text.trimmed name ∧
      member.typeName = Text.trimmed typeName

def MemberRecord.Readable : MemberRecord → Prop
  | .line text => ∃ member, Notation.parseMember text = .ok member
  | .fields _ _ name typeName => Text.trimmed name ≠ "" ∧ Text.trimmed typeName ≠ ""

def MemberRecord.unreadable? : MemberRecord → Option DiagramError
  | .line text => (error? (Notation.parseMember text)).map (.parse · text)
  | .fields kind _ name typeName =>
    ((Field.name.blank? none name).or (kind.typeField.blank? none typeName)).map .model

section Faults

def MemberRecord.faults (owner : EntityId) (kind : EntityKind) (record : MemberRecord) :
    List DiagramError :=
  record.unreadable?.toList ++
    if kind.holdsMembers then []
    else [.model (.validation .kind (some (.entity owner)) (.memberless kind))]

def EntityRecord.faults (earlier : List EntityRecord) (record : EntityRecord) :
    List DiagramError :=
  (if record.key ∈ earlier.map (·.key) then [.project (.duplicateKey record.key)] else []) ++
    (((Field.title.blank? none record.title).map DiagramError.model).toList ++
      record.members.flatMap (MemberRecord.faults (place earlier) record.kind))

def nestingFaults (container child : EntityId) (containerKind childKind : EntityKind) :
    List ModelError :=
  (if containerKind = .package then []
    else [.validation .nesting (some (.entity container)) (.notContainer containerKind)]) ++
  if childKind = .package then [.validation .nesting (some (.entity child)) .nestedPackage] else []

def EntityRecord.packageFaults (all earlier : List EntityRecord) (record : EntityRecord) :
    List DiagramError :=
  match record.package with
  | none => []
  | some key =>
    match (placement all).find? (·.1.key = key) with
    | none => [.project (.unknownKey key)]
    | some (container, id) =>
      (nestingFaults id (place earlier) container.kind record.kind).map .model

def unknownKeys (all : List EntityRecord) (key : String) : List DiagramError :=
  if key ∈ all.map (·.key) then [] else [.project (.unknownKey key)]

def RelationshipRecord.faults (all : List EntityRecord) (record : RelationshipRecord) :
    List DiagramError :=
  unknownKeys all record.source ++ unknownKeys all record.target

/-- First all entities are checked, then their nesting, and then the relationships. -/
def Project.faults (project : Project) : List DiagramError :=
  (alongside EntityRecord.faults [] project.entities).flatten ++
    ((alongside (EntityRecord.packageFaults project.entities) [] project.entities).flatten ++
      project.relationships.flatMap (RelationshipRecord.faults project.entities))

end Faults

section Members

theorem MemberRecord.error?_toMember (record : MemberRecord) :
    error? record.toMember = record.unreadable? := by
  cases record with
  | line text => exact error?_mapError ..
  | fields kind visibility name typeName =>
      rw [toMember, error?_mapError, Member.error?_make]
      rfl

theorem MemberRecord.toMember_eq_ok {record : MemberRecord} {member : Member} :
    record.toMember = .ok member ↔ record.Gives member := by
  cases record with
  | line text => exact mapError_eq_ok
  | fields kind visibility name typeName => rw [toMember, mapError_eq_ok, Member.make_eq_ok, Gives]

theorem MemberRecord.unreadable?_eq_none {record : MemberRecord} :
    record.unreadable? = none ↔ ∃ member, record.toMember = .ok member := by
  rw [← error?_toMember]
  cases record.toMember <;> simp

theorem MemberRecord.exists_toMember {record : MemberRecord} :
    (∃ member, record.toMember = .ok member) ↔ record.Readable := by
  cases record with
  | line text => exact exists_congr fun member => mapError_eq_ok
  | fields kind visibility name typeName =>
      rw [← unreadable?_eq_none, unreadable?, Option.map_eq_none_iff, Option.or_eq_none_iff]
      simp [Field.blank?, Readable]

theorem MemberRecord.faults_eq_nil {owner : EntityId} {kind : EntityKind}
    {record : MemberRecord} :
    record.faults owner kind = [] ↔
      (∃ member, record.toMember = .ok member) ∧ kind.holdsMembers = true := by
  rw [faults, List.append_eq_nil_iff, Option.toList_eq_nil_iff, unreadable?_eq_none]
  refine and_congr_right fun _ => ?_
  split
  next holds => simp [holds]
  next not => simp [not]

end Members

section Placement

variable {records : List EntityRecord}

theorem mem_placement {record : EntityRecord} {id : EntityId} :
    (record, id) ∈ placement records ↔
      ∃ front back, records = front ++ record :: back ∧ place front = id := by
  rw [placement, mem_alongside]
  constructor
  · rintro ⟨front, a, back, split, same⟩
    obtain ⟨rfl, rfl⟩ := Prod.mk.inj same
    exact ⟨front, back, split, rfl⟩
  · rintro ⟨front, back, split, rfl⟩
    exact ⟨front, record, back, split, rfl⟩

theorem placement_append (record : EntityRecord) :
    placement (records ++ [record]) = placement records ++ [(record, place records)] :=
  alongside_append ..

theorem map_fst_placement (records : List EntityRecord) :
    (placement records).map (·.1) = records := by
  induction records using List.reverseRecOn with
  | nil => rfl
  | append_singleton records record ih => rw [placement_append, List.map_append, ih]; rfl

theorem find?_placement (distinct : (records.map (·.key)).Nodup) {front back : List EntityRecord}
    {record : EntityRecord} (split : records = front ++ record :: back) :
    (placement records).find? (·.1.key = record.key) = some (record, place front) := by
  have present : (record, place front) ∈ placement records :=
    mem_placement.mpr ⟨front, back, split, rfl⟩
  have keys : (placement records).map (·.1.key) = records.map (·.key) := by
    calc
      (placement records).map (·.1.key) = ((placement records).map (·.1)).map (·.key) := by
        rw [List.map_map]
        rfl
      _ = records.map (·.key) := by rw [map_fst_placement]
  cases found : (placement records).find? (·.1.key = record.key) with
  | none =>
      have missed := List.find?_eq_none.mp found _ present
      simp at missed
  | some other =>
      have same : other.1.key = record.key := by simpa using List.find?_some found
      have equal := List.inj_on_of_nodup_map (keys ▸ distinct) (List.mem_of_find?_eq_some found)
        present same
      rw [equal]

end Placement

section Validity

theorem EntityRecord.members_faultless (owner : EntityId) (record : EntityRecord) :
    record.members.flatMap (MemberRecord.faults owner record.kind) = [] ↔
      (∀ m ∈ record.members, ∃ member, m.toMember = .ok member) ∧
        (record.kind = .package → record.members = []) := by
  rw [List.flatMap_eq_nil_iff]
  simp only [MemberRecord.faults_eq_nil]
  constructor
  · intro each
    refine ⟨fun m member => (each m member).1, fun package => ?_⟩
    rw [List.eq_nil_iff_forall_not_mem]
    intro m member
    have holds := (each m member).2
    rw [package] at holds
    cases holds
  · rintro ⟨read, bare⟩ m member
    refine ⟨read m member, ?_⟩
    by_cases package : record.kind = .package
    · rw [bare package] at member
      cases member
    · simpa [EntityKind.holdsMembers] using package

theorem EntityRecord.faults_eq_nil {earlier : List EntityRecord} {record : EntityRecord} :
    record.faults earlier = [] ↔
      record.key ∉ earlier.map (·.key) ∧ Text.IsFilled (Text.trimmed record.title) ∧
        (∀ m ∈ record.members, ∃ member, m.toMember = .ok member) ∧
          (record.kind = .package → record.members = []) := by
  rw [faults, List.append_eq_nil_iff, List.append_eq_nil_iff, Option.toList_eq_nil_iff,
    Option.map_eq_none_iff, Field.blank?_eq_none, members_faultless]
  refine and_congr_left fun _ => ?_
  split
  next taken => simp [taken]
  next free => simp [free]

theorem nestingFaults_eq_nil {container child : EntityId} {containerKind childKind : EntityKind} :
    nestingFaults container child containerKind childKind = [] ↔
      childKind ≠ .package ∧ containerKind = .package := by
  unfold nestingFaults
  by_cases package : containerKind = .package <;> by_cases nested : childKind = .package <;>
    simp [package, nested]

theorem EntityRecord.packageFaults_eq_nil {all earlier : List EntityRecord}
    (distinct : (all.map (·.key)).Nodup) {record : EntityRecord} :
    record.packageFaults all earlier = [] ↔
      ∀ key, record.package = some key →
        record.kind ≠ .package ∧
          ∃ container ∈ all, container.key = key ∧ container.kind = .package := by
  unfold packageFaults
  cases record.package with
  | none => simp
  | some key =>
      have located : ∀ container ∈ all, container.key = key →
          ∃ id, (placement all).find? (·.1.key = key) = some (container, id) := by
        rintro container member rfl
        obtain ⟨front, back, split⟩ := List.append_of_mem member
        exact ⟨_, find?_placement distinct split⟩
      simp only [Option.some.injEq, forall_eq']
      cases found : (placement all).find? (·.1.key = key) with
      | none =>
          have absent : ¬ ∃ container ∈ all, container.key = key ∧ container.kind = .package := by
            rintro ⟨container, member, same, -⟩
            obtain ⟨id, there⟩ := located container member same
            cases found.symm.trans there
          simp [absent]
      | some entry =>
          obtain ⟨container, id⟩ := entry
          have named : container.key = key := by simpa using List.find?_some found
          obtain ⟨front, back, split, -⟩ := mem_placement.mp (List.mem_of_find?_eq_some found)
          have member : container ∈ all := by simp [split]
          simp only [List.map_eq_nil_iff, nestingFaults_eq_nil]
          refine and_congr_right fun _ => ⟨fun package => ⟨container, member, named, package⟩, ?_⟩
          rintro ⟨other, member', same, package⟩
          obtain ⟨id', there⟩ := located other member' same
          cases found.symm.trans there
          exact package

theorem unknownKeys_eq_nil {all : List EntityRecord} {key : String} :
    unknownKeys all key = [] ↔ key ∈ all.map (·.key) := by
  unfold unknownKeys
  split
  next known => simp [known]
  next unknown => simp [unknown]

theorem Project.faults_eq_nil {project : Project} : project.faults = [] ↔ project.Valid := by
  rw [faults, List.append_eq_nil_iff, List.append_eq_nil_iff, flatten_alongside_eq_nil,
    flatten_alongside_eq_nil, List.flatMap_eq_nil_iff]
  simp only [EntityRecord.faults_eq_nil, RelationshipRecord.faults, List.append_eq_nil_iff,
    unknownKeys_eq_nil]
  constructor
  · rintro ⟨entities, packages, ends⟩
    have distinct : (project.entities.map (·.key)).Nodup :=
      nodup_map_iff.mpr fun front record back split => (entities front record back split).1
    have each : ∀ record ∈ project.entities,
        Text.IsFilled (Text.trimmed record.title) ∧
          (∀ m ∈ record.members, ∃ member, m.toMember = .ok member) ∧
            (record.kind = .package → record.members = []) := by
      intro record member
      obtain ⟨front, back, split⟩ := List.append_of_mem member
      exact (entities front record back split).2
    exact
      { keys_distinct := distinct
        title_filled := fun record member => (each record member).1
        member_valid := fun record member => (each record member).2.1
        package_bare := fun record member => (each record member).2.2
        package_known := by
          intro record member
          obtain ⟨front, back, split⟩ := List.append_of_mem member
          exact (EntityRecord.packageFaults_eq_nil distinct).mp (packages front record back split)
        ends_known := ends }
  · intro valid
    have member : ∀ {front record back}, project.entities = front ++ record :: back →
        record ∈ project.entities := by
      rintro front record back split
      simp [split]
    refine ⟨?_, ?_, valid.ends_known⟩
    · intro front record back split
      exact ⟨nodup_map_iff.mp valid.keys_distinct front record back split,
        valid.title_filled record (member split), valid.member_valid record (member split),
        valid.package_bare record (member split)⟩
    · intro front record back split
      exact (EntityRecord.packageFaults_eq_nil valid.keys_distinct).mpr
        (valid.package_known record (member split))

-- All faults are listed, of which a replay reports the first.
example :
    Project.faults
        { name := "inside itself"
          entities :=
            [{ key := "a", kind := .package, title := "A", package := some "a",
               members := [.fields .attribute .pub " " "T"] },
              { key := "a", kind := .plainClass, title := " ", package := some "b" }]
          relationships := [{ source := "a", target := "c" }] } =
      [.model (.validation .name none .blank),
        .model (.validation .kind (some (.entity ⟨1⟩)) (.memberless .package)),
        .project (.duplicateKey "a"), .model (.validation .title none .blank),
        .model (.validation .nesting (some (.entity ⟨1⟩)) .nestedPackage),
        .project (.unknownKey "b"), .project (.unknownKey "c")] := by
  decide

end Validity

end ClassDiagram
