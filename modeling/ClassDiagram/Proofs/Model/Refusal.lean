import ClassDiagram.Model.Operation
import ClassDiagram.Proofs.Model.Entities

/-! When an operation is refused, and with what. First the elements are looked up that it names,
in their order; then its values are checked. -/

namespace ClassDiagram

/-- The elements that an operation needs, in the order in which they are looked up. What only
removes an element does not need that element. -/
def Operation.needs : Operation → List Subject
  | .createEntity .. | .removeEntity _ | .unrelate _ => []
  | .renameEntity entity _ | .addMember entity _ | .addNewMember entity .. |
    .removeMember entity _ | .unnest entity => [.entity entity]
  | .setMemberVisibility entity member _ | .renameMember entity member _ |
    .setMemberType entity member _ | .moveMember entity member _ =>
    [.entity entity, .member entity member]
  | .nest child package => [.entity package, .entity child]
  | .relate source target .. => [.entity source, .entity target]
  | .setLabel relationship _ | .setMultiplicities relationship .. | .setKind relationship _ =>
    [.relationship relationship]

def Field.blank? (field : Field) (subject : Option Subject) (text : String) : Option ModelError :=
  if Text.trimmed text = "" then some (.validation field subject .blank) else none

def Visibility.unknown? (subject : Subject) (word : String) : Option ModelError :=
  if word ∈ ["public", "private", "protected"] then none
  else some (.validation .visibility (some subject) (.unknownVisibility word))

namespace Model

def knows (m : Model) : Subject → Bool
  | .entity id => (m.entities.find? id).isSome
  | .member owner id => ((m.entities.find? owner).bind (·.member? id)).isSome
  | .relationship id => (m.relationships.find? id).isSome

def isPackage (m : Model) (id : EntityId) : Bool :=
  (m.entities.find? id).any (·.kind = .package)

def missing? (m : Model) (subjects : List Subject) : Option ModelError :=
  (subjects.find? fun subject => !m.knows subject).map .notFound

def memberless? (m : Model) (entity : EntityId) : Option ModelError :=
  if m.isPackage entity then
    some (.validation .kind (some (.entity entity)) (.memberless .package))
  else none

/-- A container that is no package comes before a package that is to be nested. -/
def misplaced? (m : Model) (child package : EntityId) : Option ModelError :=
  match m.entities.find? package with
  | none => none
  | some container =>
    if container.kind ≠ .package then
      some (.validation .nesting (some (.entity package)) (.notContainer container.kind))
    else if m.isPackage child then
      some (.validation .nesting (some (.entity child)) .nestedPackage)
    else none

def objection? (m : Model) : Operation → Option ModelError
  | .createEntity _ title => Field.title.blank? none title
  | .renameEntity entity title => Field.title.blank? (some (.entity entity)) title
  | .addMember entity _ => m.memberless? entity
  | .addNewMember entity kind visibility name typeName =>
    let subject : Subject := .entity entity
    (Visibility.unknown? subject visibility).or <|
      (Field.name.blank? (some subject) name).or <|
        (kind.typeField.blank? (some subject) typeName).or (m.memberless? entity)
  | .setMemberVisibility entity member word => Visibility.unknown? (.member entity member) word
  | .renameMember entity member name => Field.name.blank? (some (.member entity member)) name
  | .setMemberType entity member typeName =>
    ((m.entities.find? entity).bind (·.member? member)).bind fun old =>
      old.typeField.blank? (some (.member entity member)) typeName
  | .nest child package => m.misplaced? child package
  | .removeEntity _ | .removeMember .. | .moveMember .. | .unnest _ | .relate .. | .unrelate _ |
    .setLabel .. | .setMultiplicities .. | .setKind .. => none

def refusal? (m : Model) (operation : Operation) : Option ModelError :=
  (m.missing? operation.needs).or (m.objection? operation)

end Model

section Checks

theorem Field.error?_require (field : Field) (text : String) :
    error? (field.require text) = field.blank? none text := by
  unfold Field.require Field.blank?
  by_cases blank : Text.trimmed text = ""
  · simp [blank]
  · simp [blank, String.isEmpty_iff]

theorem Field.blank?_eq_none {field : Field} {subject : Option Subject} {text : String} :
    field.blank? subject text = none ↔ Text.IsFilled (Text.trimmed text) := by
  unfold Field.blank?
  split
  next blank =>
    have empty : ¬ Text.IsFilled (Text.trimmed text) := fun filled => filled.nonempty blank
    simp [empty]
  next left =>
    have filled : Text.IsFilled (Text.trimmed text) :=
      Text.isFilled_trimmed (by simpa [String.isEmpty_iff] using left)
    simp [filled]

theorem error?_blame {α : Type} (subject : Subject) (result : Except ModelError α) :
    error? (subject.blame result) = (error? result).map (ModelError.about subject) :=
  error?_mapError result _

theorem Field.map_blank? (field : Field) (subject : Subject) (text : String) :
    (field.blank? none text).map (ModelError.about subject) =
      field.blank? (some subject) text := by
  unfold Field.blank?
  split <;> rfl

theorem Field.error?_blame_require (field : Field) (subject : Subject) (text : String) :
    error? (subject.blame (field.require text)) = field.blank? (some subject) text := by
  rw [error?_blame, Field.error?_require, Field.map_blank?]

theorem Member.error?_make (kind : MemberKind) (visibility : Visibility)
    (name typeName : String) :
    error? (Member.make kind visibility name typeName) =
      (Field.name.blank? none name).or (kind.typeField.blank? none typeName) := by
  unfold Member.make
  rw [← Field.error?_require, ← Field.error?_require]
  exact error?_bind fun _ _ => error?_bind_ok fun _ _ => rfl

theorem Visibility.error?_parse (word : String) :
    error? (Visibility.parse word) =
      if word ∈ ["public", "private", "protected"] then none
      else some (.validation .visibility none (.unknownVisibility word)) := by
  unfold Visibility.parse Visibility.ofKeyword? Visibility.all
  by_cases pub : word = "public"
  · subst pub
    rfl
  by_cases priv : word = "private"
  · subst priv
    rfl
  by_cases prot : word = "protected"
  · subst prot
    rfl
  have other : ∀ v : Visibility, ¬ (v.keyword == word) = true := by
    intro v same
    have spelled := (beq_iff_eq.mp same).symm
    cases v with
    | pub => exact pub spelled
    | priv => exact priv spelled
    | prot => exact prot spelled
  simp [other, pub, priv, prot]

theorem Visibility.error?_blame_parse (subject : Subject) (word : String) :
    error? (subject.blame (Visibility.parse word)) = Visibility.unknown? subject word := by
  rw [error?_blame, Visibility.error?_parse]
  unfold Visibility.unknown?
  split <;> rfl

section Setters

variable (m : Member) (subject : Subject)

theorem Member.error?_setVisibility (word : String) :
    error? (subject.blame (m.setVisibility word)) = Visibility.unknown? subject word := by
  rw [error?_blame, Member.setVisibility, error?_bind_ok fun _ _ => rfl, ← error?_blame,
    Visibility.error?_blame_parse]

theorem Member.error?_rename (name : String) :
    error? (subject.blame (m.rename name)) = Field.name.blank? (some subject) name := by
  rw [error?_blame, Member.rename, error?_bind_ok fun _ _ => rfl, ← error?_blame,
    Field.error?_blame_require]

theorem Member.error?_setType (typeName : String) :
    error? (subject.blame (m.setType typeName)) = m.typeField.blank? (some subject) typeName := by
  rw [error?_blame, Member.setType, error?_bind_ok fun _ _ => rfl, ← error?_blame,
    Field.error?_blame_require]

end Setters

end Checks

namespace Model

variable {m : Model}

theorem missing?_cons (m : Model) (subject : Subject) (rest : List Subject) :
    m.missing? (subject :: rest) = (m.missing? [subject]).or (m.missing? rest) := by
  unfold missing?
  rw [List.find?_cons, List.find?_cons]
  cases m.knows subject <;> simp

theorem error?_require (m : Model) (id : EntityId) :
    error? (m.entities.require id) = m.missing? [.entity id] := by
  unfold Entities.require missing? knows
  cases found : m.entities.find? id <;> simp [found]

theorem error?_requireMember {id : EntityId} {e : Entity} (found : m.entities.require id = .ok e)
    (member : MemberId) :
    error? (m.entities.requireMember id member) = m.missing? [.member id member] := by
  have known : m.entities.find? id = some e := Entities.require_eq_ok.mp found
  unfold Entities.requireMember missing? knows
  simp only [found, bind, Except.bind, known, List.find?_cons, Option.bind_some]
  cases e.member? member <;> simp

theorem error?_relationship (m : Model) (id : RelationshipId) :
    error? (m.relationships.require id) = m.missing? [.relationship id] := by
  unfold Relationships.require missing? knows
  cases found : m.relationships.find? id <;> simp [found]

theorem isPackage_eq {id : EntityId} {e : Entity} (found : m.entities.require id = .ok e) :
    m.isPackage id = decide (e.kind = .package) := by
  have known : m.entities.find? id = some e := Entities.require_eq_ok.mp found
  simp [isPackage, known]

theorem error?_addMember (m : Model) (id : EntityId) (member : Member) :
    error? (m.entities.addMember id member) =
      (m.missing? [.entity id]).or (m.memberless? id) := by
  unfold Entities.addMember
  rw [← error?_require]
  refine error?_bind fun e found => ?_
  unfold memberless?
  rw [isPackage_eq found]
  by_cases package : e.kind = .package
  · simp [package, EntityKind.holdsMembers]
  · have holds : e.kind.holdsMembers = true := by simpa [EntityKind.holdsMembers] using package
    simp [package, holds]

theorem error?_addNewMember (m : Model) (id : EntityId) (kind : MemberKind)
    (visibility name typeName : String) :
    error? (m.entities.addNewMember id kind visibility name typeName) =
      m.refusal? (.addNewMember id kind visibility name typeName) := by
  unfold Entities.addNewMember refusal? objection?
  rw [Operation.needs, ← error?_require]
  refine error?_bind fun e found => ?_
  -- Adding the member looks the entity up once more, which cannot fail by now.
  have present : m.missing? [.entity id] = none := by rw [← error?_require, found, error?_ok]
  have made : error? ((Subject.entity id).blame do
        Member.make kind (← Visibility.parse visibility) name typeName) =
      (Visibility.unknown? (.entity id) visibility).or
        ((Field.name.blank? (some (.entity id)) name).or
          (kind.typeField.blank? (some (.entity id)) typeName)) := by
    rw [error?_blame, error?_bind fun v _ => Member.error?_make kind v name typeName,
      Option.map_or, Option.map_or, ← error?_blame, Visibility.error?_blame_parse,
      Field.map_blank?, Field.map_blank?]
  rw [error?_bind fun member _ => error?_addMember m id member, made, present, Option.none_or]
  simp only [Option.or_assoc]

theorem error?_editMember (m : Model) (id : EntityId) (member : MemberId)
    {edit : Member → Except ModelError Member} {objection : Option ModelError}
    (refused : ∀ e old, m.entities.find? id = some e → e.member? member = some old →
      error? ((Subject.member id member).blame (edit old)) = objection) :
    error? (m.entities.editMember id member edit) =
      (m.missing? [.entity id, .member id member]).or objection := by
  unfold Entities.editMember
  rw [missing?_cons, Option.or_assoc, ← error?_require]
  refine error?_bind fun e found => ?_
  rw [← error?_requireMember found]
  refine error?_bind fun old stored => ?_
  obtain ⟨e', known, present⟩ := Entities.requireMember_eq_ok.mp stored
  exact (error?_bind_ok fun _ _ => rfl).trans (refused e' old known present)

theorem error?_moveMember (m : Model) (id : EntityId) (member : MemberId) (index : Nat) :
    error? (m.entities.moveMember id member index) =
      m.missing? [.entity id, .member id member] := by
  unfold Entities.moveMember
  rw [missing?_cons, ← error?_require]
  refine error?_bind fun e found => ?_
  rw [← error?_requireMember found]
  exact error?_bind_ok fun _ _ => rfl

theorem error?_nest (m : Model) (child package : EntityId) :
    error? (m.entities.nest child package) =
      (m.missing? [.entity package, .entity child]).or (m.misplaced? child package) := by
  unfold Entities.nest
  rw [missing?_cons, Option.or_assoc, ← error?_require, ← error?_require]
  refine error?_bind fun container foundContainer => error?_bind fun e found => ?_
  have known : m.entities.find? package = some container :=
    Entities.require_eq_ok.mp foundContainer
  unfold misplaced?
  rw [known, isPackage_eq found]
  by_cases isPackage : container.kind = .package
  · by_cases nested : e.kind = .package
    · simp [isPackage, nested]
    · simp [isPackage, nested]
  · simp [isPackage]

section Parts

variable {result : Except ModelError Entities} {edited : Except ModelError Relationships}

theorem error?_entities :
    error? ((do return { m with entities := ← result } : Except ModelError Model).map
      (Outcome.done, ·)) = error? result := by
  rw [error?_map]
  exact error?_bind_ok fun _ _ => rfl

theorem error?_relationships :
    error? ((do return { m with relationships := ← edited } : Except ModelError Model).map
      (Outcome.done, ·)) = error? edited := by
  rw [error?_map]
  exact error?_bind_ok fun _ _ => rfl

end Parts

/-- The error of every operation is the first one that applies. -/
theorem error?_perform (m : Model) (operation : Operation) :
    error? (m.perform operation) = m.refusal? operation := by
  cases operation with
  | createEntity kind title =>
      rw [perform, error?_map]
      refine (error?_bind_ok fun _ _ => rfl).trans ?_
      exact (error?_bind_ok fun _ _ => rfl).trans (Field.error?_require _ _)
  | renameEntity entity title =>
      refine error?_entities.trans ?_
      rw [refusal?, Operation.needs, ← error?_require]
      refine error?_bind fun _ _ => ?_
      exact (error?_bind_ok fun _ _ => rfl).trans (Field.error?_blame_require _ _ _)
  | removeEntity entity => rfl
  | addMember entity member =>
      rw [perform, error?_map]
      exact (error?_bind_ok fun _ _ => rfl).trans (error?_addMember m entity member)
  | addNewMember entity kind visibility name typeName =>
      rw [perform, error?_map]
      exact (error?_bind_ok fun _ _ => rfl).trans (error?_addNewMember m _ _ _ _ _)
  | removeMember entity member =>
      refine error?_entities.trans ?_
      rw [refusal?, Operation.needs, ← error?_require]
      exact error?_bind fun _ _ => rfl
  | setMemberVisibility entity member word =>
      refine error?_entities.trans (error?_editMember m _ _ ?_)
      exact fun _ old _ _ => Member.error?_setVisibility old _ word
  | renameMember entity member name =>
      refine error?_entities.trans (error?_editMember m _ _ ?_)
      exact fun _ old _ _ => Member.error?_rename old _ name
  | setMemberType entity member typeName =>
      refine error?_entities.trans (error?_editMember m _ _ ?_)
      intro e old known present
      rw [Member.error?_setType, objection?, known, Option.bind_some, present, Option.bind_some]
  | moveMember entity member index =>
      rw [refusal?, objection?, Option.or_none]
      exact error?_entities.trans (error?_moveMember m _ _ _)
  | nest child package => exact error?_entities.trans (error?_nest m child package)
  | unnest child =>
      refine error?_entities.trans ?_
      rw [refusal?, Operation.needs, ← error?_require]
      exact error?_bind fun _ _ => rfl
  | relate source target kind sourceMultiplicity targetMultiplicity label =>
      rw [perform, error?_map, refusal?, objection?, Option.or_none, Operation.needs, missing?_cons,
        ← error?_require, ← error?_require]
      exact error?_bind fun _ _ => error?_bind_ok fun _ _ => rfl
  | unrelate relationship => rfl
  | setLabel relationship label =>
      rw [refusal?, objection?, Option.or_none, Operation.needs, ← error?_relationship]
      exact error?_relationships.trans (error?_bind_ok fun _ _ => rfl)
  | setMultiplicities relationship source target =>
      rw [refusal?, objection?, Option.or_none, Operation.needs, ← error?_relationship]
      exact error?_relationships.trans (error?_bind_ok fun _ _ => rfl)
  | setKind relationship kind =>
      rw [refusal?, objection?, Option.or_none, Operation.needs, ← error?_relationship]
      exact error?_relationships.trans (error?_bind_ok fun _ _ => rfl)

theorem perform_eq_error {operation : Operation} {e : ModelError} :
    m.perform operation = .error e ↔ m.refusal? operation = some e := by
  rw [← error?_perform, error?_eq_some]

theorem step_of_refusal {operation : Operation} {e : ModelError}
    (refused : m.refusal? operation = some e) : m.step operation = (.error e, m) := by
  rw [step, perform_eq_error.mpr refused]

theorem exists_missing {operation : Operation} {subject : Subject}
    (needed : subject ∈ operation.needs) (unknown : m.knows subject = false) :
    ∃ missing, operation.needs.find? (fun s => !m.knows s) = some missing ∧
      m.step operation = (.error (.notFound missing), m) := by
  have some : (operation.needs.find? fun s => !m.knows s).isSome = true := by
    rw [List.find?_isSome]
    exact ⟨subject, needed, by simp [unknown]⟩
  obtain ⟨missing, first⟩ := Option.isSome_iff_exists.mp some
  refine ⟨missing, first, step_of_refusal ?_⟩
  rw [refusal?, missing?, first]
  rfl

end Model

end ClassDiagram
