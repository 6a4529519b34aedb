import ClassDiagram.Project.Replay
import ClassDiagram.Proofs.Lists
import ClassDiagram.Proofs.Member
import ClassDiagram.Proofs.Model.Sound
import Mathlib.Data.List.Induction

/-! What entering a record does to a project at work. A record is either refused, with the error of
the first check that fails, or it adds one entity behind the others. -/

namespace ClassDiagram

def MemberRecord.memberFor (owner : EntityId) (kind : EntityKind) (record : MemberRecord) :
    Except DiagramError Member := do
  let member ← record.toMember
  if kind.holdsMembers then return member
  else throw (.model (.validation .kind (some (.entity owner)) (.memberless kind)))

namespace Model

/-- The next entity of a model. Its members are numbered behind it. -/
def newcomer (m : Model) (kind : EntityKind) (title : String) (members : List Member) : Entity where
  id := ⟨m.entities.ids.fresh⟩
  kind := kind
  title := title
  members := members.mapIdx fun i member => (⟨m.entities.ids.fresh + i + 1⟩, member)

def entered (m : Model) (kind : EntityKind) (title : String) (members : List Member) : Model :=
  { m with
    entities :=
      { ids := ⟨m.entities.ids.fresh + members.length⟩
        items := m.entities.items ++ [m.newcomer kind title members] } }

variable {m : Model}

theorem createEntity_eq (m : Model) (kind : EntityKind) (title : String) :
    m.createEntity kind title =
      (Field.title.require title).map fun text =>
        (⟨m.entities.ids.fresh⟩, m.entered kind text.val []) := by
  unfold createEntity Entities.create
  cases Field.title.require title <;> rfl

theorem ordered_entered (ordered : m.entities.Ordered) (kind : EntityKind) (title : String)
    (members : List Member) : (m.entered kind title members).entities.Ordered := by
  refine Sequence.Numbers.later (Sequence.Numbers.append_fresh ordered _ rfl) ?_
  exact Nat.le_add_right _ _

theorem contains_entered {kind : EntityKind} {title : String} {members : List Member}
    {id : EntityId} :
    (m.entered kind title members).entities.contains id = true ↔
      m.entities.contains id = true ∨ id = ⟨m.entities.ids.fresh⟩ := by
  unfold Entities.contains entered
  rw [List.any_append, Bool.or_eq_true, List.any_cons, List.any_nil, Bool.or_false,
    decide_eq_true_iff]
  exact or_congr_right eq_comm

theorem find?_entered (ordered : m.entities.Ordered) (kind : EntityKind) (title : String)
    (members : List Member) :
    (m.entered kind title members).entities.find? ⟨m.entities.ids.fresh⟩ =
      some (m.newcomer kind title members) := by
  rw [Entities.find?_eq_some (ordered_entered ordered kind title members)]
  exact ⟨List.mem_append_right _ List.mem_cons_self, rfl⟩

theorem entered_append (ordered : m.entities.Ordered) (kind : EntityKind) (title : String)
    (members : List Member) (member : Member) :
    let old := m.newcomer kind title members
    let es := (m.entered kind title members).entities
    (m.entered kind title (members ++ [member])).entities =
      { ids := es.ids.advance
        items :=
          (es.replace
            { old with members := old.members ++ [(⟨es.ids.fresh⟩, member)] }).items } := by
  intro old es
  have placed : (es.replace (m.newcomer kind title (members ++ [member]))).items =
      m.entities.items ++ [m.newcomer kind title (members ++ [member])] :=
    Entities.items_replace (ordered_entered ordered kind title members) rfl rfl
  have extended : m.newcomer kind title (members ++ [member]) =
      { old with members := old.members ++ [(⟨es.ids.fresh⟩, member)] } := by
    unfold newcomer
    rw [List.mapIdx_concat]
    rfl
  have counted : m.entities.ids.fresh + (members ++ [member]).length =
      m.entities.ids.fresh + members.length + 1 := by
    rw [List.length_append, List.length_singleton, Nat.add_assoc]
  rw [← extended, placed]
  unfold entered
  rw [counted]
  rfl

theorem addMember_entered (ordered : m.entities.Ordered) (kind : EntityKind) (title : String)
    (members : List Member) (member : Member) :
    (m.entered kind title members).addMember ⟨m.entities.ids.fresh⟩ member =
      if kind.holdsMembers then
        .ok (⟨m.entities.ids.fresh + members.length + 1⟩,
          m.entered kind title (members ++ [member]))
      else
        .error
          (.validation .kind (some (.entity ⟨m.entities.ids.fresh⟩)) (.memberless kind)) := by
  have found := find?_entered ordered kind title members
  by_cases holds : kind.holdsMembers = true
  · have added : (m.entered kind title members).entities.addMember ⟨m.entities.ids.fresh⟩ member =
        .ok (⟨m.entities.ids.fresh + members.length + 1⟩,
          (m.entered kind title (members ++ [member])).entities) := by
      rw [Entities.addMember_eq_ok]
      exact ⟨_, found, holds, rfl, entered_append ordered kind title members member⟩
    rw [if_pos holds, addMember, added]
    rfl
  · have refused : ¬ (m.newcomer kind title members).kind.holdsMembers = true := holds
    rw [if_neg holds, addMember, Entities.addMember, Entities.require_eq_ok.mpr found]
    simp only [bind, Except.bind, if_neg refused]
    rfl

theorem Sound.entered (h : m.Sound) {kind : EntityKind} {title : String}
    (filled : Text.IsFilled title) (members : List Member)
    (bare : members = [] ∨ kind.holdsMembers = true) : (m.entered kind title members).Sound := by
  induction members using List.reverseRecOn with
  | nil => exact h.entities (.created kind title filled)
  | append_singleton members member ih =>
      have holds : kind.holdsMembers = true := bare.resolve_left (by simp)
      have added := addMember_entered h.ordered kind title members member
      rw [if_pos holds] at added
      have made : (m.entered kind title members).perform
          (.addMember ⟨m.entities.ids.fresh⟩ member) =
            .ok (.member ⟨m.entities.ids.fresh + members.length + 1⟩,
              m.entered kind title (members ++ [member])) := by
        rw [perform, added]
        rfl
      exact (change_of_perform made).sound (ih (.inr holds))

end Model

namespace LoadedProject

variable {p : LoadedProject} {m : Model}

/-- Every member of a record is read and then offered to the entity, until one is refused. -/
theorem foldlM_addRecordedMember (ordered : m.entities.Ordered) (kind : EntityKind)
    (title : String) (records : List MemberRecord) (members : List Member) :
    records.foldlM (addRecordedMember ⟨m.entities.ids.fresh⟩) (m.entered kind title members) =
      (records.mapM (MemberRecord.memberFor ⟨m.entities.ids.fresh⟩ kind)).map fun more =>
        m.entered kind title (members ++ more) := by
  induction records generalizing members with
  | nil =>
      rw [List.foldlM_nil, List.mapM_nil]
      simp [pure, Except.pure, Except.map]
  | cons record records ih =>
      rw [List.foldlM_cons, List.mapM_cons, addRecordedMember, MemberRecord.memberFor]
      cases record.toMember with
      | error e => rfl
      | ok member =>
          have added := Model.addMember_entered ordered kind title members member
          by_cases holds : kind.holdsMembers = true
          · rw [if_pos holds] at added
            simp only [bind, Except.bind, added, if_pos holds, mapError_ok, pure, Except.pure]
            rw [ih]
            cases records.mapM (MemberRecord.memberFor ⟨m.entities.ids.fresh⟩ kind) with
            | error e => rfl
            | ok more => simp [Except.map]
          · rw [if_neg holds] at added
            simp only [bind, Except.bind, added, if_neg holds, mapError_error]
            rfl

theorem map_snd_members (m : Model) (kind : EntityKind) (title : String) (members : List Member) :
    (m.newcomer kind title members).members.map (·.2) = members := by
  unfold Model.newcomer
  induction members using List.reverseRecOn with
  | nil => rfl
  | append_singleton members member ih =>
      rw [List.mapIdx_concat, List.map_append, ih]
      rfl

def entered (p : LoadedProject) (record : EntityRecord) (title : String) (members : List Member) :
    LoadedProject :=
  let id : EntityId := ⟨p.model.entities.ids.fresh⟩
  let next :=
    { p with
      model := p.model.entered record.kind title members
      keys := p.keys ++ [(record.key, id)] }
  match record.bounds with
  | some shape => next.setBounds id shape.bounds
  | none => next

theorem addEntity_eq (ordered : p.model.entities.Ordered) (record : EntityRecord) :
    p.addEntity record =
      if (p.entityId? record.key).isSome then .error (.project (.duplicateKey record.key))
      else do
        let title ← (Field.title.require record.title).mapError .model
        let members ←
          record.members.mapM (MemberRecord.memberFor ⟨p.model.entities.ids.fresh⟩ record.kind)
        return p.entered record title.val members := by
  unfold addEntity
  by_cases taken : (p.entityId? record.key).isSome = true
  · rw [if_pos taken, if_pos taken]
    rfl
  · rw [if_neg taken, if_neg taken, Model.createEntity_eq]
    cases Field.title.require record.title with
    | error e => rfl
    | ok title =>
        simp only [bind, Except.bind, Except.map, mapError_ok, pure, Except.pure]
        rw [foldlM_addRecordedMember ordered]
        cases record.members.mapM
            (MemberRecord.memberFor ⟨p.model.entities.ids.fresh⟩ record.kind) with
        | error e => rfl
        | ok members =>
            cases outline : record.bounds <;>
              simp only [LoadedProject.entered, outline, Except.map] <;> rfl

theorem shapes_setBounds (p : LoadedProject) (id other : EntityId) (b : Bounds Float32) :
    (p.setBounds id b).shapes other = if other = id then some b else p.shapes other := by
  unfold setBounds shapes
  rw [List.lookup_cons]
  by_cases here : other = id
  · simp [here]
  · have missed : (other == id) = false := by simpa using here
    rw [missed, if_neg here]
    exact lookup_filter_ne _ here

theorem model_entered (record : EntityRecord) (title : String) (members : List Member) :
    (p.entered record title members).model = p.model.entered record.kind title members := by
  unfold entered
  cases record.bounds <;> rfl

theorem keys_entered (record : EntityRecord) (title : String) (members : List Member) :
    (p.entered record title members).keys =
      p.keys ++ [(record.key, ⟨p.model.entities.ids.fresh⟩)] := by
  unfold entered
  cases record.bounds <;> rfl

theorem entityId?_entered (record : EntityRecord) (title : String) (members : List Member)
    (key : String) :
    (p.entered record title members).entityId? key =
      (p.entityId? key).or
        (if key = record.key then some ⟨p.model.entities.ids.fresh⟩ else none) := by
  unfold entityId?
  rw [keys_entered, List.lookup_append, List.lookup_cons, List.lookup_nil]
  by_cases here : key = record.key
  · simp [here]
  · have missed : (key == record.key) = false := by simpa using here
    rw [missed, if_neg here]

theorem shapes_entered (record : EntityRecord) (title : String) (members : List Member)
    (id : EntityId) :
    (p.entered record title members).shapes id =
      if id = ⟨p.model.entities.ids.fresh⟩ then
        (record.bounds.map ShapeRecord.bounds).or (p.shapes id)
      else p.shapes id := by
  unfold entered
  cases record.bounds with
  | none => exact (ite_self _).symm
  | some shape => exact shapes_setBounds ..

end LoadedProject

end ClassDiagram
