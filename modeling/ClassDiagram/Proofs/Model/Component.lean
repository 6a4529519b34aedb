import ClassDiagram.Proofs.Model.Members
import ClassDiagram.Proofs.Model.Refusal

/-! What the ids of a model lead to. A number is drawn once: no change, and no run of them, lets
anything turn up under a number that had been drawn before. -/

namespace ClassDiagram

/-- What an id stands for. A member is the same one in whichever entity it is looked up. -/
inductive Component where
  | entity (id : EntityId)
  | member (id : MemberId)
  | relationship (id : RelationshipId)
  deriving DecidableEq, Repr

def Subject.component : Subject → Component
  | .entity id => .entity id
  | .member _ id => .member id
  | .relationship id => .relationship id

namespace Model

def Has (m : Model) (component : Component) : Prop :=
  ∃ subject : Subject, subject.component = component ∧ m.knows subject = true

def Drawn (m : Model) : Component → Prop
  | .entity id => id.number ≤ m.entities.ids.last
  | .member id => id.number ≤ m.entities.ids.last
  | .relationship id => id.number ≤ m.relationships.ids.last

variable {m next : Model}

section Knowledge

theorem knows_entity {id : EntityId} :
    m.knows (.entity id) = true ↔ ∃ e ∈ m.entities.items, e.id = id := by
  simp [knows, Entities.find?]

theorem has_entity {id : EntityId} : m.Has (.entity id) ↔ m.knows (.entity id) = true := by
  constructor
  · rintro ⟨subject, same, known⟩
    cases subject <;> cases same
    exact known
  · exact fun known => ⟨_, rfl, known⟩

theorem has_relationship {id : RelationshipId} :
    m.Has (.relationship id) ↔ m.knows (.relationship id) = true := by
  constructor
  · rintro ⟨subject, same, known⟩
    cases subject <;> cases same
    exact known
  · exact fun known => ⟨_, rfl, known⟩

theorem knows_relationship {id : RelationshipId} :
    m.knows (.relationship id) = true ↔ ∃ r ∈ m.relationships.items, r.id = id := by
  simp [knows, Relationships.find?]

theorem knows_owner {owner : EntityId} {id : MemberId}
    (known : m.knows (.member owner id) = true) : m.knows (.entity owner) = true := by
  simp only [knows] at known ⊢
  cases found : m.entities.find? owner with
  | none => simp [found] at known
  | some e => rfl

theorem knows_member_of_find? {e : Entity} {owner : EntityId} {id : MemberId}
    (found : m.entities.find? owner = some e) :
    m.knows (.member owner id) = true ↔ id ∈ e.memberIds := by
  rw [knows, found, Option.bind_some]
  exact Entity.member?_isSome

theorem knows_member (ordered : m.entities.Ordered) {owner : EntityId} {id : MemberId} :
    m.knows (.member owner id) = true ↔
      ∃ e ∈ m.entities.items, e.id = owner ∧ id ∈ e.memberIds := by
  have found : m.knows (.member owner id) = true ↔
      ∃ e, m.entities.find? owner = some e ∧ id ∈ e.memberIds := by
    constructor
    · intro known
      obtain ⟨e, there⟩ := Option.isSome_iff_exists.mp (knows_owner known)
      exact ⟨e, there, (knows_member_of_find? there).mp known⟩
    · rintro ⟨e, there, inside⟩
      exact (knows_member_of_find? there).mpr inside
  rw [found]
  refine exists_congr fun e => ?_
  rw [Entities.find?_eq_some ordered, and_assoc]

theorem Accounted.drawn (h : m.Accounted) {subject : Subject}
    (known : m.knows subject = true) : m.Drawn subject.component := by
  cases subject with
  | entity id =>
      obtain ⟨e, present, rfl⟩ := knows_entity.mp known
      exact Sequence.Numbers.drawn h.sound.ordered e present
  | member owner id =>
      obtain ⟨e, present, -, inside⟩ := (knows_member h.sound.ordered).mp known
      exact h.enrolled.drawn e present id inside
  | relationship id =>
      obtain ⟨r, present, rfl⟩ := knows_relationship.mp known
      exact h.sound.filed.numbered.drawn r present

theorem Accounted.drawn_of_has (h : m.Accounted) {component : Component} (has : m.Has component) :
    m.Drawn component := by
  obtain ⟨subject, rfl, known⟩ := has
  exact h.drawn known

end Knowledge

section Origins

/-- An entity of the next model is new and empty, or was there and has at most one new member. -/
theorem Change.entity_origin (change : m.Change next) {x : Entity}
    (member : x ∈ next.entities.items) :
    (x.id = ⟨m.entities.ids.fresh⟩ ∧ x.memberIds = []) ∨
      ∃ old ∈ m.entities.items, old.id = x.id ∧
        ∀ id ∈ x.memberIds, id ∈ old.memberIds ∨ id = ⟨m.entities.ids.fresh⟩ := by
  have kept : x ∈ m.entities.items →
      ∃ old ∈ m.entities.items, old.id = x.id ∧
        ∀ id ∈ x.memberIds, id ∈ old.memberIds ∨ id = ⟨m.entities.ids.fresh⟩ :=
    fun present => ⟨x, present, rfl, fun _ inside => .inl inside⟩
  cases change with
  | entities es change =>
      cases change with
      | created kind title filled =>
          rcases List.mem_append.mp member with old | new
          · exact .inr (kept old)
          · rw [List.mem_singleton.mp new]
            exact .inl ⟨rfl, rfl⟩
      | joined e entry present holds =>
          rcases Entities.mem_replace member with rfl | old
          · refine .inr ⟨e, present, rfl, fun id inside => ?_⟩
            simpa [Entity.memberIds] using inside
          · exact .inr (kept old)
      | edited e new present edit =>
          rcases Entities.mem_replace member with rfl | old
          · refine .inr ⟨e, present, edit.id_eq.symm, fun id inside => .inl ?_⟩
            exact edit.memberIds_subperm.subset inside
          · exact .inr (kept old)
  | removed id => exact .inr (kept (Entities.mem_remove.mp member).1)
  | related | redrawn | unrelated => exact .inr (kept member)

theorem Change.relationship_origin (change : m.Change next) (h : m.Sound) {x : Relationship}
    (member : x ∈ next.relationships.items) :
    x.id = ⟨m.relationships.ids.fresh⟩ ∨
      ∃ old ∈ m.relationships.items,
        old.id = x.id ∧ old.source = x.source ∧ old.target = x.target := by
  cases change with
  | entities es change => exact .inr ⟨x, member, rfl, rfl, rfl⟩
  | removed id =>
      have items := (h.filed.detachAll (m.entities.doomed id)).2
      have left : x ∈ ((m.entities.doomed id).foldl Relationships.detach m.relationships).items :=
        member
      rw [items] at left
      exact .inr ⟨x, List.mem_of_mem_filter left, rfl, rfl, rfl⟩
  | related source target kind =>
      rcases List.mem_append.mp member with old | new
      · exact .inr ⟨x, old, rfl, rfl, rfl⟩
      · rw [List.mem_singleton.mp new]
        exact .inl rfl
  | redrawn r new present edit =>
      rcases Relationships.mem_replace member with rfl | old
      · refine .inr ⟨r, present, ?_⟩
        cases edit <;> exact ⟨rfl, rfl, rfl⟩
      · exact .inr ⟨x, old, rfl, rfl, rfl⟩
  | unrelated id =>
      have left : x ∈ (m.relationships.remove id).items := member
      rw [h.filed.items_remove] at left
      exact .inr ⟨x, List.mem_of_mem_filter left, rfl, rfl, rfl⟩

theorem Change.knows_of_drawn (change : m.Change next) (h : m.Accounted) {subject : Subject}
    (drawn : m.Drawn subject.component) (known : next.knows subject = true) :
    m.knows subject = true := by
  cases subject with
  | entity id =>
      obtain ⟨x, member, rfl⟩ := knows_entity.mp known
      rcases change.entity_origin member with ⟨new, -⟩ | ⟨old, present, same, -⟩
      · have low : x.id.number ≤ m.entities.ids.last := drawn
        rw [new] at low
        exact absurd low (Nat.not_succ_le_self _)
      · exact knows_entity.mpr ⟨old, present, same⟩
  | member owner id =>
      have ordered := (change.sound h.sound).ordered
      obtain ⟨x, member, rfl, inside⟩ := (knows_member ordered).mp known
      rcases change.entity_origin member with ⟨-, empty⟩ | ⟨old, present, same, before⟩
      · rw [empty] at inside
        cases inside
      · rcases before id inside with mine | rfl
        · exact (knows_member h.sound.ordered).mpr ⟨old, present, same, mine⟩
        · exact absurd drawn (Nat.not_succ_le_self _)
  | relationship id =>
      obtain ⟨x, member, rfl⟩ := knows_relationship.mp known
      rcases change.relationship_origin h.sound member with new | ⟨old, present, same, -⟩
      · have low : x.id.number ≤ m.relationships.ids.last := drawn
        rw [new] at low
        exact absurd low (Nat.not_succ_le_self _)
      · exact knows_relationship.mpr ⟨old, present, same⟩

end Origins

section Steps

theorem Change.drawn (change : m.Change next) {component : Component} (drawn : m.Drawn component) :
    next.Drawn component := by
  have entities : m.entities.ids.last ≤ next.entities.ids.last := by
    cases change with
    | entities es change =>
        cases change with
        | created | joined => exact Nat.le_succ _
        | edited => exact Nat.le_refl _
    | removed | related | redrawn | unrelated => exact Nat.le_refl _
  have relationships : m.relationships.ids.last ≤ next.relationships.ids.last := by
    cases change with
    | removed id =>
        have same := Relationships.ids_detachAll m.relationships (m.entities.doomed id)
        exact Nat.le_of_eq (congrArg Sequence.last same.symm)
    | unrelated id =>
        have same := Relationships.ids_remove m.relationships id
        exact Nat.le_of_eq (congrArg Sequence.last same.symm)
    | related => exact Nat.le_succ _
    | entities | redrawn => exact Nat.le_refl _
  cases component with
  | entity id | member id => exact Nat.le_trans drawn entities
  | relationship id => exact Nat.le_trans drawn relationships

theorem step_accounted (h : m.Accounted) (operation : Operation) :
    (m.step operation).2.Accounted := by
  rcases m.change_of_step operation with same | change
  · rwa [same]
  · exact change.accounted h

theorem step_drawn (operation : Operation) {component : Component} (drawn : m.Drawn component) :
    (m.step operation).2.Drawn component := by
  rcases m.change_of_step operation with same | change
  · rwa [same]
  · exact change.drawn drawn

theorem step_knows_of_drawn (h : m.Accounted) {operation : Operation} {subject : Subject}
    (drawn : m.Drawn subject.component) (known : (m.step operation).2.knows subject = true) :
    m.knows subject = true := by
  rcases m.change_of_step operation with same | change
  · rwa [same] at known
  · exact change.knows_of_drawn h drawn known

end Steps

section Runs

theorem run_drawn (operations : List Operation) {component : Component}
    (drawn : m.Drawn component) : (m.run operations).Drawn component := by
  induction operations generalizing m with
  | nil => exact drawn
  | cons operation rest ih => exact ih (step_drawn operation drawn)

theorem run_knows_of_drawn (h : m.Accounted) {operations : List Operation} {subject : Subject}
    (drawn : m.Drawn subject.component) (known : (m.run operations).knows subject = true) :
    m.knows subject = true := by
  induction operations generalizing m with
  | nil => exact known
  | cons operation rest ih =>
      have after := ih (step_accounted h operation) (step_drawn operation drawn) known
      exact step_knows_of_drawn h drawn after

theorem run_append (m : Model) (front back : List Operation) :
    m.run (front ++ back) = (m.run front).run back :=
  List.foldl_append

end Runs

end Model

end ClassDiagram
