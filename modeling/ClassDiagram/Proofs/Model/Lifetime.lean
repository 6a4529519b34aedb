import ClassDiagram.Proofs.Model.Component

/-! The components of a model over time, from the operation that creates one to the operation that
removes it and beyond. An id that has been answered is never answered again, and one that leads
nowhere will not lead anywhere later. -/

namespace ClassDiagram

def Outcome.component? : Outcome → Option Component
  | .done => none
  | .entity id => some (.entity id)
  | .member id => some (.member id)
  | .relationship id => some (.relationship id)

def Operation.host? : Operation → Option EntityId
  | .addMember entity _ | .addNewMember entity .. => some entity
  | _ => none

namespace Model

def answers (m : Model) : List Operation → List (Except ModelError Outcome)
  | [] => []
  | operation :: rest => (m.step operation).1 :: (m.step operation).2.answers rest

def created (m : Model) (operations : List Operation) : List Component :=
  (m.answers operations).filterMap fun answer => answer.toOption.bind Outcome.component?

/-- What an operation takes out of a model: what it names, and what goes with that. -/
inductive Removes (m : Model) : Operation → Component → Prop where
  | entity {id : EntityId} : Removes m (.removeEntity id) (.entity id)
  | nested {e : Entity} {package : EntityId} (present : e ∈ m.entities.items)
      (inside : e.parent = some package) : Removes m (.removeEntity package) (.entity e.id)
  | member {owner : EntityId} {id : MemberId} (known : m.knows (.member owner id) = true) :
      Removes m (.removeMember owner id) (.member id)
  | withEntity {operation : Operation} {owner : EntityId} {id : MemberId}
      (known : m.knows (.member owner id) = true) (gone : Removes m operation (.entity owner)) :
      Removes m operation (.member id)
  | relationship {id : RelationshipId} : Removes m (.unrelate id) (.relationship id)
  | withSource {operation : Operation} {r : Relationship} (present : r ∈ m.relationships.items)
      (gone : Removes m operation (.entity r.source)) : Removes m operation (.relationship r.id)
  | withTarget {operation : Operation} {r : Relationship} (present : r ∈ m.relationships.items)
      (gone : Removes m operation (.entity r.target)) : Removes m operation (.relationship r.id)

variable {m next : Model}

section Creation

variable {owner : EntityId} {member : Member} {id : MemberId} {es : Entities}

theorem knows_of_addMember (added : m.entities.addMember owner member = .ok (id, es)) :
    Model.knows { m with entities := es } (.member owner id) = true := by
  obtain ⟨e, found, -, -, rfl⟩ := Entities.addMember_eq_ok.mp added
  let joined : Entity := { e with members := e.members ++ [(id, member)] }
  have there : (m.entities.replace joined).find? owner = some joined :=
    Entities.find?_replaced found rfl
  have inside : id ∈ joined.memberIds := by simp [joined, Entity.memberIds]
  exact (knows_member_of_find? there).mpr inside

theorem new_of_addMember (added : m.entities.addMember owner member = .ok (id, es)) :
    ¬ m.Drawn (.member id) ∧ Model.Drawn { m with entities := es } (.member id) := by
  obtain ⟨-, -, -, rfl, rfl⟩ := Entities.addMember_eq_ok.mp added
  exact ⟨Nat.not_succ_le_self _, Nat.le_refl _⟩

theorem exists_addMember {operation : Operation} {outcome : Outcome}
    (made : m.perform operation = .ok (outcome, next)) (host : operation.host? = some owner) :
    ∃ id member es, outcome = .member id ∧ m.entities.addMember owner member = .ok (id, es) ∧
      next = { m with entities := es } := by
  cases operation with
  | addMember entity member =>
      simp only [perform, addMember, map_eq_ok, bind_eq_ok, pure_eq_ok] at made
      obtain ⟨_, ⟨⟨id, es⟩, added, rfl⟩, h⟩ := made
      cases h
      cases host
      exact ⟨id, member, es, rfl, added, rfl⟩
  | addNewMember entity kind visibility name typeName =>
      simp only [perform, addNewMember, map_eq_ok, bind_eq_ok, pure_eq_ok] at made
      obtain ⟨_, ⟨⟨id, es⟩, added, rfl⟩, h⟩ := made
      cases h
      cases host
      obtain ⟨-, _, -, member, -, joined⟩ := Entities.addNewMember_eq_ok.mp added
      exact ⟨id, member, es, rfl, joined, rfl⟩
  | _ => cases host

theorem knows_of_host {operation : Operation}
    (made : m.perform operation = .ok (.member id, next)) (host : operation.host? = some owner) :
    next.knows (.member owner id) = true := by
  obtain ⟨_, _, _, same, added, rfl⟩ := exists_addMember made host
  cases same
  exact knows_of_addMember added

theorem new_of_perform {operation : Operation} {outcome : Outcome} {component : Component}
    (made : m.perform operation = .ok (outcome, next)) (new : outcome.component? = some component) :
    ¬ m.Drawn component ∧ next.Drawn component ∧ next.Has component := by
  cases operation with
  | createEntity kind title =>
      simp only [perform, createEntity, map_eq_ok, bind_eq_ok, pure_eq_ok] at made
      obtain ⟨_, ⟨⟨id, es⟩, created, rfl⟩, h⟩ := made
      cases h
      cases new
      obtain ⟨-, rfl, rfl⟩ := Entities.create_eq_ok.mp created
      refine ⟨Nat.not_succ_le_self _, Nat.le_refl _, .entity _, rfl, knows_entity.mpr ?_⟩
      exact ⟨_, List.mem_append_right _ List.mem_cons_self, rfl⟩
  | addMember | addNewMember =>
      obtain ⟨_, _, _, rfl, added, rfl⟩ := exists_addMember made rfl
      cases new
      obtain ⟨fresh, drawn⟩ := new_of_addMember added
      exact ⟨fresh, drawn, _, rfl, knows_of_addMember added⟩
  | relate source target kind sourceMultiplicity targetMultiplicity label =>
      simp only [perform, map_eq_ok] at made
      obtain ⟨⟨id, _⟩, related, h⟩ := made
      cases h
      cases new
      obtain ⟨-, -, rfl, rfl⟩ := relate_eq_ok.mp related
      refine ⟨Nat.not_succ_le_self _, Nat.le_refl _, .relationship _, rfl, ?_⟩
      exact knows_relationship.mpr ⟨_, List.mem_append_right _ List.mem_cons_self, rfl⟩
  | removeEntity | unrelate =>
      cases made
      cases new
  | renameEntity | removeMember | setMemberVisibility | renameMember | setMemberType | moveMember |
    nest | unnest | setLabel | setMultiplicities | setKind =>
      simp only [perform, map_eq_ok] at made
      obtain ⟨_, -, h⟩ := made
      cases h
      cases new

theorem new_of_step {operation : Operation} {component : Component}
    (new : (m.step operation).1.toOption.bind Outcome.component? = some component) :
    ¬ m.Drawn component ∧ (m.step operation).2.Drawn component ∧
      (m.step operation).2.Has component := by
  unfold step at new ⊢
  cases made : m.perform operation with
  | error e =>
      rw [made] at new
      cases new
  | ok result =>
      rw [made] at new
      exact new_of_perform made new

theorem created_cons (m : Model) (operation : Operation) (rest : List Operation) :
    m.created (operation :: rest) =
      ((m.step operation).1.toOption.bind Outcome.component?).toList ++
        (m.step operation).2.created rest := by
  unfold created
  rw [answers, List.filterMap_cons]
  cases (m.step operation).1.toOption.bind Outcome.component? <;> rfl

theorem not_drawn_of_created {operations : List Operation} {component : Component}
    (member : component ∈ m.created operations) : ¬ m.Drawn component := by
  induction operations generalizing m with
  | nil => cases member
  | cons operation rest ih =>
      rw [created_cons, List.mem_append, Option.mem_toList] at member
      rcases member with new | later
      · exact (new_of_step new).1
      · exact fun drawn => ih later (step_drawn operation drawn)

theorem nodup_created (m : Model) (operations : List Operation) :
    (m.created operations).Nodup := by
  induction operations generalizing m with
  | nil => exact List.nodup_nil
  | cons operation rest ih =>
      rw [created_cons, List.nodup_append]
      have single : ∀ found : Option Component, found.toList.Nodup := by
        intro found
        cases found <;> simp
      refine ⟨single _, ih _, ?_⟩
      intro component new other later same
      rw [Option.mem_toList] at new
      exact not_drawn_of_created later (same ▸ (new_of_step new).2.1)

-- Removing the package takes the class and its member along; their numbers are not given again.
example :
    empty.created
        [.createEntity .package "shapes", .createEntity .plainClass "Shape",
          .addNewMember ⟨2⟩ .attribute "public" "area" "Real", .nest ⟨2⟩ ⟨1⟩, .removeEntity ⟨1⟩,
          .renameEntity ⟨2⟩ "Form", .createEntity .plainClass "Shape"] =
      [.entity ⟨1⟩, .entity ⟨2⟩, .member ⟨3⟩, .entity ⟨4⟩] := by
  decide

end Creation

section Removal

theorem Accounted.owner_unique (h : m.Accounted) {owner other : EntityId} {id : MemberId}
    (here : m.knows (.member owner id) = true) (there : m.knows (.member other id) = true) :
    other = owner := by
  have ordered := h.sound.ordered
  obtain ⟨x, present, rfl, inside⟩ := (knows_member ordered).mp here
  obtain ⟨y, present', rfl, inside'⟩ := (knows_member ordered).mp there
  exact h.enrolled.owned y present' x present id inside' inside

/-- A member that its entity has lost is in no other entity either. -/
theorem not_has_member (h : m.Accounted) {operation : Operation} {owner : EntityId}
    {id : MemberId} (known : m.knows (.member owner id) = true)
    (gone : ¬ (m.step operation).2.knows (.member owner id) = true) :
    ¬ (m.step operation).2.Has (.member id) := by
  rintro ⟨subject, same, found⟩
  cases subject with
  | entity | relationship => cases same
  | member other id' =>
      cases same
      have drawn : m.Drawn (.member id) := h.drawn known
      have before : m.knows (.member other id) = true := step_knows_of_drawn h drawn found
      rw [h.owner_unique known before] at found
      exact gone found

theorem step_knows_ends (h : m.Accounted) {operation : Operation} {r : Relationship}
    (present : r ∈ m.relationships.items)
    (left : (m.step operation).2.knows (.relationship r.id) = true) :
    (m.step operation).2.knows (.entity r.source) = true ∧
      (m.step operation).2.knows (.entity r.target) = true := by
  have wellFormed := (step_accounted h operation).sound.wellFormed
  obtain ⟨x, member, same⟩ := knows_relationship.mp left
  have ends : x.source = r.source ∧ x.target = r.target := by
    -- What goes under the id of `r` afterwards has the ends of `r`, wherever they lead.
    have unique : ∀ old ∈ m.relationships.items, old.id = x.id → old = r :=
      fun old there equal => h.sound.filed.eq_of_id present there (equal.trans same)
    rcases m.change_of_step operation with unchanged | change
    · rw [unchanged] at member
      rw [unique x member rfl]
      exact ⟨rfl, rfl⟩
    · rcases change.relationship_origin h.sound member with new | ⟨old, there, equal, ends⟩
      · have drawn := h.sound.filed.numbered.drawn r present
        rw [← same, new] at drawn
        exact absurd drawn (Nat.not_succ_le_self _)
      · rw [unique old there equal] at ends
        exact ⟨ends.1.symm, ends.2.symm⟩
  have source := Entities.contains_iff_mem.mp (wellFormed.source_live x member)
  have target := Entities.contains_iff_mem.mp (wellFormed.target_live x member)
  rw [ends.1] at source
  rw [ends.2] at target
  exact ⟨knows_entity.mpr source, knows_entity.mpr target⟩

theorem not_has_doomed {id x : EntityId} (doomed : x ∈ m.entities.doomed id) :
    ¬ (m.removeEntity id).Has (.entity x) := by
  intro found
  obtain ⟨e, left, rfl⟩ := knows_entity.mp (has_entity.mp found)
  exact (Entities.mem_remove.mp left).2 doomed

theorem not_knows_of_removeMember {owner : EntityId} {id : MemberId}
    (known : m.knows (.member owner id) = true) :
    ¬ (m.step (.removeMember owner id)).2.knows (.member owner id) = true := by
  obtain ⟨e, found⟩ := Option.isSome_iff_exists.mp (knows_owner known)
  let left : Entity := { e with members := e.members.filter (·.1 ≠ id) }
  have there : (m.entities.replace left).find? owner = some left :=
    Entities.find?_replaced found rfl
  rw [step_removeMember found]
  intro still
  have inside : id ∈ left.memberIds := (knows_member_of_find? there).mp still
  simp [left, Entity.memberIds] at inside

theorem Removes.gone {operation : Operation} {component : Component}
    (removes : m.Removes operation component) (h : m.Accounted) :
    ¬ (m.step operation).2.Has component := by
  induction removes with
  | @entity id =>
      intro found
      obtain ⟨e, left, same⟩ := knows_entity.mp (has_entity.mp found)
      have live := Entities.contains_of_mem (Entities.mem_remove.mp left).1
      rw [same] at live
      exact not_has_doomed (Entities.self_mem_doomed live) found
  | nested present inside =>
      have live := h.sound.parent_live present inside
      exact not_has_doomed (Entities.child_mem_doomed present inside live)
  | member known => exact not_has_member h known (not_knows_of_removeMember known)
  | withEntity known gone ih =>
      exact not_has_member h known fun left => ih (has_entity.mpr (knows_owner left))
  | @relationship id =>
      intro found
      obtain ⟨r, left, same⟩ := knows_relationship.mp (has_relationship.mp found)
      have kept : r ∈ (m.relationships.remove id).items := left
      rw [h.sound.filed.items_remove] at kept
      simp [same] at kept
  | withSource present gone ih =>
      intro found
      exact ih (has_entity.mpr (step_knows_ends h present (has_relationship.mp found)).1)
  | withTarget present gone ih =>
      intro found
      exact ih (has_entity.mpr (step_knows_ends h present (has_relationship.mp found)).2)

end Removal

section Histories

/-- What a model says of a component that it does not have: no lookup finds it, and an operation
that needs it is refused for the first thing that is missing. -/
structure Lacks (m : Model) (component : Component) : Prop where
  unknown : ∀ subject : Subject, subject.component = component → m.knows subject = false
  entity : ∀ id, component = .entity id → m.entities.require id = .error (.notFound (.entity id))
  member : ∀ owner id, component = .member id →
    ∃ missing ∈ [Subject.entity owner, .member owner id],
      m.entities.requireMember owner id = .error (.notFound missing)
  relationship : ∀ id, component = .relationship id →
    m.relationships.require id = .error (.notFound (.relationship id))
  refused : ∀ operation : Operation, ∀ subject ∈ operation.needs, subject.component = component →
    ∃ missing, operation.needs.find? (fun s => !m.knows s) = some missing ∧
      m.step operation = (.error (.notFound missing), m)

theorem lacks_of_not_has {component : Component} (gone : ¬ m.Has component) :
    m.Lacks component := by
  have unknown : ∀ subject : Subject, subject.component = component → m.knows subject = false := by
    intro subject same
    by_contra known
    exact gone ⟨subject, same, by simpa using known⟩
  have first : ∀ subject : Subject, subject.component = component →
      m.missing? [subject] = some (.notFound subject) := by
    intro subject same
    simp [missing?, unknown subject same]
  exact
    { unknown := unknown
      entity := by
        rintro id rfl
        exact error?_eq_some.mp ((error?_require m id).trans (first (.entity id) rfl))
      member := by
        rintro owner id rfl
        cases found : m.entities.require owner with
        | ok e =>
            have missing := (error?_requireMember found id).trans (first (.member owner id) rfl)
            exact ⟨.member owner id, by simp, error?_eq_some.mp missing⟩
        | error e =>
            refine ⟨.entity owner, by simp, ?_⟩
            have same : e = .notFound (.entity owner) := by
              unfold Entities.require at found
              split at found <;> cases found
              rfl
            rw [Entities.requireMember, found, same]
            rfl
      relationship := by
        rintro id rfl
        exact error?_eq_some.mp ((error?_relationship m id).trans (first (.relationship id) rfl))
      refused := by
        intro operation subject needed same
        exact exists_missing needed (unknown subject same) }

theorem not_has_run (h : m.Accounted) {component : Component} (drawn : m.Drawn component)
    (gone : ¬ m.Has component) (operations : List Operation) :
    ¬ (m.run operations).Has component := by
  rintro ⟨subject, rfl, known⟩
  exact gone ⟨subject, rfl, run_knows_of_drawn h drawn known⟩

theorem Accounted.entity_unique (h : m.Accounted) {e other : Entity}
    (present : e ∈ m.entities.items) (present' : other ∈ m.entities.items) {id : MemberId}
    (inside : id ∈ e.memberIds) (inside' : id ∈ other.memberIds) : e = other := by
  exact h.sound.ordered.eq_of_id present present'
    (h.enrolled.owned e present other present' id inside inside')

/-- A new member was nowhere before, and will be in no entity but the one it was added to. -/
theorem owner_of_new (h : m.Accounted) {operation : Operation} {owner : EntityId} {id : MemberId}
    (host : operation.host? = some owner) (answered : (m.step operation).1 = .ok (.member id)) :
    ¬ m.Drawn (.member id) ∧ (m.step operation).2.knows (.member owner id) = true ∧
      ∀ later other, ((m.step operation).2.run later).knows (.member other id) = true →
        other = owner := by
  have new : (m.step operation).1.toOption.bind Outcome.component? = some (.member id) := by
    rw [answered]
    rfl
  obtain ⟨fresh, drawn, -⟩ := new_of_step new
  have here : (m.step operation).2.knows (.member owner id) = true := by
    unfold step at answered ⊢
    cases made : m.perform operation with
    | error e => simp [made] at answered
    | ok result =>
        obtain ⟨outcome, next⟩ := result
        simp only [made, Except.ok.injEq] at answered
        subst answered
        exact knows_of_host made host
  refine ⟨fresh, here, fun later other there => ?_⟩
  have accounted := step_accounted h operation
  exact accounted.owner_unique here (run_knows_of_drawn accounted drawn there)

/-- Along every run no id is answered twice, components stand in the order of their creation, a
member is in no entity but the one it was created in, and what has been removed stays away. -/
theorem run_never_reuses_ids :
    (∀ operations, (empty.created operations).Nodup) ∧
    (∀ operations,
      let m := empty.run operations
      m.entities.items.Pairwise (·.id.number < ·.id.number) ∧
        m.relationships.items.Pairwise (·.id.number < ·.id.number) ∧
        ∀ e ∈ m.entities.items, ∀ other ∈ m.entities.items, ∀ id ∈ e.memberIds,
          id ∈ other.memberIds → e = other) ∧
    (∀ before operation owner id, operation.host? = some owner →
      ((empty.run before).step operation).1 = .ok (.member id) →
      (∀ earlier, earlier <+: before → ¬ (empty.run earlier).Has (.member id)) ∧
        (empty.run (before ++ [operation])).knows (.member owner id) = true ∧
        ∀ after other,
          (empty.run (before ++ operation :: after)).knows (.member other id) = true →
            other = owner) ∧
    (∀ before between after component, (empty.run before).Has component →
      ¬ (empty.run (before ++ between)).Has component →
      (empty.run (before ++ between ++ after)).Lacks component) ∧
    ∀ before operation after component, (empty.run before).Has component →
      (empty.run before).Removes operation component →
      (empty.run (before ++ operation :: after)).Lacks component := by
  refine ⟨nodup_created _, ?_, ?_, ?_, ?_⟩
  · intro operations m
    have h := accounted_run operations
    exact ⟨Sequence.Numbers.increasing h.sound.ordered, h.sound.filed.numbered.increasing,
      fun e present other present' id inside inside' =>
        h.entity_unique present present' inside inside'⟩
  · intro before operation owner id host answered
    obtain ⟨fresh, here, later⟩ := owner_of_new (accounted_run before) host answered
    refine ⟨?_, ?_, ?_⟩
    · rintro earlier ⟨rest, rfl⟩ has
      have drawn := (accounted_run earlier).drawn_of_has has
      rw [run_append] at fresh
      exact fresh (run_drawn rest drawn)
    · rw [run_append]
      exact here
    · intro after other there
      rw [run_append] at there
      exact later after other there
  · intro before between after component has gone
    have drawn := (accounted_run before).drawn_of_has has
    have accounted := accounted_run (before ++ between)
    rw [run_append] at gone accounted
    rw [run_append, run_append]
    exact lacks_of_not_has (not_has_run accounted (run_drawn between drawn) gone after)
  · intro before operation after component has removes
    have accounted := accounted_run before
    have drawn := step_drawn operation (accounted.drawn_of_has has)
    rw [run_append]
    exact lacks_of_not_has
      (not_has_run (step_accounted accounted operation) drawn (removes.gone accounted) after)

end Histories

end Model

end ClassDiagram
