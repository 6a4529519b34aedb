import ClassDiagram.Model.InPlace
import ClassDiagram.Proofs.Model.Members
import ClassDiagram.Proofs.Model.Refusal

/-! Changes in place are all or nothing: they check before they write, so that one which is refused
leaves the state as it was, and one which is not leads where the change of a value leads. -/

namespace ClassDiagram.InPlace

section Steps

variable {σ τ α β γ : Type}

/-- What is left of a state, and answered, by a change that either happens or does not. -/
def settled (s : σ) : Except ModelError (α × σ) → Except ModelError α × σ
  | .ok (a, next) => (.ok a, next)
  | .error e => (.error e, s)

theorem outcome_bind (change : InPlace σ β) (next : β → InPlace σ α) (s : σ) :
    (change >>= next).outcome s =
      match change.outcome s with
      | (.ok b, t) => (next b).outcome t
      | (.error e, t) => (.error e, t) := by
  unfold outcome
  simp only [ExceptT.run_bind, StateT.run_bind]
  rcases change.run.run s with ⟨result, t⟩
  cases result <;> rfl

theorem outcome_bind_settled {change : InPlace σ β} {s : σ}
    {result : Except ModelError (β × σ)} (h : change.outcome s = settled s result) (f : β → γ) :
    outcome (do return f (← change)) s = settled s (result.map fun (b, next) => (f b, next)) := by
  rw [outcome_bind, h]
  cases result <;> rfl

theorem outcome_write (f : σ → σ) (a : α) (s : σ) :
    outcome (do write f; return a) s = (.ok a, f s) :=
  rfl

theorem outcome_check_bind {find : σ → Except ModelError β} {next : β → InPlace σ α} {s : σ}
    {rest : β → Except ModelError (α × σ)}
    (found : ∀ b, find s = .ok b → (next b).outcome s = settled s (rest b)) :
    (check find >>= next).outcome s = settled s (find s >>= rest) := by
  have checked : (check find).outcome s = (find s, s) := rfl
  rw [outcome_bind, checked]
  cases h : find s with
  | ok b => exact found b h
  | error e => rfl

theorem outcome_within {part : σ → τ} {put : σ → τ → σ} {change : InPlace τ α} {s : σ}
    {result : Except ModelError (α × τ)} (back : put s (part s) = s)
    (settles : change.outcome (part s) = settled (part s) result) :
    (within part put change).outcome s =
      settled s (result.map fun (a, t) => (a, put s t)) := by
  have run : (within part put change).outcome s =
      ((change.outcome (part s)).1, put s (change.outcome (part s)).2) := rfl
  rw [run, settles]
  cases result with
  | ok next => rfl
  | error e => exact congrArg (Prod.mk _) back

end Steps

section Entities

variable {es : Entities}

theorem outcome_create (kind : EntityKind) (title : String) :
    (create kind title).outcome es = settled es (es.create kind title) :=
  outcome_check_bind fun _ _ => rfl

theorem outcome_rename (id : EntityId) (title : String) :
    (rename id title).outcome es = settled es ((es.rename id title).map ((), ·)) := by
  rw [Entities.rename, map_bind]
  refine outcome_check_bind fun e _ => ?_
  rw [map_bind]
  exact outcome_check_bind fun _ _ => rfl

theorem outcome_addMember (id : EntityId) (member : Member) :
    (addMember id member).outcome es = settled es (es.addMember id member) := by
  refine outcome_check_bind fun e _ => ?_
  split <;> rfl

theorem outcome_addNewMember (id : EntityId) (kind : MemberKind)
    (visibility name typeName : String) :
    (addNewMember id kind visibility name typeName).outcome es =
      settled es (es.addNewMember id kind visibility name typeName) := by
  refine outcome_check_bind fun e _ => ?_
  have parts : ((Subject.entity id).blame do
        Member.make kind (← Visibility.parse visibility) name typeName) =
      (do
        let visibility ← (Subject.entity id).blame (Visibility.parse visibility)
        (Subject.entity id).blame (Member.make kind visibility name typeName)) :=
    mapError_bind ..
  rw [parts, bind_assoc]
  refine outcome_check_bind fun v _ => ?_
  exact outcome_check_bind fun member _ => outcome_addMember id member

theorem outcome_removeMember (id : EntityId) (member : MemberId) :
    (removeMember id member).outcome es = settled es ((es.removeMember id member).map ((), ·)) := by
  rw [Entities.removeMember, map_bind]
  exact outcome_check_bind fun _ _ => rfl

theorem outcome_setVisibility (m : Member) (word : String) :
    (setVisibility word).outcome m = settled m ((m.setVisibility word).map ((), ·)) := by
  rw [Member.setVisibility, map_bind]
  exact outcome_check_bind fun _ _ => rfl

theorem outcome_renameMember (m : Member) (name : String) :
    (renameMember name).outcome m = settled m ((m.rename name).map ((), ·)) := by
  rw [Member.rename, map_bind]
  exact outcome_check_bind fun _ _ => rfl

theorem outcome_setType (m : Member) (typeName : String) :
    (setType typeName).outcome m = settled m ((m.setType typeName).map ((), ·)) := by
  rw [Member.setType, map_bind]
  exact outcome_check_bind fun _ _ => rfl

/-- A refused edit has left the member as it was, so that writing it back changes nothing. -/
theorem outcome_editMember (ordered : es.Ordered) (enrolled : es.Enrolled) (id : EntityId)
    (member : MemberId) {edit : InPlace Member Unit} {revise : Member → Except ModelError Member}
    (settles : ∀ m, edit.outcome m = settled m ((revise m).map ((), ·))) :
    (editMember id member edit).outcome es =
      settled es ((es.editMember id member revise).map ((), ·)) := by
  rw [Entities.editMember, map_bind]
  refine outcome_check_bind fun e found => ?_
  rw [map_bind]
  refine outcome_check_bind fun old stored => ?_
  have known : es.find? id = some e := Entities.require_eq_ok.mp found
  obtain ⟨e', known', present⟩ := Entities.requireMember_eq_ok.mp stored
  obtain rfl : e = e' := Option.some.inj (known.symm.trans known')
  rw [settles]
  cases revised : revise old with
  | ok new => rfl
  | error refusal =>
      -- The entity is written although the edit was refused: with the member that it had.
      have there := ((Entities.find?_eq_some ordered).mp known).1
      have same := Entity.map_member_self (enrolled.distinct e there) present
      have unchanged : es.replace { e with
          members := e.members.map fun m => if m.1 = member then (m.1, old) else m } = es := by
        rw [same]
        have itself := known
        rw [← ((Entities.find?_eq_some ordered).mp known).2] at itself
        exact Entities.replace_self ordered itself
      exact congrArg (Prod.mk _) unchanged

theorem outcome_moveMember (id : EntityId) (member : MemberId) (index : Nat) :
    (moveMember id member index).outcome es =
      settled es ((es.moveMember id member index).map ((), ·)) := by
  rw [Entities.moveMember, map_bind]
  refine outcome_check_bind fun e found => ?_
  rw [map_bind]
  refine outcome_check_bind fun moved stored => ?_
  have known : es.find? id = some e := Entities.require_eq_ok.mp found
  obtain ⟨e', known', present⟩ := Entities.requireMember_eq_ok.mp stored
  obtain rfl : e = e' := Option.some.inj (known.symm.trans known')
  obtain ⟨entry, first, rfl⟩ := Option.map_eq_some_iff.mp present
  have named : entry.1 = member := by simpa using List.find?_some first
  subst named
  rw [moveMember_eq_insertIdx first]
  exact congrArg (Prod.mk _) (Entities.replace_replace rfl)

theorem outcome_nest (child package : EntityId) :
    (nest child package).outcome es = settled es ((es.nest child package).map ((), ·)) := by
  rw [Entities.nest, map_bind]
  refine outcome_check_bind fun container _ => ?_
  rw [map_bind]
  refine outcome_check_bind fun e _ => ?_
  by_cases other : container.kind ≠ .package
  · rw [if_pos other, if_pos other]
    rfl
  · rw [if_neg other, if_neg other]
    split <;> rfl

theorem outcome_unnest (child : EntityId) :
    (unnest child).outcome es = settled es ((es.unnest child).map ((), ·)) := by
  rw [Entities.unnest, map_bind]
  exact outcome_check_bind fun _ _ => rfl

end Entities

section Relationships

variable {rs : Relationships}

theorem outcome_relate (es : Entities) (source target : EntityId) (kind : RelationshipKind)
    (sourceMultiplicity targetMultiplicity label : String) :
    (relate es source target kind sourceMultiplicity targetMultiplicity label).outcome rs =
      settled rs do
        let _ ← es.require source
        let _ ← es.require target
        return rs.add source target kind sourceMultiplicity targetMultiplicity label :=
  outcome_check_bind fun _ _ => outcome_check_bind fun _ _ => rfl

theorem outcome_redraw (id : RelationshipId) (edit : Relationship → Relationship) :
    (redraw id edit).outcome rs =
      settled rs ((do return rs.replace (edit (← rs.require id)) :
        Except ModelError Relationships).map ((), ·)) := by
  rw [map_bind]
  exact outcome_check_bind fun _ _ => rfl

end Relationships

section Model

variable {m : Model}

theorem outcome_answer {β : Type} {change : InPlace Entities β}
    {result : Except ModelError (β × Entities)}
    (settles : change.outcome m.entities = settled m.entities result) (answer : β → Outcome) :
    outcome (do return answer (← onEntities change)) m =
      settled m ((do
        let (b, entities) ← result
        return (b, { m with entities }) : Except ModelError (β × Model)).map
          fun (b, m) => (answer b, m)) := by
  have run : (onEntities change).outcome m = _ := outcome_within rfl settles
  rw [outcome_bind_settled run]
  cases result <;> rfl

theorem outcome_onEntities {change : InPlace Entities Unit} {result : Except ModelError Entities}
    (settles : change.outcome m.entities = settled m.entities (result.map ((), ·))) :
    outcome (do onEntities change; return Outcome.done) m =
      settled m ((do return { m with entities := ← result } : Except ModelError Model).map
        (Outcome.done, ·)) := by
  have run : (onEntities change).outcome m = _ := outcome_within rfl settles
  rw [outcome_bind_settled run fun _ => Outcome.done]
  cases result <;> rfl

theorem outcome_onRelationships {change : InPlace Relationships Unit}
    {result : Except ModelError Relationships}
    (settles : change.outcome m.relationships = settled m.relationships (result.map ((), ·))) :
    outcome (do onRelationships change; return Outcome.done) m =
      settled m ((do return { m with relationships := ← result } : Except ModelError Model).map
        (Outcome.done, ·)) := by
  have run : (onRelationships change).outcome m = _ := outcome_within rfl settles
  rw [outcome_bind_settled run fun _ => Outcome.done]
  cases result <;> rfl

theorem step_eq_settled (m : Model) (operation : Operation) :
    m.step operation = settled m (m.perform operation) := by
  unfold Model.step
  cases m.perform operation <;> rfl

theorem outcome_perform (h : m.Accounted) (operation : Operation) :
    (perform operation).outcome m = m.step operation := by
  have ordered := h.sound.ordered
  have enrolled := h.enrolled
  rw [step_eq_settled]
  cases operation with
  | createEntity kind title => exact outcome_answer (outcome_create kind title) .entity
  | renameEntity entity title => exact outcome_onEntities (outcome_rename entity title)
  | removeEntity entity => exact outcome_write ..
  | addMember entity member => exact outcome_answer (outcome_addMember entity member) .member
  | addNewMember entity kind visibility name typeName =>
      exact outcome_answer (outcome_addNewMember entity kind visibility name typeName) .member
  | removeMember entity member => exact outcome_onEntities (outcome_removeMember entity member)
  | setMemberVisibility entity member word =>
      exact outcome_onEntities
        (outcome_editMember ordered enrolled entity member fun m => outcome_setVisibility m word)
  | renameMember entity member name =>
      exact outcome_onEntities
        (outcome_editMember ordered enrolled entity member fun m => outcome_renameMember m name)
  | setMemberType entity member typeName =>
      exact outcome_onEntities
        (outcome_editMember ordered enrolled entity member fun m => outcome_setType m typeName)
  | moveMember entity member index =>
      exact outcome_onEntities (outcome_moveMember entity member index)
  | nest child package => exact outcome_onEntities (outcome_nest child package)
  | unnest child => exact outcome_onEntities (outcome_unnest child)
  | relate source target kind sourceMultiplicity targetMultiplicity label =>
      have settles : (relate m.entities source target kind sourceMultiplicity targetMultiplicity
          label).outcome m.relationships = _ := outcome_relate ..
      have run : (onRelationships _).outcome m = _ := outcome_within rfl settles
      refine (outcome_bind_settled run Outcome.relationship).trans ?_
      rw [Model.perform, Model.relate]
      cases m.entities.require source with
      | error e => rfl
      | ok s => cases m.entities.require target <;> rfl
  | unrelate relationship => exact outcome_write ..
  | setLabel relationship label => exact outcome_onRelationships (outcome_redraw relationship _)
  | setMultiplicities relationship source target =>
      exact outcome_onRelationships (outcome_redraw relationship _)
  | setKind relationship kind => exact outcome_onRelationships (outcome_redraw relationship _)

/-- After every run an operation in place is refused exactly for the first reason there is, and
then nothing has changed. Taking something out is never refused, but for a member whose entity is
not there. -/
theorem perform_all_or_nothing (operations : List Operation) (operation : Operation) :
    let m := Model.empty.run operations
    let after := (perform operation).outcome m
    (∀ e, after.1 = .error e ↔ m.refusal? operation = some e) ∧
      (m.refusal? operation ≠ none → after.2 = m) ∧
      after = m.step operation ∧
      (∀ entity, operation = .removeEntity entity → ∃ next, after = (.ok .done, next)) ∧
      (∀ relationship, operation = .unrelate relationship → ∃ next, after = (.ok .done, next)) ∧
      ∀ entity member, operation = .removeMember entity member →
        m.knows (.entity entity) = true → ∃ next, after = (.ok .done, next) := by
  intro m after
  have stepped : after = m.step operation :=
    outcome_perform (Model.accounted_run operations) operation
  refine ⟨fun e => ?_, fun refused => ?_, stepped, ?_, ?_, ?_⟩
  · rw [stepped, ← Model.perform_eq_error, Model.step]
    cases m.perform operation <;> simp
  · obtain ⟨e, refusal⟩ := Option.ne_none_iff_exists'.mp refused
    rw [stepped, Model.step_of_refusal refusal]
  · rintro entity rfl
    exact ⟨_, stepped⟩
  · rintro relationship rfl
    exact ⟨_, stepped⟩
  · rintro entity member rfl known
    obtain ⟨e, found⟩ := Option.isSome_iff_exists.mp known
    exact ⟨_, stepped.trans (Model.step_removeMember found member)⟩

end Model

end ClassDiagram.InPlace
