import ClassDiagram.Connector
import ClassDiagram.Proofs.Model.Lifetime

/-! The connector tool while the model changes under it. Between two picks entities may be removed,
and others created; since ids are not used again, the source that is pending is either the entity
that was picked or not there, and the tool relates no other. -/

namespace ClassDiagram

/-- What happens in a session: something is done with the tool, or the model is changed without
it. -/
inductive Event where
  | pick (entity : EntityId)
  | setKind (kind : RelationshipKind)
  | reset
  | change (operation : Operation)
  deriving DecidableEq, Repr

namespace Event

def kind? : Event → Option RelationshipKind
  | setKind kind => some kind
  | _ => none

def keepsSource : Event → Bool
  | pick _ | reset => false
  | setKind _ | change _ => true

end Event

structure Session where
  tool : Connector
  model : Model
  deriving DecidableEq, Repr

namespace Session

def fresh (kind : RelationshipKind) (model : Model) : Session := ⟨.ofKind kind, model⟩

def pick (s : Session) (entity : EntityId) : Except ModelError Pick × Session :=
  let (answer, tool, model) := s.tool.pick s.model entity
  (answer, { tool, model })

def step (s : Session) : Event → Session
  | .pick entity => (s.pick entity).2
  | .setKind kind => { s with tool := s.tool.setKind kind }
  | .reset => { s with tool := s.tool.reset }
  | .change operation => { s with model := (s.model.step operation).2 }

def run (s : Session) (events : List Event) : Session := events.foldl step s

/-- The latest pick was one of `source`, which was selected, and it has not been reset since. -/
def Awaits (start : Session) (events : List Event) (source : EntityId) : Prop :=
  ∃ before after, events = before ++ .pick source :: after ∧
    ((start.run before).pick source).1 = .ok (.selected source) ∧
    ∀ event ∈ after, event.keepsSource = true

def kindAfter (kind : RelationshipKind) (events : List Event) : RelationshipKind :=
  (events.filterMap Event.kind?).getLast?.getD kind

variable {s start : Session} {entity source : EntityId}

section Picks

theorem pick_idle (idle : s.tool.source = none) :
    s.pick entity = (.ok (.selected entity), ⟨{ s.tool with source := some entity }, s.model⟩) := by
  simp only [pick, Connector.pick, idle]

theorem pick_again (pending : s.tool.source = some entity) :
    s.pick entity = (.ok .cancelled, ⟨s.tool.reset, s.model⟩) := by
  simp only [pick, Connector.pick, pending, ↓reduceIte]

theorem pick_other (pending : s.tool.source = some source) (other : source ≠ entity) :
    s.pick entity =
      match s.model.relate source entity s.tool.kind "" "" "" with
      | .ok (id, next) => (.ok (.created id), ⟨s.tool.reset, next⟩)
      | .error e => (.error e, ⟨s.tool.reset, s.model⟩) := by
  simp only [pick, Connector.pick, pending, if_neg other]
  cases s.model.relate source entity s.tool.kind "" "" "" <;> rfl

theorem model_pick_other (pending : s.tool.source = some source) (other : source ≠ entity) :
    (s.pick entity).2.model =
      (s.model.step (.relate source entity s.tool.kind "" "" "")).2 := by
  rw [pick_other pending other, Model.step, Model.perform]
  cases s.model.relate source entity s.tool.kind "" "" "" <;> rfl

theorem pick_selects_iff {selected : EntityId} :
    (s.pick entity).1 = .ok (.selected selected) ↔ s.tool.source = none ∧ selected = entity := by
  cases pending : s.tool.source with
  | none => simp [pick_idle pending, eq_comm]
  | some source =>
      by_cases same : source = entity
      · subst same
        simp [pick_again pending]
      · rw [pick_other pending same]
        cases s.model.relate source entity s.tool.kind "" "" "" <;> simp

theorem source_pick :
    (s.pick entity).2.tool.source = if s.tool.source = none then some entity else none := by
  cases pending : s.tool.source with
  | none => simp [pick_idle pending]
  | some source =>
      by_cases same : source = entity
      · subst same
        simp [pick_again pending, Connector.reset]
      · rw [pick_other pending same]
        cases s.model.relate source entity s.tool.kind "" "" "" <;> simp [Connector.reset]

theorem kind_pick : (s.pick entity).2.tool.kind = s.tool.kind := by
  cases pending : s.tool.source with
  | none => rw [pick_idle pending]
  | some source =>
      by_cases same : source = entity
      · subst same
        rw [pick_again pending, Connector.reset]
      · rw [pick_other pending same]
        cases s.model.relate source entity s.tool.kind "" "" "" <;> rfl

end Picks

section Histories

theorem run_append (s : Session) (front back : List Event) :
    s.run (front ++ back) = (s.run front).run back :=
  List.foldl_append

theorem run_concat (s : Session) (events : List Event) (event : Event) :
    s.run (events ++ [event]) = (s.run events).step event :=
  run_append s events [event]

theorem awaits_concat {events : List Event} {event : Event} :
    start.Awaits (events ++ [event]) source ↔
      (event = .pick source ∧ ((start.run events).pick source).1 = .ok (.selected source)) ∨
        (event.keepsSource = true ∧ start.Awaits events source) := by
  constructor
  · rintro ⟨before, after, split, selected, kept⟩
    rcases List.eq_nil_or_concat after with rfl | ⟨between, last, rfl⟩
    · obtain ⟨rfl, same⟩ := List.append_inj' split rfl
      exact .inl ⟨List.singleton_inj.mp same, selected⟩
    · have shape : events ++ [event] = (before ++ .pick source :: between) ++ [last] := by
        simpa using split
      obtain ⟨rfl, same⟩ := List.append_inj' shape rfl
      obtain rfl := List.singleton_inj.mp same
      refine .inr ⟨kept _ (by simp), before, between, rfl, selected, fun e inside => ?_⟩
      exact kept e (by simp [inside])
  · rintro (⟨rfl, selected⟩ | ⟨keeps, before, after, rfl, selected, kept⟩)
    · exact ⟨events, [], rfl, selected, by simp⟩
    · refine ⟨before, after ++ [event], by simp, selected, fun e inside => ?_⟩
      rcases List.mem_append.mp inside with old | new
      · exact kept e old
      · rwa [List.mem_singleton.mp new]

/-- The tool holds the source that the history awaits, and nothing else. -/
theorem source_run (idle : start.tool.source = none) (events : List Event) :
    (start.run events).tool.source = some source ↔ start.Awaits events source := by
  induction events using List.reverseRecOn with
  | nil =>
      have none : ¬ start.Awaits [] source := by
        rintro ⟨before, after, split, -⟩
        simp at split
      simp [run, idle, none]
  | append_singleton events event ih =>
      rw [run_concat, awaits_concat, ← ih, pick_selects_iff, and_iff_left rfl]
      cases event with
      | pick entity =>
          rw [step, source_pick]
          split
          next free => simp [free, Event.keepsSource]
          next taken => simp [taken, Event.keepsSource]
      | reset => simp [step, Connector.reset, Event.keepsSource]
      | setKind kind => simp [step, Connector.setKind, Event.keepsSource]
      | change operation => simp [step, Event.keepsSource]

theorem kindAfter_concat (kind : RelationshipKind) (events : List Event) (event : Event) :
    kindAfter kind (events ++ [event]) = event.kind?.getD (kindAfter kind events) := by
  unfold kindAfter
  rw [List.filterMap_append, List.getLast?_append]
  cases set : event.kind? with
  | none => simp [set]
  | some last => simp [set]

theorem kind_run (start : Session) (events : List Event) :
    (start.run events).tool.kind = kindAfter start.tool.kind events := by
  induction events using List.reverseRecOn with
  | nil => rfl
  | append_singleton events event ih =>
      rw [run_concat, kindAfter_concat, ← ih]
      cases event with
      | pick entity => exact kind_pick
      | reset | setKind kind | change operation => rfl

theorem exists_operation (s : Session) (event : Event) :
    (s.step event).model = s.model ∨
      ∃ operation, (s.step event).model = (s.model.step operation).2 := by
  cases event with
  | pick entity =>
      cases pending : s.tool.source with
      | none => exact .inl (by rw [step, pick_idle pending])
      | some source =>
          by_cases same : source = entity
          · subst same
            exact .inl (by rw [step, pick_again pending])
          · exact .inr ⟨_, model_pick_other pending same⟩
  | setKind | reset => exact .inl rfl
  | change operation => exact .inr ⟨operation, rfl⟩

theorem exists_operations (s : Session) (events : List Event) :
    ∃ operations, (s.run events).model = s.model.run operations := by
  induction events generalizing s with
  | nil => exact ⟨[], rfl⟩
  | cons event events ih =>
      obtain ⟨rest, later⟩ := ih (s.step event)
      rcases s.exists_operation event with same | ⟨operation, stepped⟩
      · exact ⟨rest, later.trans (by rw [same])⟩
      · exact ⟨operation :: rest, later.trans (by rw [stepped]; rfl)⟩

end Histories

section Relating

theorem relate_of_created {id : RelationshipId}
    (created : (s.pick entity).1 = .ok (.created id)) :
    ∃ source, s.tool.source = some source ∧ source ≠ entity ∧
      s.model.relate source entity s.tool.kind "" "" "" = .ok (id, (s.pick entity).2.model) := by
  cases pending : s.tool.source with
  | none => simp [pick_idle pending] at created
  | some source =>
      by_cases same : source = entity
      · subst same
        simp [pick_again pending] at created
      · refine ⟨source, rfl, same, ?_⟩
        rw [pick_other pending same] at created ⊢
        cases related : s.model.relate source entity s.tool.kind "" "" "" with
        | error e => simp [related] at created
        | ok result =>
            simp only [related, Except.ok.injEq, Pick.created.injEq] at created ⊢
            rw [← created]

theorem model_of_not_created (none : ∀ id, (s.pick entity).1 ≠ .ok (.created id)) :
    (s.pick entity).2.model = s.model := by
  cases pending : s.tool.source with
  | none => rw [pick_idle pending]
  | some source =>
      by_cases same : source = entity
      · subst same
        rw [pick_again pending]
      · rw [pick_other pending same] at none ⊢
        cases related : s.model.relate source entity s.tool.kind "" "" "" with
        | error e => rfl
        | ok result => exact absurd (by rw [related]) (none result.1)

theorem relates_iff {m : Model} (kind : RelationshipKind) :
    (∃ result, m.relate source entity kind "" "" "" = .ok result) ↔
      m.knows (.entity source) = true ∧ m.knows (.entity entity) = true := by
  simp only [Model.knows, Option.isSome_iff_exists]
  constructor
  · rintro ⟨⟨id, next⟩, related⟩
    obtain ⟨live, live', -⟩ := Model.relate_eq_ok.mp related
    exact ⟨live, live'⟩
  · rintro ⟨live, live'⟩
    exact ⟨_, Model.relate_eq_ok.mpr ⟨live, live', rfl, rfl⟩⟩

theorem pick_refused_iff :
    (∃ e, (s.pick entity).1 = .error e) ↔
      ∃ source, s.tool.source = some source ∧ source ≠ entity ∧
        ¬ (s.model.knows (.entity source) = true ∧ s.model.knows (.entity entity) = true) := by
  cases pending : s.tool.source with
  | none => simp [pick_idle pending]
  | some source =>
      by_cases same : source = entity
      · subst same
        simp [pick_again pending]
      · simp only [Option.some.injEq, exists_eq_left', ne_eq, same, not_false_eq_true, true_and]
        rw [pick_other pending same, ← relates_iff s.tool.kind]
        cases related : s.model.relate source entity s.tool.kind "" "" "" <;> simp

end Relating

section Permanence

theorem accounted (h : s.model.Accounted) (events : List Event) :
    (s.run events).model.Accounted := by
  induction events generalizing s with
  | nil => exact h
  | cons event events ih =>
      refine ih ?_
      rcases s.exists_operation event with same | ⟨operation, stepped⟩
      · rwa [same]
      · rw [stepped]
        exact Model.step_accounted h operation

variable {front : List Event}

theorem drawn_later {component : Component} (back : List Event)
    (drawn : (s.run front).model.Drawn component) :
    (s.run (front ++ back)).model.Drawn component := by
  obtain ⟨operations, later⟩ := (s.run front).exists_operations back
  rw [run_append, later]
  exact Model.run_drawn operations drawn

theorem knows_earlier (h : s.model.Accounted) (back : List Event) {subject : Subject}
    (drawn : (s.run front).model.Drawn subject.component)
    (known : (s.run (front ++ back)).model.knows subject = true) :
    (s.run front).model.knows subject = true := by
  obtain ⟨operations, later⟩ := (s.run front).exists_operations back
  rw [run_append, later] at known
  exact Model.run_knows_of_drawn (accounted h front) drawn known

theorem not_has_fresh (h : s.model.Accounted) (back : List Event) :
    ¬ (s.run front).model.Has
      (.relationship ⟨(s.run (front ++ back)).model.relationships.ids.fresh⟩) := by
  intro has
  have drawn := drawn_later back ((accounted h front).drawn_of_has has)
  exact Nat.not_succ_le_self _ drawn

end Permanence

/-- In every session a pick changes the model only to relate the entity to the one that the pick
before it has selected. Both are there, and neither has been removed since its number was drawn. A
pick is refused exactly when one of the two is missing. -/
theorem run_pick (kind : RelationshipKind) (operations : List Operation) (events : List Event)
    (entity : EntityId) :
    let start := fresh kind (Model.empty.run operations)
    let s := start.run events
    let answer := (s.pick entity).1
    let next := (s.pick entity).2
    (∀ id, answer = .ok (.created id) →
      ∃ source, start.Awaits events source ∧ source ≠ entity ∧
        s.model.knows (.entity source) = true ∧ s.model.knows (.entity entity) = true ∧
        next.model.entities = s.model.entities ∧
        next.model.relationships.items =
          s.model.relationships.items ++
            [{ id, source, target := entity, kind := kindAfter kind events
               sourceMultiplicity := "", targetMultiplicity := "", label := "" }] ∧
        ∀ earlier, earlier <+: events →
          ¬ (start.run earlier).model.Has (.relationship id) ∧
            ∀ x ∈ [source, entity], (start.run earlier).model.Drawn (.entity x) →
              (start.run earlier).model.knows (.entity x) = true) ∧
      ((∀ id, answer ≠ .ok (.created id)) → next.model = s.model) ∧
      ((∃ e, answer = .error e) ↔
        ∃ source, start.Awaits events source ∧ source ≠ entity ∧
          ¬ (s.model.knows (.entity source) = true ∧ s.model.knows (.entity entity) = true)) ∧
      (∀ e, answer = .ok (.selected e) → e = entity ∧ next.tool.source = some entity) ∧
      ((∀ e, answer ≠ .ok (.selected e)) → next.tool.source = none) := by
  intro start s answer next
  have idle : start.tool.source = none := rfl
  have h : start.model.Accounted := Model.accounted_run operations
  refine ⟨?_, model_of_not_created, ?_, ?_, ?_⟩
  · intro id created
    obtain ⟨source, pending, other, related⟩ := relate_of_created created
    obtain ⟨live, live'⟩ := (relates_iff _).mp ⟨_, related⟩
    obtain ⟨-, -, fresh, made⟩ := Model.relate_eq_ok.mp related
    refine ⟨source, (source_run idle events).mp pending, other, live, live', ?_, ?_, ?_⟩
    · have entities := congrArg Model.entities made
      exact entities
    · have items := congrArg (fun m : Model => m.relationships.items) made
      rw [kind_run] at items
      exact fresh ▸ items
    · rintro earlier ⟨rest, rfl⟩
      refine ⟨fresh ▸ not_has_fresh h rest, fun x member drawn => knows_earlier h rest drawn ?_⟩
      rcases List.mem_cons.mp member with rfl | last
      · exact live
      · rw [List.mem_singleton.mp last]
        exact live'
  · exact pick_refused_iff.trans
      (exists_congr fun source => and_congr_left fun _ => source_run idle events)
  · intro e selected
    obtain ⟨free, same⟩ := pick_selects_iff.mp selected
    exact ⟨same, source_pick.trans (if_pos free)⟩
  · intro none
    refine source_pick.trans (if_neg fun free => ?_)
    exact none entity (pick_selects_iff.mpr ⟨free, rfl⟩)

/-- The source is picked before it is removed, and again before it is related. -/
theorem run_pick_after_removal :
    let start := fresh .association
      (Model.empty.run [.createEntity .plainClass "Whole", .createEntity .plainClass "Part"])
    let lost : List Event := [.pick ⟨1⟩, .change (.removeEntity ⟨1⟩)]
    let kept : List Event := [.pick ⟨2⟩, .reset, .pick ⟨1⟩, .setKind .composition]
    (∃ e, ((start.run lost).pick ⟨2⟩).1 = .error e) ∧
      ((start.run kept).pick ⟨2⟩).1 = .ok (.created ⟨1⟩) ∧
      ∃ source, start.Awaits kept source ∧ source ≠ ⟨2⟩ ∧
        ((start.run kept).pick ⟨2⟩).2.model.relationships.items =
          [{ id := ⟨1⟩, source, target := ⟨2⟩, kind := .composition
             sourceMultiplicity := "", targetMultiplicity := "", label := "" }] := by
  intro start lost kept
  have created : ((start.run kept).pick ⟨2⟩).1 = .ok (.created ⟨1⟩) := by decide
  obtain ⟨-, -, refused, -⟩ := run_pick .association
    [.createEntity .plainClass "Whole", .createEntity .plainClass "Part"] lost ⟨2⟩
  obtain ⟨relates, -⟩ := run_pick .association
    [.createEntity .plainClass "Whole", .createEntity .plainClass "Part"] kept ⟨2⟩
  refine ⟨refused.mpr ⟨⟨1⟩, ⟨[], _, rfl, rfl, by decide⟩, by decide, by decide⟩, created, ?_⟩
  obtain ⟨source, awaits, other, -, -, -, items, -⟩ := relates _ created
  exact ⟨source, awaits, other, items⟩

end Session

end ClassDiagram
