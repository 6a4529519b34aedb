import ClassDiagram.Project.Output
import ClassDiagram.Proofs.FirstFault
import ClassDiagram.Proofs.Route.Exact
import ClassDiagram.Proofs.Route.Reroute

/-! When the relationships of a model can be routed and the model can be drawn, with which number
each relationship is routed, and which failure is reported if there are several. -/

namespace ClassDiagram

variable {α : Type}

namespace Model

variable {m : Model}

section Numbers

theorem parallelNumber_eq (h : m.Sound) {front back : List Relationship} {r : Relationship}
    (split : m.relationships.items = front ++ r :: back) :
    m.parallelNumber r =
      front.countP fun other => other.source = r.source ∧ other.target = r.target := by
  have fresh : r.id ∉ front.map (·.id) := nodup_map_iff.mp h.filed.distinct_ids front r back split
  rw [parallelNumber, h.filed.between_eq, split, List.filter_append,
    List.filter_cons_of_pos (by simp), findIdx?_of_split, Option.getD_some,
    List.countP_eq_length_filter]
  exact fun again => fresh (List.map_subset _ (List.filter_subset_self _) again)

theorem map_parallelNumber (h : m.Sound) (source target : EntityId) :
    (m.relationships.between source target).map m.parallelNumber =
      List.range (m.relationships.between source target).length := by
  have exact := h.filed.between_eq source target
  have distinct : ((m.relationships.between source target).map (·.id)).Nodup := by
    rw [exact]
    exact h.filed.distinct_ids.sublist (List.filter_sublist.map _)
  have number : ∀ r ∈ m.relationships.between source target, m.parallelNumber r =
      ((m.relationships.between source target).findIdx? (·.id = r.id)).getD 0 := by
    intro r member
    rw [exact] at member
    obtain ⟨rfl, rfl⟩ := of_decide_eq_true (List.mem_filter.mp member).2
    rfl
  rw [List.map_congr_left number]
  -- Every search succeeds, so that the place it falls back to is never used.
  have places := congrArg (List.map (Option.getD · 0)) (map_findIdx? distinct)
  rwa [List.map_map, List.map_map, List.map_id''] at places
  exact fun _ => rfl

end Numbers

end Model

section Faults

variable {shapes : Shapes α} {entity : EntityId}

def Shapes.absent (shapes : Shapes α) (entity : EntityId) : List RouteError :=
  if (shapes entity).isNone then [.missingGeometry entity] else []

theorem Shapes.absent_eq_nil : shapes.absent entity = [] ↔ ∃ b, shapes entity = some b := by
  rw [absent]
  cases shapes entity <;> simp

theorem Shapes.head?_absent {e : RouteError} :
    (shapes.absent entity).head? = some e ↔
      shapes entity = none ∧ e = .missingGeometry entity := by
  rw [absent]
  cases shapes entity <;> simp [eq_comm]

theorem Shapes.require_yields (shapes : Shapes α) (entity : EntityId) :
    Yields (shapes.absent entity) (fun b => shapes entity = some b) (shapes.require entity) := by
  rw [absent, require]
  cases shapes entity with
  | none => rfl
  | some b => exact ⟨b, rfl, rfl⟩

theorem Shapes.require_eq_ok {b : Bounds α} :
    shapes.require entity = .ok b ↔ shapes entity = some b := by
  rw [require]
  cases shapes entity <;> simp

theorem Model.routeOne_eq_ok {m : Model} {router : Router α} {r : Relationship} {route : Route α} :
    m.routeOne router shapes r = .ok (r.id, route) ↔ ∃ source target,
      shapes r.source = some source ∧ shapes r.target = some target ∧
        router source target r.kind (m.parallelNumber r) = .ok route := by
  simp only [routeOne, bind_eq_ok, pure_eq_ok, Shapes.require_eq_ok, Prod.mk.injEq, true_and,
    exists_eq_right', exists_and_left]

theorem Model.lookup_of_reroute {m : Model} (h : m.Sound) {router : Router α} {routes : Routes α}
    (routed : m.reroute router shapes = .ok routes) {r : Relationship}
    (member : r ∈ m.relationships.items) {source target : Bounds α}
    (left : shapes r.source = some source) (right : shapes r.target = some target) :
    ∃ route, routes.lookup r.id = some route ∧
      router source target r.kind (m.parallelNumber r) = .ok route := by
  obtain ⟨route, known, done⟩ :=
    lookup_eq_of_routed (reroute_eq_ok.mp routed) h.filed.distinct_ids member
  obtain ⟨_, _, left', right', made⟩ := routeOne_eq_ok.mp done
  cases left.symm.trans left'
  cases right.symm.trans right'
  exact ⟨route, known, made⟩

variable [Scalar α]

def Shapes.degenerate (shapes : Shapes α) (endpoint : Endpoint) (entity : EntityId) :
    List RouteError :=
  if (shapes entity).any Bounds.isDegenerate then [.degenerateShape endpoint] else []

def Relationship.faults (shapes : Shapes α) (r : Relationship) : List RouteError :=
  shapes.absent r.source ++ (shapes.absent r.target ++
    (shapes.degenerate .source r.source ++ shapes.degenerate .target r.target))

theorem Relationship.faults_eq_nil {r : Relationship} :
    r.faults shapes = [] ↔ ∃ source target, shapes r.source = some source ∧
      shapes r.target = some target ∧ source.isDegenerate = false ∧
        target.isDegenerate = false := by
  simp only [faults, List.append_eq_nil_iff, Shapes.absent_eq_nil]
  constructor
  · rintro ⟨⟨source, left⟩, ⟨target, right⟩, sourceProper, targetProper⟩
    rw [Shapes.degenerate, left] at sourceProper
    rw [Shapes.degenerate, right] at targetProper
    exact ⟨source, target, left, right, by simpa using sourceProper, by simpa using targetProper⟩
  · rintro ⟨source, target, left, right, sourceProper, targetProper⟩
    refine ⟨⟨source, left⟩, ⟨target, right⟩, ?_, ?_⟩
    · simp [Shapes.degenerate, left, sourceProper]
    · simp [Shapes.degenerate, right, targetProper]

end Faults

section Routed

variable [Scalar α] [Angular α] (settings : RouterSettings α) (shapes : Shapes α) (m : Model)

theorem Orthogonal.router_yields {r : Relationship} {source target : Bounds α}
    (left : shapes r.source = some source) (right : shapes r.target = some target) (number : Nat) :
    Yields (shapes.degenerate .source r.source ++ shapes.degenerate .target r.target)
      (fun _ => True) (router settings source target r.kind number) := by
  simp only [Shapes.degenerate, left, right, Option.any_some, router]
  cases source.isDegenerate with
  | true => rfl
  | false =>
      cases target.isDegenerate with
      | true => rfl
      | false => exact ⟨_, rfl, trivial⟩

theorem Model.routeOne_yields (r : Relationship) :
    Yields (r.faults shapes) (fun _ => True)
      (m.routeOne (Orthogonal.router settings) shapes r) :=
  (shapes.require_yields r.source).bind fun _ left =>
    (shapes.require_yields r.target).bind fun _ right =>
      (Orthogonal.router_yields settings shapes left right _).bind_pure fun _ _ => trivial

theorem Model.reroute_yields :
    Yields (m.relationships.items.flatMap (Relationship.faults shapes)) (fun _ => True)
      (m.reroute (Orthogonal.router settings) shapes) :=
  (Yields.mapM fun r _ => m.routeOne_yields settings shapes r).imp fun _ _ => trivial

end Routed

section Outlined

variable (m : Model) (shapes : Shapes α)

theorem Preview.outlined_yields :
    Yields (m.entities.items.flatMap fun entity => shapes.absent entity.id)
      (List.Forall₂ (fun entity outline => outline.1 = entity ∧ shapes entity.id = some outline.2)
        m.entities.items)
      (Preview.outlined m shapes) :=
  Yields.mapM fun entity _ =>
    (shapes.require_yields entity.id).bind_pure fun _ found => ⟨rfl, found⟩

/-- Whatever the routes are, only the shapes can keep a model from being drawn. -/
theorem Preview.render_yields [Scalar α] (routes : Routes α) :
    Yields (m.entities.items.flatMap fun entity => shapes.absent entity.id)
      (fun svg => ∃ outlines,
        List.Forall₂ (fun entity outline => outline.1 = entity ∧ shapes entity.id = some outline.2)
          m.entities.items outlines ∧
        svg = Preview.document m (Preview.drawingOrder outlines) routes)
      (Preview.render m shapes routes) :=
  (Preview.outlined_yields m shapes).bind_pure fun outlines each => ⟨outlines, each, rfl⟩

theorem Preview.exists_render [Scalar α] (routes : Routes α)
    (outlined : ∀ entity ∈ m.entities.items, ∃ b, shapes entity.id = some b) :
    ∃ outlines,
      List.Forall₂ (fun entity outline => outline.1 = entity ∧ shapes entity.id = some outline.2)
        m.entities.items outlines ∧
      Preview.render m shapes routes =
        .ok (Preview.document m (Preview.drawingOrder outlines) routes) := by
  have none : m.entities.items.flatMap (fun entity => shapes.absent entity.id) = [] :=
    List.flatMap_eq_nil_iff.mpr fun entity present =>
      Shapes.absent_eq_nil.mpr (outlined entity present)
  have rendered := Preview.render_yields m shapes routes
  rw [none] at rendered
  obtain ⟨_, drawn, outlines, each, rfl⟩ := rendered
  exact ⟨outlines, each, drawn⟩

end Outlined

namespace LoadedProject

variable (p : LoadedProject)

theorem draw_yields (routes : Routes Float32) :
    Yields ((p.model.entities.items.flatMap fun entity => p.shapes.absent entity.id).map .route)
      (fun _ => True) (p.draw routes) := by
  have reported := (Preview.render_yields p.model p.shapes routes).mapError DiagramError.route
  exact reported.bind_pure fun _ _ => trivial

variable {p} {routes : Routes Float32} {settings : Settings} {e : DiagramError}

theorem exists_draw :
    (∃ text, p.draw routes = .ok text) ↔
      ∀ entity ∈ p.model.entities.items, ∃ b, p.shapes entity.id = some b := by
  rw [(p.draw_yields routes).exists_ok, List.map_eq_nil_iff, List.flatMap_eq_nil_iff]
  simp only [Shapes.absent_eq_nil]

theorem draw_eq_error :
    p.draw routes = .error e ↔ ∃ front entity back,
      p.model.entities.items = front ++ entity :: back ∧
        (∀ earlier ∈ front, ∃ b, p.shapes earlier.id = some b) ∧
        p.shapes entity.id = none ∧ e = .route (.missingGeometry entity.id) := by
  rw [(p.draw_yields routes).eq_error, List.head?_map, Option.map_eq_some_iff]
  simp only [head?_flatMap_eq_some, Shapes.absent_eq_nil, Shapes.head?_absent]
  constructor
  · rintro ⟨_, ⟨front, entity, back, split, drawn, missing, rfl⟩, rfl⟩
    exact ⟨front, entity, back, split, drawn, missing, rfl⟩
  · rintro ⟨front, entity, back, split, drawn, missing, rfl⟩
    exact ⟨_, ⟨front, entity, back, split, drawn, missing, rfl⟩, rfl⟩

theorem exists_preview :
    (∃ text, p.preview settings = .ok text) ↔
      (∃ routes, p.model.reroute (Orthogonal.router settings.router) p.shapes = .ok routes) ∧
        ∀ entity ∈ p.model.entities.items, ∃ b, p.shapes entity.id = some b := by
  simp only [preview, reroute, bind_eq_ok, mapError_eq_ok]
  constructor
  · rintro ⟨text, routes, routed, drawn⟩
    exact ⟨⟨routes, routed⟩, exists_draw.mp ⟨text, drawn⟩⟩
  · rintro ⟨⟨routes, routed⟩, outlined⟩
    obtain ⟨text, drawn⟩ : ∃ text, p.draw routes = .ok text := exists_draw.mpr outlined
    exact ⟨text, routes, routed, drawn⟩

theorem preview_eq_error :
    p.preview settings = .error e ↔
      (∃ cause, p.model.reroute (Orthogonal.router settings.router) p.shapes = .error cause ∧
        e = .route cause) ∨
      (∃ routes, p.model.reroute (Orthogonal.router settings.router) p.shapes = .ok routes) ∧
        ∃ front entity back, p.model.entities.items = front ++ entity :: back ∧
          (∀ earlier ∈ front, ∃ b, p.shapes earlier.id = some b) ∧
          p.shapes entity.id = none ∧ e = .route (.missingGeometry entity.id) := by
  simp only [preview, reroute, bind_eq_error, mapError_eq_ok, mapError_eq_error, draw_eq_error,
    exists_and_right]

end LoadedProject

/-- After every run all relationships are routed, in insertion order and each with the number of
earlier ones between the same ends, unless an end has no rectangle or a degenerate one. The first
relationship with a fault is reported, with the first of its faults. A preview needs a rectangle
for every entity as well, and reports what keeps it from being routed first. -/
theorem Model.run_reroute [Scalar α] [Angular α] (operations : List Operation)
    (settings : RouterSettings α) (shapes : Shapes α) :
    let m := Model.empty.run operations
    let items := m.relationships.items
    let router := Orthogonal.router settings
    let result := m.reroute router shapes
    ((∃ routes, result = .ok routes) ↔ ∀ r ∈ items, ∃ source target,
        shapes r.source = some source ∧ shapes r.target = some target ∧
          source.isDegenerate = false ∧ target.isDegenerate = false) ∧
      (∀ routes, result = .ok routes → routes.map (·.1) = items.map (·.id) ∧
        ∀ front r back, items = front ++ r :: back → ∃ source target route,
          shapes r.source = some source ∧ shapes r.target = some target ∧
            router source target r.kind (front.countP fun other =>
              other.source = r.source ∧ other.target = r.target) = .ok route ∧
            routes.lookup r.id = some route) ∧
      (∀ source target, let parallels := items.filter fun r =>
        r.source = source ∧ r.target = target
        parallels.map m.parallelNumber = List.range parallels.length) ∧
      (∀ e, result = .error e ↔ ∃ front r back, items = front ++ r :: back ∧
        (∀ earlier ∈ front, earlier.faults shapes = []) ∧
          (r.faults shapes).head? = some e) ∧
      ∀ name bounds keys (wanted : Settings),
        let p : LoadedProject := ⟨name, m, bounds, keys⟩
        let routed := m.reroute (Orthogonal.router wanted.router) p.shapes
        ((∃ text, p.preview wanted = .ok text) ↔ (∃ routes, routed = .ok routes) ∧
          ∀ entity ∈ m.entities.items, ∃ b, p.shapes entity.id = some b) ∧
        ∀ e, p.preview wanted = .error e ↔ (∃ cause, routed = .error cause ∧ e = .route cause) ∨
          (∃ routes, routed = .ok routes) ∧ ∃ front entity back,
            m.entities.items = front ++ entity :: back ∧
              (∀ earlier ∈ front, ∃ b, p.shapes earlier.id = some b) ∧
              p.shapes entity.id = none ∧ e = .route (.missingGeometry entity.id) := by
  intro m items router result
  have sound : m.Sound := sound_run operations
  have yields := m.reroute_yields settings shapes
  refine ⟨?_, fun routes routed => ?_, fun source target => ?_, fun e => ?_, ?_⟩
  · rw [yields.exists_ok, List.flatMap_eq_nil_iff]
    simp only [Relationship.faults_eq_nil]
    rfl
  · have each := reroute_eq_ok.mp routed
    refine ⟨ids_of_routed each, fun front r back split => ?_⟩
    obtain ⟨route, known, done⟩ :=
      lookup_eq_of_routed each sound.filed.distinct_ids (split ▸ List.mem_append_cons_self)
    obtain ⟨source, target, left, right, made⟩ := routeOne_eq_ok.mp done
    exact ⟨source, target, route, left, right, parallelNumber_eq sound split ▸ made, known⟩
  · have numbers := map_parallelNumber sound source target
    rwa [sound.filed.between_eq] at numbers
  · rw [yields.eq_error, head?_flatMap_eq_some]
  · intro name bounds keys wanted p routed
    exact ⟨LoadedProject.exists_preview, fun _ => LoadedProject.preview_eq_error⟩

theorem Model.run_reroute_parallels :
    letI := quarterTurns
    let m := Model.empty.run parallels
    let shape : EntityId → Bounds ℚ := fun entity =>
      ⟨400 * entity.number, 0, 400 * entity.number + 100, 200⟩
    ∃ routes second, m.reroute (Orthogonal.router .standard) (fun id => some (shape id)) =
        .ok routes ∧
      routes.map (·.1) = [⟨1⟩, ⟨2⟩, ⟨3⟩] ∧ routes.lookup ⟨2⟩ = some second ∧
        second.points = [⟨500, 140⟩, ⟨500, 140⟩, ⟨800, 140⟩] := by
  let _ := quarterTurns
  intro m shape
  have proper : ∀ r ∈ m.relationships.items, (shape r.source).isDegenerate = false ∧
      (shape r.target).isDegenerate = false := by
    decide +kernel
  obtain ⟨possible, outcome, -⟩ := run_reroute parallels .standard fun id => some (shape id)
  obtain ⟨routes, routed⟩ := possible.mpr fun r member => ⟨_, _, rfl, rfl, proper r member⟩
  obtain ⟨keys, each⟩ := outcome routes routed
  obtain ⟨source, target, second, left, right, made, known⟩ :=
    each [⟨⟨1⟩, ⟨1⟩, ⟨2⟩, .association, "1", "*", ""⟩]
      ⟨⟨2⟩, ⟨1⟩, ⟨2⟩, .composition, "", "", "contains"⟩
      [⟨⟨3⟩, ⟨2⟩, ⟨1⟩, .association, "", "", ""⟩] (by rfl)
  cases left
  cases right
  replace made : Orthogonal.router .standard (shape ⟨1⟩) (shape ⟨2⟩) .composition 1 =
      .ok second := made
  have drawn : (Orthogonal.router .standard (shape ⟨1⟩) (shape ⟨2⟩) .composition 1).map
      Route.points = .ok [⟨500, 140⟩, ⟨500, 140⟩, ⟨800, 140⟩] := by
    decide +kernel
  rw [made] at drawn
  exact ⟨routes, second, routed, keys, known, Except.ok.inj drawn⟩

end ClassDiagram
