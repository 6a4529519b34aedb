import ClassDiagram.Proofs.Lists
import ClassDiagram.Proofs.Model.LocalChange
import ClassDiagram.Route.Reroute

/-! After a change near one entity it is enough to route the relationships of that entity. Put into
the earlier routes, they are what routing everything would give, up to the failure that comes
first. When an entity is removed, nothing has to be routed at all. -/

namespace ClassDiagram.Model

variable {m next : Model} {entity : EntityId} {α : Type} {router : Router α}
  {shapes shapes' : Shapes α} {routes : Routes α}

theorem Revision.routeOne_eq (revision : m.Revision entity next) (h : m.Sound) (h' : next.Sound)
    (agree : ∀ other, other ≠ entity → shapes' other = shapes other) {r : Relationship}
    (apart : r.touches entity = false) :
    next.routeOne router shapes' r = m.routeOne router shapes r := by
  have ends : r.source ≠ entity ∧ r.target ≠ entity := by
    simpa [Relationship.touches] using apart
  have between : next.relationships.between r.source r.target =
      m.relationships.between r.source r.target := by
    rw [h.filed.between_eq, h'.filed.between_eq]
    refine revision.filter_eq fun other same => ?_
    simp only [decide_eq_true_eq] at same
    simpa [Relationship.touches, same.1, same.2] using ends
  simp only [routeOne, parallelNumber, Shapes.require, agree _ ends.1, agree _ ends.2, between]

theorem routeOne_id {r : Relationship} {entry : RelationshipId × Route α}
    (routed : m.routeOne router shapes r = .ok entry) : entry.1 = r.id := by
  simp only [routeOne, bind_eq_ok, pure_eq_ok] at routed
  obtain ⟨_, _, _, _, _, _, rfl⟩ := routed
  rfl

theorem reroute_eq_ok :
    m.reroute router shapes = .ok routes ↔
      List.Forall₂ (fun r entry => m.routeOne router shapes r = .ok entry)
        m.relationships.items routes :=
  mapM_eq_ok

section Tables

variable {items : List Relationship} {table : Routes α}

theorem ids_of_routed
    (routed : List.Forall₂ (fun r entry => m.routeOne router shapes r = .ok entry) items table) :
    table.map (·.1) = items.map (·.id) :=
  (map_eq_map routed fun _ _ done => (routeOne_id done).symm).symm

theorem lookup_eq_of_routed
    (routed : List.Forall₂ (fun r entry => m.routeOne router shapes r = .ok entry) items table)
    (distinct : (items.map (·.id)).Nodup) {r : Relationship} (member : r ∈ items) :
    ∃ route, table.lookup r.id = some route ∧ m.routeOne router shapes r = .ok (r.id, route) := by
  obtain ⟨⟨id, route⟩, there, done⟩ := exists_of_mem_left routed member
  obtain rfl : id = r.id := routeOne_id done
  exact ⟨route, lookup_of_mem (ids_of_routed routed ▸ distinct) there, done⟩

theorem lookup_eq_none_of_routed
    (routed : List.Forall₂ (fun r entry => m.routeOne router shapes r = .ok entry) items table)
    {id : RelationshipId} (absent : ∀ r ∈ items, r.id ≠ id) : table.lookup id = none := by
  refine lookup_eq_none_of_not_mem fun member => ?_
  rw [ids_of_routed routed] at member
  obtain ⟨r, there, same⟩ := List.mem_map.mp member
  exact absent r there same

end Tables

section Patches

variable {anew : Routes α}

theorem lookup_of_touched (h : m.Sound)
    (touched : m.rerouteTouching router shapes entity = .ok anew) {r : Relationship}
    (there : r ∈ m.relationships.items) (touches : r.touches entity = true) :
    ∃ route, anew.lookup r.id = some route ∧ m.routeOne router shapes r = .ok (r.id, route) := by
  rw [rerouteTouching, h.filed.touching_eq, mapM_eq_ok] at touched
  refine lookup_eq_of_routed touched ?_ (List.mem_filter.mpr ⟨there, touches⟩)
  exact h.filed.distinct_ids.sublist (List.filter_sublist.map _)

theorem lookup_of_apart (h : m.Sound)
    (touched : m.rerouteTouching router shapes entity = .ok anew) {r : Relationship}
    (there : r ∈ m.relationships.items) (apart : r.touches entity = false) :
    anew.lookup r.id = none := by
  rw [rerouteTouching, h.filed.touching_eq, mapM_eq_ok] at touched
  refine lookup_eq_none_of_routed touched fun other member same => ?_
  obtain ⟨present, touches⟩ := List.mem_filter.mp member
  rw [h.filed.eq_of_id there present same, apart] at touches
  cases touches

theorem Revision.routed_stays (revision : m.Revision entity next) (h : m.Sound) (h' : next.Sound)
    (agree : ∀ other, other ≠ entity → shapes' other = shapes other)
    (earlier : m.reroute router shapes = .ok routes)
    (touched : next.rerouteTouching router shapes' entity = .ok anew) :
    List.Forall₂ (fun r entry => next.routeOne router shapes' r = .ok entry)
      ((m.relationships.items.filter revision.stays).map revision.edit)
      ((routes.filter fun entry => (next.relationships.find? entry.1).isSome).map
        fun entry => (entry.1, (anew.lookup entry.1).getD entry.2)) := by
  rw [List.forall₂_map_left_iff, List.forall₂_map_right_iff]
  have kept := filter_agree (reroute_eq_ok.mp earlier) (p := revision.stays)
    (q := fun entry => (next.relationships.find? entry.1).isSome) fun r there entry done => by
      rw [routeOne_id done, revision.stays_iff h h' there]
  refine (forall₂_mem kept).imp ?_
  rintro r ⟨id, route⟩ ⟨member, -, there, done⟩
  obtain rfl : id = r.id := routeOne_id done
  have present : revision.edit r ∈ next.relationships.items :=
    (revision.mem_items _).mpr (.inl ⟨r, there, (List.mem_filter.mp member).2, rfl⟩)
  cases touches : r.touches entity with
  | true =>
      obtain ⟨new, found, done'⟩ := lookup_of_touched h' touched present
        ((revision.touches_edit r there).trans touches)
      rw [revision.id_edit] at found done'
      rw [done', found]
      rfl
  | false =>
      -- Neither the ends nor the parallels of such a relationship have changed.
      have same := (revision.apart r there touches).2
      rw [same] at present
      have absent := lookup_of_apart h' touched present touches
      rw [same, revision.routeOne_eq h h' agree touches, done, absent]
      rfl

theorem Revision.routed_added (revision : m.Revision entity next) (h : m.Sound) (h' : next.Sound)
    (earlier : m.reroute router shapes = .ok routes)
    (touched : next.rerouteTouching router shapes' entity = .ok anew) :
    List.Forall₂ (fun r entry => next.routeOne router shapes' r = .ok entry) revision.added
      (anew.filter fun entry => (routes.lookup entry.1).isNone) := by
  have before := reroute_eq_ok.mp earlier
  rw [rerouteTouching, h'.filed.touching_eq, mapM_eq_ok] at touched
  rw [← revision.filter_added h]
  refine (filter_agree touched fun r _ entry done => ?_).imp fun _ _ done => done.2
  rw [routeOne_id done]
  cases found : m.relationships.find? r.id with
  | none =>
      have absent := lookup_eq_none_of_routed before (Relationships.find?_eq_none.mp found)
      rw [absent]
      rfl
  | some old =>
      obtain ⟨there, same⟩ := h.filed.find?_eq_some.mp found
      obtain ⟨route, known, -⟩ := lookup_eq_of_routed before h.filed.distinct_ids there
      rw [← same, known]
      rfl

theorem Revision.routed (revision : m.Revision entity next) (h : m.Sound) (h' : next.Sound)
    (agree : ∀ other, other ≠ entity → shapes' other = shapes other)
    (earlier : m.reroute router shapes = .ok routes)
    (touched : next.rerouteTouching router shapes' entity = .ok anew) :
    next.reroute router shapes' =
      .ok (routes.patch (fun id => (next.relationships.find? id).isSome) anew) := by
  rw [reroute_eq_ok, revision.items]
  exact List.rel_append (revision.routed_stays h h' agree earlier touched)
    (revision.routed_added h h' earlier touched)

end Patches

/-- A failure near the entity is the first one of all. -/
theorem Revision.refused (revision : m.Revision entity next) (h : m.Sound) (h' : next.Sound)
    (agree : ∀ other, other ≠ entity → shapes' other = shapes other)
    (earlier : m.reroute router shapes = .ok routes) {e : RouteError}
    (failed : next.rerouteTouching router shapes' entity = .error e) :
    next.reroute router shapes' = .error e := by
  rw [rerouteTouching, h'.filed.touching_eq] at failed
  refine mapM_eq_error (fun r member apart => ?_) failed
  have there := revision.mem_apart member apart
  obtain ⟨entry, -, done⟩ := exists_of_mem_left (reroute_eq_ok.mp earlier) there
  exact ⟨entry, (revision.routeOne_eq h h' agree apart).trans done⟩

theorem routeOne_removeEntity (h : m.Sound) {r : Relationship}
    (left : r ∈ (m.removeEntity entity).relationships.items) :
    (m.removeEntity entity).routeOne router shapes r = m.routeOne router shapes r := by
  have items : (m.removeEntity entity).relationships.items = _ :=
    (h.filed.detachAll (m.entities.doomed entity)).2
  have kept : r.source ∉ m.entities.doomed entity ∧ r.target ∉ m.entities.doomed entity := by
    rw [items, List.mem_filter] at left
    simpa using left.2
  have between : (m.removeEntity entity).relationships.between r.source r.target =
      m.relationships.between r.source r.target := by
    rw [h.filed.between_eq, (h.remove entity).filed.between_eq, items, List.filter_filter]
    refine List.filter_congr fun other _ => ?_
    rw [Bool.eq_iff_iff]
    simp only [Bool.and_eq_true, decide_eq_true_eq, and_iff_left_iff_imp]
    rintro ⟨source, target⟩
    rwa [source, target]
  simp only [routeOne, parallelNumber, between]

theorem reroute_removeEntity (h : m.Sound) (earlier : m.reroute router shapes = .ok routes)
    (entity : EntityId) :
    (m.removeEntity entity).reroute router shapes =
      .ok (routes.filter fun entry =>
        ((m.removeEntity entity).relationships.find? entry.1).isSome) := by
  have items : (m.removeEntity entity).relationships.items = _ :=
    (h.filed.detachAll (m.entities.doomed entity)).2
  rw [reroute_eq_ok, items]
  have kept := filter_agree (reroute_eq_ok.mp earlier)
    (p := fun r => r.source ∉ m.entities.doomed entity ∧ r.target ∉ m.entities.doomed entity)
    (q := fun entry => ((m.removeEntity entity).relationships.find? entry.1).isSome)
    fun r there entry done => by
      rw [routeOne_id done, Bool.eq_iff_iff, Option.isSome_iff_exists]
      constructor
      · intro stays
        refine ⟨r, (h.remove entity).filed.find?_eq_some.mpr ⟨?_, rfl⟩⟩
        rw [items]
        exact List.mem_filter.mpr ⟨there, stays⟩
      · rintro ⟨x, found⟩
        obtain ⟨present, same⟩ := (h.remove entity).filed.find?_eq_some.mp found
        rw [items] at present
        obtain ⟨inside, stays⟩ := List.mem_filter.mp present
        rwa [h.filed.eq_of_id there inside same] at stays
  refine (forall₂_mem kept).imp ?_
  rintro r entry ⟨member, -, there, done⟩
  rw [← items] at member
  rw [routeOne_removeEntity h member, done]

/-- After every run, and for every router: when one entity was moved, or one of its relationships
was added, removed or given another kind, routing everything gives the earlier routes with those of
the entity's relationships put in, or fails as routing these does. When an entity is removed, the
routes of the relationships that are left stay as they are. -/
theorem reroute_eq_patch (operations : List Operation) (router : Router α) (shapes : Shapes α)
    (routes : Routes α) (earlier : (Model.empty.run operations).reroute router shapes = .ok routes)
    (entity : EntityId) :
    let m := Model.empty.run operations
    (∀ next shapes', m.LocalChange entity next →
      (∀ other, other ≠ entity → shapes' other = shapes other) →
        next.reroute router shapes' =
          (next.rerouteTouching router shapes' entity).map
            (routes.patch fun id => (next.relationships.find? id).isSome)) ∧
      (m.removeEntity entity).reroute router shapes =
        .ok (routes.filter fun entry =>
          ((m.removeEntity entity).relationships.find? entry.1).isSome) := by
  intro m
  have sound : m.Sound := sound_run operations
  refine ⟨fun next shapes' change agree => ?_, reroute_removeEntity sound earlier entity⟩
  obtain ⟨revision⟩ := change.exists_revision sound
  cases touched : next.rerouteTouching router shapes' entity with
  | error e => exact revision.refused sound (change.sound sound) agree earlier touched
  | ok anew => exact revision.routed sound (change.sound sound) agree earlier touched

section Parallels

def parallels : List Operation :=
  [.createEntity .plainClass "Order", .createEntity .plainClass "Item",
    .relate ⟨1⟩ ⟨2⟩ .association "1" "*" "", .relate ⟨1⟩ ⟨2⟩ .composition "" "" "contains",
    .relate ⟨2⟩ ⟨1⟩ .association "" "" ""]

def levelPath (source target : Bounds Nat) (number : Nat) : Route Nat where
  axis := .horizontal
  start := ⟨source.maxX, number⟩
  bend := ⟨target.minX, number⟩
  stop := ⟨target.minX, number⟩
  marker := none
  sourceMultiplicity := ⟨⟨source.maxX, number⟩, 0⟩
  label := ⟨⟨source.maxX, number⟩, 0⟩
  targetMultiplicity := ⟨⟨target.minX, number⟩, 0⟩

def levelRouter : Router Nat := fun source target _ number => .ok (levelPath source target number)

def square (entity : EntityId) : Bounds Nat := ⟨entity.number, 0, entity.number + 1, 1⟩

/-- Without the first parallel, the second one takes its number. -/
theorem reroute_eq_patch_parallels :
    let m := Model.empty.run parallels
    let routes : Routes Nat :=
      [(⟨1⟩, levelPath (square ⟨1⟩) (square ⟨2⟩) 0), (⟨2⟩, levelPath (square ⟨1⟩) (square ⟨2⟩) 1),
        (⟨3⟩, levelPath (square ⟨2⟩) (square ⟨1⟩) 0)]
    let next := m.unrelate ⟨1⟩
    let anew : Routes Nat :=
      [(⟨2⟩, levelPath (square ⟨1⟩) (square ⟨2⟩) 0), (⟨3⟩, levelPath (square ⟨2⟩) (square ⟨1⟩) 0)]
    m.reroute levelRouter (fun entity => some (square entity)) = .ok routes ∧
      next.reroute levelRouter (fun entity => some (square entity)) =
        .ok (routes.patch (fun id => (next.relationships.find? id).isSome) anew) := by
  intro m routes next anew
  have earlier : m.reroute levelRouter (fun entity => some (square entity)) = .ok routes := by rfl
  have change : m.LocalChange ⟨1⟩ next :=
    .unrelated (r := ⟨⟨1⟩, ⟨1⟩, ⟨2⟩, .association, "1", "*", ""⟩) (by decide) (by decide)
  have touched :
      next.rerouteTouching levelRouter (fun entity => some (square entity)) ⟨1⟩ = .ok anew := by
    rw [rerouteTouching, (change.sound (sound_run parallels)).filed.touching_eq]
    rfl
  have all := reroute_eq_patch parallels levelRouter _ routes earlier ⟨1⟩
  have patched := all.1 next _ change fun _ _ => rfl
  rw [touched] at patched
  exact ⟨earlier, patched⟩

end Parallels

end ClassDiagram.Model
