import ClassDiagram.Proofs.Route.Parallels
import ClassDiagram.Proofs.Route.Routing

/-! Routes there and back. A connection from the target to the source, with the same number, uses the
ends of the one from the source to the target, as long as the centers tell which way is which. -/

namespace ClassDiagram

namespace Orthogonal

section Displacement

variable {p q : Point ℚ}

theorem dominantAxis_comm (p q : Point ℚ) : dominantAxis (p.sub q) = dominantAxis (q.sub p) := by
  simp only [dominantAxis, Scalar.magnitude_eq, Point.sub, abs_sub_comm p.x, abs_sub_comm p.y]

theorem abs_cross_le (delta : Point ℚ) :
    |delta.coordinate (dominantAxis delta).cross| ≤ |delta.coordinate (dominantAxis delta)| := by
  cases dominant : dominantAxis delta with
  | horizontal => exact (dominantAxis_eq_horizontal.mp dominant).le
  | vertical =>
      refine not_lt.mp fun wide => ?_
      rw [dominantAxis_eq_horizontal.mpr wide] at dominant
      cases dominant

theorem coordinate_dominantAxis_ne (differ : p ≠ q) :
    p.coordinate (dominantAxis (q.sub p)) ≠ q.coordinate (dominantAxis (q.sub p)) := by
  intro same
  have none : (q.sub p).coordinate (dominantAxis (q.sub p)) = 0 := by
    rw [Point.sub_coordinate, same, sub_self]
  have less := abs_cross_le (q.sub p)
  rw [none, abs_zero, abs_nonpos_iff, Point.sub_coordinate, sub_eq_zero] at less
  exact differ (Point.eq_of_coordinates _ same less.symm)

theorem isForward_reverse {axis : Axis} (differ : p.coordinate axis ≠ q.coordinate axis) :
    isForward axis (p.sub q) = !isForward axis (q.sub p) := by
  rw [isForward_sub, isForward_sub, ← decide_not, decide_eq_decide, not_le]
  exact ⟨fun less => less.lt_of_ne differ.symm, le_of_lt⟩

theorem halfExtent_comm (axis : Axis) (source target : Bounds ℚ) :
    halfExtent axis source target = halfExtent axis target source := by
  rw [halfExtent_eq, halfExtent_eq, min_comm]

end Displacement

section Routes

variable [Angular ℚ] {settings : RouterSettings ℚ} {source target : Bounds ℚ}

theorem connect_reverse (differ : source.center ≠ target.center) (kind kind' : RelationshipKind)
    (number : ℕ) :
    let there := connect settings source target kind number
    let back := connect settings target source kind' number
    back.axis = there.axis ∧ back.start = there.stop ∧ back.stop = there.start := by
  intro there back
  have axis : back.axis = there.axis := dominantAxis_comm source.center target.center
  have forward : isForward back.axis (source.center.sub target.center) =
      !isForward there.axis (target.center.sub source.center) := by
    rw [axis]
    exact isForward_reverse (coordinate_dominantAxis_ne differ)
  have half : halfExtent back.axis target source = halfExtent there.axis source target := by
    rw [axis]
    exact halfExtent_comm there.axis target source
  refine ⟨axis, ?_, ?_⟩
  · calc
      back.start = anchor target back.axis (isForward back.axis (source.center.sub target.center))
          (parallelOffset settings.stride (halfExtent back.axis target source) number) := rfl
      _ = anchor target there.axis (!isForward there.axis (target.center.sub source.center))
          (parallelOffset settings.stride (halfExtent there.axis source target) number) := by
        rw [forward, half, axis]
      _ = there.stop := rfl
  · calc
      back.stop = anchor source back.axis (!isForward back.axis (source.center.sub target.center))
          (parallelOffset settings.stride (halfExtent back.axis target source) number) := rfl
      _ = anchor source there.axis (isForward there.axis (target.center.sub source.center))
          (parallelOffset settings.stride (halfExtent there.axis source target) number) := by
        rw [forward, half, axis, Bool.not_not]
      _ = there.start := rfl

end Routes

/-- A route back has the axis of the route there and starts where that one ends, and the other way
round. So it is in every model whose relationships there and back have the same number. -/
theorem router_reverse [Angular ℚ] (settings : RouterSettings ℚ) (source target : Bounds ℚ)
    (sourceProper : source.isDegenerate = false) (targetProper : target.isDegenerate = false)
    (differ : source.center ≠ target.center) :
    (∀ kind kind' number, ∃ there back,
      router settings source target kind number = .ok there ∧
        router settings target source kind' number = .ok back ∧
        back.axis = there.axis ∧ back.start = there.stop ∧ back.stop = there.start) ∧
      ∀ operations (shapes : Shapes ℚ) routes, let m := Model.empty.run operations
        m.reroute (router settings) shapes = .ok routes →
          ∀ r ∈ m.relationships.items, ∀ r' ∈ m.relationships.items,
            r'.source = r.target → r'.target = r.source →
            m.parallelNumber r' = m.parallelNumber r →
            shapes r.source = some source → shapes r.target = some target →
            ∃ there back, routes.lookup r.id = some there ∧ routes.lookup r'.id = some back ∧
              back.axis = there.axis ∧ back.start = there.stop ∧ back.stop = there.start := by
  rw [Bounds.isDegenerate_eq_false] at sourceProper targetProper
  refine ⟨fun kind kind' number => ⟨_, _, router_of_proper _ _ _ sourceProper targetProper,
    router_of_proper _ _ _ targetProper sourceProper, connect_reverse differ kind kind' number⟩, ?_⟩
  intro operations shapes routes m routed r member r' member' start stop rank left right
  have sound : m.Sound := Model.sound_run operations
  have left' : shapes r'.source = some target := start ▸ right
  have right' : shapes r'.target = some source := stop ▸ left
  obtain ⟨there, known, made⟩ := Model.lookup_of_reroute sound routed member left right
  obtain ⟨back, known', made'⟩ := Model.lookup_of_reroute sound routed member' left' right'
  rw [router_of_proper _ _ _ sourceProper targetProper, Except.ok.injEq] at made
  rw [rank, router_of_proper _ _ _ targetProper sourceProper, Except.ok.injEq] at made'
  subst made made'
  exact ⟨_, _, known, known', connect_reverse differ r.kind r'.kind _⟩

/-- The relationship back is the first one from the second class, and takes the ends of the first one
from the first class. -/
theorem router_reverse_parallels :
    letI := quarterTurns
    let m := Model.empty.run Model.parallels
    let small : Bounds ℚ := ⟨0, 0, 100, 50⟩
    let large : Bounds ℚ := ⟨400, 100, 600, 300⟩
    let shapes : Shapes ℚ := fun entity => some (if entity = ⟨1⟩ then small else large)
    ∃ routes there back, m.reroute (router .standard) shapes = .ok routes ∧
      routes.lookup ⟨1⟩ = some there ∧ routes.lookup ⟨3⟩ = some back ∧
      there.points = [⟨100, 25⟩, ⟨100, 200⟩, ⟨400, 200⟩] ∧
      back.start = ⟨400, 200⟩ ∧ back.stop = ⟨100, 25⟩ := by
  let _ := quarterTurns
  intro m small large shapes
  have smallProper : small.isDegenerate = false := by decide +kernel
  have largeProper : large.isDegenerate = false := by decide +kernel
  have differ : small.center ≠ large.center := by decide +kernel
  obtain ⟨-, inModels⟩ := router_reverse .standard small large smallProper largeProper differ
  have faultless : m.relationships.items.flatMap (Relationship.faults shapes) = [] := by
    decide +kernel
  obtain ⟨routes, routed⟩ := (m.reroute_yields .standard shapes).exists_ok.mpr faultless
  let r : Relationship := ⟨⟨1⟩, ⟨1⟩, ⟨2⟩, .association, "1", "*", ""⟩
  let r' : Relationship := ⟨⟨3⟩, ⟨2⟩, ⟨1⟩, .association, "", "", ""⟩
  have member : r ∈ m.relationships.items := by decide +kernel
  have member' : r' ∈ m.relationships.items := by decide +kernel
  obtain ⟨there, back, known, known', -, start, stop⟩ := inModels Model.parallels shapes routes
    routed r member r' member' rfl rfl (by decide +kernel) rfl (by decide +kernel)
  obtain ⟨route, found, made⟩ := Model.lookup_of_reroute (Model.sound_run Model.parallels) routed
    member rfl rfl
  cases known.symm.trans found
  have number : m.parallelNumber r = 0 := by decide +kernel
  rw [number] at made
  have drawn : (router .standard small large .association 0).map Route.points =
      .ok [⟨100, 25⟩, ⟨100, 200⟩, ⟨400, 200⟩] := by decide +kernel
  have points : there.points = [⟨100, 25⟩, ⟨100, 200⟩, ⟨400, 200⟩] := Route.points_of_ok made drawn
  obtain ⟨leaves, -, arrives⟩ := Route.points_eq.mp points
  exact ⟨routes, there, back, routed, known, known', points, start.trans arrives,
    stop.trans leaves⟩

end Orthogonal

end ClassDiagram
