import ClassDiagram.Proofs.Preview.Drawing
import ClassDiagram.Proofs.Route.Anchors
import Mathlib.Tactic.Linarith
import Mathlib.Tactic.NormNum
import Mathlib.Tactic.Positivity
import Mathlib.Tactic.Ring

/-! What the view box of a preview has room for, in exact numbers. It is laid around the shapes, and
the connectors are never looked at. They are inside because a bend takes each of its coordinates
from an end, and texts stand along the last segment. -/

namespace ClassDiagram

section Rooms

namespace Bounds

variable {a b c : Bounds ℚ} {p q : Point ℚ} {distance : ℚ}

/-- The point is inside of the rectangle, at a distance from each of its sides. -/
def HasRoom (b : Bounds ℚ) (distance : ℚ) (p : Point ℚ) : Prop :=
  ∀ axis, b.low axis + distance ≤ p.coordinate axis ∧ p.coordinate axis + distance ≤ b.high axis

def Surrounds (a : Bounds ℚ) (distance : ℚ) (b : Bounds ℚ) : Prop :=
  ∀ axis, a.low axis + distance ≤ b.low axis ∧ b.high axis + distance ≤ a.high axis

theorem contains_iff : b.contains p = true ↔ b.HasRoom 0 p := by
  have sides : b.contains p = true ↔
      (b.minX ≤ p.x ∧ p.x ≤ b.maxX) ∧ b.minY ≤ p.y ∧ p.y ≤ b.maxY := by
    simp [contains, and_assoc]
  rw [sides]
  simp only [HasRoom, add_zero]
  constructor
  · rintro ⟨across, down⟩ (_ | _)
    · exact across
    · exact down
  · intro inside
    exact ⟨inside .horizontal, inside .vertical⟩

theorem surrounds_self (b : Bounds ℚ) : b.Surrounds 0 b := by
  intro axis
  rw [add_zero, add_zero]
  exact ⟨le_rfl, le_rfl⟩

theorem Surrounds.trans (outer : a.Surrounds distance b) (inner : b.Surrounds 0 c) :
    a.Surrounds distance c := by
  intro axis
  obtain ⟨low, high⟩ := outer axis
  obtain ⟨low', high'⟩ := inner axis
  constructor <;> linarith

theorem Surrounds.hasRoom (outer : a.Surrounds distance b) (inside : b.HasRoom 0 p) :
    a.HasRoom distance p := by
  intro axis
  obtain ⟨low, high⟩ := outer axis
  obtain ⟨low', high'⟩ := inside axis
  constructor <;> linarith

theorem surrounds_pad (b : Bounds ℚ) (distance : ℚ) :
    (b.pad (.uniform distance)).Surrounds distance b := by
  have each : ∀ axis, (b.pad (.uniform distance)).low axis = b.low axis - distance ∧
      (b.pad (.uniform distance)).high axis = b.high axis + distance := by
    rintro (_ | _) <;> exact ⟨rfl, rfl⟩
  intro axis
  obtain ⟨low, high⟩ := each axis
  rw [low, high, sub_add_cancel]
  exact ⟨le_rfl, le_rfl⟩

theorem merge_coordinates (a b : Bounds ℚ) (axis : Axis) :
    (a.merge b).low axis = min (a.low axis) (b.low axis) ∧
      (a.merge b).high axis = max (a.high axis) (b.high axis) := by
  cases axis <;> exact ⟨Scalar.least_eq _ _, Scalar.greatest_eq _ _⟩

theorem merge_surrounds (a b : Bounds ℚ) :
    (a.merge b).Surrounds 0 a ∧ (a.merge b).Surrounds 0 b := by
  refine ⟨fun axis => ?_, fun axis => ?_⟩
  · obtain ⟨low, high⟩ := merge_coordinates a b axis
    rw [low, high, add_zero, add_zero]
    exact ⟨min_le_left _ _, le_max_left _ _⟩
  · obtain ⟨low, high⟩ := merge_coordinates a b axis
    rw [low, high, add_zero, add_zero]
    exact ⟨min_le_right _ _, le_max_right _ _⟩

theorem HasRoom.lerp (here : b.HasRoom distance p) (there : b.HasRoom distance q) {t : ℚ}
    (start : 0 ≤ t) (stop : t ≤ 1) : b.HasRoom distance (p.lerp q t) := by
  intro axis
  obtain ⟨low, high⟩ := here axis
  obtain ⟨low', high'⟩ := there axis
  have mixed : (p.lerp q t).coordinate axis =
      (1 - t) * p.coordinate axis + t * q.coordinate axis := by
    rw [Point.lerp_coordinate]
    ring
  have rest : 0 ≤ 1 - t := sub_nonneg.mpr stop
  rw [mixed]
  constructor
  · linarith [mul_le_mul_of_nonneg_left low rest, mul_le_mul_of_nonneg_left low' start]
  · linarith [mul_le_mul_of_nonneg_left high rest, mul_le_mul_of_nonneg_left high' start]

theorem HasRoom.add (here : b.HasRoom distance p) {v : Point ℚ}
    (short : ∀ axis, |v.coordinate axis| ≤ distance) : b.HasRoom 0 (p.add v) := by
  intro axis
  obtain ⟨low, high⟩ := here axis
  obtain ⟨back, ahead⟩ := abs_le.mp (short axis)
  have moved : (p.add v).coordinate axis = p.coordinate axis + v.coordinate axis := by
    cases axis <;> rfl
  rw [moved]
  constructor <;> linarith

theorem hasRoom_of_onSide (proper : b.Proper) {side : Side} (there : b.OnSide p side) :
    b.HasRoom 0 p := by
  have boundary := onBoundary_of_onSide proper there
  rw [onBoundary, Bool.and_eq_true] at boundary
  exact contains_iff.mp boundary.1

end Bounds

end Rooms

def Route.placements {α : Type} (r : Route α) : List (Placement α) :=
  [r.sourceMultiplicity, r.label, r.targetMultiplicity]

namespace Orthogonal

variable {b : Bounds ℚ}

theorem hasRoom_bend {distance : ℚ} {axis : Axis} {start stop : Point ℚ}
    (here : b.HasRoom distance start) (there : b.HasRoom distance stop) :
    b.HasRoom distance (bend axis start stop) := by
  obtain ⟨along, across⟩ : (bend axis start stop).coordinate axis = start.coordinate axis ∧
      (bend axis start stop).coordinate axis.cross = stop.coordinate axis.cross :=
    bend_coordinate start stop
  have each : ∀ other, other = axis ∨ other = axis.cross := by
    cases axis <;> rintro (_ | _) <;> simp [Axis.cross]
  intro other
  rcases each other with rfl | rfl
  · rw [along]
    exact here _
  · rw [across]
    exact there _

theorem contains_placement {settings : RouterSettings ℚ} {distance : ℚ} (axis : Axis)
    {turn stop : Point ℚ} (here : b.HasRoom distance turn) (there : b.HasRoom distance stop)
    (short : |settings.labelOffset| ≤ distance) {quarters : ℕ} (part : quarters ≤ 4) :
    b.contains (placement settings axis turn stop quarters).position = true := by
  have least : (0 : ℚ) ≤ (quarters : ℚ) / 4 := by positivity
  have most : (quarters : ℚ) / 4 ≤ 1 := by
    rw [div_le_one (by norm_num)]
    exact_mod_cast part
  have between : b.HasRoom distance (turn.lerp stop ((quarters : ℚ) / 4)) :=
    here.lerp there least most
  have none : |(0 : ℚ)| ≤ distance := abs_zero.trans_le ((abs_nonneg _).trans short)
  have back : |-settings.labelOffset| ≤ distance := (abs_neg _).trans_le short
  rw [Bounds.contains_iff]
  cases axis with
  | horizontal =>
      refine between.add (v := ⟨0, -settings.labelOffset⟩) ?_
      rintro (_ | _)
      · exact none
      · exact back
  | vertical =>
      refine between.add (v := ⟨settings.labelOffset, 0⟩) ?_
      rintro (_ | _)
      · exact short
      · exact none

section Connections

variable [Angular ℚ] {settings : RouterSettings ℚ} {source target : Bounds ℚ} {distance : ℚ}

/-- A rectangle around both shapes is around the whole path between them. -/
theorem hasRoom_connect (sourceProper : source.Proper) (targetProper : target.Proper)
    (left : b.Surrounds distance source) (right : b.Surrounds distance target)
    (kind : RelationshipKind) (number : ℕ) :
    let route := connect settings source target kind number
    (∀ p ∈ route.points, b.HasRoom distance p) ∧
      (|settings.labelOffset| ≤ distance →
        ∀ text ∈ route.placements, b.contains text.position = true) := by
  intro route
  obtain ⟨leaves, arrives⟩ :=
    connect_ends settings kind number sourceProper targetProper
  have start : b.HasRoom distance route.start :=
    left.hasRoom (Bounds.hasRoom_of_onSide sourceProper leaves)
  have stop : b.HasRoom distance route.stop :=
    right.hasRoom (Bounds.hasRoom_of_onSide targetProper arrives)
  have turn : b.HasRoom distance route.bend := hasRoom_bend start stop
  constructor
  · intro p member
    simp only [Route.points, List.mem_cons, List.not_mem_nil, or_false] at member
    rcases member with rfl | rfl | rfl
    · exact start
    · exact turn
    · exact stop
  · intro short text member
    simp only [Route.placements, List.mem_cons, List.not_mem_nil, or_false] at member
    rcases member with rfl | rfl | rfl
    · exact contains_placement _ turn stop short (by decide)
    · exact contains_placement _ turn stop short (by decide)
    · exact contains_placement _ turn stop short (by decide)

end Connections

end Orthogonal

namespace Preview

theorem foldl_merge_surrounds (first : Bounds ℚ) (outlines : List (Entity × Bounds ℚ)) :
    let all := outlines.foldl (fun acc outline => acc.merge outline.2) first
    all.Surrounds 0 first ∧ ∀ outline ∈ outlines, all.Surrounds 0 outline.2 := by
  induction outlines generalizing first with
  | nil => exact ⟨first.surrounds_self, fun _ member => absurd member List.not_mem_nil⟩
  | cons next rest ih =>
      obtain ⟨earlier, here⟩ := first.merge_surrounds next.2
      obtain ⟨merged, later⟩ := ih (first.merge next.2)
      refine ⟨merged.trans earlier, fun outline member => ?_⟩
      rcases List.mem_cons.mp member with rfl | behind
      · exact merged.trans here
      · exact later outline behind

theorem extent_surrounds {outlines : List (Entity × Bounds ℚ)} {outline : Entity × Bounds ℚ}
    (member : outline ∈ outlines) : (extent outlines).Surrounds 0 outline.2 := by
  cases outlines with
  | nil => cases member
  | cons first rest =>
      obtain ⟨start, others⟩ := foldl_merge_surrounds first.2 rest
      rcases List.mem_cons.mp member with rfl | later
      · exact start
      · exact others outline later

theorem viewBox_surrounds {outlines : List (Entity × Bounds ℚ)} {outline : Entity × Bounds ℚ}
    (member : outline ∈ outlines) : (viewBox outlines).Surrounds 20 outline.2 :=
  ((extent outlines).surrounds_pad 20).trans (extent_surrounds member)

end Preview

namespace Model

theorem Sound.exists_routes {m : Model} (h : m.Sound) [Angular ℚ] (settings : RouterSettings ℚ)
    {shapes : Shapes ℚ}
    (proper : ∀ e ∈ m.entities.items, ∃ b, shapes e.id = some b ∧ b.isDegenerate = false) :
    ∃ routes, m.reroute (Orthogonal.router settings) shapes = .ok routes := by
  have live : ∀ id, m.entities.contains id = true →
      ∃ b, shapes id = some b ∧ b.isDegenerate = false := by
    intro id known
    obtain ⟨e, present, rfl⟩ := Entities.contains_iff_mem.mp known
    exact proper e present
  rw [(m.reroute_yields settings shapes).exists_ok, List.flatMap_eq_nil_iff]
  intro r member
  obtain ⟨source, left, sourceProper⟩ := live _ (h.wellFormed.source_live r member)
  obtain ⟨target, right, targetProper⟩ := live _ (h.wellFormed.target_live r member)
  exact Relationship.faults_eq_nil.mpr ⟨source, target, left, right, sourceProper, targetProper⟩

/-- After every run, if all entities have proper rectangles, the preview has room for the shapes and
the paths of all connectors, with the margin around them, and for the texts of the connectors if
these stand no further off than the margin. -/
theorem run_viewBox [Angular ℚ] (operations : List Operation) (settings : RouterSettings ℚ)
    (shapes : Shapes ℚ)
    (proper : ∀ e ∈ (Model.empty.run operations).entities.items,
      ∃ b, shapes e.id = some b ∧ b.isDegenerate = false) :
    let m := Model.empty.run operations
    ∃ (routes : Routes ℚ) (svg : Svg.Element ℚ) (box : Bounds ℚ),
      m.reroute (Orthogonal.router settings) shapes = .ok routes ∧
      routes.map (·.1) = m.relationships.items.map (·.id) ∧
      Preview.render m shapes routes = .ok svg ∧
      svg.attribute? "viewBox" = some (.numbers [box.minX, box.minY, box.width, box.height]) ∧
      (∀ e ∈ m.entities.items, ∀ b, shapes e.id = some b → box.Surrounds 20 b) ∧
      ∀ entry ∈ routes, (∀ p ∈ entry.2.points, box.HasRoom 20 p) ∧
        (|settings.labelOffset| ≤ 20 →
          ∀ text ∈ entry.2.placements, box.contains text.position = true) := by
  intro m
  have h : m.Sound := sound_run operations
  obtain ⟨routes, routed⟩ := h.exists_routes settings proper
  obtain ⟨outlines, each, drawn⟩ := Preview.exists_render m shapes routes fun e present =>
    (proper e present).imp fun _ => And.left
  let box := Preview.viewBox (Preview.drawingOrder outlines)
  have around : ∀ e ∈ m.entities.items, ∀ b, shapes e.id = some b → box.Surrounds 20 b := by
    intro e present b found
    obtain ⟨outline, shown, -, placed⟩ := exists_of_mem_left each present
    cases found.symm.trans placed
    exact Preview.viewBox_surrounds (Preview.mem_drawingOrder.mpr shown)
  have end_around : ∀ id, m.entities.contains id = true → ∀ b, shapes id = some b →
      b.Proper ∧ box.Surrounds 20 b := by
    intro id live b found
    obtain ⟨e, present, rfl⟩ := Entities.contains_iff_mem.mp live
    obtain ⟨b', found', shaped⟩ := proper e present
    cases found.symm.trans found'
    exact ⟨Bounds.isDegenerate_eq_false.mp shaped, around e present b found⟩
  have paths := reroute_eq_ok.mp routed
  refine ⟨routes, _, box, routed, ids_of_routed paths, drawn, rfl, around, fun entry member => ?_⟩
  obtain ⟨r, present, done⟩ := exists_of_mem_right paths member
  obtain ⟨id, route⟩ := entry
  obtain rfl : id = r.id := routeOne_id done
  obtain ⟨source, target, left, right, made⟩ := routeOne_eq_ok.mp done
  obtain ⟨sourceProper, sourceInside⟩ :=
    end_around _ (h.wellFormed.source_live r present) source left
  obtain ⟨targetProper, targetInside⟩ :=
    end_around _ (h.wellFormed.target_live r present) target right
  rw [Orthogonal.router_of_proper settings _ _ sourceProper targetProper] at made
  obtain rfl := Except.ok.inj made
  exact Orthogonal.hasRoom_connect sourceProper targetProper sourceInside targetInside _ _

/-- The second class is below the first one and overlaps it, so that the paths between them turn
back. Their bends are inside of both shapes. -/
theorem run_viewBox_overlapping :
    letI := quarterTurns
    let m := Model.empty.run parallels
    let shape : EntityId → Bounds ℚ := fun entity =>
      ⟨10 * entity.number, 30 * entity.number, 10 * entity.number + 100, 30 * entity.number + 50⟩
    ∃ (routes : Routes ℚ) (svg : Svg.Element ℚ) (box : Bounds ℚ),
      (∀ e ∈ m.entities.items, (shape e.id).isDegenerate = false) ∧
      m.reroute (Orthogonal.router .standard) (fun id => some (shape id)) = .ok routes ∧
      routes.map (·.1) = [⟨1⟩, ⟨2⟩, ⟨3⟩] ∧
      Preview.render m (fun id => some (shape id)) routes = .ok svg ∧
      svg.attribute? "viewBox" = some (.numbers [box.minX, box.minY, box.width, box.height]) ∧
      box.Surrounds 20 ⟨10, 30, 110, 80⟩ ∧ box.Surrounds 20 ⟨20, 60, 120, 110⟩ ∧
      ∀ entry ∈ routes, (∀ p ∈ entry.2.points, box.HasRoom 20 p) ∧
        ∀ text ∈ entry.2.placements, box.contains text.position = true := by
  let _ := quarterTurns
  intro m shape
  have proper : ∀ e ∈ m.entities.items, (shape e.id).isDegenerate = false := by decide +kernel
  obtain ⟨routes, svg, box, routed, keys, drawn, shown, around, inside⟩ :=
    run_viewBox parallels .standard (fun id => some (shape id)) fun e present =>
      ⟨_, rfl, proper e present⟩
  have first := around ⟨⟨1⟩, .plainClass, "Order", none, []⟩ (by decide +kernel) _ rfl
  have second := around ⟨⟨2⟩, .plainClass, "Item", none, []⟩ (by decide +kernel) _ rfl
  have upper : shape ⟨1⟩ = ⟨10, 30, 110, 80⟩ := by decide +kernel
  have lower : shape ⟨2⟩ = ⟨20, 60, 120, 110⟩ := by decide +kernel
  have close : |(RouterSettings.standard : RouterSettings ℚ).labelOffset| ≤ 20 := by
    decide +kernel
  exact ⟨routes, svg, box, proper, routed, keys, drawn, shown, upper ▸ first, lower ▸ second,
    fun entry member => ⟨(inside entry member).1, (inside entry member).2 close⟩⟩

end Model

end ClassDiagram
