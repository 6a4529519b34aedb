import ClassDiagram.Proofs.Route.Parallels
import Mathlib.Analysis.Convex.Segment

/-! How far parallel routes are kept apart. The first two bend a stride apart if a quarter of either
side has room for it. Last segments never meet, but the first segments of all routes run along the
same side of the source, and two of them overlap there if the centers of the rectangles are further
apart than the routes are. -/

namespace ClassDiagram

namespace Point

variable {p q r : Point ℚ} {axis : Axis} {along low high : ℚ}

def segment (p q : Point ℚ) : Set (Point ℚ) :=
  { r | ∃ t, 0 ≤ t ∧ t ≤ 1 ∧ r = p.lerp q t }

theorem exists_coordinates (axis : Axis) (along across : ℚ) :
    ∃ p : Point ℚ, p.coordinate axis = along ∧ p.coordinate axis.cross = across := by
  cases axis with
  | horizontal => exact ⟨⟨along, across⟩, rfl, rfl⟩
  | vertical => exact ⟨⟨across, along⟩, rfl, rfl⟩

theorem left_mem_segment (p q : Point ℚ) : p ∈ p.segment q := by
  refine ⟨0, le_rfl, zero_le_one, eq_of_coordinates .horizontal ?_ ?_⟩ <;>
    rw [lerp_coordinate, mul_zero, add_zero]

theorem right_mem_segment (p q : Point ℚ) : q ∈ p.segment q := by
  refine ⟨1, zero_le_one, le_rfl, eq_of_coordinates .horizontal ?_ ?_⟩ <;>
    rw [lerp_coordinate, mul_one, add_sub_cancel]

theorem mem_segment_across (level : p.coordinate axis = q.coordinate axis) :
    r ∈ p.segment q ↔ r.coordinate axis = p.coordinate axis ∧
      r.coordinate axis.cross ∈ Set.uIcc (p.coordinate axis.cross) (q.coordinate axis.cross) := by
  have way : ∀ t : ℚ, p.coordinate axis.cross +
      t • (q.coordinate axis.cross - p.coordinate axis.cross) =
        (p.lerp q t).coordinate axis.cross := by
    intro t
    rw [lerp_coordinate, smul_eq_mul, mul_comm]
  rw [← segment_eq_uIcc, segment_eq_image']
  constructor
  · rintro ⟨t, before, after, rfl⟩
    exact ⟨lerp_level level t, t, ⟨before, after⟩, way t⟩
  · rintro ⟨here, t, ⟨before, after⟩, there⟩
    exact ⟨t, before, after,
      eq_of_coordinates axis (here.trans (lerp_level level t).symm) (there.symm.trans (way t))⟩

def stretch (axis : Axis) (along low high : ℚ) : Set (Point ℚ) :=
  { p | p.coordinate axis = along ∧ p.coordinate axis.cross ∈ Set.Icc low high }

theorem stretch_subsingleton (short : high ≤ low) :
    (stretch axis along low high).Subsingleton := by
  rintro p ⟨here, lower, upper⟩ q ⟨there, lower', upper'⟩
  refine eq_of_coordinates axis (here.trans there.symm) (le_antisymm ?_ ?_)
  · exact upper.trans (short.trans lower')
  · exact upper'.trans (short.trans lower)

theorem exists_segment_subset_stretch :
    (∃ p q : Point ℚ, p ≠ q ∧ p.segment q ⊆ stretch axis along low high) ↔ low < high := by
  constructor
  · rintro ⟨p, q, differ, inside⟩
    by_contra long
    have single : (stretch axis along low high).Subsingleton :=
      stretch_subsingleton (not_lt.mp long)
    exact differ (single (inside (left_mem_segment p q)) (inside (right_mem_segment p q)))
  · intro less
    obtain ⟨p, p_along, p_across⟩ := exists_coordinates axis along low
    obtain ⟨q, q_along, q_across⟩ := exists_coordinates axis along high
    refine ⟨p, q, ?_, ?_⟩
    · rintro rfl
      exact less.ne (p_across.symm.trans q_across)
    · intro r there
      rw [mem_segment_across (p_along.trans q_along.symm), p_across, q_across,
        Set.uIcc_of_le less.le] at there
      exact ⟨there.1.trans p_along, there.2⟩

end Point

namespace Route

def firstSegment (r : Route ℚ) : Set (Point ℚ) := r.start.segment r.bend

def path (r : Route ℚ) : Set (Point ℚ) := r.firstSegment ∪ r.lastSegment

/-- The route runs across an axis from `a` to `b`, at the place `along`, and stays at `b` from where
it bends. -/
structure Elbow (r : Route ℚ) (axis : Axis) (along a b : ℚ) : Prop where
  start_along : r.start.coordinate axis = along
  bend_along : r.bend.coordinate axis = along
  start_across : r.start.coordinate axis.cross = a
  bend_across : r.bend.coordinate axis.cross = b
  stop_across : r.stop.coordinate axis.cross = b

namespace Elbow

variable {r r' : Route ℚ} {p : Point ℚ} {axis : Axis} {along a b a' b' : ℚ}

theorem mem_firstSegment (elbow : r.Elbow axis along a b) :
    p ∈ r.firstSegment ↔ p.coordinate axis = along ∧ p.coordinate axis.cross ∈ Set.uIcc a b := by
  rw [firstSegment, Point.mem_segment_across (elbow.start_along.trans elbow.bend_along.symm),
    elbow.start_along, elbow.start_across, elbow.bend_across]

theorem across_of_mem_lastSegment (elbow : r.Elbow axis along a b) (last : p ∈ r.lastSegment) :
    p.coordinate axis.cross = b := by
  have level := elbow.bend_across.trans elbow.stop_across.symm
  exact ((Point.mem_segment_across level).mp last).1.trans elbow.bend_across

theorem mem_firstSegment_of_along (elbow : r.Elbow axis along a b) (there : p ∈ r.path)
    (here : p.coordinate axis = along) : p ∈ r.firstSegment := by
  rcases there with first | last
  · exact first
  · rw [elbow.mem_firstSegment, elbow.across_of_mem_lastSegment last]
    exact ⟨here, Set.right_mem_uIcc⟩

/-- Routes that bend at one place and arrive at two meet only in their first segments. -/
theorem mem_firstSegments (elbow : r.Elbow axis along a b) (elbow' : r'.Elbow axis along a' b')
    (apart : b ≠ b') (there : p ∈ r.path) (there' : p ∈ r'.path) :
    p ∈ r.firstSegment ∧ p ∈ r'.firstSegment := by
  have here : p.coordinate axis = along := by
    rcases there with first | last
    · exact (elbow.mem_firstSegment.mp first).1
    rcases there' with first | last'
    · exact (elbow'.mem_firstSegment.mp first).1
    exact absurd ((elbow.across_of_mem_lastSegment last).symm.trans
      (elbow'.across_of_mem_lastSegment last')) apart
  exact ⟨elbow.mem_firstSegment_of_along there here, elbow'.mem_firstSegment_of_along there' here⟩

theorem path_inter (elbow : r.Elbow axis along a b) (elbow' : r'.Elbow axis along a' b')
    (apart : b ≠ b') :
    r.path ∩ r'.path = { p | p.coordinate axis = along ∧
      p.coordinate axis.cross ∈ Set.uIcc a b ∩ Set.uIcc a' b' } := by
  ext p
  constructor
  · rintro ⟨there, there'⟩
    obtain ⟨first, first'⟩ := elbow.mem_firstSegments elbow' apart there there'
    rw [elbow.mem_firstSegment] at first
    rw [elbow'.mem_firstSegment] at first'
    exact ⟨first.1, first.2, first'.2⟩
  · rintro ⟨here, inside, inside'⟩
    exact ⟨.inl (elbow.mem_firstSegment.mpr ⟨here, inside⟩),
      .inl (elbow'.mem_firstSegment.mpr ⟨here, inside'⟩)⟩

end Elbow

end Route

theorem uIcc_inter_shifted (a b x y : ℚ) :
    Set.uIcc (a + x) (b + x) ∩ Set.uIcc (a + y) (b + y) =
      Set.Icc (min a b + max x y) (max a b + min x y) := by
  rw [Set.uIcc, Set.uIcc, Set.Icc_inter_Icc]
  simp only [min_add_add_right, max_add_add_right, min_add_add_left, max_add_add_left]

theorem shifted_lt_iff (a b x y : ℚ) :
    min a b + max x y < max a b + min x y ↔ |x - y| < |b - a| := by
  rw [← max_sub_min_eq_abs a b, ← max_sub_min_eq_abs' x y, sub_lt_sub_iff, add_comm (max x y)]

namespace Orthogonal

section Routes

theorem reach_one (stride halfExtent : ℚ) :
    reach stride halfExtent 1 = min stride (halfExtent / 2) := by
  rw [reach_eq, Nat.cast_one, mul_one, one_add_one_eq_two, sub_half]

variable [Angular ℚ] {settings : RouterSettings ℚ} {source target : Bounds ℚ}
  (kind : RelationshipKind) (number : ℕ)

theorem connect_elbow (positive : 0 < settings.stride) (sourceProper : source.Proper)
    (targetProper : target.Proper) :
    let delta := target.center.sub source.center
    let axis := dominantAxis delta
    let offset := parallelOffset settings.stride (halfExtent axis source target) number
    (connect settings source target kind number).Elbow axis
      (source.edge axis (isForward axis delta))
      (source.center.coordinate axis.cross + offset)
      (target.center.coordinate axis.cross + offset) := by
  intro delta axis offset
  obtain ⟨start, stop, -⟩ := connect_unclamped kind number positive sourceProper targetProper
  let route := connect settings source target kind number
  obtain ⟨along, across⟩ : route.bend.coordinate axis = route.start.coordinate axis ∧
      route.bend.coordinate axis.cross = route.stop.coordinate axis.cross :=
    bend_coordinate route.start route.stop
  obtain ⟨here, beside⟩ := source.edgePoint_coordinate axis (isForward axis delta) offset
  obtain ⟨-, beyond⟩ := target.edgePoint_coordinate axis (!isForward axis delta) offset
  rw [← start] at here beside
  rw [← stop] at beyond
  exact ⟨here, along.trans here, beside, across.trans beyond, beyond⟩

end Routes

/-- The first two parallel routes bend at one side. Across it they are a stride apart if that is no
more than a quarter of either facing side, and a quarter of the shorter one if not. -/
theorem first_bends_apart [Angular ℚ] (settings : RouterSettings ℚ) (source target : Bounds ℚ)
    (positive : 0 < settings.stride) (sourceProper : source.isDegenerate = false)
    (targetProper : target.isDegenerate = false) (kind kind' : RelationshipKind) :
    let axis := dominantAxis (target.center.sub source.center)
    let side := fun b : Bounds ℚ => b.high axis.cross - b.low axis.cross
    ∃ middle beside, router settings source target kind 0 = .ok middle ∧
      router settings source target kind' 1 = .ok beside ∧
      let along := beside.bend.coordinate axis - middle.bend.coordinate axis
      let across := beside.bend.coordinate axis.cross - middle.bend.coordinate axis.cross
      middle.axis = axis ∧ beside.axis = axis ∧ along = 0 ∧
        across = min settings.stride (min (side source) (side target) / 4) ∧
        (across = settings.stride ↔
          4 * settings.stride ≤ side source ∧ 4 * settings.stride ≤ side target) := by
  intro axis side
  rw [Bounds.isDegenerate_eq_false] at sourceProper targetProper
  refine ⟨_, _, router_of_proper _ _ _ sourceProper targetProper,
    router_of_proper _ _ _ sourceProper targetProper, ?_⟩
  intro along across
  have elbow := connect_elbow kind 0 positive sourceProper targetProper
  have elbow' := connect_elbow kind' 1 positive sourceProper targetProper
  have quarter : halfExtent axis source target / 2 = min (side source) (side target) / 4 := by
    have half : halfExtent axis source target = min (side source) (side target) / 2 :=
      halfExtent_eq axis source target
    rw [half, div_div]
    norm_num
  have distance : across = min settings.stride (min (side source) (side target) / 4) := by
    calc
      across = parallelOffset settings.stride (halfExtent axis source target) 1 -
          parallelOffset settings.stride (halfExtent axis source target) 0 := by
        rw [← add_sub_add_left_eq_sub _ _ (target.center.coordinate axis.cross)]
        exact congrArg₂ (· - ·) elbow'.bend_across elbow.bend_across
      _ = reach settings.stride (halfExtent axis source target) 1 := by
        rw [parallelOffset_odd 0, parallelOffset_even 0, reach_zero, neg_zero, sub_zero]
      _ = min settings.stride (min (side source) (side target) / 4) := by
        rw [reach_one, quarter]
  refine ⟨rfl, rfl, ?_, distance, ?_⟩
  · exact sub_eq_zero.mpr (elbow'.bend_along.trans elbow.bend_along.symm)
  · rw [distance, min_eq_left_iff, le_div_iff₀ four_pos, mul_comm, le_min_iff]

theorem first_bends_apart_long :
    letI := quarterTurns
    let left : Bounds ℚ := ⟨0, 0, 100, 160⟩
    let right : Bounds ℚ := ⟨400, 30, 500, 230⟩
    ∃ middle beside, router .standard left right .association 0 = .ok middle ∧
      router .standard left right .inheritance 1 = .ok beside ∧
      middle.points = [⟨100, 80⟩, ⟨100, 130⟩, ⟨400, 130⟩] ∧
      beside.bend.coordinate .horizontal - middle.bend.coordinate .horizontal = 0 ∧
      beside.bend.coordinate .vertical - middle.bend.coordinate .vertical = 40 := by
  let _ := quarterTurns
  intro left right
  have positive : 0 < (RouterSettings.standard : RouterSettings ℚ).stride := by decide +kernel
  have leftProper : left.isDegenerate = false := by decide +kernel
  have rightProper : right.isDegenerate = false := by decide +kernel
  have level : dominantAxis (right.center.sub left.center) = .horizontal := by decide +kernel
  obtain ⟨middle, beside, routed, routed', -, -, along, -, whole⟩ :=
    first_bends_apart .standard left right positive leftProper rightProper .association .inheritance
  rw [level] at along whole
  have drawn : (router .standard left right .association 0).map Route.points =
      .ok [⟨100, 80⟩, ⟨100, 130⟩, ⟨400, 130⟩] := by decide +kernel
  exact ⟨middle, beside, routed, routed', Route.points_of_ok routed drawn, along,
    whole.mpr (by decide +kernel)⟩

/-- Sides of three strides have room for a stride beside the middle, but the routes are closer. -/
theorem first_bends_closer :
    letI := quarterTurns
    let left : Bounds ℚ := ⟨0, 0, 100, 120⟩
    let right : Bounds ℚ := ⟨400, 0, 500, 120⟩
    ∃ middle beside, left.isDegenerate = false ∧ right.isDegenerate = false ∧
      router .standard left right .association 0 = .ok middle ∧
      router .standard left right .association 1 = .ok beside ∧
      middle.axis = .horizontal ∧ beside.axis = .horizontal ∧
      (0 : ℚ) < RouterSettings.standard.stride ∧
      2 * RouterSettings.standard.stride ≤ left.height ∧
      2 * RouterSettings.standard.stride ≤ right.height ∧
      beside.bend.sub middle.bend = ⟨0, 30⟩ ∧
      |(beside.bend.sub middle.bend).y| ≠ RouterSettings.standard.stride := by
  let _ := quarterTurns
  intro left right
  have leftProper : left.isDegenerate = false := by decide +kernel
  have rightProper : right.isDegenerate = false := by decide +kernel
  have routed := fun number => router_of_proper (RouterSettings.standard : RouterSettings ℚ)
    .association number (Bounds.isDegenerate_eq_false.mp leftProper)
    (Bounds.isDegenerate_eq_false.mp rightProper)
  exact ⟨_, _, leftProper, rightProper, routed 0, routed 1, by decide +kernel⟩

/-- The paths of two parallel routes share no more than what their first segments share on the side
of the source. That is a segment if the centers are further apart along this side than the routes
are, and at most one point if not. -/
theorem parallel_paths_meet [Angular ℚ] (settings : RouterSettings ℚ) (source target : Bounds ℚ)
    (positive : 0 < settings.stride) (sourceProper : source.isDegenerate = false)
    (targetProper : target.isDegenerate = false) (kind kind' : RelationshipKind)
    (number number' : ℕ) (other : number ≠ number') :
    let delta := target.center.sub source.center
    let axis := dominantAxis delta
    let offset := parallelOffset settings.stride (halfExtent axis source target)
    let apart := |offset number - offset number'|
    let across := |target.center.coordinate axis.cross - source.center.coordinate axis.cross|
    ∃ route route', router settings source target kind number = .ok route ∧
      router settings source target kind' number' = .ok route' ∧
      (∀ p ∈ route.path ∩ route'.path, p ∈ route.firstSegment ∧ p ∈ route'.firstSegment ∧
        p.coordinate axis = source.edge axis (isForward axis delta)) ∧
      ((∃ p q : Point ℚ, p ≠ q ∧ p.segment q ⊆ route.path ∩ route'.path) ↔ apart < across) ∧
      (across ≤ apart → (route.path ∩ route'.path).Subsingleton) := by
  intro delta axis offset apart across
  rw [Bounds.isDegenerate_eq_false] at sourceProper targetProper
  have elbow := connect_elbow kind number positive sourceProper targetProper
  have elbow' := connect_elbow kind' number' positive sourceProper targetProper
  have ends : target.center.coordinate axis.cross + offset number ≠
      target.center.coordinate axis.cross + offset number' :=
    fun same => other (parallelOffset_injective positive
      (halfExtent_pos sourceProper targetProper axis) (add_left_cancel same))
  have common := elbow.path_inter elbow' ends
  rw [uIcc_inter_shifted] at common
  refine ⟨_, _, router_of_proper _ _ _ sourceProper targetProper,
    router_of_proper _ _ _ sourceProper targetProper, ?_, ?_, fun close => ?_⟩
  · rintro p ⟨there, there'⟩
    obtain ⟨first, first'⟩ := elbow.mem_firstSegments elbow' ends there there'
    exact ⟨first, first', (elbow.mem_firstSegment.mp first).1⟩
  · rw [common]
    exact Point.exists_segment_subset_stretch.trans (shifted_lt_iff ..)
  · rw [common]
    refine Point.stretch_subsingleton (not_lt.mp fun long => close.not_gt ?_)
    exact (shifted_lt_iff ..).mp long

theorem parallel_paths_meet_level :
    letI := quarterTurns
    let left : Bounds ℚ := ⟨0, 0, 100, 200⟩
    let right : Bounds ℚ := ⟨400, 30, 500, 230⟩
    ∃ middle beside, router .standard left right .association 0 = .ok middle ∧
      router .standard left right .association 1 = .ok beside ∧
      middle.points = [⟨100, 100⟩, ⟨100, 130⟩, ⟨400, 130⟩] ∧
      beside.points = [⟨100, 140⟩, ⟨100, 170⟩, ⟨400, 170⟩] ∧
      ¬ ∃ p q : Point ℚ, p ≠ q ∧ p.segment q ⊆ middle.path ∩ beside.path := by
  let _ := quarterTurns
  intro left right
  have positive : 0 < (RouterSettings.standard : RouterSettings ℚ).stride := by decide +kernel
  have leftProper : left.isDegenerate = false := by decide +kernel
  have rightProper : right.isDegenerate = false := by decide +kernel
  obtain ⟨middle, beside, routed, routed', -, overlap, -⟩ :=
    parallel_paths_meet .standard left right positive leftProper rightProper .association
      .association 0 1 (by decide)
  have drawn : (router .standard left right .association 0).map Route.points =
      .ok [⟨100, 100⟩, ⟨100, 130⟩, ⟨400, 130⟩] := by decide +kernel
  have drawn' : (router .standard left right .association 1).map Route.points =
      .ok [⟨100, 140⟩, ⟨100, 170⟩, ⟨400, 170⟩] := by decide +kernel
  refine ⟨middle, beside, routed, routed', Route.points_of_ok routed drawn,
    Route.points_of_ok routed' drawn', ?_⟩
  rw [overlap]
  decide +kernel

/-- The target is further down, so that the first segments overlap for a part of their length. -/
theorem parallel_paths_overlap :
    letI := quarterTurns
    let left : Bounds ℚ := ⟨0, 0, 100, 200⟩
    let right : Bounds ℚ := ⟨400, 50, 500, 250⟩
    ∃ middle beside, left.isDegenerate = false ∧ right.isDegenerate = false ∧
      (0 : ℚ) < RouterSettings.standard.stride ∧
      router .standard left right .association 0 = .ok middle ∧
      router .standard left right .association 1 = .ok beside ∧
      ∃ p q : Point ℚ, p ≠ q ∧ p.segment q ⊆ middle.path ∧ p.segment q ⊆ beside.path := by
  let _ := quarterTurns
  intro left right
  have leftProper : left.isDegenerate = false := by decide +kernel
  have rightProper : right.isDegenerate = false := by decide +kernel
  have routed := fun number => router_of_proper (RouterSettings.standard : RouterSettings ℚ)
    .association number (Bounds.isDegenerate_eq_false.mp leftProper)
    (Bounds.isDegenerate_eq_false.mp rightProper)
  let middle := connect .standard left right .association 0
  let beside := connect .standard left right .association 1
  have elbow : middle.Elbow .horizontal 100 100 150 := by constructor <;> decide +kernel
  have elbow' : beside.Elbow .horizontal 100 140 190 := by constructor <;> decide +kernel
  let p : Point ℚ := ⟨100, 140⟩
  let q : Point ℚ := ⟨100, 150⟩
  have upright : p.coordinate .horizontal = q.coordinate .horizontal := rfl
  refine ⟨middle, beside, leftProper, rightProper, by decide +kernel, routed 0, routed 1, p, q,
    by decide +kernel, fun r inside => .inl ?_, fun r inside => .inl ?_⟩
  · obtain ⟨here, between⟩ := (Point.mem_segment_across upright).mp inside
    have within : Set.uIcc (140 : ℚ) 150 ⊆ Set.uIcc 100 150 :=
      Set.uIcc_subset_uIcc_right (Set.mem_uIcc_of_le (by norm_num) (by norm_num))
    exact elbow.mem_firstSegment.mpr ⟨here, within between⟩
  · obtain ⟨here, between⟩ := (Point.mem_segment_across upright).mp inside
    have within : Set.uIcc (140 : ℚ) 150 ⊆ Set.uIcc 140 190 :=
      Set.uIcc_subset_uIcc_left (Set.mem_uIcc_of_le (by norm_num) (by norm_num))
    exact elbow'.mem_firstSegment.mpr ⟨here, within between⟩

end Orthogonal

end ClassDiagram
