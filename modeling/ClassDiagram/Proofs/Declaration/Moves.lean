import ClassDiagram.Proofs.Declaration.Rendering
import ClassDiagram.Proofs.Model.Moves

/-! What becomes of the generated text when a member is moved. The lines of the members of one
entity stand in another order, and no other line is touched. -/

namespace ClassDiagram

section Listing

def memberLines (depth : Nat) (members : List (MemberId × Member)) : List Line :=
  members.map fun entry => ⟨depth, entry.2.declaration⟩

/-- The one list of lines has the old members where the other one has the new ones. -/
def Relisted (depth : Nat) (old new : List (MemberId × Member)) (before after : List Line) : Prop :=
  ∃ above below, before = above ++ memberLines depth old ++ below ∧
    after = above ++ memberLines depth new ++ below

def Relists (indent : String) (depth : Nat) (old new : List (MemberId × Member))
    (before after : String) : Prop :=
  ∃ lines lines', Relisted depth old new lines lines' ∧
    before = "\n".intercalate (lines.map (Line.shown indent)) ∧
    after = "\n".intercalate (lines'.map (Line.shown indent))

variable {depth : Nat} {old new : List (MemberId × Member)} {before after : List Line}

theorem Relisted.around (h : Relisted depth old new before after) (above below : List Line) :
    Relisted depth old new (above ++ before ++ below) (above ++ after ++ below) := by
  obtain ⟨front, back, rfl, rfl⟩ := h
  refine ⟨above ++ front, back ++ below, ?_, ?_⟩ <;> simp only [List.append_assoc]

theorem Relisted.relists (h : Relisted depth old new before after) (indent : String) :
    Relists indent depth old new (writeLines indent before) (writeLines indent after) :=
  ⟨before, after, h, writeLines_eq indent before, writeLines_eq indent after⟩

theorem Relisted.nested (h : Relisted depth old new before after) :
    Relisted (depth + 1) old new (before.map Line.nested) (after.map Line.nested) := by
  have deeper : ∀ members, (memberLines depth members).map Line.nested =
      memberLines (depth + 1) members := fun members => List.map_map
  obtain ⟨above, below, rfl, rfl⟩ := h
  refine ⟨above.map Line.nested, below.map Line.nested, ?_, ?_⟩ <;>
    rw [List.map_append, List.map_append, deeper]

theorem Relisted.separated {entities : List Entity} {e : Entity} {block block' : Entity → List Line}
    (distinct : (entities.map (·.id)).Nodup) (present : e ∈ entities)
    (here : Relisted depth old new (block e) (block' e))
    (others : ∀ x ∈ entities, x.id ≠ e.id → block' x = block x) :
    Relisted depth old new (separated (entities.map block)) (separated (entities.map block')) := by
  obtain ⟨front, back, rfl⟩ := List.append_of_mem present
  -- The ids tell the block that differs from those in front of it and behind it.
  have apart : e.id ∉ (front ++ back).map (·.id) := by
    have first : ((e :: (front ++ back)).map (·.id)).Nodup :=
      (List.perm_middle.map Entity.id).nodup_iff.mp distinct
    exact (List.nodup_cons.mp first).1
  have same : ∀ part : List Entity, (∀ x ∈ part, x ∈ front ++ back) →
      part.map block' = part.map block := by
    intro part within
    refine List.map_congr_left fun x member => others x ?_ fun equal => ?_
    · exact List.perm_middle.mem_iff.mpr (List.mem_cons_of_mem _ (within x member))
    · exact apart (equal ▸ List.mem_map_of_mem (within x member))
  rw [List.map_append, List.map_append, List.map_cons, List.map_cons,
    same front fun x => List.mem_append_left _, same back fun x => List.mem_append_right _,
    separated_eq, separated_eq, intercalate_eq_flatMap, intercalate_eq_flatMap]
  exact here.around _ _

end Listing

def Entity.listing (x : Entity) (id : EntityId) (members : List (MemberId × Member)) : Entity :=
  { x with members := if x.id = id then members else x.members }

theorem Entity.listing_of_ne {x : Entity} {id : EntityId} (other : x.id ≠ id)
    (members : List (MemberId × Member)) : x.listing id members = x := by
  rw [listing, if_neg other]

theorem Entity.listing_self (e : Entity) (members : List (MemberId × Member)) :
    e.listing e.id members = { e with members } := by
  rw [listing, if_pos rfl]

namespace Model

variable {m : Model} {e : Entity} {members : List (MemberId × Member)}

section Lists

variable (ordered : m.entities.Ordered) (present : e ∈ m.entities.items)

include ordered present

theorem items_withMembers : (m.withMembers e members).entities.items =
    m.entities.items.map (·.listing e.id members) := by
  refine List.map_congr_left fun x member => ?_
  split
  next same =>
    obtain rfl : x = e := ordered.eq_of_id member present same
    exact (x.listing_self members).symm
  next other => exact (Entity.listing_of_ne other members).symm

theorem filter_withMembers {p : Entity → Bool}
    (kept : ∀ x : Entity, p (x.listing e.id members) = p x) :
    (m.withMembers e members).entities.items.filter p =
      (m.entities.items.filter p).map (·.listing e.id members) := by
  rw [items_withMembers ordered present, List.filter_map]
  congr 1
  exact List.filter_congr fun x _ => kept x

theorem title_withMembers :
    Plain.title (m.withMembers e members).entities.items = Plain.title m.entities.items := by
  funext id
  unfold Plain.title
  rw [items_withMembers ordered present, List.find?_map, Option.map_map]
  rfl

end Lists

section Blocks

variable (h : m.Sound) (h' : (m.withMembers e members).Sound) (present : e ∈ m.entities.items)

include h h' present

/-- Headers and traces go by titles, and members have no part in them. -/
theorem frame_withMembers (trace : Bool) (x : Entity) (body : List Line) :
    (m.withMembers e members).frame trace (x.listing e.id members) body = m.frame trace x body := by
  have titles : Plain.title (m.withMembers e members).entities.items =
      Plain.title m.entities.items := title_withMembers h.ordered present
  have comments : Plain.comment (m.withMembers e members).entities.items =
      Plain.comment m.entities.items := by
    funext r
    rw [Plain.comment, Plain.comment, titles]
  unfold frame
  rw [h'.header_eq, h.header_eq, h'.traces_eq, h.traces_eq, comments, Plain.header, Plain.header,
    Plain.extension, Plain.extension, titles]
  rfl

theorem plain_withMembers {x : Entity} (plain : x.kind ≠ .package) (trace : Bool) (depth : Nat) :
    (m.withMembers e members).declaration trace depth (x.listing e.id members) =
      m.frame trace x (memberLines 1 (x.listing e.id members).members) := by
  have same : (x.listing e.id members).kind ≠ .package := plain
  rw [declaration_plain same, frame_withMembers h h' present]
  rfl

theorem package_withMembers {x : Entity} (package : x.kind = .package) (trace : Bool)
    (depth : Nat) :
    (m.withMembers e members).declaration trace (depth + 1) (x.listing e.id members) =
      m.frame trace x ((separated ((m.entities.children x.id).map fun child =>
        (m.withMembers e members).declaration trace depth (child.listing e.id members))).map
          Line.nested) := by
  have same : (x.listing e.id members).kind = .package := package
  have children : (m.withMembers e members).entities.children (x.listing e.id members).id =
      (m.entities.children x.id).map (·.listing e.id members) :=
    filter_withMembers h.ordered present fun _ => rfl
  rw [declaration_package same, frame_withMembers h h' present, children, List.map_map]
  rfl

theorem relisted_plain (plain : e.kind ≠ .package) (trace : Bool) (depth : Nat) :
    Relisted 1 e.members members (m.declaration trace depth e)
      ((m.withMembers e members).declaration trace depth (e.listing e.id members)) := by
  rw [plain_withMembers h h' present plain, declaration_plain plain, e.listing_self]
  exact ⟨[⟨0, m.header e⟩], _, rfl, rfl⟩

theorem declaration_of_plain {x : Entity} (plain : x.kind ≠ .package) (other : x.id ≠ e.id)
    (trace : Bool) (depth : Nat) :
    (m.withMembers e members).declaration trace depth (x.listing e.id members) =
      m.declaration trace depth x := by
  rw [plain_withMembers h h' present plain, declaration_plain plain, Entity.listing_of_ne other]
  rfl

theorem relisted_package {x : Entity} (package : x.kind = .package)
    (inside : e ∈ m.entities.children x.id) (trace : Bool) (depth : Nat) :
    Relisted 2 e.members members (m.declaration trace (depth + 1) x)
      ((m.withMembers e members).declaration trace (depth + 1) (x.listing e.id members)) := by
  have distinct : ((m.entities.children x.id).map (·.id)).Nodup :=
    h.ordered.distinct_ids.sublist (List.filter_sublist.map _)
  have blocks := Relisted.separated distinct inside
    (relisted_plain h h' present (h.child_plain inside) trace depth)
    fun child nested other =>
      declaration_of_plain h h' present (h.child_plain nested) other trace depth
  rw [package_withMembers h h' present package, declaration_package package]
  exact blocks.nested.around [⟨0, m.header x⟩] _

theorem declaration_of_other {x : Entity} (other : x.id ≠ e.id) (outside : e.parent ≠ some x.id)
    (trace : Bool) (depth : Nat) :
    (m.withMembers e members).declaration trace (depth + 1) (x.listing e.id members) =
      m.declaration trace (depth + 1) x := by
  by_cases package : x.kind = .package
  · rw [package_withMembers h h' present package, declaration_package package]
    congr 3
    refine List.map_congr_left fun child nested => ?_
    refine declaration_of_plain h h' present (h.child_plain nested) (fun same => ?_) trace depth
    obtain ⟨there, parent⟩ := Entities.mem_children.mp nested
    obtain rfl : child = e := h.ordered.eq_of_id there present same
    exact outside parent
  · exact declaration_of_plain h h' present package other trace (depth + 1)

end Blocks

theorem Sound.exists_container (h : m.Sound) (present : e ∈ m.entities.items)
    {package : EntityId} (nested : e.parent = some package) :
    ∃ x, m.entities.find? package = some x ∧ x.kind = .package ∧ x ∈ m.entities.topLevel ∧
      x.id ≠ e.id ∧ e ∈ m.entities.children x.id := by
  obtain ⟨x, found, kind⟩ := h.wellFormed.entities.parent_package e present package nested
  obtain ⟨there, rfl⟩ := (Entities.find?_eq_some h.ordered).mp found
  obtain ⟨top, -⟩ := h.wellFormed.entities.package_bare x there kind
  refine ⟨x, found, kind, Entities.mem_topLevel.mpr ⟨there, top⟩, fun same => ?_,
    Entities.mem_children.mpr ⟨present, nested⟩⟩
  obtain rfl : x = e := h.ordered.eq_of_id there present same
  cases top.symm.trans nested

section Texts

variable (h : m.Sound) (h' : (m.withMembers e members).Sound) (present : e ∈ m.entities.items)
  (settings : CodegenSettings)

theorem lines_withMembers (x : Entity) : (m.withMembers e members).declarationLines settings x =
    (m.withMembers e members).declaration settings.trace (m.entities.items.length + 1) x := by
  have length : (m.withMembers e members).entities.items.length = m.entities.items.length :=
    List.length_map _
  rw [declarationLines, fullDepth, length]

include h h' present

theorem generate_of_other {id : EntityId} (other : id ≠ e.id) (outside : e.parent ≠ some id) :
    (m.withMembers e members).generate settings id = m.generate settings id := by
  have same : (m.withMembers e members).entities.find? id = m.entities.find? id :=
    find?_withMembers_of_ne other
  cases found : m.entities.find? id with
  | none => rw [generate, generate, Entities.require, Entities.require, same, found]; rfl
  | some x =>
      obtain ⟨-, rfl⟩ := (Entities.find?_eq_some h.ordered).mp found
      rw [generate_of_find? (same.trans found), generate_of_find? found, lines_withMembers]
      have lines := declaration_of_other h h' present other outside settings.trace
        m.entities.items.length
      rw [Entity.listing_of_ne other] at lines
      rw [lines]
      rfl

theorem relists_generate (plain : e.kind ≠ .package) : ∃ before after,
    m.generate settings e.id = .ok before ∧
    (m.withMembers e members).generate settings e.id = .ok after ∧
    Relists settings.indent 1 e.members members before after := by
  have found := Entities.find?_of_mem h.ordered present
  have lines := relisted_plain h h' present plain settings.trace m.fullDepth
  rw [e.listing_self] at lines
  refine ⟨_, _, generate_of_find? found, generate_of_find? (find?_withMembers found), ?_⟩
  rw [lines_withMembers]
  exact lines.relists settings.indent

theorem relists_package {package : EntityId} (nested : e.parent = some package) :
    ∃ before after, m.generate settings package = .ok before ∧
      (m.withMembers e members).generate settings package = .ok after ∧
      Relists settings.indent 2 e.members members before after := by
  obtain ⟨x, found, kind, -, other, inside⟩ := h.exists_container present nested
  have lines := relisted_package h h' present kind inside settings.trace m.entities.items.length
  rw [Entity.listing_of_ne other] at lines
  obtain ⟨-, rfl⟩ := (Entities.find?_eq_some h.ordered).mp found
  have found' : (m.withMembers e members).entities.find? x.id = some x :=
    (find?_withMembers_of_ne other).trans found
  refine ⟨_, _, generate_of_find? found, generate_of_find? found', ?_⟩
  rw [lines_withMembers]
  exact lines.relists settings.indent

theorem relists_generateAll (plain : e.kind ≠ .package) :
    Relists settings.indent (if e.parent = none then 1 else 2) e.members members
      (m.generateAll settings) ((m.withMembers e members).generateAll settings) := by
  have topLevel : (m.withMembers e members).entities.topLevel =
      m.entities.topLevel.map (·.listing e.id members) :=
    filter_withMembers h.ordered present fun _ => rfl
  have distinct : (m.entities.topLevel.map (·.id)).Nodup :=
    h.ordered.distinct_ids.sublist (List.filter_sublist.map _)
  have lines (x : Entity) : (m.withMembers e members).declarationLines settings x = _ :=
    lines_withMembers settings x
  refine Relisted.relists ?_ settings.indent
  rw [allLines, allLines, topLevel, List.map_map]
  cases nested : e.parent with
  | none =>
      have top : e ∈ m.entities.topLevel := Entities.mem_topLevel.mpr ⟨present, nested⟩
      refine Relisted.separated distinct top ?_ fun x _ other => ?_
      · rw [Function.comp_apply, lines]
        exact relisted_plain h h' present plain settings.trace m.fullDepth
      · rw [Function.comp_apply, lines]
        exact declaration_of_other h h' present other (by simp [nested]) settings.trace
          m.entities.items.length
  | some package =>
      obtain ⟨x, found, kind, top, -, inside⟩ := h.exists_container present nested
      refine Relisted.separated distinct top ?_ fun y above apart => ?_
      · rw [Function.comp_apply, lines]
        exact relisted_package h h' present kind inside settings.trace m.entities.items.length
      · rw [Function.comp_apply, lines]
        refine declaration_of_other h h' present (fun same => ?_) ?_ settings.trace
          m.entities.items.length
        · obtain ⟨there, parent⟩ := Entities.mem_topLevel.mp above
          obtain rfl : y = e := h.ordered.eq_of_id there present same
          cases parent.symm.trans nested
        · intro parent
          obtain ⟨-, named⟩ := (Entities.find?_eq_some h.ordered).mp found
          exact apart (named ▸ (Option.some.inj (nested.symm.trans parent)).symm)

end Texts

/-- After every run a member can be moved to any index, where one behind the last place means the
last place. All other members stay in their order. A move back restores the model, and of two moves
the last one counts. In the generated text only the lines of these members change places. -/
theorem run_moveMember (operations : List Operation) {e : Entity} {entry : MemberId × Member}
    {i : Nat} (present : e ∈ (Model.empty.run operations).entities.items)
    (place : e.members[i]? = some entry) (index : Nat) :
    let m := Model.empty.run operations
    let last := min index (e.members.length - 1)
    ∃ moved, let next := m.withMembers e moved
      m.step (.moveMember e.id entry.1 index) = (.ok .done, next) ∧
      moved[last]? = some entry ∧ moved.eraseIdx last = e.members.eraseIdx i ∧
      moved.Perm e.members ∧
      next.step (.moveMember e.id entry.1 i) = (.ok .done, m) ∧
      m.step (.moveMember e.id entry.1 i) = (.ok .done, m) ∧
      (∀ again, next.step (.moveMember e.id entry.1 again) =
        m.step (.moveMember e.id entry.1 again)) ∧
      ∀ settings,
        (∃ before after, m.generate settings e.id = .ok before ∧
          next.generate settings e.id = .ok after ∧
          Relists settings.indent 1 e.members moved before after) ∧
        (∀ package, e.parent = some package →
          ∃ before after, m.generate settings package = .ok before ∧
            next.generate settings package = .ok after ∧
            Relists settings.indent 2 e.members moved before after) ∧
        (∀ other, other ≠ e.id → e.parent ≠ some other →
          next.generate settings other = m.generate settings other) ∧
        Relists settings.indent (if e.parent = none then 1 else 2) e.members moved
          (m.generateAll settings) (next.generateAll settings) := by
  intro m last
  have accounted : m.Accounted := accounted_run operations
  have h := accounted.sound
  have distinct : e.memberIds.Nodup := accounted.enrolled.distinct e present
  have found := Entities.find?_of_mem h.ordered present
  have inside : entry.1 ∈ e.memberIds := List.mem_map_of_mem (List.mem_of_getElem? place)
  have plain : e.kind ≠ .package := by
    intro package
    rw [(h.wellFormed.entities.package_bare e present package).2] at place
    cases place
  let moved := ClassDiagram.moveMember entry.1 index e.members
  let next := m.withMembers e moved
  have stepped : m.step (.moveMember e.id entry.1 index) = (.ok .done, next) :=
    step_moveMember found inside index
  have h' : next.Sound := by
    have after := (step_accounted accounted (.moveMember e.id entry.1 index)).sound
    rwa [stepped] at after
  have perm : moved.Perm e.members := moveMember_perm entry.1 index e.members
  have twice := step_moveMember_again found distinct place index
  have back : m.step (.moveMember e.id entry.1 i) = (.ok .done, m) := by
    rw [step_moveMember found inside, moveMember_self distinct place,
      withMembers_self h.ordered found]
  exact ⟨moved, stepped, getElem?_moveMember distinct place index,
    eraseIdx_moveMember distinct place index, perm, (twice i).trans back, back, twice,
    fun settings => ⟨relists_generate h h' present settings plain,
      fun _ => relists_package h h' present settings,
      fun _ => generate_of_other h h' present settings,
      relists_generateAll h h' present settings plain⟩⟩

theorem run_moveMember_last :
    let m := Model.empty.run
      [.createEntity .package "Sales", .createEntity .plainClass "Order", .nest ⟨2⟩ ⟨1⟩,
        .addNewMember ⟨2⟩ .attribute "private" "number" "Integer",
        .addNewMember ⟨2⟩ .attribute "public" "total" "Money",
        .addNewMember ⟨2⟩ .operation "public" "pay" "Receipt"]
    ∃ e ∈ m.entities.items, ∃ entry, e.members[0]? = some entry ∧ ∃ moved,
      let next := m.withMembers e moved
      m.step (.moveMember e.id entry.1 7) = (.ok .done, next) ∧ moved[2]? = some entry ∧
      next.step (.moveMember e.id entry.1 0) = (.ok .done, m) ∧
      m.generateAll {} = "\n".intercalate
        ["package Sales \x7b", "  class Order \x7b", "    private Integer number;",
          "    public Money total;", "    public Receipt pay \x7b \x7d", "  \x7d", "\x7d"] ∧
      next.generateAll {} = "\n".intercalate
        ["package Sales \x7b", "  class Order \x7b", "    public Money total;",
          "    public Receipt pay \x7b \x7d", "    private Integer number;", "  \x7d", "\x7d"] := by
  intro m
  obtain ⟨e, found⟩ : ∃ e, m.entities.find? ⟨2⟩ = some e :=
    Option.isSome_iff_exists.mp (by decide +kernel)
  obtain ⟨present, id⟩ :=
    (Entities.find?_eq_some (sound_run _).ordered).mp found
  have first : ((m.entities.find? ⟨2⟩).bind (·.members[0]?)).map (·.1) = some ⟨3⟩ := by
    decide +kernel
  rw [found, Option.bind_some] at first
  obtain ⟨entry, place, named⟩ := Option.map_eq_some_iff.mp first
  have length : (m.entities.find? ⟨2⟩).map (·.members.length) = some 3 := by decide +kernel
  rw [found, Option.map_some, Option.some_inj] at length
  have shown : (m.step (.moveMember ⟨2⟩ ⟨3⟩ 7)).2.generateAll {} = "\n".intercalate
        ["package Sales \x7b", "  class Order \x7b", "    public Money total;",
          "    public Receipt pay \x7b \x7d", "    private Integer number;", "  \x7d", "\x7d"] := by
    decide +kernel
  obtain ⟨moved, stepped, last, -, -, back, -⟩ := run_moveMember _ present place 7
  rw [length] at last
  rw [← id, ← named, stepped] at shown
  exact ⟨e, present, entry, place, moved, stepped, last, back, by decide +kernel, shown⟩

end Model

end ClassDiagram
