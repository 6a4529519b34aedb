import ClassDiagram.Model.Entities
import ClassDiagram.Proofs.Lists
import ClassDiagram.Proofs.Model.Numbering

/-! What each change makes of the entities when it is not refused. A change either creates an
entity behind the others or puts an edited entity in the place of the old one. -/

namespace ClassDiagram.Entities

variable {es next : Entities} {id : EntityId} {member : MemberId}

theorem require_eq_ok {e : Entity} : es.require id = .ok e ↔ es.find? id = some e := by
  unfold require
  cases es.find? id <;> simp

theorem requireMember_eq_ok {m : Member} :
    es.requireMember id member = .ok m ↔
      ∃ e, es.find? id = some e ∧ e.member? member = some m := by
  simp only [requireMember, bind_eq_ok, require_eq_ok]
  refine exists_congr fun e => and_congr_right fun _ => ?_
  cases e.member? member with
  | none => simp [throw_eq_ok]
  | some found => rw [pure_eq_ok, Option.some.injEq, eq_comm]

theorem create_eq_ok {kind : EntityKind} {title : String} :
    es.create kind title = .ok (id, next) ↔
      Text.IsFilled (Text.trimmed title) ∧ id = ⟨es.ids.fresh⟩ ∧
        next =
          { ids := es.ids.advance
            items := es.items ++ [{ id, kind, title := Text.trimmed title }] } := by
  simp only [create, bind_eq_ok, pure_eq_ok, Field.require_eq_ok]
  constructor
  · rintro ⟨⟨text, filled⟩, rfl, h⟩
    cases h
    exact ⟨filled, rfl, rfl⟩
  · rintro ⟨filled, rfl, rfl⟩
    exact ⟨⟨_, filled⟩, rfl, rfl⟩

theorem rename_eq_ok {title : String} :
    es.rename id title = .ok next ↔
      ∃ e, es.find? id = some e ∧ Text.IsFilled (Text.trimmed title) ∧
        next = es.replace { e with title := Text.trimmed title } := by
  simp only [rename, bind_eq_ok, pure_eq_ok, require_eq_ok, Subject.blame_eq_ok,
    Field.require_eq_ok]
  constructor
  · rintro ⟨e, found, ⟨text, filled⟩, rfl, rfl⟩
    exact ⟨e, found, filled, rfl⟩
  · rintro ⟨e, found, filled, rfl⟩
    exact ⟨e, found, ⟨_, filled⟩, rfl, rfl⟩

theorem addMember_eq_ok {m : Member} :
    es.addMember id m = .ok (member, next) ↔
      ∃ e, es.find? id = some e ∧ e.kind.holdsMembers = true ∧ member = ⟨es.ids.fresh⟩ ∧
        next =
          { es.replace { e with members := e.members ++ [(member, m)] } with
            ids := es.ids.advance } := by
  simp only [addMember, bind_eq_ok, require_eq_ok]
  refine exists_congr fun e => and_congr_right fun _ => ?_
  split
  next holds =>
    simp only [pure_eq_ok, holds, true_and]
    constructor
    · intro h
      cases h
      exact ⟨rfl, rfl⟩
    · rintro ⟨rfl, rfl⟩
      rfl
  next holds => simp [throw_eq_ok, holds]

theorem addNewMember_eq_ok {kind : MemberKind} {visibility name typeName : String} :
    es.addNewMember id kind visibility name typeName = .ok (member, next) ↔
      (∃ e, es.find? id = some e) ∧
        ∃ v, Visibility.parse visibility = .ok v ∧
          ∃ m, Member.make kind v name typeName = .ok m ∧
            es.addMember id m = .ok (member, next) := by
  simp only [addNewMember, bind_eq_ok, require_eq_ok, Subject.blame_eq_ok]
  constructor
  · rintro ⟨e, found, m, ⟨v, word, made⟩, added⟩
    exact ⟨⟨e, found⟩, v, word, m, made, added⟩
  · rintro ⟨⟨e, found⟩, v, word, m, made, added⟩
    exact ⟨e, found, m, ⟨v, word, made⟩, added⟩

theorem removeMember_eq_ok :
    es.removeMember id member = .ok next ↔
      ∃ e, es.find? id = some e ∧
        next = es.replace { e with members := e.members.filter (·.1 ≠ member) } := by
  simp only [removeMember, bind_eq_ok, pure_eq_ok, require_eq_ok]

theorem editMember_eq_ok {edit : Member → Except ModelError Member} :
    es.editMember id member edit = .ok next ↔
      ∃ e, es.find? id = some e ∧
        ∃ old, e.member? member = some old ∧
          ∃ new, edit old = .ok new ∧
            next =
              es.replace
                { e with
                  members := e.members.map fun m => if m.1 = member then (m.1, new) else m } := by
  simp only [editMember, bind_eq_ok, pure_eq_ok, require_eq_ok, requireMember_eq_ok,
    Subject.blame_eq_ok]
  constructor
  · rintro ⟨e, found, old, ⟨e', found', present⟩, new, edited, rfl⟩
    cases found.symm.trans found'
    exact ⟨e, found, old, present, new, edited, rfl⟩
  · rintro ⟨e, found, old, present, new, edited, rfl⟩
    exact ⟨e, found, old, ⟨e, found, present⟩, new, edited, rfl⟩

theorem moveMember_eq_ok {index : Nat} :
    es.moveMember id member index = .ok next ↔
      ∃ e, es.find? id = some e ∧ (∃ m, e.member? member = some m) ∧
        next =
          es.replace { e with members := ClassDiagram.moveMember member index e.members } := by
  simp only [moveMember, bind_eq_ok, pure_eq_ok, require_eq_ok, requireMember_eq_ok]
  constructor
  · rintro ⟨e, found, m, ⟨e', found', present⟩, rfl⟩
    cases found.symm.trans found'
    exact ⟨e, found, ⟨m, present⟩, rfl⟩
  · rintro ⟨e, found, ⟨m, present⟩, rfl⟩
    exact ⟨e, found, m, ⟨e, found, present⟩, rfl⟩

theorem nest_eq_ok {child package : EntityId} :
    es.nest child package = .ok next ↔
      ∃ container, es.find? package = some container ∧
        ∃ e, es.find? child = some e ∧ container.kind = .package ∧ e.kind ≠ .package ∧
          next = es.replace { e with parent := some package } := by
  simp only [nest, bind_eq_ok, require_eq_ok]
  refine exists_congr fun container => and_congr_right fun _ =>
    exists_congr fun e => and_congr_right fun _ => ?_
  split
  next other => simp [throw_eq_ok, other]
  next package =>
    split
    next nested => simp [throw_eq_ok, nested]
    next free =>
      have isPackage := not_not.mp package
      simp [pure_eq_ok, isPackage, free]

theorem unnest_eq_ok {child : EntityId} :
    es.unnest child = .ok next ↔
      ∃ e, es.find? child = some e ∧ next = es.replace { e with parent := none } := by
  simp only [unnest, bind_eq_ok, pure_eq_ok, require_eq_ok]

/-- The entities stand in the order of their numbers, which is the order of their creation. -/
def Ordered (es : Entities) : Prop := es.ids.Numbers (·.id.number) es.items

theorem Ordered.distinct_ids (h : es.Ordered) : (es.items.map (·.id)).Nodup :=
  Sequence.Numbers.nodup_map h fun _ _ same => congrArg EntityId.number same

theorem Ordered.eq_of_id (h : es.Ordered) {e other : Entity} (present : e ∈ es.items)
    (present' : other ∈ es.items) (same : e.id = other.id) : e = other :=
  Sequence.Numbers.eq_of_number h present present' (congrArg EntityId.number same)

theorem find?_eq_some (h : es.Ordered) {e : Entity} :
    es.find? id = some e ↔ e ∈ es.items ∧ e.id = id := by
  rw [find?, h.find?_eq_some (n := id.number)]
  · exact and_congr_right fun _ => by rw [EntityId.ext_iff]
  · intro b
    rw [decide_eq_true_iff, EntityId.ext_iff]

theorem find?_of_mem (h : es.Ordered) {e : Entity} (member : e ∈ es.items) :
    es.find? e.id = some e :=
  (find?_eq_some h).mpr ⟨member, rfl⟩

theorem contains_iff_mem : es.contains id = true ↔ ∃ e ∈ es.items, e.id = id := by
  simp [contains]

theorem contains_of_mem {e : Entity} (member : e ∈ es.items) : es.contains e.id = true :=
  contains_iff_mem.mpr ⟨e, member, rfl⟩

theorem contains_of_find? {e : Entity} (found : es.find? id = some e) : es.contains id = true := by
  rw [contains_iff_mem]
  exact ⟨e, List.mem_of_find?_eq_some found, by simpa using List.find?_some found⟩

theorem mem_topLevel {e : Entity} : e ∈ es.topLevel ↔ e ∈ es.items ∧ e.parent = none := by
  simp [topLevel]

theorem mem_children {e : Entity} {package : EntityId} :
    e ∈ es.children package ↔ e ∈ es.items ∧ e.parent = some package := by
  simp [children]

theorem mem_replace {e x : Entity} (member : x ∈ (es.replace e).items) :
    x = e ∨ x ∈ es.items := by
  obtain ⟨old, present, rfl⟩ := List.mem_map.mp member
  split
  · exact .inl rfl
  · exact .inr present

theorem find?_replace (e : Entity) (id : EntityId) :
    (es.replace e).find? id = if id = e.id then (es.find? id).map fun _ => e else es.find? id := by
  unfold find? replace
  induction es.items with
  | nil => simp
  | cons head tail ih =>
      rw [List.map_cons, List.find?_cons, List.find?_cons, ih]
      by_cases here : head.id = e.id <;> by_cases sought : id = e.id
      · simp [here, sought]
      · have other : ¬ e.id = id := fun same => sought same.symm
        simp [here, sought, other]
      · simp [here, sought]
      · simp [here, sought]

theorem find?_replaced {e new : Entity} {id : EntityId} (found : es.find? id = some e)
    (same : new.id = e.id) : (es.replace new).find? id = some new := by
  have named : e.id = id := by simpa using List.find?_some found
  rw [find?_replace, if_pos (same.trans named).symm, found, Option.map_some]

theorem contains_replace (e : Entity) (id : EntityId) :
    (es.replace e).contains id = es.contains id := by
  unfold contains replace
  rw [List.any_map]
  congr 1
  funext old
  by_cases here : old.id = e.id <;> simp [here]

theorem Ordered.replace (h : es.Ordered) (e : Entity) : (es.replace e).Ordered := by
  refine Sequence.Numbers.map h fun old _ => ?_
  split
  next same => rw [same]
  next => rfl

theorem Ordered.ne_fresh (h : es.Ordered) {e : Entity} (member : e ∈ es.items) :
    e.id ≠ ⟨es.ids.fresh⟩ := by
  intro same
  have drawn : e.id.number ≤ es.ids.last := Sequence.Numbers.drawn h e member
  rw [same] at drawn
  exact Nat.not_succ_le_self _ drawn

theorem replace_self (h : es.Ordered) {e : Entity} (found : es.find? id = some e) :
    es.replace e = es := by
  obtain ⟨present, -⟩ := (find?_eq_some h).mp found
  have same : ∀ x ∈ es.items, (if x.id = e.id then e else x) = x := by
    intro x member
    split
    next here => exact h.eq_of_id present member here.symm
    next => rfl
  unfold replace
  rw [List.map_congr_left same, List.map_id']

theorem replace_replace {e new : Entity} (same : new.id = e.id) :
    (es.replace e).replace new = es.replace new := by
  unfold replace
  rw [List.map_map]
  congr 2
  funext x
  by_cases here : x.id = e.id <;> simp [here, same]

theorem items_replace (h : es.Ordered) {front back : List Entity} {e new : Entity}
    (split : es.items = front ++ e :: back) (same : new.id = e.id) :
    (es.replace new).items = front ++ new :: back := by
  unfold replace
  rw [split, same]
  exact map_replace (split ▸ h.distinct_ids) fun _ => new

end ClassDiagram.Entities
