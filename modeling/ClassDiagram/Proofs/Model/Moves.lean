import ClassDiagram.Proofs.Model.Component
import Mathlib.Data.List.InsertIdx

/-! Members that are moved within their entity. A move is undone by a move back, and of two moves of
one member the last one counts. -/

namespace ClassDiagram

section Places

variable {members : List (MemberId × Member)} {entry : MemberId × Member} {i : Nat}
  (distinct : (members.map (·.1)).Nodup) (place : members[i]? = some entry)

include distinct place

theorem findIdx?_member : members.findIdx? (·.1 = entry.1) = some i := by
  obtain ⟨inside, rfl⟩ := List.getElem?_eq_some_iff.mp place
  have found := congrArg (·[i]?) (map_findIdx? distinct)
  simpa [inside] using found

theorem find?_member : members.find? (·.1 = entry.1) = some entry := by
  obtain ⟨inside, rfl⟩ := List.getElem?_eq_some_iff.mp place
  obtain ⟨_, named, earlier⟩ :=
    List.findIdx?_eq_some_iff_getElem.mp (findIdx?_member distinct place)
  refine List.find?_eq_some_iff_getElem.mpr ⟨named, i, inside, rfl, fun j less => ?_⟩
  simpa using earlier j less

theorem moveMember_eq (index : Nat) :
    moveMember entry.1 index members =
      (members.eraseIdx i).insertIdx (min index (members.length - 1)) entry := by
  obtain ⟨inside, -⟩ := List.getElem?_eq_some_iff.mp place
  rw [moveMember_eq_insertIdx (find?_member distinct place), List.eraseP_eq_eraseIdx,
    findIdx?_member distinct place]
  simp only [List.length_eraseIdx_of_lt inside]

theorem getElem?_moveMember (index : Nat) :
    (moveMember entry.1 index members)[min index (members.length - 1)]? = some entry := by
  obtain ⟨inside, -⟩ := List.getElem?_eq_some_iff.mp place
  rw [moveMember_eq distinct place, List.getElem?_insertIdx_self, if_pos]
  rw [List.length_eraseIdx_of_lt inside]
  exact Nat.min_le_right _ _

theorem eraseIdx_moveMember (index : Nat) :
    (moveMember entry.1 index members).eraseIdx (min index (members.length - 1)) =
      members.eraseIdx i := by
  rw [moveMember_eq distinct place, List.eraseIdx_insertIdx_self]

theorem moveMember_self : moveMember entry.1 i members = members := by
  obtain ⟨inside, rfl⟩ := List.getElem?_eq_some_iff.mp place
  have last : i ≤ members.length - 1 := Nat.le_sub_one_of_lt inside
  rw [moveMember_eq distinct place, Nat.min_eq_left last, List.insertIdx_eraseIdx_getElem]

theorem moveMember_moveMember (index again : Nat) :
    moveMember entry.1 again (moveMember entry.1 index members) =
      moveMember entry.1 again members := by
  have perm := moveMember_perm entry.1 index members
  have distinct' := (perm.map (·.1)).nodup_iff.mpr distinct
  rw [moveMember_eq distinct' (getElem?_moveMember distinct place index),
    eraseIdx_moveMember distinct place, perm.length_eq, ← moveMember_eq distinct place]

end Places

namespace Model

variable {m : Model} {e : Entity} {owner : EntityId} {members others : List (MemberId × Member)}

def withMembers (m : Model) (e : Entity) (members : List (MemberId × Member)) : Model :=
  { m with entities := m.entities.replace { e with members } }

theorem withMembers_self (ordered : m.entities.Ordered) (found : m.entities.find? owner = some e) :
    m.withMembers e e.members = m := by
  obtain ⟨present, -⟩ := (Entities.find?_eq_some ordered).mp found
  rw [withMembers, Entities.replace_self ordered (Entities.find?_of_mem ordered present)]

theorem withMembers_withMembers :
    (m.withMembers e members).withMembers { e with members } others = m.withMembers e others := by
  simp only [withMembers, Entities.replace_replace]

theorem find?_withMembers (found : m.entities.find? owner = some e) :
    (m.withMembers e members).entities.find? owner = some { e with members } :=
  Entities.find?_replaced found rfl

theorem find?_withMembers_of_ne {other : EntityId} (different : other ≠ e.id) :
    (m.withMembers e members).entities.find? other = m.entities.find? other := by
  rw [withMembers, Entities.find?_replace, if_neg different]

theorem step_moveMember (found : m.entities.find? owner = some e) {id : MemberId}
    (inside : id ∈ e.memberIds) (index : Nat) :
    m.step (.moveMember owner id index) =
      (.ok .done, m.withMembers e (ClassDiagram.moveMember id index e.members)) := by
  have known : ∃ member, e.member? id = some member :=
    Option.isSome_iff_exists.mp (Entity.member?_isSome.mpr inside)
  have made : m.entities.moveMember owner id index =
      .ok (m.entities.replace
        { e with members := ClassDiagram.moveMember id index e.members }) :=
    Entities.moveMember_eq_ok.mpr ⟨e, found, known, rfl⟩
  rw [step, perform, moveMember, made]
  rfl

/-- A second move of the same member does not depend on the first one. -/
theorem step_moveMember_again (found : m.entities.find? owner = some e)
    (distinct : e.memberIds.Nodup) {entry : MemberId × Member} {i : Nat}
    (place : e.members[i]? = some entry) (index again : Nat) :
    (m.withMembers e (ClassDiagram.moveMember entry.1 index e.members)).step
        (.moveMember owner entry.1 again) =
      m.step (.moveMember owner entry.1 again) := by
  have inside : entry.1 ∈ e.memberIds := List.mem_map_of_mem (List.mem_of_getElem? place)
  let moved : Entity := { e with members := ClassDiagram.moveMember entry.1 index e.members }
  have perm := (moveMember_perm entry.1 index e.members).map (·.1)
  have inside' : entry.1 ∈ moved.memberIds := perm.mem_iff.mpr inside
  have found' : (m.withMembers e moved.members).entities.find? owner = some moved :=
    find?_withMembers found
  rw [step_moveMember found inside, step_moveMember found' inside', withMembers_withMembers,
    moveMember_moveMember distinct place]

end Model

end ClassDiagram
