import ClassDiagram.Proofs.Lists
import ClassDiagram.Proofs.Model.Sound
import Mathlib.Data.List.Perm.Subperm

/-! Members and the entities they belong to. No two members have the same number, within an entity
or across entities, whatever operations lead to a model. -/

namespace ClassDiagram

def Entity.memberIds (e : Entity) : List MemberId := e.members.map (·.1)

theorem Entity.member?_isSome {e : Entity} {id : MemberId} :
    (e.member? id).isSome = true ↔ id ∈ e.memberIds := by
  simp [member?, memberIds]

theorem Entity.map_member_self {e : Entity} {id : MemberId} {m : Member}
    (distinct : e.memberIds.Nodup) (found : e.member? id = some m) :
    (e.members.map fun old => if old.1 = id then (old.1, m) else old) = e.members := by
  obtain ⟨entry, first, rfl⟩ := Option.map_eq_some_iff.mp found
  have present := List.mem_of_find?_eq_some first
  have named : entry.1 = id := by simpa using List.find?_some first
  have same : ∀ old ∈ e.members, (if old.1 = id then (old.1, entry.2) else old) = old := by
    intro old member
    split
    next here =>
      have equal : old = entry :=
        List.inj_on_of_nodup_map distinct member present (here.trans named.symm)
      rw [equal]
    next => rfl
  rw [List.map_congr_left same, List.map_id']

theorem moveMember_eq_insertIdx {id : MemberId} {entry : MemberId × Member}
    {members : List (MemberId × Member)} (found : members.find? (·.1 = id) = some entry)
    (index : Nat) :
    moveMember id index members =
      (members.eraseP (·.1 = id)).insertIdx (min index (members.eraseP (·.1 = id)).length)
        entry := by
  simp only [moveMember, found, insertIdx_min]

theorem moveMember_perm (id : MemberId) (index : Nat) (members : List (MemberId × Member)) :
    (moveMember id index members).Perm members := by
  unfold moveMember
  cases found : members.find? (·.1 = id) with
  | none => exact .refl _
  | some entry =>
      obtain ⟨front, back, split, others⟩ := exists_split_of_find? found
      simp only [others]
      rw [split]
      have taken : ((front ++ back).take index ++ entry :: (front ++ back).drop index).Perm
          (entry :: (front ++ back)) := by
        have middle : ((front ++ back).take index ++ entry :: (front ++ back).drop index).Perm
            (entry :: ((front ++ back).take index ++ (front ++ back).drop index)) :=
          List.perm_middle
        rwa [List.take_append_drop] at middle
      exact taken.trans List.perm_middle.symm

namespace Entities

variable {es next : Entities}

/-- Each member has one number, which no other member has, and which is drawn already. -/
structure Enrolled (es : Entities) : Prop where
  distinct : ∀ e ∈ es.items, e.memberIds.Nodup
  owned : ∀ e ∈ es.items, ∀ other ∈ es.items, ∀ id ∈ e.memberIds, id ∈ other.memberIds →
    e.id = other.id
  drawn : ∀ e ∈ es.items, ∀ id ∈ e.memberIds, id.number ≤ es.ids.last

theorem Edit.memberIds_subperm {e new : Entity} (edit : es.Edit e new) :
    new.memberIds.Subperm e.memberIds := by
  cases edit with
  | titled | nested | unnested => exact List.Subperm.refl _
  | left id =>
      have part : (e.members.filter (·.1 ≠ id)).Sublist e.members := List.filter_sublist
      exact (part.map _).subperm
  | revised id m =>
      have same : (e.members.map fun old => if old.1 = id then (old.1, m) else old).map (·.1) =
          e.memberIds := by
        rw [List.map_map]
        refine List.map_congr_left fun old _ => ?_
        simp only [Function.comp_apply]
        split <;> rfl
      exact (List.Perm.of_eq same).subperm
  | moved id index => exact ((moveMember_perm id index e.members).map _).subperm

theorem Enrolled.replace (h : es.Enrolled) (ids : Sequence) {e new : Entity}
    (present : e ∈ es.items) (sameId : new.id = e.id) (growth : es.ids.last ≤ ids.last)
    (distinct : new.memberIds.Nodup)
    (known : ∀ id ∈ new.memberIds,
      id ∈ e.memberIds ∨ (es.ids.last < id.number ∧ id.number ≤ ids.last)) :
    Entities.Enrolled { es.replace new with ids } where
  distinct x member := by
    rcases mem_replace member with rfl | old
    · exact distinct
    · exact h.distinct x old
  owned := by
    have apart : ∀ x ∈ es.items, ∀ id ∈ new.memberIds, id ∈ x.memberIds → new.id = x.id := by
      intro x old id joined here
      have low := h.drawn x old id here
      rcases known id joined with mine | ⟨fresh, -⟩
      · exact sameId.trans (h.owned e present x old id mine here)
      · omega
    intro x member y member' id here there
    rcases mem_replace member with rfl | old
    · rcases mem_replace member' with rfl | old'
      · rfl
      · exact apart y old' id here there
    · rcases mem_replace member' with rfl | old'
      · exact (apart x old id there here).symm
      · exact h.owned x old y old' id here there
  drawn := by
    intro x member id here
    have low : ∀ y ∈ es.items, id ∈ y.memberIds → id.number ≤ ids.last := by
      intro y old inside
      have drawn := h.drawn y old id inside
      omega
    rcases mem_replace member with rfl | old
    · rcases known id here with mine | ⟨-, drawn⟩
      · exact low e present mine
      · exact drawn
    · exact low x old here

theorem Enrolled.edit (h : es.Enrolled) {e new : Entity} (present : e ∈ es.items)
    (edit : es.Edit e new) : (es.replace new).Enrolled := by
  obtain ⟨ids, perm, part⟩ := edit.memberIds_subperm
  have distinct : new.memberIds.Nodup :=
    perm.nodup_iff.mp ((h.distinct e present).sublist part)
  have known : ∀ id ∈ new.memberIds, id ∈ e.memberIds :=
    fun id member => edit.memberIds_subperm.subset member
  exact h.replace es.ids present edit.id_eq (Nat.le_refl _) distinct fun id member =>
    .inl (known id member)

theorem Enrolled.join (h : es.Enrolled) {e : Entity} (m : Member) (present : e ∈ es.items) :
    Entities.Enrolled
      { es.replace { e with members := e.members ++ [(⟨es.ids.fresh⟩, m)] } with
        ids := es.ids.advance } := by
  have ids : Entity.memberIds { e with members := e.members ++ [(⟨es.ids.fresh⟩, m)] } =
      e.memberIds ++ [⟨es.ids.fresh⟩] := by
    simp [Entity.memberIds]
  have new : (⟨es.ids.fresh⟩ : MemberId) ∉ e.memberIds := by
    intro old
    exact Nat.not_succ_le_self _ (h.drawn e present _ old)
  refine h.replace es.ids.advance present rfl (Nat.le_succ _) ?_ ?_
  · rw [ids, List.nodup_append]
    refine ⟨h.distinct e present, List.nodup_singleton _, ?_⟩
    intro id old fresh last same
    rw [List.mem_singleton.mp last] at same
    exact new (same ▸ old)
  · intro id member
    rw [ids, List.mem_append, List.mem_singleton] at member
    rcases member with old | rfl
    · exact .inl old
    · exact .inr ⟨Nat.lt_succ_self _, Nat.le_refl _⟩

theorem Enrolled.create (h : es.Enrolled) (kind : EntityKind) (title : String) :
    Entities.Enrolled
      { ids := es.ids.advance
        items := es.items ++ [{ id := ⟨es.ids.fresh⟩, kind, title }] } := by
  have old : ∀ x ∈ es.items ++ [{ id := ⟨es.ids.fresh⟩, kind, title }], ∀ id ∈ x.memberIds,
      x ∈ es.items := by
    intro x member id here
    rcases List.mem_append.mp member with old | new
    · exact old
    · rw [List.mem_singleton.mp new] at here
      cases here
  exact
    { distinct := by
        intro x member
        rcases List.mem_append.mp member with old | new
        · exact h.distinct x old
        · rw [List.mem_singleton.mp new]
          exact List.nodup_nil
      owned := by
        intro x member y member' id here there
        exact h.owned x (old x member id here) y (old y member' id there) id here there
      drawn := by
        intro x member id here
        exact Nat.le_succ_of_le (h.drawn x (old x member id here) id here) }

theorem Change.enrolled (change : es.Change next) (h : es.Enrolled) : next.Enrolled := by
  cases change with
  | created kind title filled => exact h.create kind title
  | joined e m present holds => exact h.join m present
  | edited e new present edit => exact h.edit present edit

theorem Enrolled.remove (h : es.Enrolled) (ids : List EntityId) : (es.remove ids).Enrolled where
  distinct x member := h.distinct x (mem_remove.mp member).1
  owned x member y member' := h.owned x (mem_remove.mp member).1 y (mem_remove.mp member').1
  drawn x member := h.drawn x (mem_remove.mp member).1

end Entities

namespace Model

variable {m next : Model}

/-- Every element has a number of its own, which has been drawn for it. -/
structure Accounted (m : Model) : Prop where
  sound : m.Sound
  enrolled : m.entities.Enrolled

theorem accounted_empty : Model.empty.Accounted where
  sound := sound_empty
  enrolled :=
    { distinct := by simp [Model.empty]
      owned := by simp [Model.empty]
      drawn := by simp [Model.empty] }

theorem Change.accounted (change : m.Change next) (h : m.Accounted) : next.Accounted where
  sound := change.sound h.sound
  enrolled := by
    cases change with
    | entities es change => exact change.enrolled h.enrolled
    | removed id => exact h.enrolled.remove _
    | related | redrawn | unrelated => exact h.enrolled

/-- Members are taken out of any entity that is there, whether they are in it or not. -/
theorem step_removeMember {owner : EntityId} {e : Entity}
    (found : m.entities.find? owner = some e) (id : MemberId) :
    m.step (.removeMember owner id) =
      (.ok .done,
        { m with
          entities := m.entities.replace { e with members := e.members.filter (·.1 ≠ id) } }) := by
  have made : m.entities.removeMember owner id =
      .ok (m.entities.replace { e with members := e.members.filter (·.1 ≠ id) }) :=
    Entities.removeMember_eq_ok.mpr ⟨e, found, rfl⟩
  rw [step, perform, removeMember, made]
  rfl

theorem accounted_run (operations : List Operation) : (Model.empty.run operations).Accounted :=
  invariant_of_run accounted_empty (fun _ _ h change => change.accounted h) operations

end Model

end ClassDiagram
