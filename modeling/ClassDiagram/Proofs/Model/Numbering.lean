import ClassDiagram.Identifier
import Mathlib.Data.List.Nodup

/-! Lists whose elements were numbered, one after the other, from one sequence. Elements may be
taken out and changed, but the numbers that are left keep growing along the list. -/

namespace ClassDiagram.Sequence

variable {α : Type}

structure Numbers (s : Sequence) (number : α → Nat) (items : List α) : Prop where
  increasing : items.Pairwise fun a b => number a < number b
  drawn : ∀ a ∈ items, number a ≤ s.last

namespace Numbers

variable {s t : Sequence} {number : α → Nat} {items kept : List α}

theorem nil : s.Numbers number ([] : List α) where
  increasing := .nil
  drawn := by simp

theorem append_fresh (h : s.Numbers number items) (new : α) (fresh : number new = s.fresh) :
    s.advance.Numbers number (items ++ [new]) where
  increasing := by
    rw [List.pairwise_append]
    refine ⟨h.increasing, List.pairwise_singleton _ _, ?_⟩
    intro a member b last
    rw [List.mem_singleton.mp last, fresh]
    exact Nat.lt_succ_of_le (h.drawn a member)
  drawn := by
    intro a member
    rcases List.mem_append.mp member with old | last
    · exact Nat.le_succ_of_le (h.drawn a old)
    · rw [List.mem_singleton.mp last, fresh]
      exact Nat.le_refl _

theorem later (h : s.Numbers number items) (growth : s.last ≤ t.last) :
    t.Numbers number items where
  increasing := h.increasing
  drawn a member := Nat.le_trans (h.drawn a member) growth

theorem sublist (h : s.Numbers number items) (part : kept.Sublist items) :
    s.Numbers number kept where
  increasing := h.increasing.sublist part
  drawn a member := h.drawn a (part.subset member)

theorem map (h : s.Numbers number items) {f : α → α}
    (same : ∀ a ∈ items, number (f a) = number a) : s.Numbers number (items.map f) where
  increasing := by
    rw [List.pairwise_map]
    refine List.Pairwise.imp_of_mem ?_ h.increasing
    intro a b ha hb less
    rwa [same a ha, same b hb]
  drawn := by
    intro a member
    obtain ⟨old, present, rfl⟩ := List.mem_map.mp member
    rw [same old present]
    exact h.drawn old present

theorem nodup_map (h : s.Numbers number items) {β : Type} {name : α → β}
    (faithful : ∀ a b, name a = name b → number a = number b) : (items.map name).Nodup := by
  rw [List.Nodup, List.pairwise_map]
  exact h.increasing.imp fun less same => Nat.ne_of_lt less (faithful _ _ same)

theorem eq_of_number (h : s.Numbers number items) {a b : α} (ha : a ∈ items) (hb : b ∈ items)
    (same : number a = number b) : a = b :=
  List.inj_on_of_nodup_map (h.nodup_map fun _ _ same => same) ha hb same

theorem find?_eq_some (h : s.Numbers number items) {p : α → Bool} {n : Nat} {a : α}
    (exact : ∀ b, p b = true ↔ number b = n) :
    items.find? p = some a ↔ a ∈ items ∧ number a = n := by
  constructor
  · intro found
    exact ⟨List.mem_of_find?_eq_some found, (exact a).mp (List.find?_some found)⟩
  · rintro ⟨member, rfl⟩
    cases found : items.find? p with
    | none => exact absurd ((exact a).mpr rfl) (List.find?_eq_none.mp found a member)
    | some b =>
        have same := (exact b).mp (List.find?_some found)
        rw [h.eq_of_number (List.mem_of_find?_eq_some found) member same]

theorem eraseP_eq_filter (h : s.Numbers number items) {p : α → Bool} {n : Nat}
    (exact : ∀ b, p b = true ↔ number b = n) : items.eraseP p = items.filter (!p ·) := by
  have increasing := h.increasing
  clear h
  induction items with
  | nil => rfl
  | cons head tail ih =>
      obtain ⟨later, rest⟩ := List.pairwise_cons.mp increasing
      by_cases here : p head = true
      · rw [List.eraseP_cons_of_pos here, List.filter_cons_of_neg (by simp [here])]
        refine (List.filter_eq_self.mpr fun a member => ?_).symm
        have less := later a member
        have found := (exact head).mp here
        have other : ¬ p a = true := fun same => by
          have also := (exact a).mp same
          omega
        simp [other]
      · rw [List.eraseP_cons_of_neg here, List.filter_cons_of_pos (by simp [here]), ih rest]

end Numbers

end ClassDiagram.Sequence
