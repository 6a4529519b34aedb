import ClassDiagram.Proofs.Result
import Mathlib.Algebra.BigOperators.Group.List.Basic
import Mathlib.Algebra.GroupWithZero.Nat
import Mathlib.Data.List.Forall2
import Mathlib.Data.List.Induction
import Mathlib.Data.List.Nodup

/-! Lists that agree place by place, insertions, blocks with a separator, counting, lookups in lists
of pairs, and traversals that can be refused. -/

namespace ClassDiagram

theorem insertIdx_min {α : Type} (as : List α) (index : Nat) (a : α) :
    as.insertIdx (min index as.length) a = as.take index ++ a :: as.drop index := by
  induction as generalizing index with
  | nil => simp
  | cons first rest ih =>
      cases index with
      | zero => simp
      | succ index =>
          have inside : min (index + 1) (first :: rest).length = min index rest.length + 1 := by
            rw [List.length_cons]
            omega
          rw [inside, List.insertIdx_succ_cons, ih, List.take_succ_cons, List.drop_succ_cons,
            List.cons_append]

/-- Of elements with distinct keys, an edit that goes by the key reaches one. -/
theorem map_replace {α κ : Type} [DecidableEq κ] {key : α → κ} {front back : List α} {a : α}
    (distinct : ((front ++ a :: back).map key).Nodup) (edit : α → α) :
    (front ++ a :: back).map (fun x => if key x = key a then edit x else x) =
      front ++ edit a :: back := by
  rw [List.map_append, List.map_cons, List.nodup_append, List.nodup_cons] at distinct
  obtain ⟨-, ⟨notBehind, -⟩, apart⟩ := distinct
  have kept : ∀ part : List α, (∀ x ∈ part, key x ≠ key a) →
      part.map (fun x => if key x = key a then edit x else x) = part := by
    intro part other
    rw [List.map_congr_left fun x member => if_neg (other x member), List.map_id']
  rw [List.map_append, List.map_cons, if_pos rfl, kept front, kept back]
  · exact fun x member here => notBehind (here ▸ List.mem_map_of_mem member)
  · exact fun x member => apart (key x) (List.mem_map_of_mem member) (key a) List.mem_cons_self

theorem exists_split_of_find? {α : Type} {p : α → Bool} {as : List α} {a : α}
    (found : as.find? p = some a) :
    ∃ front back, as = front ++ a :: back ∧ as.eraseP p = front ++ back := by
  obtain ⟨hit, front, back, split, earlier⟩ := List.find?_eq_some_iff_append.mp found
  refine ⟨front, back, split, ?_⟩
  have missed : ∀ x ∈ front, ¬ p x = true := by
    intro x member
    simpa using earlier x member
  rw [split, List.eraseP_append_right _ missed, List.eraseP_cons_of_pos hit]

theorem map_intercalate {α β : Type} (f : α → β) (between : List α) (blocks : List (List α)) :
    (List.intercalate between blocks).map f =
      List.intercalate (between.map f) (blocks.map (·.map f)) := by
  induction blocks with
  | nil => simp
  | cons block rest ih =>
      cases rest with
      | nil => simp
      | cons next rest =>
          rw [List.intercalate_cons_cons, List.map_append, List.map_append, ih, List.map_cons,
            List.map_cons, List.map_cons, List.intercalate_cons_cons]

theorem intercalate_eq_flatMap {α : Type} (between : List α) (front back : List (List α))
    (block : List α) :
    List.intercalate between (front ++ block :: back) =
      front.flatMap (· ++ between) ++ block ++ back.flatMap (between ++ ·) := by
  induction front with
  | nil =>
      rw [List.nil_append, List.flatMap_nil, List.nil_append]
      induction back generalizing block with
      | nil => simp
      | cons next back ih => simp [List.intercalate_cons_cons, ih]
  | cons first front ih =>
      rw [List.cons_append, List.intercalate_cons_of_ne_nil (by simp), ih, List.flatMap_cons]
      simp

theorem filter_intercalate {α : Type} {p : α → Bool} {between : α} (passed : p between = false)
    (blocks : List (List α)) :
    (List.intercalate [between] blocks).filter p = blocks.flatMap (·.filter p) := by
  induction blocks with
  | nil => simp
  | cons block rest ih =>
      cases rest with
      | nil => simp
      | cons next rest =>
          rw [List.intercalate_cons_cons, List.filter_append, List.filter_append, ih,
            List.filter_cons_of_neg (by simp [passed]), List.filter_nil, List.append_nil]
          rfl

theorem countP_or {α : Type} {p q : α → Bool} {as : List α}
    (apart : ∀ a ∈ as, p a = true → q a = false) :
    as.countP (fun a => p a || q a) = as.countP p + as.countP q := by
  induction as with
  | nil => rfl
  | cons a as ih =>
      have others := ih fun b member => apart b (List.mem_cons_of_mem _ member)
      have here := apart a List.mem_cons_self
      rw [List.countP_cons, List.countP_cons, List.countP_cons, others]
      cases left : p a <;> cases right : q a <;> simp_all <;> omega

theorem countP_eq_sum {α : Type} (p : α → Bool) (as : List α) :
    as.countP p = (as.map fun a => if p a = true then 1 else 0).sum := by
  induction as with
  | nil => rfl
  | cons a as ih => rw [List.countP_cons, List.map_cons, List.sum_cons, ih, Nat.add_comm]

theorem sum_countP_comm {α β : Type} (p : α → β → Bool) (as : List α) (bs : List β) :
    (as.map fun a => bs.countP (p a)).sum = (bs.map fun b => as.countP fun a => p a b).sum := by
  induction as with
  | nil => simp
  | cons a as ih =>
      simp only [List.map_cons, List.sum_cons, List.countP_cons, List.sum_map_add, ih]
      rw [countP_eq_sum, Nat.add_comm]

section Pairs

variable {α β : Type}

theorem lookup_of_mem [BEq α] [LawfulBEq α] {entries : List (α × β)} {a : α} {b : β}
    (distinct : (entries.map (·.1)).Nodup) (member : (a, b) ∈ entries) :
    entries.lookup a = some b := by
  obtain ⟨front, back, split⟩ := List.append_of_mem member
  rw [List.lookup_eq_some_iff]
  refine ⟨front, back, split, fun entry earlier => ?_⟩
  rw [split, List.map_append, List.nodup_append] at distinct
  have apart := distinct.2.2 entry.1 (List.mem_map_of_mem earlier) a (by simp)
  simpa using apart.symm

theorem lookup_eq_none_of_not_mem [BEq α] [LawfulBEq α] {entries : List (α × β)} {a : α}
    (absent : a ∉ entries.map (·.1)) : entries.lookup a = none := by
  rw [List.lookup_eq_none_iff]
  intro entry member
  have other : a ≠ entry.1 := fun same => absent (same ▸ List.mem_map_of_mem member)
  simpa using other

theorem lookup_map {γ : Type} [BEq α] [LawfulBEq α] [DecidableEq α] (entries : List γ) (f : γ → α)
    (g : γ → β) (a : α) :
    (entries.map fun x => (f x, g x)).lookup a = (entries.find? (f · = a)).map g := by
  induction entries with
  | nil => rfl
  | cons x rest ih =>
      rw [List.map_cons, List.lookup_cons, List.find?_cons, ih]
      by_cases here : f x = a
      · simp [here]
      · have missed : (a == f x) = false := by simpa using Ne.symm here
        simp [here, missed]

theorem lookup_filter_ne [BEq α] [LawfulBEq α] [DecidableEq α] (entries : List (α × β))
    {a other : α} (different : other ≠ a) :
    (entries.filter (·.1 ≠ a)).lookup other = entries.lookup other := by
  induction entries with
  | nil => rfl
  | cons entry rest ih =>
      by_cases here : entry.1 = a
      · have missed : (other == entry.1) = false := by simpa [here] using different
        rw [List.filter_cons_of_neg (by simpa using here), ih, List.lookup_cons, missed]
      · rw [List.filter_cons_of_pos (by simpa using here), List.lookup_cons, List.lookup_cons, ih]

end Pairs

theorem nodup_map_iff {α β : Type} {f : α → β} {as : List α} :
    (as.map f).Nodup ↔ ∀ front a back, as = front ++ a :: back → f a ∉ front.map f := by
  constructor
  · rintro distinct front a back rfl again
    rw [List.map_append, List.map_cons, List.nodup_append] at distinct
    exact distinct.2.2 _ again _ List.mem_cons_self rfl
  · intro fresh
    induction as using List.reverseRecOn with
    | nil => exact List.nodup_nil
    | append_singleton as a ih =>
        have before : (as.map f).Nodup := by
          refine ih fun front b back split => fresh front b (back ++ [a]) ?_
          rw [split, List.append_assoc, List.cons_append]
        rw [List.map_append, List.nodup_append]
        refine ⟨before, List.nodup_singleton _, ?_⟩
        intro x earlier y last same
        have here : y = f a := by simpa using last
        exact fresh as a [] rfl (here ▸ same ▸ earlier)

/-- In a list that grows, the first element without a property is the least one without it. -/
theorem first_iff_least {α : Type} {as : List α} {n : α → Nat}
    (increasing : as.Pairwise (n · < n ·)) (holds : α → Prop) {a : α} :
    (∃ front back, as = front ++ a :: back ∧ ∀ b ∈ front, holds b) ↔
      a ∈ as ∧ ∀ b ∈ as, ¬ holds b → n a ≤ n b := by
  constructor
  · rintro ⟨front, back, rfl, before⟩
    refine ⟨List.mem_append_cons_self, fun b member fails => ?_⟩
    rw [List.pairwise_append, List.pairwise_cons] at increasing
    rcases List.mem_append.mp member with earlier | later
    · exact absurd (before b earlier) fails
    · rcases List.mem_cons.mp later with rfl | behind
      · exact Nat.le_refl _
      · exact Nat.le_of_lt (increasing.2.1.1 b behind)
  · rintro ⟨present, least⟩
    obtain ⟨front, back, rfl⟩ := List.append_of_mem present
    refine ⟨front, back, rfl, fun b earlier => ?_⟩
    by_contra fails
    rw [List.pairwise_append] at increasing
    have less : n b < n a := increasing.2.2 b earlier a List.mem_cons_self
    exact Nat.not_le_of_lt less (least b (List.mem_append_left _ earlier) fails)

theorem findIdx?_of_split {α κ : Type} [DecidableEq κ] {key : α → κ} {front back : List α} {a : α}
    (fresh : key a ∉ front.map key) :
    (front ++ a :: back).findIdx? (fun b => key b = key a) = some front.length := by
  have before : front.findIdx? (fun b => key b = key a) = none := by
    refine List.findIdx?_eq_none_iff.mpr fun b member => decide_eq_false fun same => ?_
    exact fresh (same ▸ List.mem_map_of_mem member)
  rw [List.findIdx?_append, before, List.findIdx?_cons, decide_eq_true rfl]
  simp

theorem map_findIdx? {α κ : Type} [DecidableEq κ] {key : α → κ} {as : List α}
    (distinct : (as.map key).Nodup) :
    as.map (fun a => as.findIdx? fun b => key b = key a) = (List.range as.length).map some := by
  refine List.ext_getElem (by simp) fun i here _ => ?_
  have inside : i < as.length := by simpa using here
  rw [List.getElem_map, List.getElem_map, List.getElem_range]
  refine List.findIdx?_eq_some_iff_getElem.mpr ⟨inside, by simp, fun j less same => ?_⟩
  refine List.pairwise_iff_getElem.mp distinct j i ?_ ?_ less ?_
  · simpa using Nat.lt_trans less inside
  · simpa using inside
  · simpa using same

section Places

variable {α β γ : Type} {agree : α → β → Prop} {as : List α} {bs : List β}

theorem exists_of_mem_left (h : List.Forall₂ agree as bs) {a : α} (member : a ∈ as) :
    ∃ b ∈ bs, agree a b := by
  induction h with
  | nil => cases member
  | cons here _ ih =>
      rcases List.mem_cons.mp member with rfl | later
      · exact ⟨_, List.mem_cons_self, here⟩
      · obtain ⟨b, present, found⟩ := ih later
        exact ⟨b, List.mem_cons_of_mem _ present, found⟩

theorem exists_of_mem_right (h : List.Forall₂ agree as bs) {b : β} (member : b ∈ bs) :
    ∃ a ∈ as, agree a b :=
  exists_of_mem_left (List.Forall₂.flip (R := fun b a => agree a b) h) member

theorem forall₂_mem (h : List.Forall₂ agree as bs) :
    List.Forall₂ (fun a b => a ∈ as ∧ b ∈ bs ∧ agree a b) as bs := by
  induction h with
  | nil => exact .nil
  | cons here _ ih =>
      refine .cons ⟨List.mem_cons_self, List.mem_cons_self, here⟩ (ih.imp ?_)
      rintro a b ⟨left, right, found⟩
      exact ⟨List.mem_cons_of_mem _ left, List.mem_cons_of_mem _ right, found⟩

theorem filter_agree (h : List.Forall₂ agree as bs) {p : α → Bool} {q : β → Bool}
    (same : ∀ a ∈ as, ∀ b, agree a b → p a = q b) :
    List.Forall₂ (fun a b => a ∈ as ∧ agree a b) (as.filter p) (bs.filter q) := by
  have kept := List.rel_filter (p := p) (q := q) (fun {a b} here => by
    obtain ⟨member, -, found⟩ := here
    show p a = true ↔ q b = true
    rw [same a member b found]) (forall₂_mem h)
  exact kept.imp fun a b here => ⟨here.1, here.2.2⟩

theorem map_eq_map (h : List.Forall₂ agree as bs) {f : α → γ} {g : β → γ}
    (same : ∀ a b, agree a b → f a = g b) : as.map f = bs.map g := by
  rw [← List.forall₂_eq_eq_eq]
  exact List.rel_map (fun {a b} here => same a b here) h

theorem filterMap_eq_filterMap (h : List.Forall₂ agree as bs) {f : α → Option γ} {g : β → Option γ}
    (same : ∀ a b, agree a b → f a = g b) : as.filterMap f = bs.filterMap g := by
  induction h with
  | nil => rfl
  | cons here _ ih => rw [List.filterMap_cons, List.filterMap_cons, same _ _ here, ih]

theorem find?_agree (h : List.Forall₂ agree as bs) {p : α → Bool} {q : β → Bool}
    (same : ∀ a b, agree a b → p a = q b) : Option.Rel agree (as.find? p) (bs.find? q) := by
  induction h with
  | nil => exact .none
  | @cons a b _ _ here _ ih =>
      rw [List.find?_cons, List.find?_cons, same a b here]
      cases q b with
      | true => exact .some here
      | false => exact ih

theorem forall₂_mapIdx (f : Nat → α → β) (as : List α) :
    List.Forall₂ (fun a b => ∃ index, f index a = b) as (as.mapIdx f) := by
  induction as generalizing f with
  | nil => exact .nil
  | cons a rest ih =>
      rw [List.mapIdx_cons]
      exact .cons ⟨0, rfl⟩ ((ih _).imp fun _ _ ⟨index, made⟩ => ⟨index + 1, made⟩)

theorem forall₂_filterMap (f : α → Option β) (as : List α) :
    List.Forall₂ (fun a b => f a = some b) (as.filter fun a => (f a).isSome) (as.filterMap f) := by
  induction as with
  | nil => exact .nil
  | cons a rest ih =>
      cases made : f a with
      | none => rwa [List.filter_cons_of_neg (by simp [made]), List.filterMap_cons_none made]
      | some b =>
          rw [List.filter_cons_of_pos (by simp [made]), List.filterMap_cons_some made]
          exact .cons made ih

theorem less_of_less (h : List.Forall₂ agree as bs) {m : α → Nat} {n : β → Nat}
    (left : as.Pairwise (m · < m ·)) (right : bs.Pairwise (n · < n ·)) {k : α → Nat}
    (same : ∀ a b, agree a b → n b = k a) :
    ∀ a ∈ as, ∀ a' ∈ as, m a < m a' → k a < k a' := by
  induction h with
  | nil =>
      intro a member
      cases member
  | @cons first partner _ _ here later ih =>
      obtain ⟨above, leftRest⟩ := List.pairwise_cons.mp left
      obtain ⟨beyond, rightRest⟩ := List.pairwise_cons.mp right
      intro a member a' member' less
      rcases List.mem_cons.mp member with rfl | inside
      · rcases List.mem_cons.mp member' with rfl | inside'
        · exact absurd less (Nat.lt_irrefl _)
        · obtain ⟨b, present, found⟩ := exists_of_mem_left later inside'
          rw [← same _ _ here, ← same _ _ found]
          exact beyond b present
      · rcases List.mem_cons.mp member' with rfl | inside'
        · exact absurd (above a inside) (Nat.lt_asymm less)
        · exact ih leftRest rightRest a inside a' inside' less

/-- The names of the elements of one list determine those in the other list. -/
theorem exists_renaming {κ : Type} [DecidableEq κ] (h : List.Forall₂ agree as bs) {k : α → κ}
    (k' : β → κ) (distinct : (as.map k).Nodup) :
    ∃ rename : κ → κ, List.Forall₂ (fun a b => agree a b ∧ k' b = rename (k a)) as bs := by
  let pairs := (as.map k).zip (bs.map k')
  have names : pairs.map (·.1) = as.map k := by
    refine List.map_fst_zip (Nat.le_of_eq ?_)
    rw [List.length_map, List.length_map, h.length_eq]
  refine ⟨fun name => (pairs.lookup name).getD name, ?_⟩
  rw [List.forall₂_iff_zip]
  refine ⟨h.length_eq, fun {a b} member => ⟨List.forall₂_zip h member, ?_⟩⟩
  have paired : (k a, k' b) ∈ pairs := by
    simp only [pairs, List.zip_map]
    exact List.mem_map_of_mem (f := Prod.map k k') member
  show k' b = (pairs.lookup (k a)).getD (k a)
  rw [lookup_of_mem (names ▸ distinct) paired, Option.getD_some]

end Places

section Traversals

variable {α β ε : Type} {f : α → Except ε β} {as : List α}

theorem mapM_eq_ok {bs : List β} :
    as.mapM f = .ok bs ↔ List.Forall₂ (fun a b => f a = .ok b) as bs := by
  induction as generalizing bs with
  | nil => simp [pure_eq_ok]
  | cons a as ih =>
      simp only [List.mapM_cons, bind_eq_ok, pure_eq_ok, ih, List.forall₂_cons_left_iff]
      constructor
      · rintro ⟨b, made, rest, others, rfl⟩
        exact ⟨b, rest, made, others, rfl⟩
      · rintro ⟨b, rest, made, others, rfl⟩
        exact ⟨b, made, rest, others, rfl⟩

theorem mapM_eq_error {p : α → Bool} {e : ε} (fine : ∀ a ∈ as, p a = false → ∃ b, f a = .ok b)
    (failed : (as.filter p).mapM f = .error e) : as.mapM f = .error e := by
  induction as with
  | nil => simp [pure, Except.pure] at failed
  | cons a as ih =>
      have others := fun x (member : x ∈ as) => fine x (List.mem_cons_of_mem _ member)
      rw [List.mapM_cons]
      by_cases chosen : p a = true
      · rw [List.filter_cons_of_pos chosen, List.mapM_cons] at failed
        cases made : f a with
        | error first => simpa [made, bind, Except.bind] using failed
        | ok b =>
            cases rest : (as.filter p).mapM f with
            | error later =>
                have same : later = e := by simpa [made, rest, bind, Except.bind] using failed
                rw [ih others (same ▸ rest)]
                rfl
            | ok bs => simp [made, rest, bind, Except.bind, pure, Except.pure] at failed
      · rw [List.filter_cons_of_neg chosen] at failed
        obtain ⟨b, made⟩ := fine a List.mem_cons_self (by simpa using chosen)
        rw [made, ih others failed]
        rfl

end Traversals

end ClassDiagram
