import ClassDiagram.Project.Snapshot
import ClassDiagram.Proofs.Lists
import ClassDiagram.Proofs.Model.Entities
import Mathlib.Data.Finset.Card
import Mathlib.Data.Nat.Find

/-! The keys of a snapshot tell its entities apart, also where titles repeat or look like numbered
ones. -/

namespace ClassDiagram

namespace Snapshot

theorem numbered_injective (title : String) : Function.Injective (numbered title) := by
  intro a b same
  have written : a.repr = b.repr := (String.append_right_inj _).mp same
  have digits : Nat.toDigits 10 a = Nat.toDigits 10 b := by
    rw [← Nat.toList_repr, ← Nat.toList_repr, written]
  calc
    a = Nat.ofDigitChars 10 (Nat.toDigits 10 a) 0 := Nat.ofDigitChars_ten_toDigits.symm
    _ = Nat.ofDigitChars 10 (Nat.toDigits 10 b) 0 := by rw [digits]
    _ = b := Nat.ofDigitChars_ten_toDigits

def candidate (title : String) : Nat → String
  | 0 => title
  | i + 1 => numbered title (i + 2)

theorem candidate_injective (title : String) : Function.Injective (candidate title) := by
  have longer : ∀ i, candidate title (i + 1) ≠ title := by
    intro i same
    have lengths := congrArg String.length same
    have mark : "-".length = 1 := rfl
    rw [candidate, numbered, String.length_append, String.length_append, mark] at lengths
    omega
  intro a b same
  cases a with
  | zero =>
      cases b with
      | zero => rfl
      | succ b => exact absurd same.symm (longer b)
  | succ a =>
      cases b with
      | zero => exact absurd same (longer a)
      | succ b =>
          have numbers : a + 2 = b + 2 := numbered_injective title same
          omega

/-- Used keys cannot be all of one more candidates than there are of them. -/
theorem exists_free (used : Finset String) (title : String) :
    ∃ n ≤ used.card, candidate title n ∉ used ∧ ∀ i < n, candidate title i ∈ used := by
  let candidates := (Finset.range (used.card + 1)).image (candidate title)
  have more : used.card < candidates.card := by
    rw [Finset.card_image_of_injective _ (candidate_injective title), Finset.card_range]
    exact Nat.lt_succ_self _
  obtain ⟨key, tried, fresh⟩ := Finset.exists_mem_notMem_of_card_lt_card more
  obtain ⟨n, small, rfl⟩ := Finset.mem_image.mp tried
  have free : ∃ n, candidate title n ∉ used := ⟨n, fresh⟩
  refine ⟨Nat.find free, ?_, Nat.find_spec free, fun i less => ?_⟩
  · have least : Nat.find free ≤ n := Nat.find_min' free fresh
    exact least.trans (Nat.lt_succ_iff.mp (Finset.mem_range.mp small))
  · exact not_not.mp (Nat.find_min free less)

theorem firstFree_eq {used : List String} {title : String} {fuel number count : Nat}
    (taken : ∀ i < count, numbered title (number + i) ∈ used)
    (free : numbered title (number + count) ∉ used) (enough : count ≤ fuel) :
    firstFree used title fuel number = numbered title (number + count) := by
  induction count generalizing fuel number with
  | zero =>
      cases fuel with
      | zero => rfl
      | succ fuel => rw [firstFree, if_neg (by simpa using free), Nat.add_zero]
  | succ count ih =>
      cases fuel with
      | zero => exact absurd enough (Nat.not_succ_le_zero count)
      | succ fuel =>
          have here : numbered title number ∈ used := taken 0 (Nat.succ_pos count)
          have later : firstFree used title fuel (number + 1) =
              numbered title (number + 1 + count) := by
            refine ih (fun i less => ?_) ?_ (Nat.succ_le_succ_iff.mp enough)
            · have next := taken (i + 1) (Nat.succ_lt_succ less)
              rwa [← Nat.add_assoc, Nat.add_right_comm] at next
            · rwa [Nat.add_assoc, Nat.add_comm 1]
          rw [firstFree, if_pos (by simpa using here), later, Nat.add_assoc, Nat.add_comm 1]

theorem exists_uniqueKey (used : List String) (title : String) :
    ∃ n ≤ used.toFinset.card, uniqueKey used title = candidate title n ∧
      candidate title n ∉ used ∧ ∀ i < n, candidate title i ∈ used := by
  obtain ⟨n, bound, free, taken⟩ := exists_free used.toFinset title
  rw [List.mem_toFinset] at free
  have before : ∀ i < n, candidate title i ∈ used := fun i less => List.mem_toFinset.mp (taken i less)
  refine ⟨n, bound, ?_, free, before⟩
  cases n with
  | zero =>
      have itself : title ∉ used := free
      exact if_neg (by simpa using itself)
  | succ count =>
      have itself : title ∈ used := before 0 (Nat.succ_pos count)
      have enough : count ≤ used.length := by
        have fits := bound.trans used.toFinset_card_le
        omega
      rw [uniqueKey, if_pos (by simpa using itself), firstFree_eq _ _ enough, candidate,
        Nat.add_comm 2]
      · intro i less
        have next := before (i + 1) (by omega)
        rwa [candidate, Nat.add_comm i] at next
      · rwa [Nat.add_comm 2]

theorem uniqueKey_not_mem (used : List String) (title : String) : uniqueKey used title ∉ used := by
  obtain ⟨n, -, same, free, -⟩ := exists_uniqueKey used title
  rwa [same]

theorem length_keys (used titles : List String) : (keys used titles).length = titles.length := by
  induction titles generalizing used with
  | nil => rfl
  | cons title titles ih => rw [keys, List.length_cons, ih, List.length_cons]

theorem not_mem_of_mem_keys {used titles : List String} :
    ∀ key ∈ keys used titles, key ∉ used := by
  induction titles generalizing used with
  | nil =>
      intro key member
      cases member
  | cons title titles ih =>
      intro key member
      rcases List.mem_cons.mp member with rfl | later
      · exact uniqueKey_not_mem used title
      · exact fun taken => ih key later (List.mem_cons_of_mem _ taken)

theorem nodup_keys (used titles : List String) : (keys used titles).Nodup := by
  induction titles generalizing used with
  | nil => exact .nil
  | cons title titles ih =>
      rw [keys, List.nodup_cons]
      exact ⟨fun again => not_mem_of_mem_keys _ again List.mem_cons_self, ih _⟩

end Snapshot

namespace Model

variable {m : Model}

theorem keyed_ids (m : Model) : m.keyed.map (·.1) = m.entities.items.map (·.id) := by
  refine List.map_fst_zip (Nat.le_of_eq ?_)
  rw [Snapshot.length_keys, List.length_map, List.length_map]

theorem keyed_keys (m : Model) :
    m.keyed.map (·.2) = Snapshot.keys [] (m.entities.items.map (·.title)) := by
  refine List.map_snd_zip (Nat.le_of_eq ?_)
  rw [Snapshot.length_keys, List.length_map, List.length_map]

theorem keyOf_eq_of_mem (ordered : m.entities.Ordered) {id : EntityId} {key : String}
    (member : (id, key) ∈ m.keyed) : m.keyOf id = key := by
  have distinct : (m.keyed.map (·.1)).Nodup := by
    rw [keyed_ids]
    exact ordered.distinct_ids
  rw [keyOf, lookup_of_mem distinct member, Option.getD_some]

theorem map_keyOf (ordered : m.entities.Ordered) :
    m.entities.items.map (fun e => m.keyOf e.id) =
      Snapshot.keys [] (m.entities.items.map (·.title)) := by
  rw [← keyed_keys]
  calc
    m.entities.items.map (fun e => m.keyOf e.id)
        = (m.keyed.map (·.1)).map m.keyOf := by rw [keyed_ids, List.map_map]; rfl
    _ = m.keyed.map (·.2) := by
        rw [List.map_map]
        exact List.map_congr_left fun entry member => keyOf_eq_of_mem ordered member

theorem nodup_keyOf (ordered : m.entities.Ordered) :
    (m.entities.items.map fun e => m.keyOf e.id).Nodup := by
  rw [map_keyOf ordered]
  exact Snapshot.nodup_keys _ _

end Model

end ClassDiagram
