import ClassDiagram.Proofs.Model.Sound
import ClassDiagram.Proofs.Project.Keys

/-! The search for a key, test by test. It ends after at most one test more than there are used keys,
and the keys of a snapshot are what the searches for its titles come to, one after the other. -/

namespace ClassDiagram

namespace Snapshot

/-- A search tests the text at hand. As long as that is used, the title with the next number takes
its place; when it is free, it is the key, and from then on it is used as well. -/
inductive Search (title : String) (used : Finset String) :
    String → Nat → Nat → String → Finset String → Prop where
  | free {text : String} {number : Nat} (fresh : text ∉ used) :
      Search title used text number 1 text (insert text used)
  | taken {text key : String} {number tests : Nat} {after : Finset String} (present : text ∈ used)
      (rest : Search title used (numbered title number) (number + 1) tests key after) :
      Search title used text number (tests + 1) key after

inductive Searches : Finset String → List String → List String → Finset String → Prop where
  | nil {used : Finset String} : Searches used [] [] used
  | cons {used between after : Finset String} {title key : String} {titles keys : List String}
      {tests : Nat} (first : Search title used title 2 tests key between)
      (others : Searches between titles keys after) :
      Searches used (title :: titles) (key :: keys) after

section Search

variable {title : String} {used : Finset String}

theorem Search.unique {text key key' : String} {number tests tests' : Nat}
    {after after' : Finset String} (h : Search title used text number tests key after)
    (h' : Search title used text number tests' key' after') :
    tests' = tests ∧ key' = key ∧ after' = after := by
  induction h generalizing tests' with
  | free fresh =>
      cases h' with
      | free => exact ⟨rfl, rfl, rfl⟩
      | taken present => exact absurd present fresh
  | taken present _ ih =>
      cases h' with
      | free fresh => exact absurd present fresh
      | taken _ rest =>
          obtain ⟨rfl, rfl, rfl⟩ := ih rest
          exact ⟨rfl, rfl, rfl⟩

theorem search_candidates (start : Nat) {count : Nat}
    (taken : ∀ i < count, candidate title (start + i) ∈ used)
    (free : candidate title (start + count) ∉ used) :
    Search title used (candidate title start) (start + 2) (count + 1)
      (candidate title (start + count)) (insert (candidate title (start + count)) used) := by
  induction count generalizing start with
  | zero => exact .free free
  | succ count ih =>
      have moved : ∀ i, start + 1 + i = start + (i + 1) := by omega
      refine .taken (taken 0 (Nat.succ_pos count)) ?_
      rw [← moved count] at free ⊢
      refine ih (start + 1) (fun i less => ?_) free
      rw [moved]
      exact taken (i + 1) (Nat.succ_lt_succ less)

end Search

section Keys

variable (used : List String) (title : String)

theorem search_uniqueKey :
    ∃ tests ≤ used.toFinset.card + 1, Search title used.toFinset title 2 tests
      (uniqueKey used title) (insert (uniqueKey used title) used.toFinset) := by
  obtain ⟨n, bound, same, free, taken⟩ := exists_uniqueKey used title
  refine ⟨n + 1, Nat.succ_le_succ bound, ?_⟩
  have found : Search title used.toFinset title 2 (n + 1) (candidate title (0 + n))
      (insert (candidate title (0 + n)) used.toFinset) := by
    refine search_candidates 0 (fun i less => ?_) ?_
    · rw [List.mem_toFinset, Nat.zero_add]
      exact taken i less
    · rwa [List.mem_toFinset, Nat.zero_add]
  rwa [Nat.zero_add, ← same] at found

theorem uniqueKey_of_free (free : title ∉ used) : uniqueKey used title = title := by
  obtain ⟨n, -, same, -, taken⟩ := exists_uniqueKey used title
  cases n with
  | zero => exact same
  | succ n => exact absurd (taken 0 (Nat.succ_pos n)) free

theorem uniqueKey_of_taken (present : title ∈ used) :
    ∃ k ≥ 2, uniqueKey used title = numbered title k ∧
      ∀ j, 2 ≤ j → j < k → numbered title j ∈ used := by
  obtain ⟨n, -, same, free, taken⟩ := exists_uniqueKey used title
  cases n with
  | zero => exact absurd present free
  | succ n =>
      refine ⟨n + 2, Nat.le_add_left 2 n, same, fun j above below => ?_⟩
      obtain ⟨i, rfl⟩ := Nat.exists_eq_add_of_le' above
      exact taken (i + 1) (by omega)

theorem searches_keys (titles : List String) :
    Searches used.toFinset titles (keys used titles)
      ((keys used titles).toFinset ∪ used.toFinset) := by
  induction titles generalizing used with
  | nil =>
      rw [keys, List.toFinset_nil, Finset.empty_union]
      exact .nil
  | cons title titles ih =>
      obtain ⟨tests, -, first⟩ := search_uniqueKey used title
      have others := ih (uniqueKey used title :: used)
      rw [List.toFinset_cons, Finset.union_insert] at others
      rw [keys, List.toFinset_cons, Finset.insert_union]
      exact .cons first others

theorem take_keys (titles : List String) (count : Nat) :
    (keys used titles).take count = keys used (titles.take count) := by
  induction titles generalizing used count with
  | nil => simp [keys]
  | cons title titles ih =>
      cases count with
      | zero => rfl
      | succ count => rw [keys, List.take_succ_cons, List.take_succ_cons, keys, ih]

end Keys

end Snapshot

namespace Model

open Snapshot

/-- A search for a key ends soon, with the first candidate that is free. So the keys that a snapshot
gives to the entities of a model are distinct, and none depends on a title that comes later. -/
theorem run_snapshot_keys :
    (∀ (used : List String) (title : String),
      let set := used.toFinset
      let key := uniqueKey used title
      (∃ tests ≤ set.card + 1, Search title set title 2 tests key (insert key set)) ∧
        (∀ tests found after, Search title set title 2 tests found after →
          tests ≤ set.card + 1 ∧ found = key ∧ after = insert key set) ∧
        key ∉ set ∧ (title ∉ set → key = title) ∧
        (title ∈ set → ∃ k ≥ 2, key = numbered title k ∧
          ∀ j, 2 ≤ j → j < k → numbered title j ∈ set)) ∧
    (∀ titles : List String,
      Searches ∅ titles (keys [] titles) (keys [] titles).toFinset ∧ (keys [] titles).Nodup ∧
        ∀ count, (keys [] titles).take count = keys [] (titles.take count)) ∧
    ∀ (operations : List Operation) (name : String) (shapes : Shapes Float32),
      let m := Model.empty.run operations
      (m.snapshot name shapes).entities.map (·.key) =
        keys [] (m.entities.items.map (·.title)) := by
  refine ⟨fun used title => ?_, fun titles => ⟨?_, nodup_keys [] titles, take_keys [] titles⟩, ?_⟩
  · intro set key
    obtain ⟨tests, bound, search⟩ := search_uniqueKey used title
    simp only [set, List.mem_toFinset]
    refine ⟨⟨tests, bound, search⟩, fun tests' found after other => ?_, uniqueKey_not_mem used title,
      uniqueKey_of_free used title, uniqueKey_of_taken used title⟩
    obtain ⟨rfl, rfl, rfl⟩ := search.unique other
    exact ⟨bound, rfl, rfl⟩
  · have searches := searches_keys [] titles
    rwa [List.toFinset_nil, Finset.union_empty] at searches
  · intro operations name shapes m
    rw [← map_keyOf (sound_run operations).ordered, Model.snapshot, List.map_map]
    rfl

end Model

end ClassDiagram
