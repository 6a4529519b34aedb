import ClassDiagram.Notation.Reader
import ClassDiagram.Proofs.Member
import Mathlib.Data.List.Basic

/-! What each step of the notation reader takes from the front of a text. -/

namespace ClassDiagram.Notation

theorem isBlank_of_isSpace {c : Char} (space : isSpace c = true) : Text.isBlank c = true := by
  simp only [isSpace, Bool.or_eq_true, beq_iff_eq] at space
  rcases space with rfl | rfl <;> decide

theorem takeWhile_run {p : Char → Bool} {run rest : List Char} (inside : ∀ c ∈ run, p c = true)
    (stop : ∀ c ∈ rest.head?, p c = false) : (run ++ rest).takeWhile p = run := by
  rw [List.takeWhile_append_of_pos inside]
  cases rest with
  | nil => simp
  | cons c rest => simp [stop c rfl]

theorem dropWhile_run {p : Char → Bool} {run rest : List Char} (inside : ∀ c ∈ run, p c = true)
    (stop : ∀ c ∈ rest.head?, p c = false) : (run ++ rest).dropWhile p = rest := by
  rw [List.dropWhile_append_of_pos inside]
  cases rest with
  | nil => rfl
  | cons c rest => simp [stop c rfl]

theorem skipSpaces_run {spaces rest : List Char} (inside : ∀ c ∈ spaces, isSpace c = true)
    (stop : ∀ c ∈ rest.head?, isSpace c = false) : skipSpaces (spaces ++ rest) = rest :=
  dropWhile_run inside stop

theorem exists_skipSpaces (s : List Char) :
    ∃ spaces, (∀ c ∈ spaces, isSpace c = true) ∧ s = spaces ++ skipSpaces s ∧
      ∀ c ∈ (skipSpaces s).head?, isSpace c = false := by
  exact ⟨s.takeWhile isSpace, fun _ => Text.of_mem_takeWhile,
    List.takeWhile_append_dropWhile.symm, Text.head_dropWhile⟩

theorem marker?_eq_some {s rest : List Char} {v : Visibility} :
    marker? s = some (v, rest) ↔ s = v.marker :: rest := by
  cases s with
  | nil => simp [marker?]
  | cons c s =>
      simp only [marker?, Option.map_eq_some_iff, Prod.mk.injEq, List.cons.injEq]
      constructor
      · rintro ⟨w, found, rfl, rfl⟩
        have marked := List.find?_some found
        exact ⟨(beq_iff_eq.mp marked).symm, rfl⟩
      · rintro ⟨rfl, rfl⟩
        exact ⟨v, by cases v <;> rfl, rfl, rfl⟩

theorem keyword?_eq_some {s rest : List Char} {v : Visibility} :
    keyword? s = some (v, rest) ↔ s = v.keyword.toList ++ rest := by
  constructor
  · intro h
    obtain ⟨w, _, found⟩ := List.exists_of_findSome?_eq_some h
    obtain ⟨rest', isPrefix, same⟩ := Option.map_eq_some_iff.mp found
    cases same
    exact (List.append_eq_of_isPrefixOf?_eq_some isPrefix).symm
  · rintro rfl
    cases v <;> rfl

theorem marker?_keyword (v : Visibility) (rest : List Char) :
    marker? (v.keyword.toList ++ rest) = none := by
  cases v <;> rfl

theorem readVisibility_of_unmarked {s rest : List Char} {v : Visibility}
    (unmarked : marker? s = none) :
    readVisibility s = .ok (v, rest) ↔
      s = v.keyword.toList ++ rest ∧ rest.head?.any isSpace = true := by
  rw [readVisibility, unmarked]
  cases worded : keyword? s with
  | none =>
      have wordless : s ≠ v.keyword.toList ++ rest := by
        intro start
        rw [keyword?_eq_some.mpr start] at worded
        cases worded
      simp [wordless]
  | some found =>
      obtain ⟨w, after⟩ := found
      rw [← keyword?_eq_some, worded]
      dsimp only
      split
      next apart =>
        constructor
        · intro h
          cases h
          exact ⟨rfl, apart⟩
        · rintro ⟨h, _⟩
          cases h
          rfl
      next joined =>
        constructor
        · intro h
          cases h
        · rintro ⟨h, apart⟩
          cases h
          exact absurd apart joined

theorem readVisibility_eq_ok {s rest : List Char} {v : Visibility} :
    readVisibility s = .ok (v, rest) ↔
      s = v.marker :: rest ∨
        s = v.keyword.toList ++ rest ∧ rest.head?.any isSpace = true := by
  cases marked : marker? s with
  | none =>
      have unmarked : s ≠ v.marker :: rest := by
        intro start
        rw [marker?_eq_some.mpr start] at marked
        cases marked
      rw [readVisibility_of_unmarked marked]
      simp only [unmarked, false_or]
  | some found =>
      rw [readVisibility, marked]
      constructor
      · intro h
        cases h
        exact .inl (marker?_eq_some.mp marked)
      · rintro (start | ⟨start, _⟩)
        · rw [← marked, marker?_eq_some.mpr start]
        · rw [start, marker?_keyword] at marked
          cases marked

theorem readRun_eq_ok {part : Part} {inside : Char → Bool} {s run rest : List Char} :
    readRun part inside s = .ok (run, rest) ↔
      run = Text.trimEnd (s.takeWhile inside) ∧ run ≠ [] ∧ rest = s.dropWhile inside := by
  unfold readRun
  dsimp only
  split
  next empty =>
    constructor
    · intro h
      cases h
    · rintro ⟨rfl, left, _⟩
      exact absurd (List.isEmpty_iff.mp empty) left
  next left =>
    constructor
    · intro h
      cases h
      exact ⟨rfl, fun empty => left (List.isEmpty_iff.mpr empty), rfl⟩
    · rintro ⟨rfl, _, rfl⟩
      rfl

theorem readParameters_eq_ok {s rest : List Char} {kind : MemberKind} :
    readParameters s = .ok (kind, rest) ↔
      (kind = .operation ∧ ∃ after, s = '(' :: after ∧ skipSpaces after = ')' :: rest) ∨
        (kind = .attribute ∧ s.head? ≠ some '(' ∧ rest = s) := by
  unfold readParameters
  split
  next after =>
    split
    next closed skipped =>
      constructor
      · intro h
        cases h
        exact .inl ⟨rfl, after, rfl, skipped⟩
      · rintro (⟨rfl, _, same, closing⟩ | ⟨_, other, _⟩)
        · cases same
          cases skipped.symm.trans closing
          rfl
        · exact absurd rfl other
    next unclosed =>
      constructor
      · intro h
        cases h
      · rintro (⟨_, _, same, closing⟩ | ⟨_, other, _⟩)
        · cases same
          exact absurd closing (unclosed rest)
        · exact absurd rfl other
  next unopened =>
    constructor
    · intro h
      cases h
      refine .inr ⟨rfl, ?_, rfl⟩
      intro head
      obtain ⟨after, rfl⟩ := List.head?_eq_some_iff.mp head
      exact unopened after rfl
    · rintro (⟨_, after, same, _⟩ | ⟨rfl, _, rfl⟩)
      · exact absurd same (unopened after)
      · rfl

theorem readSeparator_eq_ok {s rest : List Char} :
    readSeparator s = .ok rest ↔ s = ':' :: rest := by
  unfold readSeparator
  split
  next after => simp
  next other =>
    constructor
    · intro h
      cases h
    · exact fun same => absurd same (other rest)

theorem readDeclaration_eq_ok {s rest : List Char} {d : Declaration} :
    readDeclaration s = .ok (d, rest) ↔
      ∃ afterMark afterName afterList afterColon,
        readVisibility (skipSpaces s) = .ok (d.visibility, afterMark) ∧
          readRun .name inName (skipSpaces afterMark) = .ok (d.name, afterName) ∧
          readParameters afterName = .ok (d.kind, afterList) ∧
          readSeparator (skipSpaces afterList) = .ok afterColon ∧
          readRun .type inType (skipSpaces afterColon) = .ok (d.typeName, rest) := by
  simp only [readDeclaration, bind_eq_ok, pure_eq_ok, Prod.exists]
  constructor
  · rintro ⟨v, afterMark, marked, name, afterName, named, kind, afterList, listed, afterColon,
      separated, typeName, after, typed, h⟩
    cases h
    exact ⟨afterMark, afterName, afterList, afterColon, marked, named, listed, separated, typed⟩
  · rintro ⟨afterMark, afterName, afterList, afterColon, marked, named, listed, separated, typed⟩
    exact ⟨_, afterMark, marked, _, afterName, named, _, afterList, listed, afterColon,
      separated, _, rest, typed, rfl⟩

theorem validate_eq_ok {d : Declaration} {m : Member} :
    d.validate = .ok m ↔
      m.kind = d.kind ∧ m.visibility = d.visibility ∧
        m.name = String.ofList (Text.trim d.name) ∧
        m.typeName = String.ofList (Text.trim d.typeName) := by
  rw [Declaration.validate, Member.make_eq_ok, Text.trimmed, Text.trimmed, String.toList_ofList,
    String.toList_ofList]

theorem readMember_eq_ok {source : List Char} {m : Member} :
    readMember source = .ok m ↔
      ∃ d, readDeclaration source = .ok (d, []) ∧ d.validate = .ok m := by
  unfold readMember
  split
  next gap failed => simp [failed]
  next d read => simp [read, mapError_eq_ok]
  next d remaining more read =>
    constructor
    · intro h
      cases h
    · rintro ⟨_, same, _⟩
      cases read.symm.trans same
      exact absurd rfl more

end ClassDiagram.Notation
