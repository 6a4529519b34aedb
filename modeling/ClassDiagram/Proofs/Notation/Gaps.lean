import ClassDiagram.Proofs.Notation.Block

/-! What a refused text lacks, and where it is reported. The report names the first part of the
declaration that is missing and points to the place where that part should start: what stands
before it can be completed. If no part is missing, the text goes on after the end of its line. -/

namespace ClassDiagram.Notation

def Part.place : Part → Nat
  | .visibility => 0
  | .name => 1
  | .closing => 2
  | .separator => 3
  | .type => 4

theorem Part.eq_of_place {part other : Part} (same : part.place = other.place) : part = other := by
  cases part <;> cases other <;> first | rfl | cases same

/-- Whether the text begins with a part and what comes before it. A parameter list that has been
opened has to be closed. -/
def Stands (s : List Char) : Part → Prop
  | .visibility => ∃ w : Spelling, w.before .name <+: s
  | .name => ∃ w : Spelling, w.before .closing <+: s
  | .closing =>
    (∃ w : Spelling, w.before .closing ++ ['('] <+: s) →
      ∃ w : Spelling, w.parameters ≠ none ∧ w.before .separator <+: s
  | .separator => ∃ w : Spelling, w.before .type <+: s
  | .type => ∃ w : Spelling, w.text <+: s

def FirstMissing (s : List Char) (part : Part) : Prop :=
  ¬ Stands s part ∧ ∀ earlier : Part, earlier.place < part.place → Stands s earlier

/-- Reading the text, the reader gets to the part, and `rest` is what remains there. -/
inductive Reaches (s : List Char) : Part → List Char → Prop where
  | visibility : Reaches s .visibility (skipSpaces s)
  | name {rest after : List Char} {v : Visibility} (earlier : Reaches s .visibility rest)
      (marked : readVisibility rest = .ok (v, after)) : Reaches s .name (skipSpaces after)
  | closing {rest name after : List Char} (earlier : Reaches s .name rest)
      (named : readRun .name inName rest = .ok (name, after)) : Reaches s .closing after
  | separator {rest after : List Char} {kind : MemberKind} (earlier : Reaches s .closing rest)
      (listed : readParameters rest = .ok (kind, after)) : Reaches s .separator (skipSpaces after)
  | type {rest after : List Char} (earlier : Reaches s .separator rest)
      (separated : readSeparator rest = .ok after) : Reaches s .type (skipSpaces after)

def Taken : Part → List Char → Prop
  | .visibility, s => ∃ read, readVisibility s = .ok read
  | .name, s => ∃ read, readRun .name inName s = .ok read
  | .closing, s => ∃ read, readParameters s = .ok read
  | .separator, s => ∃ read, readSeparator s = .ok read
  | .type, s => ∃ read, readRun .type inType s = .ok read

section Spellings

variable {s rest rest' : List Char} {part : Part}

theorem Reaches.exists_before (reached : Reaches s part rest) :
    ∃ w : Spelling, s = w.before part ++ rest := by
  induction reached with
  | visibility => exact exists_before_visibility s
  | name _ marked ih =>
      obtain ⟨w, text⟩ := ih
      obtain ⟨w', text', -⟩ := w.exists_before_name marked
      exact ⟨w', text.trans text'⟩
  | @closing rest _ _ earlier named ih =>
      obtain ⟨w, text⟩ := ih
      have start : ∀ c ∈ rest.head?, isSpace c = false := by
        cases earlier with
        | @name _ after =>
            obtain ⟨-, -, -, stop⟩ := exists_skipSpaces after
            exact stop
      obtain ⟨w', text', -⟩ := w.exists_before_closing start named
      exact ⟨w', text.trans text'⟩
  | separator _ listed ih =>
      obtain ⟨w, text⟩ := ih
      obtain ⟨w', text', -⟩ := w.exists_before_separator listed
      exact ⟨w', text.trans text'⟩
  | type _ separated ih =>
      obtain ⟨w, text⟩ := ih
      obtain ⟨w', text', -⟩ := w.exists_before_type separated
      exact ⟨w', text.trans text'⟩

theorem Reaches.unique (reached : Reaches s part rest) (again : Reaches s part rest') :
    rest' = rest := by
  induction reached generalizing rest' with
  | visibility =>
      cases again
      rfl
  | name _ marked ih =>
      cases again with
      | name earlier marked' =>
          cases ih earlier
          cases marked.symm.trans marked'
          rfl
  | closing _ named ih =>
      cases again with
      | closing earlier named' =>
          cases ih earlier
          cases named.symm.trans named'
          rfl
  | separator _ listed ih =>
      cases again with
      | separator earlier listed' =>
          cases ih earlier
          cases listed.symm.trans listed'
          rfl
  | type _ separated ih =>
      cases again with
      | type earlier separated' =>
          cases ih earlier
          cases separated.symm.trans separated'
          rfl

theorem taken_run_iff {part : Part} {inside : Char → Bool} :
    (∃ read, readRun part inside s = .ok read) ↔
      ∃ c ∈ s.takeWhile inside, Text.isBlank c = false := by
  rw [← trimEnd_ne_nil_iff]
  constructor
  · rintro ⟨⟨run, rest⟩, read⟩
    obtain ⟨rfl, left, -⟩ := readRun_eq_ok.mp read
    exact left
  · intro left
    exact ⟨(_, _), readRun_eq_ok.mpr ⟨rfl, left, rfl⟩⟩

namespace Spelling

variable (w : Spelling) (tail : List Char)

theorem reaches_name : Reaches (w.before .name ++ tail) .name (skipSpaces (w.gap ++ tail)) :=
  .name .visibility (w.readVisibility_before tail)

theorem exists_readName : ∃ name,
    readRun .name inName (w.name ++ tail) = .ok (name, tail.dropWhile inName) := by
  have inside : ∀ c ∈ w.name, inName c = true :=
    fun c member => inName_iff.mpr (w.name_inside c member)
  obtain ⟨c, present, filled⟩ := w.name_filled
  refine ⟨_, readRun_eq_ok.mpr ⟨rfl, ?_, (List.dropWhile_append_of_pos inside).symm⟩⟩
  rw [trimEnd_ne_nil_iff, List.takeWhile_append_of_pos inside]
  exact ⟨c, List.mem_append_left _ present, filled⟩

theorem reaches_closing :
    Reaches (w.before .closing ++ tail) .closing (tail.dropWhile inName) := by
  have reached := w.reaches_name (w.name ++ tail)
  rw [w.skip_gap, ← List.append_assoc] at reached
  obtain ⟨name, named⟩ := w.exists_readName tail
  exact .closing reached named

theorem reaches_separator :
    Reaches (w.before .type ++ tail) .separator (':' :: (w.afterColon ++ tail)) := by
  obtain ⟨name, kind, afterName, afterList, named, listed, colon, -⟩ :=
    w.exists_read_name (w.afterColon ++ tail)
  have shape : w.before .type ++ tail = w.before .name ++ (w.name ++ (listText w.parameters ++
      (w.beforeColon ++ ':' :: (w.afterColon ++ tail)))) := by simp [before]
  have reached := w.reaches_name (w.name ++ (listText w.parameters ++
    (w.beforeColon ++ ':' :: (w.afterColon ++ tail))))
  rw [w.skip_gap, ← shape] at reached
  rw [← colon]
  exact .separator (.closing reached named) listed

theorem reaches_type :
    Reaches (w.before .type ++ tail) .type (skipSpaces (w.afterColon ++ tail)) :=
  .type (w.reaches_separator tail) (readSeparator_eq_ok.mpr rfl)

end Spelling

theorem readParameters_opened {after : List Char}
    (taken : ∃ read, readParameters ('(' :: after) = .ok read) :
    ∃ rest, readParameters ('(' :: after) = .ok (.operation, rest) := by
  obtain ⟨⟨kind, rest⟩, listed⟩ := taken
  rcases readParameters_eq_ok.mp listed with ⟨rfl, -⟩ | ⟨-, unopened, -⟩
  · exact ⟨rest, listed⟩
  · exact absurd rfl unopened

theorem Reaches.stands (reached : Reaches s part rest) (taken : Taken part rest) :
    Stands s part := by
  cases part with
  | visibility =>
      obtain ⟨⟨v, after⟩, marked⟩ := taken
      obtain ⟨w, text⟩ := (Reaches.name reached marked).exists_before
      exact ⟨w, _, text.symm⟩
  | name =>
      obtain ⟨⟨name, after⟩, named⟩ := taken
      obtain ⟨w, text⟩ := (Reaches.closing reached named).exists_before
      exact ⟨w, _, text.symm⟩
  | closing =>
      rintro ⟨opened, tail, text⟩
      rw [List.append_assoc] at text
      -- A name holds no parenthesis, so the list is opened just where the reader is.
      have here := reached.unique (text ▸ opened.reaches_closing (['('] ++ tail))
      have stop : (['('] ++ tail).dropWhile inName = '(' :: tail := by simp [inName]
      rw [stop] at here
      rw [← here] at taken reached
      obtain ⟨after, listed⟩ := readParameters_opened taken
      obtain ⟨w, upTo⟩ := reached.exists_before
      obtain ⟨w', text', -, -, kindIff⟩ := w.exists_before_separator listed
      exact ⟨w', kindIff.mp rfl, _, (upTo.trans text').symm⟩
  | separator =>
      obtain ⟨after, separated⟩ := taken
      obtain ⟨w, text⟩ := (Reaches.type reached separated).exists_before
      exact ⟨w, _, text.symm⟩
  | type =>
      obtain ⟨⟨typeName, after⟩, typed⟩ := taken
      obtain ⟨w, text⟩ := reached.exists_before
      obtain ⟨w', text', -⟩ := w.exists_text typed
      exact ⟨w', after, (text.trans text').symm⟩

theorem Reaches.taken (reached : Reaches s part rest) (stands : Stands s part) :
    Taken part rest := by
  cases part with
  | visibility =>
      obtain ⟨w, tail, rfl⟩ := stands
      cases reached
      exact ⟨_, w.readVisibility_before tail⟩
  | name =>
      obtain ⟨w, tail, rfl⟩ := stands
      have there := w.reaches_name (w.name ++ tail)
      rw [w.skip_gap, ← List.append_assoc] at there
      rw [there.unique reached]
      obtain ⟨name, named⟩ := w.exists_readName tail
      exact ⟨_, named⟩
  | closing =>
      by_cases opened : rest.head? = some '('
      · obtain ⟨after, rfl⟩ := List.head?_eq_some_iff.mp opened
        obtain ⟨w, text⟩ := reached.exists_before
        obtain ⟨w', listed, tail, rfl⟩ := stands ⟨w, after, by rw [text]; simp⟩
        obtain ⟨between, list⟩ := Option.ne_none_iff_exists'.mp listed
        have shape : w'.before .separator ++ tail =
            w'.before .closing ++ ('(' :: (between ++ ')' :: (w'.beforeColon ++ tail))) := by
          simp [Spelling.before, list, listText]
        have there := shape ▸ w'.reaches_closing ('(' :: (between ++ ')' :: (w'.beforeColon ++ tail)))
        have stop : ('(' :: (between ++ ')' :: (w'.beforeColon ++ tail))).dropWhile inName =
            '(' :: (between ++ ')' :: (w'.beforeColon ++ tail)) := by simp [inName]
        rw [stop] at there
        rw [there.unique reached]
        have inner := spaces_iff.mp (w'.parameters_spaces between list)
        exact ⟨_, readParameters_eq_ok.mpr
          (.inl ⟨rfl, _, rfl, skipSpaces_run inner (by simp [isSpace])⟩)⟩
      · exact ⟨_, readParameters_eq_ok.mpr (.inr ⟨rfl, opened, rfl⟩)⟩
  | separator =>
      obtain ⟨w, tail, rfl⟩ := stands
      rw [(w.reaches_separator tail).unique reached]
      exact ⟨_, readSeparator_eq_ok.mpr rfl⟩
  | type =>
      obtain ⟨w, tail, rfl⟩ := stands
      have there := w.reaches_type (w.typeName ++ tail)
      rw [w.skip_type, ← List.append_assoc] at there
      rw [there.unique reached]
      obtain ⟨within, c, present, filled⟩ := w.type_left
      refine taken_run_iff.mpr ⟨c, ?_, filled⟩
      rw [List.takeWhile_append_of_pos within]
      exact List.mem_append_left _ present

theorem Reaches.stands_earlier (reached : Reaches s part rest) {earlier : Part}
    (less : earlier.place < part.place) : Stands s earlier := by
  have upTo : ∀ last : Part, (earlier.place < last.place → Stands s earlier) → Stands s last →
      earlier.place < last.place + 1 → Stands s earlier := by
    intro last before here atMost
    rcases Nat.lt_succ_iff_lt_or_eq.mp atMost with lower | same
    · exact before lower
    · exact Part.eq_of_place same ▸ here
  induction reached with
  | visibility => exact absurd less (Nat.not_lt_zero _)
  | name before marked ih => exact upTo .visibility ih (before.stands ⟨_, marked⟩) less
  | closing before named ih => exact upTo .name ih (before.stands ⟨_, named⟩) less
  | separator before listed ih => exact upTo .closing ih (before.stands ⟨_, listed⟩) less
  | type before separated ih => exact upTo .separator ih (before.stands ⟨_, separated⟩) less

theorem Reaches.stands_all (reached : Reaches s .type rest) (taken : Taken .type rest)
    (part : Part) : Stands s part := by
  have upTo : part.place < Part.type.place ∨ part.place = Part.type.place := by
    cases part <;> decide
  rcases upTo with earlier | last
  · exact reached.stands_earlier earlier
  · rw [Part.eq_of_place last]
    exact reached.stands taken

end Spellings

section Refused

variable {s rest : List Char} {gap : Gap}

/-- The reader stops at the part, with `rest` before it. What it has looked at is marked. -/
structure Gap.Stops (gap : Gap) (part : Part) (rest : List Char) : Prop where
  part_eq : gap.part = part
  expected_eq : gap.expected = rest
  reached_end : gap.reached <:+ rest

theorem readVisibility_eq_error (failed : readVisibility s = .error gap) :
    gap.Stops .visibility s := by
  unfold readVisibility at failed
  split at failed
  next => cases failed
  next =>
    split at failed
    next =>
      cases failed
      exact ⟨rfl, rfl, List.suffix_rfl⟩
    next v rest worded =>
      split at failed
      next => cases failed
      next =>
        cases failed
        exact ⟨rfl, rfl, ⟨v.keyword.toList, (keyword?_eq_some.mp worded).symm⟩⟩

theorem readRun_eq_error {part : Part} {inside : Char → Bool}
    (failed : readRun part inside s = .error gap) : gap.Stops part s := by
  unfold readRun at failed
  dsimp only at failed
  split at failed
  next =>
    cases failed
    exact ⟨rfl, rfl, List.suffix_rfl⟩
  next => cases failed

theorem readParameters_eq_error (failed : readParameters s = .error gap) :
    gap.Stops .closing s := by
  unfold readParameters at failed
  split at failed
  next after =>
    split at failed
    next => cases failed
    next unclosed _ =>
      cases failed
      exact ⟨rfl, rfl, (List.dropWhile_suffix _).trans (List.suffix_cons _ _)⟩
  next => cases failed

theorem readSeparator_eq_error (failed : readSeparator s = .error gap) :
    gap.Stops .separator s := by
  unfold readSeparator at failed
  split at failed
  next => cases failed
  next =>
    cases failed
    exact ⟨rfl, rfl, List.suffix_rfl⟩

theorem exists_stop (failed : readDeclaration s = .error gap) :
    ∃ part rest, Reaches s part rest ∧ gap.Stops part rest ∧ ¬ Taken part rest := by
  simp only [readDeclaration, bind_eq_error, Prod.exists, pure, Except.pure, reduceCtorEq,
    and_false, exists_false, or_false] at failed
  rcases failed with failed | ⟨_, _, marked, failed⟩
  · exact ⟨_, _, .visibility, readVisibility_eq_error failed, not_ok_of_error failed⟩
  have named := Reaches.visibility.name marked
  rcases failed with failed | ⟨_, _, read, failed⟩
  · exact ⟨_, _, named, readRun_eq_error failed, not_ok_of_error failed⟩
  have listed := named.closing read
  rcases failed with failed | ⟨_, _, read, failed⟩
  · exact ⟨_, _, listed, readParameters_eq_error failed, not_ok_of_error failed⟩
  have separated := listed.separator read
  rcases failed with failed | ⟨_, read, failed⟩
  · exact ⟨_, _, separated, readSeparator_eq_error failed, not_ok_of_error failed⟩
  · exact ⟨_, _, separated.type read, readRun_eq_error failed, not_ok_of_error failed⟩

theorem missing_of_failed (failed : readDeclaration s = .error gap) :
    (∃ w : Spelling, s = w.before gap.part ++ gap.expected) ∧ gap.reached <:+ gap.expected ∧
      FirstMissing s gap.part := by
  obtain ⟨_, _, reached, ⟨rfl, rfl, back⟩, missed⟩ := exists_stop failed
  exact ⟨reached.exists_before, back, fun stands => missed (reached.taken stands),
    fun _ less => reached.stands_earlier less⟩

end Refused

section Completed

variable {s rest : List Char} {d : Declaration}

/-- What stands before a part of a spelling can be completed to a declaration. -/
theorem Spelling.exists_completion (w : Spelling) (part : Part) :
    ∃ more m, parseMember (String.ofList (w.before part ++ more)) = .ok m := by
  obtain ⟨m, read⟩ := w.exists_parse
  have text : ∃ more, w.text = w.before part ++ more := by
    cases part <;> simp [Spelling.text, Spelling.before]
  obtain ⟨more, split⟩ := text
  exact ⟨more, m, split ▸ read⟩

theorem exists_spelling_line (read : readDeclaration s = .ok (d, rest)) :
    (∃ w : Spelling, s = w.text ++ rest) ∧ (∀ part, Stands s part) ∧
      ∀ c ∈ rest.head?, c = '\r' ∨ c = '\n' := by
  obtain ⟨w, text, -⟩ := exists_spelling_append read
  obtain ⟨_, _, _, afterColon, marked, named, listed, separated, typed⟩ :=
    readDeclaration_eq_ok.mp read
  have reached := (((Reaches.visibility.name marked).closing named).separator listed).type separated
  refine ⟨⟨w, text⟩, reached.stands_all ⟨_, typed⟩, fun c head => ?_⟩
  obtain ⟨-, -, rfl⟩ := readRun_eq_ok.mp typed
  have outside : inType c = false := Text.head_dropWhile c head
  by_contra other
  rw [not_or] at other
  rw [inType_iff.mpr ⟨other.2, other.1⟩] at outside
  cases outside

end Completed

section Reports

variable {source : List Char}

theorem position_append (front rest : List Char) :
    position (front ++ rest) rest = Text.byteSize front := by
  rw [position, Text.byteSize_append, Nat.add_sub_cancel]

theorem Gap.exists_marked {gap : Gap} (failed : readDeclaration source = .error gap) :
    ∃ (w : Spelling) (marked rest : List Char), source = w.before gap.part ++ marked ++ rest ∧
      (gap.diagnostic source).span =
        ⟨Text.byteSize (w.before gap.part), Text.byteSize (w.before gap.part ++ marked)⟩ := by
  obtain ⟨⟨w, text⟩, ⟨marked, split⟩, -⟩ := missing_of_failed failed
  rw [← split, ← List.append_assoc] at text
  have start : position source gap.expected = Text.byteSize (w.before gap.part) := by
    rw [text, ← split, List.append_assoc, position_append]
  have stop : position source gap.reached = Text.byteSize (w.before gap.part ++ marked) := by
    rw [text, position_append]
  refine ⟨w, marked, gap.reached, text, ?_⟩
  rw [diagnostic, start, stop, Span.between, Text.byteSize_append, Nat.max_eq_left]
  exact Nat.le_add_right _ _

end Reports

end ClassDiagram.Notation
