import ClassDiagram.Proofs.Notation.Steps

/-! The reader accepts exactly the spellings of members. A spelling says where each part of the text
begins and ends; one text may have several, which all stand for the same member. -/

namespace ClassDiagram.Notation

def Spaces (s : List Char) : Prop := ∀ c ∈ s, c = ' ' ∨ c = '\t'

/-- A member as it may be written. The parameters are what stands between the parentheses of an
operation. -/
structure Spelling where
  indent : List Char
  visibility : Visibility
  inWords : Bool
  gap : List Char
  name : List Char
  parameters : Option (List Char)
  beforeColon : List Char
  afterColon : List Char
  typeName : List Char
  indent_spaces : Spaces indent
  gap_spaces : Spaces gap
  word_apart : inWords = true → gap ≠ []
  name_inside : ∀ c ∈ name, c ≠ '(' ∧ c ≠ ':' ∧ c ≠ '\n' ∧ c ≠ '\r'
  name_start : ∀ c ∈ name.head?, c ≠ ' ' ∧ c ≠ '\t'
  name_filled : ∃ c ∈ name, Text.isBlank c = false
  parameters_spaces : ∀ between ∈ parameters, Spaces between
  beforeColon_spaces : Spaces beforeColon
  afterColon_spaces : Spaces afterColon
  type_inside : ∀ c ∈ typeName, c ≠ '\n' ∧ c ≠ '\r'
  type_filled : ∃ c ∈ typeName, Text.isBlank c = false

def markText (visibility : Visibility) (inWords : Bool) : List Char :=
  if inWords then visibility.keyword.toList else [visibility.marker]

def listText : Option (List Char) → List Char
  | none => []
  | some between => '(' :: between ++ [')']

namespace Spelling

def text (w : Spelling) : List Char :=
  w.indent ++ markText w.visibility w.inWords ++ w.gap ++ w.name ++ listText w.parameters ++
    w.beforeColon ++ [':'] ++ w.afterColon ++ w.typeName

/-- What stands before a part. The closing parenthesis comes after the name, and whether there is a
parameter list at all shows there. -/
def before (w : Spelling) : Part → List Char
  | .visibility => w.indent
  | .name => w.indent ++ markText w.visibility w.inWords ++ w.gap
  | .closing => w.indent ++ markText w.visibility w.inWords ++ w.gap ++ w.name
  | .separator =>
    w.indent ++ markText w.visibility w.inWords ++ w.gap ++ w.name ++ listText w.parameters ++
      w.beforeColon
  | .type =>
    w.indent ++ markText w.visibility w.inWords ++ w.gap ++ w.name ++ listText w.parameters ++
      w.beforeColon ++ [':'] ++ w.afterColon

/-- Whether the spelling stands for the member. -/
def Denotes (w : Spelling) (m : Member) : Prop :=
  m.visibility = w.visibility ∧ m.name = Text.trimmed (String.ofList w.name) ∧
    m.typeName = Text.trimmed (String.ofList w.typeName) ∧
    (m.isOperation = true ↔ w.parameters ≠ none)

end Spelling

section Characters

theorem isSpace_iff {c : Char} : isSpace c = true ↔ c = ' ' ∨ c = '\t' := by
  simp [isSpace]

theorem not_isSpace_iff {c : Char} : isSpace c = false ↔ c ≠ ' ' ∧ c ≠ '\t' := by
  simp [isSpace]

theorem inName_iff {c : Char} : inName c = true ↔ c ≠ '(' ∧ c ≠ ':' ∧ c ≠ '\n' ∧ c ≠ '\r' := by
  simp [inName, isLineEnd, and_assoc]

theorem inType_iff {c : Char} : inType c = true ↔ c ≠ '\n' ∧ c ≠ '\r' := by
  simp [inType, isLineEnd]

theorem spaces_iff {s : List Char} : Spaces s ↔ ∀ c ∈ s, isSpace c = true :=
  forall₂_congr fun _ _ => isSpace_iff.symm

theorem trimEnd_ne_nil_iff {s : List Char} :
    Text.trimEnd s ≠ [] ↔ ∃ c ∈ s, Text.isBlank c = false := by
  rw [Ne, Text.trimEnd_eq_nil_iff]
  simp

theorem Spaces.blank {s : List Char} (spaces : Spaces s) : ∀ c ∈ s, Text.isBlank c = true :=
  fun c member => isBlank_of_isSpace (spaces_iff.mp spaces c member)

theorem trim_skipSpaces (s : List Char) : Text.trim (skipSpaces s) = Text.trim s := by
  obtain ⟨spaces, inside, split, _⟩ := exists_skipSpaces s
  calc
    Text.trim (skipSpaces s) = Text.trim (spaces ++ skipSpaces s) :=
      (Text.trim_blank_append _ _ fun c member => isBlank_of_isSpace (inside c member)).symm
    _ = Text.trim s := by rw [← split]

end Characters

section Soundness

theorem exists_mark {s rest : List Char} {v : Visibility}
    (read : readVisibility s = .ok (v, rest)) :
    ∃ inWords, s = markText v inWords ++ rest ∧
      (inWords = true → rest.head?.any isSpace = true) := by
  rcases readVisibility_eq_ok.mp read with marked | ⟨worded, apart⟩
  · exact ⟨false, marked, fun h => absurd h (by decide)⟩
  · exact ⟨true, worded, fun _ => apart⟩

theorem exists_list {s rest : List Char} {kind : MemberKind}
    (read : readParameters s = .ok (kind, rest)) :
    ∃ parameters, s = listText parameters ++ rest ∧ (∀ between ∈ parameters, Spaces between) ∧
      (kind = .operation ↔ parameters ≠ none) := by
  rcases readParameters_eq_ok.mp read with ⟨rfl, after, rfl, closed⟩ | ⟨rfl, _, rfl⟩
  · obtain ⟨between, inside, split, _⟩ := exists_skipSpaces after
    refine ⟨some between, ?_, ?_, by simp⟩
    · rw [split, closed]
      simp [listText]
    · intro only member
      cases member
      exact spaces_iff.mpr inside
  · exact ⟨none, rfl, by simp, by simp⟩

theorem exists_run {part : Part} {inside : Char → Bool} {s run rest : List Char}
    (read : readRun part inside s = .ok (run, rest)) :
    ∃ whole, s = whole ++ rest ∧ (∀ c ∈ whole, inside c = true) ∧
      (∃ c ∈ whole, Text.isBlank c = false) ∧ Text.trim run = Text.trim whole := by
  obtain ⟨rfl, left, rfl⟩ := readRun_eq_ok.mp read
  exact ⟨s.takeWhile inside, List.takeWhile_append_dropWhile.symm,
    fun c member => Text.of_mem_takeWhile member, trimEnd_ne_nil_iff.mp left, Text.trim_trimEnd _⟩

theorem gap_ne_nil {s gap rest : List Char} (split : s = gap ++ rest)
    (stop : ∀ c ∈ rest.head?, isSpace c = false) (apart : s.head?.any isSpace = true) :
    gap ≠ [] := by
  rintro rfl
  rw [split, List.nil_append] at apart
  cases head : rest.head? with
  | none => simp [head] at apart
  | some c =>
      have space : isSpace c = true := by simpa [head] using apart
      rw [stop c head] at space
      cases space

theorem spaces_nil : Spaces [] := by simp [Spaces]

/-- The shortest spelling. The reader puts what it finds in the place of one part after the other. -/
def Spelling.shortest : Spelling where
  indent := []
  visibility := .pub
  inWords := false
  gap := []
  name := ['a']
  parameters := none
  beforeColon := []
  afterColon := []
  typeName := ['a']
  indent_spaces := spaces_nil
  gap_spaces := spaces_nil
  word_apart := by simp
  name_inside := by simp
  name_start := by simp
  name_filled := ⟨'a', by simp, by decide⟩
  parameters_spaces := by simp
  beforeColon_spaces := spaces_nil
  afterColon_spaces := spaces_nil
  type_inside := by simp
  type_filled := ⟨'a', by simp, by decide⟩

theorem exists_before_visibility (s : List Char) :
    ∃ w : Spelling, s = w.before .visibility ++ skipSpaces s := by
  obtain ⟨indent, inside, split, -⟩ := exists_skipSpaces s
  exact ⟨{ Spelling.shortest with indent, indent_spaces := spaces_iff.mpr inside }, split⟩

namespace Spelling

variable {s rest : List Char}

theorem exists_before_name (w : Spelling) {v : Visibility}
    (marked : readVisibility s = .ok (v, rest)) :
    ∃ w' : Spelling, w.before .visibility ++ s = w'.before .name ++ skipSpaces rest ∧
      w'.visibility = v := by
  obtain ⟨inWords, split, apart⟩ := exists_mark marked
  obtain ⟨gap, inside, splitGap, stop⟩ := exists_skipSpaces rest
  refine ⟨{ w with
    visibility := v, inWords, gap
    gap_spaces := spaces_iff.mpr inside
    word_apart := fun words => gap_ne_nil splitGap stop (apart words) }, ?_, rfl⟩
  calc
    w.indent ++ s = w.indent ++ (markText v inWords ++ (gap ++ skipSpaces rest)) := by
      rw [split, ← splitGap]
    _ = w.indent ++ markText v inWords ++ gap ++ skipSpaces rest := by simp

theorem exists_before_closing (w : Spelling) {name : List Char}
    (start : ∀ c ∈ s.head?, isSpace c = false)
    (named : readRun .name inName s = .ok (name, rest)) :
    ∃ w' : Spelling, w.before .name ++ s = w'.before .closing ++ rest ∧
      w'.visibility = w.visibility ∧ Text.trim name = Text.trim w'.name := by
  obtain ⟨whole, split, inside, filled, trim⟩ := exists_run named
  have first : ∀ c ∈ whole.head?, isSpace c = false := by
    intro c head
    refine start c ?_
    rw [split, List.head?_append, head]
    rfl
  refine ⟨{ w with
    name := whole
    name_inside := fun c member => inName_iff.mp (inside c member)
    name_start := fun c head => not_isSpace_iff.mp (first c head)
    name_filled := filled }, ?_, rfl, trim⟩
  rw [split, ← List.append_assoc]
  rfl

theorem exists_before_separator (w : Spelling) {kind : MemberKind}
    (listed : readParameters s = .ok (kind, rest)) :
    ∃ w' : Spelling, w.before .closing ++ s = w'.before .separator ++ skipSpaces rest ∧
      w'.visibility = w.visibility ∧ w'.name = w.name ∧
      (kind = .operation ↔ w'.parameters ≠ none) := by
  obtain ⟨parameters, split, spaces, kindIff⟩ := exists_list listed
  obtain ⟨between, inside, splitBetween, -⟩ := exists_skipSpaces rest
  refine ⟨{ w with
    parameters, beforeColon := between
    parameters_spaces := spaces
    beforeColon_spaces := spaces_iff.mpr inside }, ?_, rfl, rfl, kindIff⟩
  calc
    w.before .closing ++ s =
        w.before .closing ++ (listText parameters ++ (between ++ skipSpaces rest)) := by
      rw [split, ← splitBetween]
    _ = w.before .closing ++ listText parameters ++ between ++ skipSpaces rest := by simp

theorem exists_before_type (w : Spelling) (separated : readSeparator s = .ok rest) :
    ∃ w' : Spelling, w.before .separator ++ s = w'.before .type ++ skipSpaces rest ∧
      w'.visibility = w.visibility ∧ w'.name = w.name ∧ w'.parameters = w.parameters := by
  obtain ⟨between, inside, split, -⟩ := exists_skipSpaces rest
  refine ⟨{ w with
    afterColon := between
    afterColon_spaces := spaces_iff.mpr inside }, ?_, rfl, rfl, rfl⟩
  calc
    w.before .separator ++ s = w.before .separator ++ ':' :: (between ++ skipSpaces rest) := by
      rw [readSeparator_eq_ok.mp separated, ← split]
    _ = w.before .separator ++ [':'] ++ between ++ skipSpaces rest := by simp

theorem exists_text (w : Spelling) {typeName : List Char}
    (typed : readRun .type inType s = .ok (typeName, rest)) :
    ∃ w' : Spelling, w.before .type ++ s = w'.text ++ rest ∧ w'.visibility = w.visibility ∧
      w'.name = w.name ∧ w'.parameters = w.parameters ∧
      Text.trim typeName = Text.trim w'.typeName := by
  obtain ⟨whole, split, inside, filled, trim⟩ := exists_run typed
  refine ⟨{ w with
    typeName := whole
    type_inside := fun c member => inType_iff.mp (inside c member)
    type_filled := filled }, ?_, rfl, rfl, rfl, trim⟩
  rw [split, ← List.append_assoc]
  rfl

end Spelling

theorem exists_spelling_append {s rest : List Char} {d : Declaration}
    (read : readDeclaration s = .ok (d, rest)) :
    ∃ w : Spelling, s = w.text ++ rest ∧ d.visibility = w.visibility ∧
      (d.kind = .operation ↔ w.parameters ≠ none) ∧ Text.trim d.name = Text.trim w.name ∧
      Text.trim d.typeName = Text.trim w.typeName := by
  obtain ⟨afterMark, afterName, afterList, afterColon, marked, named, listed, separated, typed⟩ :=
    readDeclaration_eq_ok.mp read
  obtain ⟨-, -, -, start⟩ := exists_skipSpaces afterMark
  obtain ⟨w₀, text₀⟩ := exists_before_visibility s
  obtain ⟨w₁, text₁, visibility₁⟩ := w₀.exists_before_name marked
  obtain ⟨w₂, text₂, visibility₂, name₂⟩ := w₁.exists_before_closing start named
  obtain ⟨w₃, text₃, visibility₃, name₃, parameters₃⟩ := w₂.exists_before_separator listed
  obtain ⟨w₄, text₄, visibility₄, name₄, parameters₄⟩ := w₃.exists_before_type separated
  obtain ⟨w, text, visibility, name, parameters, type⟩ := w₄.exists_text typed
  refine ⟨w, ?_, ?_, ?_, ?_, type⟩
  · rw [← text, ← text₄, ← text₃, ← text₂, ← text₁, ← text₀]
  · rw [visibility, visibility₄, visibility₃, visibility₂, visibility₁]
  · rw [parameters, parameters₄, parameters₃]
  · rw [name, name₄, name₃, name₂]

theorem exists_spelling {s : List Char} {d : Declaration}
    (read : readDeclaration s = .ok (d, [])) :
    ∃ w : Spelling, s = w.text ∧ d.visibility = w.visibility ∧
      (d.kind = .operation ↔ w.parameters ≠ none) ∧ Text.trim d.name = Text.trim w.name ∧
      Text.trim d.typeName = Text.trim w.typeName := by
  obtain ⟨w, text, parts⟩ := exists_spelling_append read
  exact ⟨w, text.trans (List.append_nil _), parts⟩

end Soundness

section Completeness

theorem mark_start (v : Visibility) (inWords : Bool) (rest : List Char) :
    ∀ c ∈ (markText v inWords ++ rest).head?, isSpace c = false := by
  intro c head
  cases v <;> cases inWords <;> cases head <;> rfl

theorem readRun_run {part : Part} {inside : Char → Bool} {run rest : List Char}
    (within : ∀ c ∈ run, inside c = true) (stop : ∀ c ∈ rest.head?, inside c = false)
    (filled : ∃ c ∈ run, Text.isBlank c = false) :
    readRun part inside (run ++ rest) = .ok (Text.trimEnd run, rest) := by
  rw [readRun_eq_ok, takeWhile_run within stop, dropWhile_run within stop]
  exact ⟨rfl, trimEnd_ne_nil_iff.mpr filled, rfl⟩

theorem Spelling.readVisibility_mark (w : Spelling) (rest : List Char) :
    readVisibility (markText w.visibility w.inWords ++ (w.gap ++ rest)) =
      .ok (w.visibility, w.gap ++ rest) := by
  rw [readVisibility_eq_ok]
  cases words : w.inWords with
  | false => exact .inl rfl
  | true =>
      refine .inr ⟨rfl, ?_⟩
      obtain ⟨c, spaces, gapEq⟩ := List.exists_cons_of_ne_nil (w.word_apart words)
      have space : isSpace c = true := spaces_iff.mp w.gap_spaces c (by simp [gapEq])
      simp [gapEq, space]

theorem Spelling.readVisibility_before (w : Spelling) (rest : List Char) :
    readVisibility (skipSpaces (w.before .name ++ rest)) = .ok (w.visibility, w.gap ++ rest) := by
  have shape : w.before .name ++ rest =
      w.indent ++ (markText w.visibility w.inWords ++ (w.gap ++ rest)) := by simp [before]
  rw [shape, skipSpaces_run (spaces_iff.mp w.indent_spaces) (mark_start _ _ _)]
  exact w.readVisibility_mark rest

theorem Spelling.name_stop (w : Spelling) (rest : List Char) :
    ∀ c ∈ (w.name ++ rest).head?, isSpace c = false := by
  intro c head
  obtain ⟨d, present, _⟩ := w.name_filled
  obtain ⟨first, tail, nameEq⟩ := List.exists_cons_of_ne_nil (List.ne_nil_of_mem present)
  rw [nameEq] at head
  have same : c = first := by simpa [eq_comm] using head
  exact not_isSpace_iff.mpr (w.name_start c (by simp [nameEq, same]))

theorem Spelling.skip_gap (w : Spelling) (rest : List Char) :
    skipSpaces (w.gap ++ (w.name ++ rest)) = w.name ++ rest :=
  skipSpaces_run (spaces_iff.mp w.gap_spaces) (w.name_stop rest)

/-- Without a parameter list the spaces before the colon are read with the name, and trimmed with
it. -/
theorem Spelling.exists_read_name (w : Spelling) (rest : List Char) :
    ∃ name kind afterName afterList,
      readRun .name inName
          (w.name ++ (listText w.parameters ++ (w.beforeColon ++ ':' :: rest))) =
        .ok (name, afterName) ∧
      readParameters afterName = .ok (kind, afterList) ∧ skipSpaces afterList = ':' :: rest ∧
      Text.trim name = Text.trim w.name ∧ (kind = .operation ↔ w.parameters ≠ none) := by
  have within : ∀ c ∈ w.name, inName c = true :=
    fun c member => inName_iff.mpr (w.name_inside c member)
  have before := spaces_iff.mp w.beforeColon_spaces
  cases listEq : w.parameters with
  | none =>
      refine ⟨Text.trimEnd (w.name ++ w.beforeColon), .attribute, ':' :: rest, ':' :: rest,
        ?_, ?_, ?_, ?_, by simp⟩
      · rw [listText, List.nil_append, ← List.append_assoc]
        refine readRun_run ?_ (by simp [inName]) ?_
        · intro c member
          rcases List.mem_append.mp member with named | space
          · exact within c named
          · rcases w.beforeColon_spaces c space with rfl | rfl <;> decide
        · obtain ⟨c, present, filled⟩ := w.name_filled
          exact ⟨c, List.mem_append_left _ present, filled⟩
      · exact readParameters_eq_ok.mpr (.inr ⟨rfl, by simp, rfl⟩)
      · have blank : ∀ c ∈ ([] : List Char), isSpace c = true := by simp
        exact skipSpaces_run blank (by simp [isSpace])
      · rw [Text.trim_trimEnd, Text.trim_append_blank _ _ w.beforeColon_spaces.blank]
  | some between =>
      have inner := spaces_iff.mp (w.parameters_spaces between listEq)
      refine ⟨Text.trimEnd w.name, .operation,
        '(' :: (between ++ ')' :: (w.beforeColon ++ ':' :: rest)),
        w.beforeColon ++ ':' :: rest, ?_, ?_, ?_, Text.trim_trimEnd _, by simp⟩
      · have shape : listText (some between) ++ (w.beforeColon ++ ':' :: rest) =
            '(' :: (between ++ ')' :: (w.beforeColon ++ ':' :: rest)) := by simp [listText]
        rw [shape]
        exact readRun_run within (by simp [inName]) w.name_filled
      · exact readParameters_eq_ok.mpr
          (.inl ⟨rfl, _, rfl, skipSpaces_run inner (by simp [isSpace])⟩)
      · exact skipSpaces_run before (by simp [isSpace])

theorem Spelling.type_left (w : Spelling) :
    (∀ c ∈ skipSpaces w.typeName, inType c = true) ∧
      ∃ c ∈ skipSpaces w.typeName, Text.isBlank c = false := by
  constructor
  · intro c member
    exact inType_iff.mpr (w.type_inside c (List.dropWhile_subset _ member))
  · obtain ⟨spaces, inside, split, -⟩ := exists_skipSpaces w.typeName
    obtain ⟨c, present, visible⟩ := w.type_filled
    rw [split, List.mem_append] at present
    rcases present with space | kept
    · rw [isBlank_of_isSpace (inside c space)] at visible
      cases visible
    · exact ⟨c, kept, visible⟩

theorem Spelling.skip_type (w : Spelling) (tail : List Char) :
    skipSpaces (w.afterColon ++ (w.typeName ++ tail)) = skipSpaces w.typeName ++ tail := by
  obtain ⟨spaces, inside, split, stop⟩ := exists_skipSpaces w.typeName
  obtain ⟨c, present, -⟩ := w.type_left.2
  have front : ∀ c ∈ w.afterColon ++ spaces, isSpace c = true := by
    intro c member
    rcases List.mem_append.mp member with after | more
    · exact spaces_iff.mp w.afterColon_spaces c after
    · exact inside c more
  have next : ∀ c ∈ (skipSpaces w.typeName ++ tail).head?, isSpace c = false := by
    rw [List.head?_append_of_ne_nil _ (List.ne_nil_of_mem present)]
    exact stop
  calc
    skipSpaces (w.afterColon ++ (w.typeName ++ tail)) =
        skipSpaces (w.afterColon ++ spaces ++ (skipSpaces w.typeName ++ tail)) := by
      rw [List.append_assoc, ← List.append_assoc spaces, ← split]
    _ = skipSpaces w.typeName ++ tail := skipSpaces_run front next

theorem Spelling.exists_read_type (w : Spelling) :
    ∃ typeName,
      readRun .type inType (skipSpaces (w.afterColon ++ w.typeName)) = .ok (typeName, []) ∧
        Text.trim typeName = Text.trim w.typeName := by
  obtain ⟨within, filled⟩ := w.type_left
  have run : readRun .type inType (skipSpaces w.typeName ++ []) =
      .ok (Text.trimEnd (skipSpaces w.typeName), []) := readRun_run within (by simp) filled
  rw [← w.skip_type, List.append_nil] at run
  refine ⟨Text.trimEnd (skipSpaces w.typeName), run, ?_⟩
  rw [Text.trim_trimEnd, trim_skipSpaces]

theorem Spelling.exists_read (w : Spelling) :
    ∃ d, readDeclaration w.text = .ok (d, []) ∧ d.visibility = w.visibility ∧
      (d.kind = .operation ↔ w.parameters ≠ none) ∧ Text.trim d.name = Text.trim w.name ∧
      Text.trim d.typeName = Text.trim w.typeName := by
  obtain ⟨name, kind, afterName, afterList, named, listed, colon, nameTrim, kindIff⟩ :=
    w.exists_read_name (w.afterColon ++ w.typeName)
  obtain ⟨typeName, typed, typeTrim⟩ := w.exists_read_type
  let fromName := w.name ++ (listText w.parameters ++
    (w.beforeColon ++ ':' :: (w.afterColon ++ w.typeName)))
  have shape : w.text = w.before .name ++ fromName := by
    simp [Spelling.text, Spelling.before, fromName]
  refine ⟨⟨w.visibility, name, kind, typeName⟩, ?_, rfl, kindIff, nameTrim, typeTrim⟩
  rw [readDeclaration_eq_ok]
  refine ⟨w.gap ++ fromName, afterName, afterList, w.afterColon ++ w.typeName, ?_, ?_, listed,
    readSeparator_eq_ok.mpr colon, typed⟩
  · rw [shape]
    exact w.readVisibility_before fromName
  · rw [w.skip_gap]
    exact named

end Completeness

section Verdicts

variable {s rest : List Char}

theorem parseMember_eq_ok {source : String} {m : Member} :
    parseMember source = .ok m ↔ readMember source.toList = .ok m :=
  mapError_eq_ok

theorem parseMember_eq_error {source : String} {e : ParseError} :
    parseMember source = .error e ↔ ∃ d, readMember source.toList = .error d ∧ e = ⟨[d]⟩ := by
  rw [parseMember]
  cases readMember source.toList with
  | ok m => simp [mapError_ok]
  | error d => simp [mapError_error, eq_comm]

theorem filled_of_readRun {part : Part} {inside : Char → Bool} {run : List Char}
    (read : readRun part inside s = .ok (run, rest)) :
    Text.IsFilled (Text.trimmed (String.ofList run)) := by
  obtain ⟨whole, -, -, ⟨c, present, visible⟩, trim⟩ := exists_run read
  refine ⟨Text.isTrimmed_trimmed _, fun empty => ?_⟩
  rw [Text.trimmed, String.toList_ofList, trim, String.ofList_eq_empty_iff] at empty
  have blank := Text.blank_of_trim empty c present
  rw [blank] at visible
  cases visible

/-- The model rejects nothing that the reader has taken. -/
theorem exists_validate {d : Declaration} (read : readDeclaration s = .ok (d, rest)) :
    ∃ m, d.validate = .ok m := by
  obtain ⟨_, _, _, _, -, named, -, -, typed⟩ := readDeclaration_eq_ok.mp read
  refine ⟨⟨d.kind, d.visibility, _, _, filled_of_readRun named, filled_of_readRun typed⟩, ?_⟩
  simp only [validate_eq_ok, Text.trimmed, String.toList_ofList, and_self]

theorem Spelling.exists_parse (w : Spelling) : ∃ m, parseMember (String.ofList w.text) = .ok m := by
  obtain ⟨d, read, -⟩ := w.exists_read
  obtain ⟨m, valid⟩ := exists_validate read
  refine ⟨m, ?_⟩
  rw [parseMember_eq_ok, String.toList_ofList, readMember_eq_ok]
  exact ⟨d, read, valid⟩

theorem readMember_eq_error {source : List Char} {d : Diagnostic}
    (wrong : readMember source = .error d) :
    (∃ gap, readDeclaration source = .error gap ∧ d = gap.diagnostic source) ∨
      ∃ declaration remaining, readDeclaration source = .ok (declaration, remaining) ∧
        remaining ≠ [] ∧ d = unexpectedInput source remaining := by
  unfold readMember at wrong
  split at wrong
  next gap failed =>
    cases wrong
    exact .inl ⟨gap, failed, rfl⟩
  next declaration read =>
    obtain ⟨m, valid⟩ := exists_validate read
    rw [valid, mapError_ok] at wrong
    cases wrong
  next declaration remaining more read =>
    cases wrong
    exact .inr ⟨declaration, remaining, read, more, rfl⟩

end Verdicts

/-- A text is accepted as a member exactly when it is a spelling of that member. -/
theorem parseMember_iff_spelling (source : String) (m : Member) :
    parseMember source = .ok m ↔ ∃ w : Spelling, source.toList = w.text ∧ w.Denotes m := by
  rw [parseMember_eq_ok, readMember_eq_ok]
  have operation : m.isOperation = true ↔ m.kind = .operation := by simp [Member.isOperation]
  simp only [validate_eq_ok, Spelling.Denotes, Text.trimmed, String.toList_ofList, operation]
  constructor
  · rintro ⟨d, read, kind, visibility, name, typeName⟩
    obtain ⟨w, text, sameVisibility, kindIff, sameName, sameType⟩ := exists_spelling read
    exact ⟨w, text, visibility.trans sameVisibility, by rw [name, sameName],
      by rw [typeName, sameType], by rw [kind, kindIff]⟩
  · rintro ⟨w, text, visibility, name, typeName, kindIff⟩
    obtain ⟨d, read, sameVisibility, kindIff', sameName, sameType⟩ := w.exists_read
    refine ⟨d, text ▸ read, ?_, visibility.trans sameVisibility.symm, by rw [name, sameName],
      by rw [typeName, sameType]⟩
    have same : m.kind = .operation ↔ d.kind = .operation := kindIff.trans kindIff'.symm
    cases mk : m.kind <;> cases dk : d.kind <;> simp [mk, dk] at same ⊢

end ClassDiagram.Notation
