import ClassDiagram.Notation.Block
import ClassDiagram.Proofs.Lines
import ClassDiagram.Proofs.Notation.Printing

/-! Blocks of notation are read line by line. What a line says, and what is wrong with it, does not
depend on the lines around it; these only move the place where its errors are reported. -/

namespace ClassDiagram.Notation

theorem Diagnostic.shift_shift (d : Diagnostic) (a b : Nat) :
    (d.shift a).shift b = d.shift (a + b) := by
  simp [Diagnostic.shift, Span.shift, Nat.add_assoc]

namespace Reading

def append (a b : Reading) : Reading := ⟨a.members ++ b.members, a.diagnostics ++ b.diagnostics⟩

def shift (offset : Nat) (r : Reading) : Reading :=
  { r with diagnostics := r.diagnostics.map (Diagnostic.shift offset) }

def result (r : Reading) : Except ParseError (List Member) :=
  if r.diagnostics.isEmpty then .ok r.members else .error ⟨r.diagnostics⟩

end Reading

theorem parseMembers_eq (source : String) :
    parseMembers source = (readLines 0 (Text.splitAt '\n' source.toList)).result :=
  rfl

section Lines

variable {offset : Nat} {lines : List (List Char)}

/-- Where the lines begin shows in the places of the diagnostics only. -/
theorem readLines_shift (offset k : Nat) (lines : List (List Char)) :
    readLines (offset + k) lines = (readLines offset lines).shift k := by
  induction lines generalizing offset with
  | nil => rfl
  | cons line lines ih =>
      have next : offset + k + Text.byteSize line + 1 = offset + Text.byteSize line + 1 + k := by
        omega
      rw [readLines, readLines, next, ih]
      cases readLine line with
      | none => rfl
      | some said =>
          cases said with
          | ok member => rfl
          | error d => simp [Reading.shift, Diagnostic.shift_shift]

theorem readLines_append (offset : Nat) (front back : List (List Char)) :
    readLines offset (front ++ back) =
      (readLines offset front).append (readLines (offset + Text.extent front) back) := by
  induction front generalizing offset with
  | nil => rfl
  | cons line lines ih =>
      have next : offset + Text.byteSize line + 1 + Text.extent lines =
          offset + Text.extent (line :: lines) := by
        rw [Text.extent]
        omega
      rw [List.cons_append, readLines, readLines, ih, next]
      cases readLine line with
      | none => rfl
      | some said => cases said <;> rfl

theorem exists_line {d : Diagnostic} (member : d ∈ (readLines offset lines).diagnostics) :
    ∃ before line after found, lines = before ++ line :: after ∧
      readLine line = some (.error found) ∧ d = found.shift (offset + Text.extent before) := by
  induction lines generalizing offset with
  | nil => cases member
  | cons line lines ih =>
      have later : d ∈ (readLines (offset + Text.byteSize line + 1) lines).diagnostics →
          ∃ before line' after found, line :: lines = before ++ line' :: after ∧
            readLine line' = some (.error found) ∧
              d = found.shift (offset + Text.extent before) := by
        intro inside
        obtain ⟨before, line', after, found, rfl, wrong, rfl⟩ := ih inside
        refine ⟨line :: before, line', after, found, rfl, wrong, ?_⟩
        rw [Text.extent]
        congr 1
        omega
      rw [readLines] at member
      cases said : readLine line with
      | none => exact later (by simpa [said] using member)
      | some said' =>
          cases said' with
          | ok m => exact later (by simpa [said] using member)
          | error found =>
              rw [said] at member
              rcases List.mem_cons.mp member with rfl | inside
              · exact ⟨[], line, lines, found, rfl, said, rfl⟩
              · exact later inside

theorem isSilent_iff {line : List Char} :
    isSilent line = true ↔
      (∀ c ∈ line, Text.isBlank c = true) ∨
        ∃ blanks rest, line = blanks ++ '/' :: '/' :: rest ∧
          ∀ c ∈ blanks, Text.isBlank c = true := by
  constructor
  · intro silent
    obtain ⟨blanks, blank, split⟩ := Text.exists_trimStart line
    rw [isSilent] at silent
    split at silent
    next empty =>
      rw [empty, List.append_nil] at split
      exact .inl (split ▸ blank)
    next rest slashes => exact .inr ⟨blanks, rest, slashes ▸ split, blank⟩
    next => cases silent
  · rintro (blank | ⟨blanks, rest, rfl, blank⟩)
    · rw [isSilent, Text.trimStart_eq_nil blank]
    · rw [isSilent, Text.trimStart_append blanks _ blank]
      rfl

theorem byteSize_dropReturn (line : List Char) :
    Text.byteSize (dropReturn line) ≤ Text.byteSize line := by
  unfold dropReturn
  split
  next ended =>
    obtain ⟨front, rfl⟩ := List.getLast?_eq_some_iff.mp ended
    rw [List.dropLast_concat, Text.byteSize_append]
    exact Nat.le_add_right _ _
  next => exact Nat.le_refl _

theorem readLine_eq_error {line : List Char} {d : Diagnostic} :
    readLine line = some (.error d) ↔
      isSilent (dropReturn line) = false ∧ readMember (dropReturn line) = .error d := by
  unfold readLine
  cases silent : isSilent (dropReturn line) <;> simp [silent]

end Lines

theorem span_of_readMember {source : List Char} {d : Diagnostic}
    (wrong : readMember source = .error d) :
    d.span.start ≤ d.span.stop ∧ d.span.stop ≤ Text.byteSize source := by
  have between : ∀ start stop, start ≤ Text.byteSize source → stop ≤ Text.byteSize source →
      (Span.between start stop).start ≤ (Span.between start stop).stop ∧
        (Span.between start stop).stop ≤ Text.byteSize source := by
    intro start stop first last
    exact ⟨Nat.le_max_right _ _, Nat.max_le.mpr ⟨last, first⟩⟩
  have inside : ∀ remaining, position source remaining ≤ Text.byteSize source :=
    fun remaining => Nat.sub_le _ _
  rcases readMember_eq_error wrong with ⟨gap, -, rfl⟩ | ⟨declaration, remaining, -, -, rfl⟩
  · exact between _ _ (inside _) (inside _)
  · exact between _ _ (inside _) (Nat.le_refl _)

section Printed

theorem newline_not_mem_written {m : Member} (expressible : m.Expressible) :
    '\n' ∉ m.written := by
  intro member
  have name : '\n' ∉ m.name.toList := fun inside => (expressible.1 _ inside).2.2.1 rfl
  have type : '\n' ∉ m.typeName.toList := fun inside => (expressible.2 _ inside).1 rfl
  cases v : m.visibility <;> cases m.isOperation <;>
    simp [Member.written, Visibility.marker, v, name, type] at member

theorem dropReturn_written {m : Member} (expressible : m.Expressible) :
    dropReturn m.written = m.written := by
  obtain ⟨c, rest, shape, -⟩ := m.type_filled.exists_head
  have last : m.written.getLast? = m.typeName.toList.getLast? := by
    rw [Member.written, List.getLast?_append, shape, List.getLast?_cons, List.getLast?_cons,
      List.getLast?_cons]
    rfl
  rw [dropReturn, if_neg]
  intro ended
  rw [last] at ended
  exact (expressible.2 _ (List.mem_of_getLast? ended)).2 rfl

theorem isSilent_written (m : Member) : isSilent m.written = false := by
  unfold isSilent Text.trimStart Member.written
  cases m.visibility <;> rfl

theorem readLine_written {m : Member} (expressible : m.Expressible) :
    readLine m.written = some (.ok m) := by
  have read := parseMember_text expressible
  rw [parseMember_eq_ok, Member.text, String.toList_ofList] at read
  rw [readLine, dropReturn_written expressible, isSilent_written, read]
  rfl

theorem readLines_written {members : List Member} (expressible : ∀ m ∈ members, m.Expressible)
    (offset : Nat) :
    readLines offset (members.map Member.written) = { members } := by
  induction members generalizing offset with
  | nil => rfl
  | cons m members ih =>
      rw [List.map_cons, readLines, ih fun x later => expressible x (List.mem_cons_of_mem _ later),
        readLine_written (expressible m List.mem_cons_self)]

end Printed

def followedBy (offset : Nat) (first second : Except ParseError (List Member)) :
    Except ParseError (List Member) :=
  match first, second.mapError (ParseError.shift offset) with
  | .ok members, .ok more => .ok (members ++ more)
  | .ok _, .error later => .error later
  | .error early, .ok _ => .error early
  | .error early, .error later => .error ⟨early.diagnostics ++ later.diagnostics⟩

theorem Reading.result_append (a b : Reading) (offset : Nat) :
    (a.append (b.shift offset)).result = followedBy offset a.result b.result := by
  obtain ⟨members, early⟩ := a
  obtain ⟨more, later⟩ := b
  cases early <;> cases later <;>
    simp [result, append, shift, followedBy, mapError_ok, mapError_error, ParseError.shift]

theorem parseMembers_append (a b : String) :
    parseMembers (a ++ "\n" ++ b) =
      followedBy (a.utf8ByteSize + 1) (parseMembers a) (parseMembers b) := by
  have lines : Text.splitAt '\n' (a ++ "\n" ++ b).toList =
      Text.splitAt '\n' a.toList ++ Text.splitAt '\n' b.toList := by
    have text : (a ++ "\n" ++ b).toList = a.toList ++ '\n' :: b.toList := by simp
    rw [text, Text.splitAt_eq_splitOn, Text.splitAt_eq_splitOn, Text.splitAt_eq_splitOn,
      List.splitOn_append_cons_self]
  rw [parseMembers_eq, lines, readLines_append, readLines_shift, Text.extent_splitAt,
    Reading.result_append, Text.byteSize_toList]
  rfl

theorem parseMembers_line {line : String} (single : '\n' ∉ line.toList) :
    parseMembers line =
      if isSilent (dropReturn line.toList) then .ok []
      else (parseMember (String.ofList (dropReturn line.toList))).map ([·]) := by
  rw [parseMembers_eq, Text.splitAt_eq_splitOn, List.splitOn_eq_singleton single, parseMember,
    String.toList_ofList, readLines, readLine]
  cases isSilent (dropReturn line.toList) with
  | true => rfl
  | false =>
      cases readMember (dropReturn line.toList) with
      | ok m => rfl
      | error d =>
          simp [Reading.result, mapError_error, Except.map, Diagnostic.shift, Span.shift, readLines]

theorem diagnostics_of_parseMembers {source : String} {e : ParseError}
    (refused : parseMembers source = .error e) :
    e.diagnostics = (readLines 0 (Text.splitAt '\n' source.toList)).diagnostics := by
  rw [parseMembers_eq, Reading.result] at refused
  split at refused
  · cases refused
  · cases refused
    rfl

/-- What is reported lies in the line that it is reported for, and is what reading that line alone
would report. -/
theorem hasLine_of_diagnostic {source : String} {e : ParseError} {d : Diagnostic}
    (refused : parseMembers source = .error e) (member : d ∈ e.diagnostics) :
    ∃ start line found, Text.HasLine source.toList start line ∧
      parseMember (String.ofList (dropReturn line)) = .error ⟨[found]⟩ ∧
      d = found.shift start ∧
      start ≤ d.span.start ∧ d.span.start ≤ d.span.stop ∧
      d.span.stop ≤ start + Text.byteSize line := by
  rw [diagnostics_of_parseMembers refused] at member
  obtain ⟨before, line, after, found, split, said, rfl⟩ := exists_line member
  have wrong := (readLine_eq_error.mp said).2
  obtain ⟨ordered, inside⟩ := span_of_readMember wrong
  have size := byteSize_dropReturn line
  refine ⟨Text.extent before, line, found, Text.hasLine_of_split split, ?_, ?_, ?_⟩
  · rw [parseMember, String.toList_ofList, wrong, mapError_error]
  · rw [Nat.zero_add]
  · simp only [Diagnostic.shift, Span.shift]
    omega

theorem parseMembers_text {members : List Member} (expressible : ∀ m ∈ members, m.Expressible) :
    parseMembers ("\n".intercalate (members.map Member.text)) = .ok members := by
  have text : ("\n".intercalate (members.map Member.text)).toList =
      List.intercalate ['\n'] (members.map Member.written) := by
    rw [String.toList_intercalate, List.map_map]
    congr 1
    refine List.map_congr_left fun m _ => ?_
    rw [Function.comp_apply, Member.text, String.toList_ofList]
  rw [parseMembers_eq, text, Text.splitAt_eq_splitOn]
  cases members with
  | nil => rfl
  | cons m members =>
      rw [List.splitOn_intercalate, readLines_written expressible]
      · rfl
      · intro line member
        obtain ⟨x, inside, rfl⟩ := List.mem_map.mp member
        exact newline_not_mem_written (expressible x inside)
      · simp

end ClassDiagram.Notation
