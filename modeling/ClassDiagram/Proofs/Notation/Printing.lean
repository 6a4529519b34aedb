import ClassDiagram.Project.Record
import ClassDiagram.Proofs.Notation.Grammar

/-! Printing members and reading them back. The printed form of a member is one of its spellings
unless its name or its type holds a character that ends them in notation. No reader gives such a
member, so exactly these are recorded by their fields. -/

namespace ClassDiagram

section Trimming

theorem Text.head_trim {s : List Char} : ∀ c ∈ (Text.trim s).head?, Text.isBlank c = false := by
  intro c head
  obtain ⟨back, -, split⟩ := Text.exists_trimEnd (Text.trimStart s)
  have first : (Text.trimStart s).head? = some c := by
    rw [split, List.head?_append, show (Text.trimEnd (Text.trimStart s)).head? = some c from head]
    rfl
  exact Text.head_dropWhile c first

theorem Text.IsTrimmed.toList_eq {s : String} (h : Text.IsTrimmed s) :
    Text.trim s.toList = s.toList := by
  have same := congrArg String.toList h
  rwa [Text.trimmed, String.toList_ofList] at same

theorem Text.IsFilled.exists_head {s : String} (h : Text.IsFilled s) :
    ∃ c rest, s.toList = c :: rest ∧ Text.isBlank c = false := by
  cases shape : s.toList with
  | nil => exact absurd (String.toList_eq_nil_iff.mp shape) h.nonempty
  | cons c rest =>
      refine ⟨c, rest, rfl, ?_⟩
      apply Text.head_trim (s := s.toList)
      rw [h.trimmed.toList_eq, shape]
      rfl

end Trimming

/-- Whether the notation can express the member: its name and its type must not hold what ends
them in notation. -/
def Member.Expressible (m : Member) : Prop :=
  (∀ c ∈ m.name.toList, c ≠ '(' ∧ c ≠ ':' ∧ c ≠ '\n' ∧ c ≠ '\r') ∧
    ∀ c ∈ m.typeName.toList, c ≠ '\n' ∧ c ≠ '\r'

instance (m : Member) : Decidable m.Expressible :=
  @instDecidableAnd _ _ (List.decidableBAll _ _) (List.decidableBAll _ _)

namespace Notation

section Printing

theorem filled_start {s : String} (h : Text.IsFilled s) :
    ∀ c ∈ s.toList.head?, c ≠ ' ' ∧ c ≠ '\t' := by
  intro c head
  obtain ⟨first, rest, shape, visible⟩ := h.exists_head
  rw [shape, List.head?_cons, Option.mem_some_iff] at head
  subst head
  constructor
  · rintro rfl
    exact absurd visible (by decide)
  · rintro rfl
    exact absurd visible (by decide)

theorem filled_visible {s : String} (h : Text.IsFilled s) :
    ∃ c ∈ s.toList, Text.isBlank c = false := by
  obtain ⟨c, rest, shape, visible⟩ := h.exists_head
  exact ⟨c, by simp [shape], visible⟩

def printed (m : Member) (expressible : m.Expressible) : Spelling where
  indent := []
  visibility := m.visibility
  inWords := false
  gap := [' ']
  name := m.name.toList
  parameters := if m.isOperation then some [] else none
  beforeColon := []
  afterColon := [' ']
  typeName := m.typeName.toList
  indent_spaces := by simp [Spaces]
  gap_spaces := by simp [Spaces]
  word_apart := by simp
  name_inside := expressible.1
  name_start := filled_start m.name_filled
  name_filled := filled_visible m.name_filled
  parameters_spaces := by simp [Spaces]
  beforeColon_spaces := by simp [Spaces]
  afterColon_spaces := by simp [Spaces]
  type_inside := expressible.2
  type_filled := filled_visible m.type_filled

theorem text_printed (m : Member) (expressible : m.Expressible) :
    (printed m expressible).text = m.written := by
  cases operation : m.isOperation <;>
    simp [printed, Spelling.text, Member.written, markText, listText, operation]

theorem parseMember_text {m : Member} (expressible : m.Expressible) :
    parseMember m.text = .ok m := by
  obtain ⟨d, read, visibility, kindIff, name, typeName⟩ := (printed m expressible).exists_read
  rw [parseMember_eq_ok, readMember_eq_ok, Member.text, String.toList_ofList]
  refine ⟨d, text_printed m expressible ▸ read, validate_eq_ok.mpr ⟨?_, visibility.symm, ?_, ?_⟩⟩
  · have operation : d.kind = .operation ↔ m.kind = .operation := by
      rw [kindIff]
      cases shape : m.kind <;> simp [printed, Member.isOperation, shape]
    cases left : m.kind <;> cases right : d.kind <;> simp [left, right] at operation ⊢
  · calc
      m.name = String.ofList m.name.toList := String.ofList_toList.symm
      _ = String.ofList (Text.trim m.name.toList) := by rw [m.name_filled.trimmed.toList_eq]
      _ = String.ofList (Text.trim d.name) := by rw [name]; rfl
  · calc
      m.typeName = String.ofList m.typeName.toList := String.ofList_toList.symm
      _ = String.ofList (Text.trim m.typeName.toList) := by rw [m.type_filled.trimmed.toList_eq]
      _ = String.ofList (Text.trim d.typeName) := by rw [typeName]; rfl

end Printing

section Reading

theorem mem_of_mem_trim {s : List Char} {c : Char} (member : c ∈ Text.trim s) : c ∈ s := by
  have started : c ∈ Text.trimStart s := by
    obtain ⟨back, -, split⟩ := Text.exists_trimEnd (Text.trimStart s)
    rw [split]
    exact List.mem_append_left _ member
  exact List.dropWhile_subset _ started

theorem inside_of_readRun {part : Part} {inside : Char → Bool} {s run rest : List Char}
    (read : readRun part inside s = .ok (run, rest)) :
    ∀ c ∈ Text.trim run, inside c = true := by
  intro c member
  obtain ⟨rfl, -, -⟩ := readRun_eq_ok.mp read
  rw [Text.trim_trimEnd] at member
  exact Text.of_mem_takeWhile (mem_of_mem_trim member)

theorem expressible_of_parseMember {source : String} {m : Member}
    (read : parseMember source = .ok m) : m.Expressible := by
  rw [parseMember_eq_ok, readMember_eq_ok] at read
  obtain ⟨d, declared, valid⟩ := read
  obtain ⟨-, -, name, typeName⟩ := validate_eq_ok.mp valid
  obtain ⟨_, _, _, _, -, named, -, -, typed⟩ := readDeclaration_eq_ok.mp declared
  constructor
  · intro c member
    rw [name, String.toList_ofList] at member
    exact inName_iff.mp (inside_of_readRun named c member)
  · intro c member
    rw [typeName, String.toList_ofList] at member
    exact inType_iff.mp (inside_of_readRun typed c member)

theorem parseMember_text_iff {m : Member} : parseMember m.text = .ok m ↔ m.Expressible :=
  ⟨expressible_of_parseMember, parseMember_text⟩

end Reading

end Notation

namespace MemberRecord

theorem ofMember_eq (m : Member) :
    ofMember m =
      if m.Expressible then .line m.text else .fields m.kind m.visibility m.name m.typeName := by
  unfold ofMember
  by_cases expressible : m.Expressible
  · rw [Notation.parseMember_text expressible, if_pos expressible]
    exact if_pos rfl
  · rw [if_neg expressible]
    cases read : Notation.parseMember m.text with
    | error e => rfl
    | ok again =>
        have other : again ≠ m := by
          rintro rfl
          exact expressible (Notation.parseMember_text_iff.mp read)
        exact if_neg other

theorem toMember_ofMember (m : Member) : (ofMember m).toMember = .ok m := by
  rw [ofMember_eq]
  split
  next expressible => rw [toMember, mapError_eq_ok, Notation.parseMember_text expressible]
  next =>
    rw [toMember, mapError_eq_ok, Member.make_eq_ok]
    exact ⟨rfl, rfl, m.name_filled.trimmed.symm, m.type_filled.trimmed.symm⟩

end MemberRecord

namespace Notation

/-- Printing and reading are inverse to each other for the members that the notation can express,
which are those that can be read at all. These are recorded in notation and all others by their
fields, and every record gives its member back. -/
theorem printing_inverts_reading :
    (∀ m : Member,
      (parseMember m.text = .ok m ↔ m.Expressible) ∧
        MemberRecord.ofMember m =
          (if m.Expressible then .line m.text
            else .fields m.kind m.visibility m.name m.typeName) ∧
        (MemberRecord.ofMember m).toMember = .ok m) ∧
      ∀ source m, parseMember source = .ok m → m.Expressible ∧ parseMember m.text = .ok m := by
  constructor
  · intro m
    exact ⟨parseMember_text_iff, MemberRecord.ofMember_eq m, MemberRecord.toMember_ofMember m⟩
  · intro source m read
    have expressible := expressible_of_parseMember read
    exact ⟨expressible, parseMember_text expressible⟩

end Notation

end ClassDiagram
