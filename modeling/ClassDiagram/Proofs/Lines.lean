import ClassDiagram.Proofs.Lists
import ClassDiagram.Text.Blank

/-! Texts cut into lines, and the bytes at which the lines begin. -/

namespace ClassDiagram

namespace Text

theorem splitAt_eq_splitOn (mark : Char) (s : List Char) : splitAt mark s = s.splitOn mark := by
  induction s with
  | nil => rfl
  | cons c rest ih =>
      rw [splitAt, List.splitOn_cons_eq_if_modifyHead, ih]
      by_cases here : c = mark
      · rw [if_pos here, if_pos (beq_iff_eq.mpr here)]
      · rw [if_neg here, if_neg (by simpa using here)]
        cases parts : rest.splitOn mark with
        | nil => exact absurd parts (List.splitOn_ne_nil mark rest)
        | cons part parts => rfl

theorem not_mem_of_mem_splitAt {mark : Char} {s part : List Char} (member : part ∈ splitAt mark s) :
    mark ∉ part := by
  induction s generalizing part with
  | nil =>
      rw [List.mem_singleton.mp member]
      exact List.not_mem_nil
  | cons c rest ih =>
      rw [splitAt] at member
      split at member
      next here =>
        rcases List.mem_cons.mp member with rfl | later
        · exact List.not_mem_nil
        · exact ih later
      next other =>
        split at member
        next none =>
          rw [List.mem_singleton.mp member, List.mem_singleton]
          exact Ne.symm other
        next first parts found =>
          rw [found] at ih
          rcases List.mem_cons.mp member with rfl | later
          · rw [List.mem_cons, not_or]
            exact ⟨Ne.symm other, ih List.mem_cons_self⟩
          · exact ih (List.mem_cons_of_mem _ later)

theorem byteSize_ofList (s : List Char) : byteSize s = (String.ofList s).utf8ByteSize := by
  induction s with
  | nil => rfl
  | cons c rest ih =>
      rw [byteSize, ih, String.ofList_cons, String.utf8ByteSize_append,
        String.utf8ByteSize_singleton]

theorem byteSize_toList (s : String) : byteSize s.toList = s.utf8ByteSize := by
  rw [byteSize_ofList, String.ofList_toList]

theorem byteSize_append (a b : List Char) : byteSize (a ++ b) = byteSize a + byteSize b := by
  rw [byteSize_ofList, byteSize_ofList, byteSize_ofList, String.ofList_append,
    String.utf8ByteSize_append]

def extent : List (List Char) → Nat
  | [] => 0
  | line :: lines => byteSize line + 1 + extent lines

theorem byteSize_flatMap (lines : List (List Char)) :
    byteSize (lines.flatMap (· ++ ['\n'])) = extent lines := by
  induction lines with
  | nil => rfl
  | cons line lines ih =>
      rw [List.flatMap_cons, byteSize_append, byteSize_append, ih, extent]
      rfl

def HasLine (source : List Char) (start : Nat) (line : List Char) : Prop :=
  '\n' ∉ line ∧ ∃ front back, source = front ++ line ++ back ∧ byteSize front = start ∧
    (∀ c ∈ front.getLast?, c = '\n') ∧ ∀ c ∈ back.head?, c = '\n'

theorem hasLine_of_split {source line : List Char} {before after : List (List Char)}
    (split : splitAt '\n' source = before ++ line :: after) :
    HasLine source (extent before) line := by
  refine ⟨?_, before.flatMap (· ++ ['\n']), after.flatMap (['\n'] ++ ·), ?_,
    byteSize_flatMap before, ?_, ?_⟩
  · exact not_mem_of_mem_splitAt (split ▸ List.mem_append_right _ List.mem_cons_self)
  · rw [← intercalate_eq_flatMap, ← split, splitAt_eq_splitOn, List.intercalate_splitOn]
  · intro c last
    rcases List.eq_nil_or_concat before with rfl | ⟨lines, final, rfl⟩
    · cases last
    · simpa [eq_comm] using last
  · intro c first
    cases after with
    | nil => cases first
    | cons next after => simpa [eq_comm] using first

theorem extent_splitAt (s : List Char) : extent (splitAt '\n' s) = byteSize s + 1 := by
  induction s with
  | nil => rfl
  | cons c rest ih =>
      rw [splitAt, byteSize]
      split
      next here =>
        have size : c.utf8Size = 1 := by rw [here]; rfl
        simp only [extent, byteSize] at ih ⊢
        omega
      next =>
        cases parts : splitAt '\n' rest with
        | nil => exact absurd (splitAt_eq_splitOn '\n' rest ▸ parts) (List.splitOn_ne_nil _ _)
        | cons part parts =>
            simp only [parts, extent, byteSize] at ih ⊢
            omega

end Text

end ClassDiagram
