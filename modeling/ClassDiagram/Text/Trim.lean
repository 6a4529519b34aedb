import ClassDiagram.Text.Blank

/-! What trimming leaves, and texts that trimming leaves alone. -/

namespace ClassDiagram.Text

theorem of_mem_takeWhile {p : Char → Bool} {s : List Char} {c : Char}
    (member : c ∈ s.takeWhile p) : p c = true := by
  induction s with
  | nil => simp at member
  | cons head tail ih =>
      rw [List.takeWhile_cons] at member
      split at member
      · rcases List.mem_cons.mp member with rfl | later
        · assumption
        · exact ih later
      · simp at member

theorem head_dropWhile {p : Char → Bool} {s : List Char} :
    ∀ c ∈ (s.dropWhile p).head?, p c = false := by
  intro c head
  have stop := List.head?_dropWhile_not p s
  rw [show (s.dropWhile p).head? = some c from head] at stop
  exact stop

theorem trimStart_append (front s : List Char) (blank : ∀ c ∈ front, isBlank c = true) :
    trimStart (front ++ s) = trimStart s :=
  List.dropWhile_append_of_pos blank

theorem trimEnd_append (s back : List Char) (blank : ∀ c ∈ back, isBlank c = true) :
    trimEnd (s ++ back) = trimEnd s := by
  unfold trimEnd
  rw [List.reverse_append, List.dropWhile_append_of_pos]
  intro c member
  exact blank c (List.mem_reverse.mp member)

theorem trimStart_eq_nil {s : List Char} (blank : ∀ c ∈ s, isBlank c = true) :
    trimStart s = [] := by
  have h := trimStart_append s [] blank
  rwa [List.append_nil] at h

theorem exists_trimStart (s : List Char) :
    ∃ front, (∀ c ∈ front, isBlank c = true) ∧ s = front ++ trimStart s :=
  ⟨s.takeWhile isBlank, fun _ => of_mem_takeWhile, List.takeWhile_append_dropWhile.symm⟩

theorem exists_trimEnd (s : List Char) :
    ∃ back, (∀ c ∈ back, isBlank c = true) ∧ s = trimEnd s ++ back := by
  refine ⟨(s.reverse.takeWhile isBlank).reverse, ?_, ?_⟩
  · intro c member
    exact of_mem_takeWhile (List.mem_reverse.mp member)
  · unfold trimEnd
    rw [← List.reverse_append, List.takeWhile_append_dropWhile, List.reverse_reverse]

theorem trim_append_blank (s back : List Char) (blank : ∀ c ∈ back, isBlank c = true) :
    trim (s ++ back) = trim s := by
  unfold trim
  by_cases empty : trimStart s = []
  · obtain ⟨front, blankFront, split⟩ := exists_trimStart s
    rw [empty, List.append_nil] at split
    rw [split, trimStart_append front back blankFront, trimStart_eq_nil blank,
      trimStart_eq_nil blankFront]
  · have kept : trimStart (s ++ back) = trimStart s ++ back := by
      unfold trimStart at empty ⊢
      rw [List.dropWhile_append]
      simp [empty]
    rw [kept, trimEnd_append _ back blank]

theorem trim_blank_append (front s : List Char) (blank : ∀ c ∈ front, isBlank c = true) :
    trim (front ++ s) = trim s := by
  unfold trim
  rw [trimStart_append front s blank]

theorem trim_trimEnd (s : List Char) : trim (trimEnd s) = trim s := by
  obtain ⟨back, blank, split⟩ := exists_trimEnd s
  calc
    trim (trimEnd s) = trim (trimEnd s ++ back) := (trim_append_blank _ back blank).symm
    _ = trim s := by rw [← split]

theorem trim_trimStart (s : List Char) : trim (trimStart s) = trim s := by
  obtain ⟨front, blank, split⟩ := exists_trimStart s
  calc
    trim (trimStart s) = trim (front ++ trimStart s) := (trim_blank_append front _ blank).symm
    _ = trim s := by rw [← split]

theorem trimEnd_eq_nil_iff {s : List Char} : trimEnd s = [] ↔ ∀ c ∈ s, isBlank c = true := by
  constructor
  · intro empty
    obtain ⟨back, blank, split⟩ := exists_trimEnd s
    rw [empty, List.nil_append] at split
    rwa [split]
  · intro blank
    exact trimEnd_append [] s blank

theorem blank_of_trim {s : List Char} (empty : trim s = []) : ∀ c ∈ s, isBlank c = true := by
  obtain ⟨front, blank, split⟩ := exists_trimStart s
  intro c member
  rw [split] at member
  rcases List.mem_append.mp member with before | rest
  · exact blank c before
  · exact trimEnd_eq_nil_iff.mp empty c rest

theorem trim_trim (s : List Char) : trim (trim s) = trim s := by
  calc
    trim (trim s) = trim (trimStart s) := trim_trimEnd (trimStart s)
    _ = trim s := trim_trimStart s

def IsTrimmed (s : String) : Prop := trimmed s = s

/-- What titles, names and types are: trimmed, with something left. -/
structure IsFilled (s : String) : Prop where
  trimmed : IsTrimmed s
  nonempty : s ≠ ""

theorem isTrimmed_trimmed (s : String) : IsTrimmed (trimmed s) := by
  unfold IsTrimmed trimmed
  rw [String.toList_ofList, trim_trim]

theorem isFilled_trimmed {s : String} (left : (trimmed s).isEmpty = false) :
    IsFilled (trimmed s) where
  trimmed := isTrimmed_trimmed s
  nonempty := by
    intro empty
    rw [empty] at left
    simp at left

end ClassDiagram.Text
