import ClassDiagram.Proofs.Toml.Quoted
import ClassDiagram.Toml.Literal
import ClassDiagram.Toml.Writer
import Mathlib.Data.Nat.Digits.Defs

/-! Booleans and floats are read where they were written: a literal ends before what follows it. -/

namespace ClassDiagram.Toml

/-- What can follow a value: the mark that goes with the array, the table or the line that it is
in. -/
inductive Follows : List Char → Prop where
  | mark {c : Char} (rest : List Char) (h : c ∈ [',', ']', '\n']) : Follows (c :: rest)
  | brace (rest : List Char) : Follows (' ' :: '\x7d' :: rest)

theorem Follows.unmarked {rest : List Char} (h : Follows rest) : Quoted.Unmarked rest := by
  intro quote mark
  simp only [List.mem_cons, List.not_mem_nil, or_false] at mark
  cases h with
  | mark rest h =>
      simp only [List.mem_cons, List.not_mem_nil, or_false] at h
      rcases mark with rfl | rfl <;> rcases h with rfl | rfl | rfl <;>
        exact Quoted.leading_plain (by decide) _
  | brace => rcases mark with rfl | rfl <;> exact Quoted.leading_plain (by decide) _

namespace Literal

variable {w rest : List Char}

def IsBody (c : Char) : Prop := isDelimiter c = false ∧ c ≠ '"' ∧ c ≠ '\''

instance (c : Char) : Decidable (IsBody c) := inferInstanceAs (Decidable (_ ∧ _))

theorem isBody_of_all (all : (w.all fun c => IsBody c) = true) : ∀ c ∈ w, IsBody c :=
  List.all_iff_forall_prop.mp all

theorem word_follows (h : Follows rest) : word rest = [] := by
  cases h with
  | mark rest h =>
      simp only [List.mem_cons, List.not_mem_nil, or_false] at h
      rcases h with rfl | rfl | rfl <;> simp [word, isDelimiter, Quoted.isIndent]
  | brace => simp [word, isDelimiter, Quoted.isIndent, goesOn]

theorem word_append (body : ∀ c ∈ w, IsBody c) (h : Follows rest) : word (w ++ rest) = w := by
  induction w with
  | nil => exact word_follows h
  | cons c w ih =>
      obtain ⟨here, later⟩ := List.forall_mem_cons.mp body
      rw [List.cons_append, word, ih later, if_pos (by simp [here.1])]

theorem read_append {value : Value} (body : ∀ c ∈ w, IsBody c) (means : value? w = some value)
    (h : Follows rest) : read (w ++ rest) = some (value, rest) := by
  simp only [read, word_append body h, means, Option.map_some, List.drop_left]

end Literal

/-- What is written for the number is read as the number. -/
def Kept (x : Float32) : Prop :=
  Literal.value? (Decimal.text floatStyle x).toList = some (.float x)

section Numbers

open Decimal Literal

theorem isBody_of_isDigit {c : Char} (digit : c.isDigit = true) : IsBody c := by
  have apart : ∀ other : Char, other.isDigit = false → c ≠ other := by
    rintro other none rfl
    rw [digit] at none
    cases none
  simp [IsBody, isDelimiter, Quoted.isIndent, apart]

theorem isBody_positional (d : Digits) : ∀ c ∈ d.positional, IsBody c := by
  have written : ∀ c ∈ Nat.toDigits 10 d.digits, IsBody c := fun c member =>
    isBody_of_isDigit (Nat.isDigit_of_mem_toDigits (by decide) (by decide) member)
  have zero : IsBody '0' := by decide
  have point : IsBody '.' := by decide
  have zeros : ∀ count, ∀ c ∈ List.replicate count '0', IsBody c := by
    intro count c member
    rw [List.eq_of_mem_replicate member]
    exact zero
  unfold Digits.positional
  dsimp only
  split
  next => exact List.forall_mem_append.mpr ⟨written, zeros _⟩
  split
  next =>
    rw [List.forall_mem_cons, List.forall_mem_cons, List.forall_mem_append]
    exact ⟨zero, point, zeros _, written⟩
  next =>
    rw [List.forall_mem_append, List.forall_mem_cons]
    exact ⟨fun c member => written c (List.mem_of_mem_take member), point,
      fun c member => written c (List.mem_of_mem_drop member)⟩

theorem isBody_text (x : Float32) : ∀ c ∈ (Decimal.text floatStyle x).toList, IsBody c := by
  have sign : ∀ negative, ∀ c ∈ (Decimal.sign negative).toList, IsBody c := fun negative =>
    isBody_of_all (by revert negative; decide)
  unfold Decimal.text
  cases Reading.ofBits x.toBits.toNat with
  | notANumber => exact isBody_of_all (by decide)
  | infinite negative =>
      rw [Reading.text, String.toList_append, List.forall_mem_append]
      exact ⟨sign negative, isBody_of_all (by decide)⟩
  | zero negative =>
      rw [Reading.text, String.toList_append, String.toList_append, List.forall_mem_append,
        List.forall_mem_append]
      exact ⟨⟨sign negative, isBody_of_all (by decide)⟩, isBody_of_all (by decide)⟩
  | finite negative magnitude =>
      rw [Reading.text, String.toList_append, String.toList_append, List.forall_mem_append,
        List.forall_mem_append, String.toList_ofList]
      refine ⟨⟨sign negative, isBody_positional _⟩, isBody_of_all ?_⟩
      split <;> decide

end Numbers

end ClassDiagram.Toml
