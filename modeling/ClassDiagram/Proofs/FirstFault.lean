import ClassDiagram.Proofs.Lists

/-! Chains of checks that stop at the first fault. Their faults are listed in the order of the
checks; a chain is refused with the first of them, and goes through if there are none. -/

namespace ClassDiagram

/-- A result that is the first fault, or, without faults, a value of which something holds. -/
def Yields {α ε : Type} (faults : List ε) (holds : α → Prop) (result : Except ε α) : Prop :=
  match faults with
  | [] => ∃ a, result = .ok a ∧ holds a
  | e :: _ => result = .error e

def alongside {α β : Type} (f : List α → α → β) (earlier : List α) : List α → List β
  | [] => []
  | a :: rest => f earlier a :: alongside f (earlier ++ [a]) rest

namespace Yields

variable {α β ε ε' : Type} {faults later : List ε} {holds : α → Prop} {after : β → Prop}
  {result : Except ε α}

theorem exists_ok (h : Yields faults holds result) : (∃ a, result = .ok a) ↔ faults = [] := by
  cases faults with
  | nil =>
      obtain ⟨a, rfl, -⟩ := h
      simp
  | cons e more =>
      obtain rfl : result = .error e := h
      simp

theorem eq_error (h : Yields faults holds result) {e : ε} :
    result = .error e ↔ faults.head? = some e := by
  cases faults with
  | nil =>
      obtain ⟨a, rfl, -⟩ := h
      simp
  | cons first more =>
      obtain rfl : result = .error first := h
      simp

theorem of_ok (h : Yields faults holds result) {a : α} (made : result = .ok a) : holds a := by
  cases faults with
  | nil =>
      obtain ⟨b, same, there⟩ := h
      cases made.symm.trans same
      exact there
  | cons e more => cases made.symm.trans h

theorem imp (h : Yields faults holds result) {holds' : α → Prop}
    (weaker : ∀ a, holds a → holds' a) : Yields faults holds' result := by
  cases faults with
  | nil =>
      obtain ⟨a, made, there⟩ := h
      exact ⟨a, made, weaker a there⟩
  | cons e more => exact h

theorem bind (h : Yields faults holds result) {next : α → Except ε β}
    (rest : ∀ a, holds a → Yields later after (next a)) :
    Yields (faults ++ later) after (result >>= next) := by
  cases faults with
  | nil =>
      obtain ⟨a, rfl, there⟩ := h
      exact rest a there
  | cons e more =>
      obtain rfl : result = .error e := h
      rfl

theorem bind_pure (h : Yields faults holds result) {f : α → β}
    (rest : ∀ a, holds a → after (f a)) :
    Yields faults after (result >>= fun a => pure (f a)) := by
  cases faults with
  | nil =>
      obtain ⟨a, rfl, there⟩ := h
      exact ⟨f a, rfl, rest a there⟩
  | cons e more =>
      obtain rfl : result = .error e := h
      rfl

theorem mapError (h : Yields faults holds result) (f : ε → ε') :
    Yields (faults.map f) holds (result.mapError f) := by
  cases faults with
  | nil =>
      obtain ⟨a, rfl, there⟩ := h
      exact ⟨a, rfl, there⟩
  | cons e more =>
      obtain rfl : result = .error e := h
      rfl

theorem self (result : Except ε α) :
    Yields (error? result).toList (fun a => result = .ok a) result := by
  cases result with
  | ok a => exact ⟨a, rfl, rfl⟩
  | error e => rfl

theorem mapM {f : α → Except ε β} {faults : α → List ε} {agree : α → β → Prop} {as : List α}
    (each : ∀ a ∈ as, Yields (faults a) (agree a) (f a)) :
    Yields (as.flatMap faults) (List.Forall₂ agree as) (as.mapM f) := by
  induction as with
  | nil => exact ⟨[], rfl, .nil⟩
  | cons a as ih =>
      have others := ih fun x member => each x (List.mem_cons_of_mem _ member)
      rw [List.mapM_cons, List.flatMap_cons]
      exact (each a List.mem_cons_self).bind fun b here =>
        others.bind_pure fun bs there => .cons here there

/-- A fold is refused with the first fault of its steps, where the faults of a step may depend on
the elements before it. -/
theorem foldlM {step : α → β → Except ε α} {faults : List β → β → List ε} {whole : List β} {a : α}
    (holds : List β → List β → α → Prop) (start : holds [] whole a)
    (kept : ∀ done b todo a, done ++ b :: todo = whole → holds done (b :: todo) a →
      Yields (faults done b) (holds (done ++ [b]) todo) (step a b)) :
    Yields (alongside faults [] whole).flatten (holds whole []) (whole.foldlM step a) := by
  suffices ∀ todo done a, done ++ todo = whole → holds done todo a →
      Yields (alongside faults done todo).flatten (holds whole []) (todo.foldlM step a) from
    this whole [] a (List.nil_append _) start
  intro todo
  induction todo with
  | nil =>
      intro done a split here
      rw [List.append_nil] at split
      exact ⟨a, rfl, split ▸ here⟩
  | cons b todo ih =>
      intro done a split here
      rw [List.foldlM_cons, alongside, List.flatten_cons]
      exact (kept done b todo a split here).bind fun next there =>
        ih (done ++ [b]) next (by simpa using split) there

end Yields

theorem head?_flatMap_eq_some {α ε : Type} {faults : α → List ε} {as : List α} {e : ε} :
    (as.flatMap faults).head? = some e ↔
      ∃ front a back, as = front ++ a :: back ∧ (∀ earlier ∈ front, faults earlier = []) ∧
        (faults a).head? = some e := by
  rw [List.head?_flatMap, List.findSome?_eq_some_iff]
  simp only [List.head?_eq_none_iff]
  exact exists₃_congr fun _ _ _ => and_congr_right fun _ => And.comm

theorem alongside_const {α β : Type} (f : α → β) (earlier as : List α) :
    alongside (fun _ => f) earlier as = as.map f := by
  induction as generalizing earlier with
  | nil => rfl
  | cons a rest ih => rw [alongside, ih, List.map_cons]

theorem alongside_append {α β : Type} (f : List α → α → β) (earlier as : List α) (a : α) :
    alongside f earlier (as ++ [a]) = alongside f earlier as ++ [f (earlier ++ as) a] := by
  induction as generalizing earlier with
  | nil => simp [alongside]
  | cons first rest ih => simp [alongside, ih]

theorem mem_alongside {α β : Type} {f : List α → α → β} {earlier as : List α} {b : β} :
    b ∈ alongside f earlier as ↔
      ∃ front a back, as = front ++ a :: back ∧ f (earlier ++ front) a = b := by
  induction as generalizing earlier with
  | nil => simp [alongside]
  | cons first rest ih =>
      rw [alongside, List.mem_cons, ih]
      constructor
      · rintro (rfl | ⟨front, a, back, rfl, same⟩)
        · exact ⟨[], first, rest, rfl, by rw [List.append_nil]⟩
        · exact ⟨first :: front, a, back, rfl, by simpa using same⟩
      · rintro ⟨front, a, back, split, same⟩
        cases front with
        | nil =>
            obtain ⟨rfl, rfl⟩ := List.cons.inj split
            exact .inl (by simpa using same.symm)
        | cons x front =>
            obtain ⟨rfl, rfl⟩ := List.cons.inj split
            exact .inr ⟨front, a, back, rfl, by simpa using same⟩

theorem flatten_alongside_eq_nil {α β : Type} {f : List α → α → List β} {as : List α} :
    (alongside f [] as).flatten = [] ↔
      ∀ front a back, as = front ++ a :: back → f front a = [] := by
  rw [List.flatten_eq_nil_iff]
  constructor
  · intro none front a back split
    exact none _ (mem_alongside.mpr ⟨front, a, back, split, rfl⟩)
  · intro none part member
    obtain ⟨front, a, back, split, rfl⟩ := mem_alongside.mp member
    exact none front a back split

end ClassDiagram
