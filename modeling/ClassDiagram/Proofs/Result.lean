import ClassDiagram.ModelError

/-! When a chain of steps that can be refused goes through, and with what. -/

namespace ClassDiagram

section Except

variable {α β ε ε' : Type}

theorem ok_bind (a : α) (next : α → Except ε β) : (.ok a >>= next) = next a :=
  rfl

theorem bind_eq_ok {first : Except ε α} {next : α → Except ε β} {b : β} :
    (first >>= next) = .ok b ↔ ∃ a, first = .ok a ∧ next a = .ok b := by
  cases first with
  | error e => simp [bind, Except.bind]
  | ok a => simp [bind, Except.bind]

theorem bind_eq_error {first : Except ε α} {next : α → Except ε β} {e : ε} :
    (first >>= next) = .error e ↔ first = .error e ∨ ∃ a, first = .ok a ∧ next a = .error e := by
  cases first with
  | error e' => simp [bind, Except.bind]
  | ok a => simp [bind, Except.bind]

theorem not_ok_of_error {result : Except ε α} {e : ε} (failed : result = .error e) :
    ¬ ∃ a, result = .ok a := by
  rintro ⟨a, made⟩
  cases failed.symm.trans made

theorem pure_eq_ok {a b : α} : (pure a : Except ε α) = .ok b ↔ b = a := by
  simp [pure, Except.pure, eq_comm]

theorem throw_eq_ok {e : ε} {a : α} : (throw e : Except ε α) = .ok a ↔ False := by
  simp [throw, throwThe, MonadExceptOf.throw]

theorem map_eq_ok {result : Except ε α} {f : α → β} {b : β} :
    result.map f = .ok b ↔ ∃ a, result = .ok a ∧ f a = b := by
  cases result <;> simp [Except.map]

theorem map_bind {γ : Type} (first : Except ε α) (next : α → Except ε β) (f : β → γ) :
    (first >>= next).map f = first >>= fun a => (next a).map f := by
  cases first <;> rfl

theorem mapError_ok (f : ε → ε') (a : α) : (Except.ok a).mapError f = .ok a :=
  rfl

theorem mapError_error (f : ε → ε') (e : ε) :
    (Except.error e : Except ε α).mapError f = .error (f e) :=
  rfl

theorem mapError_bind (first : Except ε α) (next : α → Except ε β) (f : ε → ε') :
    (first >>= next).mapError f = first.mapError f >>= fun a => (next a).mapError f := by
  cases first <;> rfl

theorem mapError_eq_ok {result : Except ε α} {f : ε → ε'} {a : α} :
    result.mapError f = .ok a ↔ result = .ok a := by
  cases result with
  | error e => simp [mapError_error]
  | ok b => simp [mapError_ok]

theorem mapError_eq_error {result : Except ε α} {f : ε → ε'} {e : ε'} :
    result.mapError f = .error e ↔ ∃ cause, result = .error cause ∧ e = f cause := by
  cases result with
  | error cause => simp [mapError_error, eq_comm]
  | ok b => simp [mapError_ok]

def error? : Except ε α → Option ε
  | .ok _ => none
  | .error e => some e

@[simp]
theorem error?_ok (a : α) : error? (.ok a : Except ε α) = none :=
  rfl

@[simp]
theorem error?_error (e : ε) : error? (.error e : Except ε α) = some e :=
  rfl

@[simp]
theorem error?_pure (a : α) : error? (pure a : Except ε α) = none :=
  rfl

@[simp]
theorem error?_throw (e : ε) : error? (throw e : Except ε α) = some e :=
  rfl

@[simp]
theorem error?_map (result : Except ε α) (f : α → β) : error? (result.map f) = error? result := by
  cases result <;> rfl

@[simp]
theorem error?_mapError (result : Except ε α) (f : ε → ε') :
    error? (result.mapError f) = (error? result).map f := by
  cases result <;> rfl

theorem error?_eq_some {result : Except ε α} {e : ε} :
    error? result = some e ↔ result = .error e := by
  cases result <;> simp

/-- The first refusal counts. The second one may be known only after the first step. -/
theorem error?_bind {first : Except ε α} {next : α → Except ε β} {later : Option ε}
    (refused : ∀ a, first = .ok a → error? (next a) = later) :
    error? (first >>= next) = (error? first).or later := by
  cases first with
  | error e => rfl
  | ok a => exact refused a rfl

theorem error?_bind_ok {first : Except ε α} {next : α → Except ε β}
    (done : ∀ a, first = .ok a → error? (next a) = none) :
    error? (first >>= next) = error? first := by
  rw [error?_bind done, Option.or_none]

end Except

theorem Subject.blame_eq_ok {α : Type} {subject : Subject} {result : Except ModelError α} {a : α} :
    subject.blame result = .ok a ↔ result = .ok a :=
  mapError_eq_ok

theorem Field.require_eq_ok {field : Field} {value : String}
    {text : { text : String // Text.IsFilled text }} :
    field.require value = .ok text ↔ text.val = Text.trimmed value := by
  unfold Field.require
  split
  next left =>
    constructor
    · intro h
      cases h
    · intro same
      exact absurd (same ▸ String.isEmpty_iff.mp left) text.property.nonempty
  next left =>
    constructor
    · intro h
      cases h
      rfl
    · intro same
      exact congrArg Except.ok (Subtype.ext same.symm)

end ClassDiagram
