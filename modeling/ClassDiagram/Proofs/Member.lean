import ClassDiagram.Member
import ClassDiagram.Proofs.Result

/-! Members are made from any two texts that are not blank, and keep them trimmed. -/

namespace ClassDiagram

theorem Visibility.parse_eq_ok {word : String} {visibility : Visibility} :
    Visibility.parse word = .ok visibility ↔ visibility.keyword = word := by
  have known : Visibility.ofKeyword? word = some visibility ↔ visibility.keyword = word := by
    constructor
    · intro found
      simpa using List.find?_some found
    · rintro rfl
      cases visibility <;> rfl
  rw [← known]
  unfold Visibility.parse
  cases Visibility.ofKeyword? word <;> simp

namespace Member

variable {m new : Member}

theorem make_eq_ok {kind : MemberKind} {visibility : Visibility} {name typeName : String} :
    Member.make kind visibility name typeName = .ok m ↔
      m.kind = kind ∧ m.visibility = visibility ∧ m.name = Text.trimmed name ∧
        m.typeName = Text.trimmed typeName := by
  simp only [make, bind_eq_ok, pure_eq_ok, Field.require_eq_ok]
  constructor
  · rintro ⟨⟨name, nameFilled⟩, rfl, ⟨typeName, typeFilled⟩, rfl, rfl⟩
    exact ⟨rfl, rfl, rfl, rfl⟩
  · obtain ⟨kind, visibility, name, typeName, nameFilled, typeFilled⟩ := m
    rintro ⟨rfl, rfl, rfl, rfl⟩
    exact ⟨⟨_, nameFilled⟩, rfl, ⟨_, typeFilled⟩, rfl, rfl⟩

theorem setVisibility_eq_ok {word : String} :
    m.setVisibility word = .ok new ↔
      new.visibility.keyword = word ∧ new.kind = m.kind ∧ new.name = m.name ∧
        new.typeName = m.typeName := by
  simp only [setVisibility, bind_eq_ok, pure_eq_ok, Visibility.parse_eq_ok]
  constructor
  · rintro ⟨visibility, known, rfl⟩
    exact ⟨known, rfl, rfl, rfl⟩
  · obtain ⟨kind, visibility, name, typeName, nameFilled, typeFilled⟩ := new
    rintro ⟨known, rfl, rfl, rfl⟩
    exact ⟨visibility, known, rfl⟩

theorem rename_eq_ok {name : String} :
    m.rename name = .ok new ↔
      new.name = Text.trimmed name ∧ new.kind = m.kind ∧ new.visibility = m.visibility ∧
        new.typeName = m.typeName := by
  simp only [rename, bind_eq_ok, pure_eq_ok, Field.require_eq_ok]
  constructor
  · rintro ⟨⟨name, filled⟩, rfl, rfl⟩
    exact ⟨rfl, rfl, rfl, rfl⟩
  · obtain ⟨kind, visibility, name, typeName, nameFilled, typeFilled⟩ := new
    rintro ⟨rfl, rfl, rfl, rfl⟩
    exact ⟨⟨_, nameFilled⟩, rfl, rfl⟩

theorem setType_eq_ok {typeName : String} :
    m.setType typeName = .ok new ↔
      new.typeName = Text.trimmed typeName ∧ new.kind = m.kind ∧
        new.visibility = m.visibility ∧ new.name = m.name := by
  simp only [setType, bind_eq_ok, pure_eq_ok, Field.require_eq_ok]
  constructor
  · rintro ⟨⟨typeName, filled⟩, rfl, rfl⟩
    exact ⟨rfl, rfl, rfl, rfl⟩
  · obtain ⟨kind, visibility, name, typeName, nameFilled, typeFilled⟩ := new
    rintro ⟨rfl, rfl, rfl, rfl⟩
    exact ⟨⟨_, typeFilled⟩, rfl, rfl⟩

end Member

end ClassDiagram
