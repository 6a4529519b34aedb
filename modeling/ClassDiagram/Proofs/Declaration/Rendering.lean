import ClassDiagram.Declaration
import ClassDiagram.Proofs.Lists
import ClassDiagram.Proofs.Model.Sound

/-! Declarations as they are read off the plain lists of entities and relationships, in their order
and without any index. In a model that operations lead to, this is what the generator writes. -/

namespace ClassDiagram

namespace Plain

variable (settings : CodegenSettings) (entities : List Entity) (relationships : List Relationship)

def title (id : EntityId) : String :=
  ((entities.find? (·.id = id)).map (·.title)).getD ""

/-- The earliest inheritance that reaches an entity decides what it extends. -/
def extension (id : EntityId) : String :=
  match relationships.find? fun r => r.kind = .inheritance ∧ r.target = id with
  | some r => " extends " ++ title entities r.source
  | none => ""

def header (e : Entity) : String :=
  e.kind.keyword ++ " " ++ e.title ++ extension entities relationships e.id ++ " \x7b"

def traced (id : EntityId) : List Relationship :=
  if settings.trace then relationships.filter fun r => r.kind ≠ .inheritance ∧ r.touches id else []

def comment (r : Relationship) : String :=
  "// " ++ r.kind.name ++ ": " ++ title entities r.source ++ " -> " ++ title entities r.target

def member (m : Member) : String :=
  m.visibility.keyword ++ " " ++ m.typeName ++ " " ++ m.name ++
    if m.kind = .operation then " \x7b \x7d" else ";"

def framed (e : Entity) (body : List String) : List String :=
  header entities relationships e :: body ++
    "\x7d" :: (traced settings relationships e.id).map (comment entities)

def indented (line : String) : String := if line = "" then "" else settings.indent ++ line

/-- The lines that declare an entity. A package holds the lines of what is nested in it. -/
inductive Declares : Entity → List String → Prop where
  | members {e : Entity} (plain : e.kind ≠ .package) :
      Declares e
        (framed settings entities relationships e
          (e.members.map fun entry => settings.indent ++ member entry.2))
  | nested {e : Entity} {blocks : List (List String)} (package : e.kind = .package)
      (inside : List.Forall₂ Declares (entities.filter (·.parent = some e.id)) blocks) :
      Declares e
        (framed settings entities relationships e
          ((List.intercalate [""] blocks).map (indented settings)))

end Plain

section Lines

theorem separated_eq (blocks : List (List Line)) :
    separated blocks = List.intercalate [Line.blank] blocks := by
  induction blocks with
  | nil => rfl
  | cons block rest ih =>
      cases rest with
      | nil => simp [separated]
      | cons next rest =>
          rw [separated, ih, List.intercalate_cons_cons, List.append_assoc]
          rfl

theorem joined_eq (between : List Char) (parts : List (List Char)) :
    Text.joined between parts = List.intercalate between parts := by
  induction parts with
  | nil => rfl
  | cons part rest ih =>
      cases rest with
      | nil => simp [Text.joined]
      | cons next rest => rw [Text.joined, ih, List.intercalate_cons_cons]

def Line.shown (indent : String) (line : Line) : String :=
  if line.text = "" then "" else String.join (List.replicate line.depth indent) ++ line.text

theorem toList_shown (indent : String) (line : Line) :
    (line.shown indent).toList = line.written indent := by
  rw [Line.shown, Line.written]
  by_cases empty : line.text = ""
  · rw [if_pos empty, if_pos (String.isEmpty_iff.mpr empty), String.toList_empty]
  · rw [if_neg empty, if_neg (mt String.isEmpty_iff.mp empty), String.toList_append,
      String.toList_join, List.flatMap_replicate]

theorem writeLines_eq (indent : String) (lines : List Line) :
    writeLines indent lines = "\n".intercalate (lines.map (Line.shown indent)) := by
  apply String.toList_inj.mp
  rw [writeLines, String.toList_ofList, joined_eq, String.toList_intercalate, List.map_map]
  congr 1
  apply List.map_congr_left
  intro line _
  exact (toList_shown indent line).symm

theorem shown_outermost (indent text : String) : Line.shown indent ⟨0, text⟩ = text := by
  unfold Line.shown
  split
  next empty => exact empty.symm
  next => exact String.empty_append

theorem shown_nested (settings : CodegenSettings) (line : Line) :
    line.nested.shown settings.indent = Plain.indented settings (line.shown settings.indent) := by
  obtain ⟨depth, text⟩ := line
  unfold Line.shown Line.nested Plain.indented
  by_cases empty : text = ""
  · simp [empty]
  · simp [empty, List.replicate_succ, String.append_assoc]

theorem declaration_eq_member (m : Member) : m.declaration = Plain.member m := by
  cases m with
  | mk kind visibility name typeName => cases kind <;> rfl

theorem member_ne_empty (m : Member) : Plain.member m ≠ "" := by
  cases m with
  | mk kind visibility name typeName =>
      cases visibility <;> simp [Plain.member, Visibility.keyword]

theorem shown_member (settings : CodegenSettings) (m : Member) :
    Line.shown settings.indent ⟨1, m.declaration⟩ = settings.indent ++ Plain.member m := by
  calc
    Line.shown settings.indent ⟨1, m.declaration⟩
        = Plain.indented settings (Line.shown settings.indent ⟨0, m.declaration⟩) :=
      shown_nested settings ⟨0, m.declaration⟩
    _ = settings.indent ++ Plain.member m := by
      rw [shown_outermost, declaration_eq_member, Plain.indented, if_neg (member_ne_empty m)]

end Lines

namespace Model

variable {m : Model}

section Reading

theorem title_of_find? {id : EntityId} {e : Entity} (found : m.entities.find? id = some e) :
    Plain.title m.entities.items id = e.title := by
  unfold Plain.title
  rw [show m.entities.items.find? (·.id = id) = some e from found]
  rfl

theorem Sound.superclass?_eq (h : m.Sound) (id : EntityId) :
    (m.superclass? id).map (·.title) =
      (m.relationships.items.find? fun r => r.kind = .inheritance ∧ r.target = id).map
        fun r => Plain.title m.entities.items r.source := by
  have first : (m.relationships.touching id).find? (fun r => r.kind = .inheritance && r.target = id) =
      m.relationships.items.find? fun r => r.kind = .inheritance ∧ r.target = id := by
    rw [h.filed.touching_eq, List.find?_filter]
    congr 1
    funext r
    simp only [Relationship.touches]
    grind
  unfold superclass?
  rw [first]
  cases found : m.relationships.items.find? fun r => r.kind = .inheritance ∧ r.target = id with
  | none => rfl
  | some r =>
      have live := h.wellFormed.source_live r (List.mem_of_find?_eq_some found)
      obtain ⟨e, present, same⟩ := Entities.contains_iff_mem.mp live
      have source : m.entities.find? r.source = some e :=
        (Entities.find?_eq_some h.ordered).mpr ⟨present, same⟩
      rw [Option.bind_some, source, Option.map_some, Option.map_some, title_of_find? source]

theorem Sound.header_eq (h : m.Sound) (e : Entity) :
    m.header e = Plain.header m.entities.items m.relationships.items e := by
  have extended := h.superclass?_eq e.id
  unfold header Plain.header Plain.extension
  generalize m.superclass? e.id = parent at extended ⊢
  generalize (m.relationships.items.find? _) = first at extended ⊢
  cases parent with
  | none =>
      cases first with
      | none => simp
      | some r => cases extended
  | some parent =>
      cases first with
      | none => cases extended
      | some r =>
          have same : parent.title = Plain.title m.entities.items r.source :=
            Option.some.inj extended
          simp [same, String.append_assoc]

theorem Sound.trace?_eq (h : m.Sound) {r : Relationship} (present : r ∈ m.relationships.items) :
    m.trace? r = some (Plain.comment m.entities.items r) := by
  obtain ⟨s, source, sameSource⟩ :=
    Entities.contains_iff_mem.mp (h.wellFormed.source_live r present)
  obtain ⟨t, target, sameTarget⟩ :=
    Entities.contains_iff_mem.mp (h.wellFormed.target_live r present)
  have foundSource : m.entities.find? r.source = some s :=
    (Entities.find?_eq_some h.ordered).mpr ⟨source, sameSource⟩
  have foundTarget : m.entities.find? r.target = some t :=
    (Entities.find?_eq_some h.ordered).mpr ⟨target, sameTarget⟩
  rw [trace?, foundSource, foundTarget, Plain.comment, title_of_find? foundSource,
    title_of_find? foundTarget]
  rfl

theorem Sound.traces_eq (h : m.Sound) (id : EntityId) :
    m.traces id =
      (m.relationships.items.filter fun r => r.kind ≠ .inheritance ∧ r.touches id).map
        (Plain.comment m.entities.items) := by
  have chosen : (m.relationships.touching id).filter (·.kind ≠ .inheritance) =
      m.relationships.items.filter fun r => r.kind ≠ .inheritance ∧ r.touches id := by
    rw [h.filed.touching_eq, List.filter_filter]
    apply List.filter_congr
    intro r _
    simp
  unfold traces
  rw [chosen, ← List.filterMap_eq_map]
  apply List.filterMap_congr
  intro r member
  exact h.trace?_eq (List.mem_of_mem_filter member)

end Reading

section Nesting

def frame (m : Model) (trace : Bool) (e : Entity) (body : List Line) : List Line :=
  ⟨0, m.header e⟩ :: body ++
    ⟨0, "\x7d"⟩ :: if trace then (m.traces e.id).map (⟨0, ·⟩) else []

theorem declaration_plain {e : Entity} (plain : e.kind ≠ .package) (trace : Bool) (depth : Nat) :
    m.declaration trace depth e =
      m.frame trace e (e.members.map fun entry => ⟨1, entry.2.declaration⟩) := by
  cases depth <;> unfold declaration frame <;> cases shape : e.kind <;> simp_all

theorem declaration_package {e : Entity} (package : e.kind = .package) (trace : Bool)
    (depth : Nat) :
    m.declaration trace (depth + 1) e =
      m.frame trace e
        ((separated ((m.entities.children e.id).map (m.declaration trace depth))).map
          Line.nested) := by
  unfold declaration frame
  rw [package]

theorem Sound.child_plain (h : m.Sound) {package : EntityId} {child : Entity}
    (nested : child ∈ m.entities.children package) : child.kind ≠ .package := by
  obtain ⟨present, inside⟩ := Entities.mem_children.mp nested
  intro kind
  rw [(h.wellFormed.entities.package_bare child present kind).1] at inside
  cases inside

end Nesting

section Rendering

variable {settings : CodegenSettings}

theorem Sound.shown_frame (h : m.Sound) (e : Entity) (body : List Line) :
    (m.frame settings.trace e body).map (Line.shown settings.indent) =
      Plain.framed settings m.entities.items m.relationships.items e
        (body.map (Line.shown settings.indent)) := by
  have comments : (if settings.trace then (m.traces e.id).map (⟨0, ·⟩) else []).map
      (Line.shown settings.indent) =
      (Plain.traced settings m.relationships.items e.id).map
        (Plain.comment m.entities.items) := by
    unfold Plain.traced
    split
    · rw [h.traces_eq, List.map_map, List.map_map]
      apply List.map_congr_left
      intro r _
      exact shown_outermost settings.indent (Plain.comment m.entities.items r)
    · rfl
  unfold frame Plain.framed
  rw [List.map_append, List.map_cons, List.map_cons, comments, shown_outermost, shown_outermost,
    h.header_eq]

theorem Sound.shown_plain (h : m.Sound) {e : Entity} (plain : e.kind ≠ .package) (depth : Nat) :
    (m.declaration settings.trace depth e).map (Line.shown settings.indent) =
      Plain.framed settings m.entities.items m.relationships.items e
        (e.members.map fun entry => settings.indent ++ Plain.member entry.2) := by
  rw [declaration_plain plain, h.shown_frame, List.map_map]
  congr 1
  apply List.map_congr_left
  intro entry _
  exact shown_member settings entry.2

theorem Sound.shown_package (h : m.Sound) {e : Entity} (package : e.kind = .package)
    (depth : Nat) :
    (m.declaration settings.trace (depth + 1) e).map (Line.shown settings.indent) =
      Plain.framed settings m.entities.items m.relationships.items e
        ((List.intercalate [""]
          ((m.entities.children e.id).map fun child =>
            (m.declaration settings.trace depth child).map (Line.shown settings.indent))).map
          (Plain.indented settings)) := by
  have nested : (Line.shown settings.indent ∘ Line.nested) =
      Plain.indented settings ∘ Line.shown settings.indent := by
    funext line
    exact shown_nested settings line
  rw [declaration_package package, h.shown_frame, separated_eq, List.map_map, nested,
    ← List.map_map, map_intercalate, List.map_map]
  rfl

theorem Sound.declares_plain_iff (h : m.Sound) {e : Entity} {lines : List String}
    (plain : e.kind ≠ .package) (depth : Nat) :
    Plain.Declares settings m.entities.items m.relationships.items e lines ↔
      lines = (m.declaration settings.trace depth e).map (Line.shown settings.indent) := by
  rw [h.shown_plain plain]
  constructor
  · intro declared
    cases declared with
    | members => rfl
    | nested package => exact absurd package plain
  · rintro rfl
    exact .members plain

theorem Sound.declares_iff (h : m.Sound) {e : Entity} {lines : List String} :
    Plain.Declares settings m.entities.items m.relationships.items e lines ↔
      lines = (m.declarationLines settings e).map (Line.shown settings.indent) := by
  unfold declarationLines fullDepth
  by_cases package : e.kind = .package
  · rw [h.shown_package package]
    constructor
    · intro declared
      cases declared with
      | members plain => exact absurd package plain
      | @nested _ blocks _ inside =>
          -- What is nested is no package itself, so that one level is all there is.
          have same : blocks.map id = (m.entities.children e.id).map fun child =>
              (m.declaration settings.trace m.entities.items.length child).map
                (Line.shown settings.indent) := by
            refine (map_eq_map (forall₂_mem inside) ?_).symm
            rintro child block ⟨nested, -, declared⟩
            exact ((h.declares_plain_iff (h.child_plain nested) _).mp declared).symm
          rw [← same, List.map_id]
    · rintro rfl
      refine .nested package ?_
      show List.Forall₂ _ (m.entities.children e.id) _
      rw [List.forall₂_map_right_iff, List.forall₂_same]
      intro child nested
      exact (h.declares_plain_iff (h.child_plain nested) _).mpr rfl
  · exact h.declares_plain_iff package _

theorem generate_of_find? {id : EntityId} {e : Entity} (found : m.entities.find? id = some e) :
    m.generate settings id = .ok (writeLines settings.indent (m.declarationLines settings e)) := by
  rw [generate, Entities.require_eq_ok.mpr found]
  rfl

theorem generate_of_mem (ordered : m.entities.Ordered) {e : Entity} (present : e ∈ m.entities.items) :
    m.generate settings e.id =
      .ok ("\n".intercalate ((m.declarationLines settings e).map (Line.shown settings.indent))) := by
  rw [generate_of_find? (Entities.find?_of_mem ordered present), writeLines_eq]

theorem generate_of_unknown {id : EntityId} (unknown : ∀ e ∈ m.entities.items, e.id ≠ id) :
    m.generate settings id = .error (.notFound (.entity id)) := by
  have missing : m.entities.find? id = none := by
    apply List.find?_eq_none.mpr
    intro e present
    simpa using unknown e present
  rw [generate, Entities.require, missing]
  rfl

end Rendering

end Model

end ClassDiagram
