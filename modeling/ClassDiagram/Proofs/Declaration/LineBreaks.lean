import ClassDiagram.Proofs.Declaration.Entries
import ClassDiagram.Proofs.Lines

/-! When the generated text can be read line by line. Texts are only trimmed at their ends, so that
titles, names and types may have line breaks inside, and any of these makes lines of its own. -/

namespace ClassDiagram

namespace Text

def OneLine (s : String) : Prop := '\n' ∉ s.toList

instance (s : String) : Decidable (OneLine s) := inferInstanceAs (Decidable ('\n' ∉ s.toList))

theorem oneLine_append {a b : String} : OneLine (a ++ b) ↔ OneLine a ∧ OneLine b := by
  simp only [OneLine, String.toList_append, List.mem_append, not_or]

theorem splitOn_intercalate_iff {lines : List (List Char)} (occupied : lines ≠ []) :
    (List.intercalate ['\n'] lines).splitOn '\n' = lines ↔ ∀ line ∈ lines, '\n' ∉ line := by
  constructor
  · intro same line member
    rw [← same, ← splitAt_eq_splitOn] at member
    exact not_mem_of_mem_splitAt member
  · intro plain
    exact List.splitOn_intercalate '\n' plain occupied

end Text

open Text (OneLine)

section Lines

theorem oneLine_written {indent : String} (plain : OneLine indent) (line : Line) :
    '\n' ∉ line.written indent ↔ OneLine line.text := by
  rw [Line.written]
  split
  next empty =>
    rw [String.isEmpty_iff.mp empty]
    exact iff_of_true List.not_mem_nil (by decide)
  next =>
    have indents : '\n' ∉ (List.replicate line.depth indent.toList).flatten := by
      intro member
      obtain ⟨part, copy, here⟩ := List.mem_flatten.mp member
      exact plain (List.eq_of_mem_replicate copy ▸ here)
    rw [List.mem_append, not_or]
    exact and_iff_right indents

theorem oneLine_member {member : Member} :
    OneLine (Plain.member member) ↔ OneLine member.name ∧ OneLine member.typeName := by
  have word : OneLine member.visibility.keyword := by cases member.visibility <;> decide
  have space : OneLine " " := by decide
  have semicolon : OneLine ";" := by decide
  have braces : OneLine " \x7b \x7d" := by decide
  rw [Plain.member]
  split <;>
    simp only [Text.oneLine_append, word, space, semicolon, braces, true_and, and_true, and_comm]

variable {entities : List Entity} (relationships : List Relationship)

theorem oneLine_header {e : Entity} :
    OneLine (Plain.header entities relationships e) ↔
      OneLine e.title ∧ OneLine (Plain.extension entities relationships e.id) := by
  have word : OneLine e.kind.keyword := by cases e.kind <;> decide
  have space : OneLine " " := by decide
  have brace : OneLine " \x7b" := by decide
  simp only [Plain.header, Text.oneLine_append, word, space, brace, true_and, and_true]

variable (plain : ∀ x ∈ entities, OneLine x.title)

include plain

theorem oneLine_title (id : EntityId) : OneLine (Plain.title entities id) := by
  rw [Plain.title]
  cases found : entities.find? (·.id = id) with
  | none => decide
  | some x => exact plain x (List.mem_of_find?_eq_some found)

theorem oneLine_extension (id : EntityId) :
    OneLine (Plain.extension entities relationships id) := by
  rw [Plain.extension]
  split
  · exact Text.oneLine_append.mpr ⟨by decide, oneLine_title plain _⟩
  · decide

theorem oneLine_comment (r : Relationship) : OneLine (Plain.comment entities r) := by
  have word : OneLine r.kind.name := by cases r.kind <;> decide
  have slashes : OneLine "// " := by decide
  have colon : OneLine ": " := by decide
  have arrow : OneLine " -> " := by decide
  simp only [Plain.comment, Text.oneLine_append, word, slashes, colon, arrow,
    oneLine_title plain, and_self]

end Lines

namespace Model

variable {m : Model} {settings : CodegenSettings}

theorem Sound.mem_entries (h : m.Sound) {entry : Entry} (content : entry ≠ .gap) :
    entry ∈ (m.entries settings).map (·.2) ↔
      ∃ e ∈ m.entities.items, entry ∈ heading e ++ m.ending settings e := by
  let p (entry : Entry) : Bool := entry ≠ .gap
  have chosen : (((m.entries settings).map (·.2)).filter p).Perm _ := h.filter_entries_perm rfl
  have either := chosen.mem_iff (a := entry)
  simpa [p, content] using either

theorem Sound.entries_ne_nil (h : m.Sound) (occupied : m.entities.items ≠ []) :
    m.entries settings ≠ [] := by
  obtain ⟨e, present⟩ := List.exists_mem_of_ne_nil _ occupied
  have opened : Entry.opening e ∈ (m.entries settings).map (·.2) :=
    (h.mem_entries (by simp)).mpr ⟨e, present, List.mem_cons_self⟩
  obtain ⟨entry, member, -⟩ := List.mem_map.mp opened
  exact List.ne_nil_of_mem member

theorem Sound.toList_generateAll (h : m.Sound) :
    (m.generateAll settings).toList = List.intercalate ['\n']
      ((m.entries settings).map fun entry => (Entry.line m entry).written settings.indent) := by
  rw [h.generateAll_shown, String.toList_intercalate, List.map_map]
  congr 1
  apply List.map_congr_left
  intro entry _
  exact toList_shown settings.indent (Entry.line m entry)

/-- Every title stands in a header, and every name and type in the line of its member. -/
theorem Sound.oneLine_entries (h : m.Sound) :
    (∀ entry ∈ (m.entries settings).map (·.2), OneLine (entry.text m)) ↔
      ∀ e ∈ m.entities.items, OneLine e.title ∧
        ∀ entry ∈ e.members, OneLine entry.2.name ∧ OneLine entry.2.typeName := by
  constructor
  · intro plain e present
    have said (entry : Entry) (content : entry ≠ .gap) (here : entry ∈ heading e) :
        OneLine (entry.text m) :=
      plain entry ((h.mem_entries content).mpr ⟨e, present, List.mem_append_left _ here⟩)
    constructor
    · have header := said (.opening e) (by simp) List.mem_cons_self
      exact ((oneLine_header _).mp header).1
    · intro entry member
      have row := said (.member entry.2) (by simp)
        (List.mem_cons_of_mem _ (List.mem_map_of_mem member))
      exact oneLine_member.mp row
  · intro plain entry said
    have titles : ∀ x ∈ m.entities.items, OneLine x.title := fun x present => (plain x present).1
    by_cases gap : entry = .gap
    · have nothing : OneLine "" := by decide
      exact gap ▸ nothing
    · obtain ⟨e, present, here⟩ := (h.mem_entries gap).mp said
      simp only [heading, ending, List.mem_append, List.mem_cons, List.mem_map] at here
      rcases here with (rfl | ⟨member, inside, rfl⟩) | rfl | ⟨r, -, rfl⟩
      · exact (oneLine_header _).mpr ⟨titles e present, oneLine_extension _ titles _⟩
      · exact oneLine_member.mpr ((plain e present).2 member inside)
      · have brace : OneLine "\x7d" := by decide
        exact brace
      · exact oneLine_comment titles r

/-- After every run that leaves an entity, the generated text can be cut into the lines of its
entries exactly if no title, no name and no type has a line break. The entries are a header and a
closing brace for each entity, a line for each member, the traces, and the gaps. -/
theorem run_lines (operations : List Operation) (settings : CodegenSettings)
    (plain : OneLine settings.indent)
    (occupied : (Model.empty.run operations).entities.items ≠ []) :
    let m := Model.empty.run operations
    let said := (m.entries settings).map (·.2)
    ((m.generateAll settings).toList.splitOn '\n' =
        (m.entries settings).map (fun entry => (Entry.line m entry).written settings.indent) ↔
      ∀ e ∈ m.entities.items, OneLine e.title ∧
        ∀ entry ∈ e.members, OneLine entry.2.name ∧ OneLine entry.2.typeName) ∧
      (m.entries settings).map (Entry.line m) = m.allLines settings ∧
      said.filter Entry.isBracket =
        (m.entities.topLevel.flatMap fun e =>
          .opening e ::
            ((m.entities.children e.id).flatMap fun child => [.opening child, .closing child]) ++
            [.closing e]) ∧
      said.countP Entry.isMember = (m.entities.items.map (·.members.length)).sum ∧
      said.countP Entry.isComment = (m.entities.items.map fun e =>
        (Plain.traced settings m.relationships.items e.id).length).sum := by
  intro m said
  have h : m.Sound := sound_run operations
  refine ⟨?_, h.line_entries, h.brackets_entries, h.members_entries, h.comments_entries⟩
  have filled : (m.entries settings).map
      (fun entry => (Entry.line m entry).written settings.indent) ≠ [] :=
    List.map_eq_nil_iff.not.mpr (h.entries_ne_nil occupied)
  rw [h.toList_generateAll, Text.splitOn_intercalate_iff filled, List.forall_mem_map,
    ← h.oneLine_entries, List.forall_mem_map]
  exact forall₂_congr fun entry _ => oneLine_written plain _

theorem run_lines_nested :
    let m := Model.empty.run
      [.createEntity .package "Sales", .createEntity .plainClass "Order", .nest ⟨2⟩ ⟨1⟩,
        .addNewMember ⟨2⟩ .attribute "private" "total" "Money",
        .relate ⟨2⟩ ⟨1⟩ .association "" "" ""]
    OneLine "  " ∧ m.entities.items ≠ [] ∧
      (m.generateAll {}).toList.splitOn '\n' =
        ["package Sales \x7b", "  class Order \x7b", "    private Money total;", "  \x7d",
          "  // Association: Order -> Sales", "\x7d", "// Association: Order -> Sales"].map
          String.toList := by
  intro m
  have plain : OneLine "  " := by decide
  have occupied : m.entities.items ≠ [] := by decide +kernel
  have cut := (run_lines _ {} plain occupied).1.mpr (by decide +kernel)
  refine ⟨plain, occupied, cut.trans ?_⟩
  decide +kernel

/-- An attribute whose name has a line break looks like two attributes. -/
theorem run_lines_forged :
    let m := Model.empty.run
      [.createEntity .plainClass "Order",
        .addNewMember ⟨1⟩ .attribute "private" "total;\n  public Money paid" "Money"]
    let two := Model.empty.run
      [.createEntity .plainClass "Order",
        .addNewMember ⟨1⟩ .attribute "private" "total" "Money",
        .addNewMember ⟨1⟩ .attribute "public" "paid" "Money"]
    m.generateAll {} = two.generateAll {} ∧
      (m.generateAll {}).toList.splitOn '\n' ≠
        (m.entries {}).map (fun entry => (Entry.line m entry).written "  ") := by
  decide +kernel

end Model

end ClassDiagram
