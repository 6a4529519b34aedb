import ClassDiagram.Proofs.Declaration.Rendering

/-! What the declarations of a model consist of, line by line. Every entity is declared once, below
its package if it has one, every member stands in one line, and every relationship that is traced is
traced at each of its ends. -/

namespace ClassDiagram

/-- What a line of the declarations says. -/
inductive Entry where
  | opening (e : Entity)
  | member (m : Member)
  | closing (e : Entity)
  | comment (r : Relationship)
  | gap
  deriving DecidableEq

namespace Entry

def text (m : Model) : Entry → String
  | .opening e => Plain.header m.entities.items m.relationships.items e
  | .member shown => Plain.member shown
  | .closing _ => "\x7d"
  | .comment r => Plain.comment m.entities.items r
  | .gap => ""

-- An entry comes with the number of times that its line is indented.
def line (m : Model) (entry : Nat × Entry) : Line := ⟨entry.1, entry.2.text m⟩

def shown (m : Model) (settings : CodegenSettings) (entry : Nat × Entry) : String :=
  (line m entry).shown settings.indent

def isBracket : Entry → Bool
  | .opening _ | .closing _ => true
  | _ => false

def isMember : Entry → Bool
  | .member _ => true
  | _ => false

def isComment : Entry → Bool
  | .comment _ => true
  | _ => false

end Entry

namespace Model

variable (m : Model) (settings : CodegenSettings)

def surrounded (e : Entity) (body : List (Nat × Entry)) : List (Nat × Entry) :=
  (0, .opening e) :: body ++
    (0, .closing e) ::
      (Plain.traced settings m.relationships.items e.id).map fun r => (0, .comment r)

def ownEntries (e : Entity) : List (Nat × Entry) :=
  m.surrounded settings e (e.members.map fun entry => (1, .member entry.2))

def blockEntries (e : Entity) : List (Nat × Entry) :=
  if e.kind = .package then
    m.surrounded settings e
      ((List.intercalate [(0, .gap)] ((m.entities.children e.id).map (m.ownEntries settings))).map
        fun entry => (entry.1 + 1, entry.2))
  else m.ownEntries settings e

def entries : List (Nat × Entry) :=
  List.intercalate [(0, .gap)] (m.entities.topLevel.map (m.blockEntries settings))

/-- The entities in the order in which their declarations begin. -/
def declared : List Entity := m.entities.topLevel.flatMap fun e => e :: m.entities.children e.id

/-- What stands in front of the declarations that are nested in an entity. -/
def heading (e : Entity) : List Entry := .opening e :: e.members.map fun entry => .member entry.2

def ending (e : Entity) : List Entry :=
  .closing e :: (Plain.traced settings m.relationships.items e.id).map .comment

def block (e : Entity) : List Entry :=
  heading e ++
    ((m.entities.children e.id).flatMap fun child => heading child ++ m.ending settings child) ++
    m.ending settings e

end Model

namespace Model

variable {m : Model} {settings : CodegenSettings}

section Lines

theorem Sound.line_surrounded (h : m.Sound) (e : Entity) (body : List (Nat × Entry)) :
    (m.surrounded settings e body).map (Entry.line m) =
      m.frame settings.trace e (body.map (Entry.line m)) := by
  have comments : ((Plain.traced settings m.relationships.items e.id).map fun r =>
      ((0, .comment r) : Nat × Entry)).map (Entry.line m) =
      if settings.trace then (m.traces e.id).map (⟨0, ·⟩) else [] := by
    unfold Plain.traced
    split
    · rw [h.traces_eq, List.map_map, List.map_map]
      rfl
    · rfl
  unfold surrounded frame
  rw [List.map_append, List.map_cons, List.map_cons, comments, h.header_eq]
  rfl

theorem Sound.line_ownEntries (h : m.Sound) {e : Entity} (plain : e.kind ≠ .package)
    (depth : Nat) :
    (m.ownEntries settings e).map (Entry.line m) = m.declaration settings.trace depth e := by
  rw [ownEntries, h.line_surrounded, declaration_plain plain, List.map_map]
  congr 1
  apply List.map_congr_left
  intro entry _
  exact congrArg (Line.mk 1) (declaration_eq_member entry.2).symm

theorem Sound.line_blockEntries (h : m.Sound) (e : Entity) (depth : Nat) :
    (m.blockEntries settings e).map (Entry.line m) =
      m.declaration settings.trace (depth + 1) e := by
  unfold blockEntries
  split
  next package =>
    have deeper : (Entry.line m ∘ fun entry : Nat × Entry => (entry.1 + 1, entry.2)) =
        Line.nested ∘ Entry.line m := rfl
    have blocks : ((m.entities.children e.id).map (m.ownEntries settings)).map
        (·.map (Entry.line m)) =
        (m.entities.children e.id).map (m.declaration settings.trace depth) := by
      rw [List.map_map]
      apply List.map_congr_left
      intro child nested
      exact h.line_ownEntries (h.child_plain nested) depth
    rw [h.line_surrounded, declaration_package package, separated_eq, List.map_map, deeper,
      ← List.map_map, map_intercalate, blocks]
    rfl
  next plain => exact h.line_ownEntries plain (depth + 1)

theorem Sound.line_entries (h : m.Sound) :
    (m.entries settings).map (Entry.line m) = m.allLines settings := by
  have blocks : (m.entities.topLevel.map (m.blockEntries settings)).map (·.map (Entry.line m)) =
      m.entities.topLevel.map (m.declarationLines settings) := by
    rw [List.map_map]
    apply List.map_congr_left
    intro e _
    exact h.line_blockEntries e m.entities.items.length
  rw [entries, allLines, separated_eq, map_intercalate, blocks]
  rfl

theorem Sound.generateAll_shown (h : m.Sound) :
    m.generateAll settings = "\n".intercalate ((m.entries settings).map (Entry.shown m settings)) := by
  rw [generateAll, writeLines_eq, ← h.line_entries, List.map_map]
  rfl

theorem Sound.generate_shown (h : m.Sound) {e : Entity} (present : e ∈ m.entities.items) :
    m.generate settings e.id =
      .ok ("\n".intercalate ((m.blockEntries settings e).map (Entry.shown m settings))) := by
  rw [generate_of_mem h.ordered present, declarationLines, fullDepth, ← h.line_blockEntries,
    List.map_map]
  rfl

end Lines

section Order

theorem Sound.no_children (h : m.Sound) {e : Entity} (present : e ∈ m.entities.items)
    (plain : e.kind ≠ .package) : m.entities.children e.id = [] := by
  apply List.eq_nil_iff_forall_not_mem.mpr
  intro child nested
  obtain ⟨there, inside⟩ := Entities.mem_children.mp nested
  obtain ⟨container, found, package⟩ :=
    h.wellFormed.entities.parent_package child there e.id inside
  have same : e = container :=
    Option.some.inj ((Entities.find?_of_mem h.ordered present).symm.trans found)
  exact plain (same ▸ package)

theorem Sound.mem_declared (h : m.Sound) {x : Entity} :
    x ∈ m.declared ↔ x ∈ m.entities.items := by
  unfold declared
  rw [List.mem_flatMap]
  constructor
  · rintro ⟨e, top, here⟩
    rcases List.mem_cons.mp here with rfl | nested
    · exact List.mem_of_mem_filter top
    · exact List.mem_of_mem_filter nested
  · intro present
    cases nested : x.parent with
    | none => exact ⟨x, Entities.mem_topLevel.mpr ⟨present, nested⟩, List.mem_cons_self⟩
    | some p =>
        obtain ⟨container, found, package⟩ :=
          h.wellFormed.entities.parent_package x present p nested
        obtain ⟨there, rfl⟩ := (Entities.find?_eq_some h.ordered).mp found
        have top := (h.wellFormed.entities.package_bare container there package).1
        exact ⟨container, Entities.mem_topLevel.mpr ⟨there, top⟩,
          List.mem_cons_of_mem _ (Entities.mem_children.mpr ⟨present, nested⟩)⟩

theorem Sound.nodup_declared (h : m.Sound) : m.declared.Nodup := by
  have items : m.entities.items.Nodup := h.ordered.distinct_ids.of_map
  have below : ∀ e ∈ m.entities.topLevel, ∀ package, e ∉ m.entities.children package := by
    intro e top package child
    rw [Entities.mem_topLevel] at top
    rw [Entities.mem_children, top.2] at child
    cases child.2
  unfold declared
  rw [List.nodup_flatMap]
  constructor
  · intro e top
    exact List.nodup_cons.mpr ⟨below e top e.id, items.filter _⟩
  · apply (items.filter _).imp_of_mem
    intro e other top top' different x here there
    rcases List.mem_cons.mp here with rfl | child
    · rcases List.mem_cons.mp there with rfl | child'
      · exact different rfl
      · exact below x top _ child'
    · rcases List.mem_cons.mp there with rfl | child'
      · exact below x top' _ child
      · have parent := (Entities.mem_children.mp child).2.symm.trans
          (Entities.mem_children.mp child').2
        apply different
        exact h.ordered.eq_of_id (Entities.mem_topLevel.mp top).1
          (Entities.mem_topLevel.mp top').1 (Option.some.inj parent)

theorem Sound.declared_perm (h : m.Sound) : m.declared.Perm m.entities.items := by
  apply (List.perm_ext_iff_of_nodup h.nodup_declared h.ordered.distinct_ids.of_map).mpr
  intro x
  exact h.mem_declared

end Order

section Counting

theorem said_surrounded (e : Entity) (body : List (Nat × Entry)) :
    (m.surrounded settings e body).map (·.2) =
      .opening e :: body.map (·.2) ++ m.ending settings e := by
  simp [surrounded, ending]

theorem said_ownEntries (e : Entity) :
    (m.ownEntries settings e).map (·.2) = heading e ++ m.ending settings e := by
  rw [ownEntries, said_surrounded, List.map_map]
  rfl

variable {p : Entry → Bool}

theorem Sound.filter_blockEntries (h : m.Sound) {e : Entity} (present : e ∈ m.entities.items)
    (gap : p .gap = false) :
    ((m.blockEntries settings e).map (·.2)).filter p = (m.block settings e).filter p := by
  unfold blockEntries block
  split
  next package =>
    have bare : heading e = [.opening e] := by
      simp [heading, (h.wellFormed.entities.package_bare e present package).2]
    have said : (((m.entities.children e.id).map (m.ownEntries settings)).map (·.map (·.2))) =
        (m.entities.children e.id).map fun child => heading child ++ m.ending settings child := by
      rw [List.map_map]
      apply List.map_congr_left
      intro child _
      exact said_ownEntries child
    have deeper : ((·.2) ∘ fun entry : Nat × Entry => (entry.1 + 1, entry.2)) = (·.2) := rfl
    have nested : ((List.intercalate [(0, .gap)]
        ((m.entities.children e.id).map (m.ownEntries settings))).map (·.2)).filter p =
        ((m.entities.children e.id).flatMap fun child =>
          heading child ++ m.ending settings child).filter p := by
      rw [map_intercalate, said, List.map_singleton, filter_intercalate gap, List.flatMap_map,
        List.filter_flatMap]
    rw [said_surrounded, List.map_map, deeper, bare, ← List.singleton_append, List.filter_append,
      List.filter_append, nested, List.filter_append, List.filter_append]
  next plain =>
    rw [said_ownEntries, h.no_children present plain, List.flatMap_nil, List.append_nil]

theorem Sound.filter_entries (h : m.Sound) (gap : p .gap = false) :
    ((m.entries settings).map (·.2)).filter p =
      (m.entities.topLevel.flatMap (m.block settings)).filter p := by
  rw [entries, map_intercalate, List.map_singleton, filter_intercalate gap, List.filter_flatMap,
    List.map_map, List.flatMap_map]
  apply List.flatMap_congr
  intro e top
  exact h.filter_blockEntries (Entities.mem_topLevel.mp top).1 gap

/-- Nothing is lost and nothing is said twice, wherever it stands. -/
theorem Sound.filter_entries_perm (h : m.Sound) (gap : p .gap = false) :
    (((m.entries settings).map (·.2)).filter p).Perm
      ((m.entities.items.flatMap fun e => heading e ++ m.ending settings e).filter p) := by
  rw [h.filter_entries gap]
  apply List.Perm.filter
  calc
    (m.entities.topLevel.flatMap (m.block settings)).Perm
        (m.entities.topLevel.flatMap fun e =>
          (e :: m.entities.children e.id).flatMap fun x => heading x ++ m.ending settings x) := by
      apply List.Perm.flatMap_left
      intro e _
      rw [block, List.flatMap_cons, List.append_assoc, List.append_assoc]
      exact List.perm_append_comm.append_left _
    List.Perm _ (m.declared.flatMap fun x => heading x ++ m.ending settings x) := by
      rw [declared, List.flatMap_assoc]
    List.Perm _ (m.entities.items.flatMap fun x => heading x ++ m.ending settings x) :=
      h.declared_perm.flatMap_right _

theorem Sound.countP_entries (h : m.Sound) (gap : p .gap = false) :
    ((m.entries settings).map (·.2)).countP p =
      (m.entities.items.map fun e => (heading e ++ m.ending settings e).countP p).sum := by
  rw [List.countP_eq_length_filter, (h.filter_entries_perm gap).length_eq,
    ← List.countP_eq_length_filter, List.countP_flatMap]
  rfl

theorem filter_isBracket_heading (e : Entity) :
    (heading e).filter Entry.isBracket = [.opening e] := by
  simp [heading, List.filter_cons, List.filter_map, Function.comp_def, Entry.isBracket]

theorem filter_isBracket_ending (e : Entity) :
    (m.ending settings e).filter Entry.isBracket = [.closing e] := by
  simp [ending, List.filter_cons, List.filter_map, Function.comp_def, Entry.isBracket]

theorem Sound.brackets_entries (h : m.Sound) :
    ((m.entries settings).map (·.2)).filter Entry.isBracket =
      m.entities.topLevel.flatMap fun e =>
        .opening e ::
          ((m.entities.children e.id).flatMap fun child => [.opening child, .closing child]) ++
          [.closing e] := by
  rw [h.filter_entries rfl, List.filter_flatMap]
  apply List.flatMap_congr
  intro e _
  rw [block, List.filter_append, List.filter_append, List.filter_flatMap]
  simp only [List.filter_append, filter_isBracket_heading, filter_isBracket_ending]
  rfl

theorem Sound.members_entries (h : m.Sound) :
    ((m.entries settings).map (·.2)).countP Entry.isMember =
      (m.entities.items.map (·.members.length)).sum := by
  have each : ∀ e : Entity,
      (heading e ++ m.ending settings e).countP Entry.isMember = e.members.length := by
    intro e
    simp [heading, ending, Entry.isMember, List.countP_map, Function.comp_def]
  rw [h.countP_entries rfl]
  simp only [each]

theorem Sound.comments_entries (h : m.Sound) :
    ((m.entries settings).map (·.2)).countP Entry.isComment =
      (m.entities.items.map fun e =>
        (Plain.traced settings m.relationships.items e.id).length).sum := by
  have each : ∀ e : Entity, (heading e ++ m.ending settings e).countP Entry.isComment =
      (Plain.traced settings m.relationships.items e.id).length := by
    intro e
    simp [heading, ending, Entry.isComment, List.countP_map, Function.comp_def]
  rw [h.countP_entries rfl]
  simp only [each]

theorem Sound.countP_touches (h : m.Sound) {r : Relationship}
    (present : r ∈ m.relationships.items) :
    m.entities.items.countP (fun e => r.touches e.id) = if r.source = r.target then 1 else 2 := by
  have once : ∀ id, m.entities.contains id = true →
      m.entities.items.countP (fun e => id = e.id) = 1 := by
    intro id live
    have member : id ∈ m.entities.items.map (·.id) := List.mem_map.mpr
      (Entities.contains_iff_mem.mp live)
    rw [← List.count_eq_one_of_mem h.ordered.distinct_ids member, List.count, List.countP_map]
    apply List.countP_congr
    intro e _
    rw [Function.comp_apply, beq_iff_eq, decide_eq_true_iff, eq_comm]
  have source := once r.source (h.wellFormed.source_live r present)
  have target := once r.target (h.wellFormed.target_live r present)
  unfold Relationship.touches
  split
  next loop => simpa [loop] using target
  next apart =>
    rw [countP_or, source, target]
    intro e _ left
    have start : r.source = e.id := of_decide_eq_true left
    simpa [← start] using Ne.symm apart

theorem sum_ends (rs : List Relationship) :
    (rs.map fun r => if r.source = r.target then 1 else 2).sum =
      2 * rs.countP (fun r => r.source ≠ r.target) + rs.countP fun r => r.source = r.target := by
  induction rs with
  | nil => rfl
  | cons r rs ih =>
      rw [List.map_cons, List.sum_cons, ih, List.countP_cons, List.countP_cons]
      by_cases loop : r.source = r.target
      · simp [loop]
        omega
      · simp [loop]
        omega

theorem Sound.sum_traced (h : m.Sound) :
    (m.entities.items.map fun e =>
        (Plain.traced settings m.relationships.items e.id).length).sum =
      if settings.trace then
        let others := m.relationships.items.filter (·.kind ≠ .inheritance)
        2 * others.countP (fun r => r.source ≠ r.target) +
          others.countP fun r => r.source = r.target
      else 0 := by
  unfold Plain.traced
  split
  · have each : ∀ e : Entity,
        (m.relationships.items.filter fun r => r.kind ≠ .inheritance ∧ r.touches e.id).length =
          (m.relationships.items.filter (·.kind ≠ .inheritance)).countP (·.touches e.id) := by
      intro e
      rw [List.countP_eq_length_filter, List.filter_filter]
      congr 2
      funext r
      simp [Bool.and_comm]
    have ends : ∀ r ∈ m.relationships.items.filter (·.kind ≠ .inheritance),
        (m.entities.items.countP fun e => r.touches e.id) =
          if r.source = r.target then 1 else 2 :=
      fun r traced => h.countP_touches (List.mem_of_mem_filter traced)
    simp only [each]
    rw [sum_countP_comm (fun (e : Entity) (r : Relationship) => r.touches e.id),
      List.map_congr_left ends, sum_ends]
  · simp

end Counting

/-- In every model that operations lead to, the text shows everything once. The blocks of the
entities stand in creation order, those of nested entities within their package, and no deeper.
There are as many lines for members as there are members. With tracing, a relationship other than
inheritance has a comment at each of its ends. -/
theorem run_declares_everything (operations : List Operation) (settings : CodegenSettings) :
    let m := Model.empty.run operations
    let said := (m.entries settings).map (·.2)
    let others := m.relationships.items.filter (·.kind ≠ .inheritance)
    m.generateAll settings =
        "\n".intercalate ((m.entries settings).map (Entry.shown m settings)) ∧
      (∀ e ∈ m.entities.items, m.generate settings e.id =
        .ok ("\n".intercalate ((m.blockEntries settings e).map (Entry.shown m settings)))) ∧
      (∀ (e : Entity) (depth : Nat), m.declaration settings.trace (depth + 1) e =
        (m.blockEntries settings e).map (Entry.line m)) ∧
      (∀ e : Entity, ∀ child ∈ m.entities.children e.id,
        child.kind ≠ .package ∧ m.entities.children child.id = []) ∧
      m.entities.items.Pairwise (·.id.number < ·.id.number) ∧
      m.declared.Perm m.entities.items ∧
      said.filter Entry.isBracket =
        (m.entities.topLevel.flatMap fun e =>
          .opening e ::
            ((m.entities.children e.id).flatMap fun child => [.opening child, .closing child]) ++
            [.closing e]) ∧
      said.countP Entry.isMember = (m.entities.items.map (·.members.length)).sum ∧
      said.countP Entry.isComment =
        if settings.trace then
          2 * others.countP (fun r => r.source ≠ r.target) +
            others.countP fun r => r.source = r.target
        else 0 := by
  intro m said others
  have h : m.Sound := sound_run operations
  have flat : ∀ e : Entity, ∀ child ∈ m.entities.children e.id,
      child.kind ≠ .package ∧ m.entities.children child.id = [] := by
    intro e child nested
    have plain := h.child_plain nested
    exact ⟨plain, h.no_children (Entities.mem_children.mp nested).1 plain⟩
  exact ⟨h.generateAll_shown, fun e present => h.generate_shown present,
    fun e depth => (h.line_blockEntries e depth).symm, flat, h.ordered.increasing,
    h.declared_perm, h.brackets_entries, h.members_entries, h.comments_entries.trans h.sum_traced⟩

end Model

end ClassDiagram
