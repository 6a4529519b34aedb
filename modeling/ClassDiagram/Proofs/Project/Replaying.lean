import ClassDiagram.Proofs.Project.Entering
import ClassDiagram.Proofs.Project.Faults

/-! Replaying a project. It goes through exactly if the records fit together, and what comes out
then holds exactly the records, in their order. Otherwise the first fault is reported. -/

namespace ClassDiagram

theorem Entities.nest_yields {es : Entities} {child package : EntityId} {container e : Entity}
    (foundContainer : es.find? package = some container) (found : es.find? child = some e) :
    Yields (nestingFaults package child container.kind e.kind)
      (fun next => es.nest child package = .ok next) (es.nest child package) := by
  unfold nestingFaults Entities.nest
  rw [Entities.require_eq_ok.mpr foundContainer, Entities.require_eq_ok.mpr found]
  by_cases isPackage : container.kind = .package
  · by_cases nested : e.kind = .package
    · simp only [isPackage, nested, bind, Except.bind, if_true, ne_eq, not_true_eq_false, if_false]
      rfl
    · simp only [isPackage, nested, bind, Except.bind, if_true, ne_eq, not_true_eq_false, if_false]
      exact ⟨_, rfl, rfl⟩
  · simp only [isPackage, bind, Except.bind, ne_eq, not_false_eq_true, if_true, if_false]
    rfl

namespace LoadedProject

variable {p : LoadedProject}

/-- The entity is the one that the record describes, apart from its nesting. -/
structure Shows (p : LoadedProject) (record : EntityRecord) (e : Entity) : Prop where
  known : p.entityId? record.key = some e.id
  kind : e.kind = record.kind
  title : e.title = Text.trimmed record.title
  members : record.members.mapM MemberRecord.toMember = .ok (e.members.map (·.2))
  shape : p.shapes e.id = record.bounds.map ShapeRecord.bounds

structure Relates (p : LoadedProject) (record : RelationshipRecord) (r : Relationship) : Prop where
  source : p.entityId? record.source = some r.source
  target : p.entityId? record.target = some r.target
  kind : r.kind = record.kind
  sourceMultiplicity : r.sourceMultiplicity = Text.trimmed record.sourceMultiplicity
  targetMultiplicity : r.targetMultiplicity = Text.trimmed record.targetMultiplicity
  label : r.label = Text.trimmed record.label

/-- The project at work has entities for these records, of which some are nested already, and
relationships for those. -/
structure Holds (p : LoadedProject) (nested waiting : List EntityRecord)
    (related : List RelationshipRecord) : Prop where
  sound : p.model.Sound
  keys : p.keys.map (·.1) = (nested ++ waiting).map (·.key)
  outlined : ∀ id, p.shapes id ≠ none → p.model.entities.contains id = true
  entities : ∃ inside outside, p.model.entities.items = inside ++ outside ∧
    List.Forall₂ (fun record e => p.Shows record e ∧ e.parent = record.package.bind p.entityId?)
      nested inside ∧
    List.Forall₂ (fun record e => p.Shows record e ∧ e.parent = none) waiting outside
  relationships : List.Forall₂ p.Relates related p.model.relationships.items

variable {nested waiting : List EntityRecord} {related : List RelationshipRecord}

theorem Shows.later {next : LoadedProject} {record : EntityRecord} {e : Entity}
    (h : p.Shows record e) (known : next.entityId? record.key = some e.id)
    (shape : next.shapes e.id = p.shapes e.id) : next.Shows record e where
  known := known
  kind := h.kind
  title := h.title
  members := h.members
  shape := shape.trans h.shape

theorem Relates.later {next : LoadedProject} {record : RelationshipRecord} {r : Relationship}
    (h : p.Relates record r) (same : next.keys = p.keys) : next.Relates record r where
  source := (congrArg (List.lookup record.source) same).trans h.source
  target := (congrArg (List.lookup record.target) same).trans h.target
  kind := h.kind
  sourceMultiplicity := h.sourceMultiplicity
  targetMultiplicity := h.targetMultiplicity
  label := h.label

theorem Holds.shown (h : p.Holds nested waiting related) :
    List.Forall₂ p.Shows (nested ++ waiting) p.model.entities.items := by
  obtain ⟨inside, outside, split, done, left⟩ := h.entities
  rw [split]
  exact List.rel_append (done.imp fun _ _ here => here.1) (left.imp fun _ _ here => here.1)

theorem resolve_of_known {key : String} {id : EntityId} (known : p.entityId? key = some id) :
    p.resolve key = .ok id := by
  unfold LoadedProject.resolve
  rw [known]

theorem Holds.unknown (h : p.Holds nested waiting related) {key : String}
    (absent : key ∉ (nested ++ waiting).map (·.key)) : p.entityId? key = none := by
  rw [← h.keys] at absent
  exact lookup_eq_none_of_not_mem absent

theorem holds_start (name : String) : Holds { name } [] [] [] where
  sound := Model.sound_empty
  keys := rfl
  outlined _ known := absurd rfl known
  entities := ⟨[], [], rfl, .nil, .nil⟩
  relationships := .nil

theorem Holds.exists_of_known (h : p.Holds nested waiting related) {key : String}
    (known : key ∈ (nested ++ waiting).map (·.key)) :
    ∃ e ∈ p.model.entities.items, p.entityId? key = some e.id := by
  obtain ⟨record, member, rfl⟩ := List.mem_map.mp known
  obtain ⟨e, there, shows⟩ := exists_of_mem_left h.shown member
  exact ⟨e, there, shows.known⟩

theorem Holds.isSome_iff (h : p.Holds nested waiting related) {key : String} :
    (p.entityId? key).isSome = true ↔ key ∈ (nested ++ waiting).map (·.key) := by
  constructor
  · intro known
    by_contra absent
    rw [h.unknown absent] at known
    cases known
  · intro taken
    obtain ⟨e, -, known⟩ := h.exists_of_known taken
    rw [known]
    rfl

structure Placed (p : LoadedProject) (name : String) (records : List EntityRecord) : Prop where
  name : p.name = name
  keys : p.keys = (placement records).map fun entry => (entry.1.key, entry.2)
  distinct : (records.map (·.key)).Nodup

variable {name : String} {records : List EntityRecord}

theorem placed_start (name : String) : Placed { name } name [] where
  name := rfl
  keys := rfl
  distinct := List.nodup_nil

theorem Placed.entityId?_eq (h : p.Placed name records) (key : String) :
    p.entityId? key = ((placement records).find? (·.1.key = key)).map (·.2) := by
  unfold LoadedProject.entityId?
  rw [h.keys]
  exact lookup_map ..

theorem Placed.remodel (h : p.Placed name records) (m : Model) :
    Placed { p with model := m } name records where
  name := h.name
  keys := h.keys
  distinct := h.distinct

section Entering

variable {record : EntityRecord}

/-- A member record is read first; then it matters whether its entity holds members. -/
theorem memberFor_yields (owner : EntityId) (kind : EntityKind) (record : MemberRecord) :
    Yields (record.faults owner kind)
      (fun member => record.toMember = .ok member ∧ kind.holdsMembers = true)
      (record.memberFor owner kind) := by
  have read := Yields.self record.toMember
  rw [MemberRecord.error?_toMember] at read
  refine read.bind fun member made => ?_
  by_cases holds : kind.holdsMembers = true
  · rw [if_pos holds, if_pos holds]
    exact ⟨member, rfl, made, holds⟩
  · rw [if_neg holds, if_neg holds]
    rfl

theorem title_yields (title : String) :
    Yields ((Field.title.blank? none title).map DiagramError.model).toList
      (fun text => text.val = Text.trimmed title)
      ((Field.title.require title).mapError DiagramError.model) := by
  have checked := Yields.self ((Field.title.require title).mapError DiagramError.model)
  rw [error?_mapError, Field.error?_require] at checked
  exact checked.imp fun text made => Field.require_eq_ok.mp (mapError_eq_ok.mp made)

theorem shows_entered (unknown : p.entityId? record.key = none)
    (unshaped : p.shapes ⟨p.model.entities.ids.fresh⟩ = none) {members : List Member}
    (read : record.members.mapM MemberRecord.toMember = .ok members) :
    (p.entered record (Text.trimmed record.title) members).Shows record
      (p.model.newcomer record.kind (Text.trimmed record.title) members) where
  known := by
    rw [entityId?_entered, unknown, if_pos rfl]
    rfl
  kind := rfl
  title := rfl
  members := by rw [read, map_snd_members]
  shape := by
    show (p.entered record _ members).shapes ⟨p.model.entities.ids.fresh⟩ = _
    rw [shapes_entered, if_pos rfl, unshaped, Option.or_none]

theorem Holds.entered (h : p.Holds [] waiting []) (fresh : record.key ∉ waiting.map (·.key))
    (filled : Text.IsFilled (Text.trimmed record.title)) {members : List Member}
    (read : record.members.mapM MemberRecord.toMember = .ok members)
    (held : members = [] ∨ record.kind.holdsMembers = true) :
    (p.entered record (Text.trimmed record.title) members).Holds [] (waiting ++ [record]) [] := by
  have unshaped : p.shapes ⟨p.model.entities.ids.fresh⟩ = none := by
    by_contra known
    obtain ⟨e, present, same⟩ := Entities.contains_iff_mem.mp (h.outlined _ known)
    exact h.sound.ordered.ne_fresh present same
  obtain ⟨inside, outside, split, done, left⟩ := h.entities
  obtain rfl := List.forall₂_nil_left_iff.mp done
  rw [List.nil_append] at split
  let new := p.model.newcomer record.kind (Text.trimmed record.title) members
  refine
    { sound := ?_
      keys := ?_
      outlined := ?_
      entities := ⟨[], outside ++ [new], ?_, .nil, List.rel_append ?_ (.cons ⟨?_, rfl⟩ .nil)⟩
      relationships := ?_ }
  · rw [model_entered]
    exact h.sound.entered filled members held
  · rw [keys_entered, List.map_append, h.keys]
    simp
  · intro id known
    rw [model_entered, Model.contains_entered]
    rw [shapes_entered] at known
    split at known
    next here => exact .inr here
    next => exact .inl (h.outlined id known)
  · rw [model_entered, Model.entered, split, List.nil_append]
  · refine (forall₂_mem left).imp ?_
    rintro old e ⟨-, present, shows, free⟩
    have apart : e.id ≠ ⟨p.model.entities.ids.fresh⟩ :=
      h.sound.ordered.ne_fresh (split ▸ present)
    refine ⟨shows.later ?_ ?_, free⟩
    · rw [entityId?_entered, shows.known, Option.some_or]
    · rw [shapes_entered, if_neg apart]
  · exact shows_entered (h.unknown fresh) unshaped read
  · rw [model_entered]
    exact List.forall₂_nil_left_iff.mpr (List.forall₂_nil_left_iff.mp h.relationships)

theorem Placed.entered (h : p.Placed name records)
    (next : (⟨p.model.entities.ids.fresh⟩ : EntityId) = place records)
    (fresh : record.key ∉ records.map (·.key)) (title : String) (members : List Member) :
    (p.entered record title members).Placed name (records ++ [record]) where
  name := by
    have same : (p.entered record title members).name = p.name := by
      unfold LoadedProject.entered
      cases record.bounds <;> rfl
    exact same.trans h.name
  keys := by
    rw [keys_entered, h.keys, placement_append, List.map_append, next]
    rfl
  distinct := by
    rw [List.map_append, List.nodup_append]
    refine ⟨h.distinct, List.nodup_singleton _, ?_⟩
    intro key earlier other last same
    have here : other = record.key := by simpa using last
    exact fresh (here ▸ same ▸ earlier)

structure Entering (p : LoadedProject) (name : String) (done : List EntityRecord) : Prop where
  holds : p.Holds [] done []
  placed : p.Placed name done
  next : (⟨p.model.entities.ids.fresh⟩ : EntityId) = place done

theorem Entering.addEntity (h : p.Entering name records) (record : EntityRecord) :
    Yields (record.faults records) (fun next => next.Entering name (records ++ [record]))
      (p.addEntity record) := by
  have known : (p.entityId? record.key).isSome = true ↔ record.key ∈ records.map (·.key) :=
    h.holds.isSome_iff
  rw [addEntity_eq h.holds.sound.ordered, h.next, EntityRecord.faults]
  by_cases taken : record.key ∈ records.map (·.key)
  · rw [if_pos taken, if_pos (known.mpr taken)]
    rfl
  · rw [if_neg taken, if_neg (fun again => taken (known.mp again)), List.nil_append]
    refine (title_yields record.title).bind fun text same => ?_
    have members := Yields.mapM fun m (_ : m ∈ record.members) =>
      memberFor_yields (place records) record.kind m
    refine members.bind_pure fun made each => ?_
    have read : record.members.mapM MemberRecord.toMember = .ok made :=
      mapM_eq_ok.mpr (each.imp fun _ _ here => here.1)
    have held : made = [] ∨ record.kind.holdsMembers = true := by
      cases made with
      | nil => exact .inl rfl
      | cons m rest =>
          obtain ⟨_, -, -, here⟩ := exists_of_mem_right each List.mem_cons_self
          exact .inr here
    rw [same]
    exact
      { holds := h.holds.entered taken (same ▸ text.property) read held
        placed := h.placed.entered h.next taken _ _
        next := by
          -- The entity takes one number and each of its members another.
          have counted : record.members.length = made.length := each.length_eq
          have last : p.model.entities.ids.fresh = (place records).number :=
            congrArg EntityId.number h.next
          rw [model_entered, place, List.map_append, List.sum_append]
          apply EntityId.ext
          simp only [Model.entered, Sequence.fresh, place, List.map_cons, List.map_nil,
            List.sum_cons, List.sum_nil] at last ⊢
          omega }

end Entering

section Nesting

variable {record : EntityRecord}

theorem Holds.keys_nested (h : p.Holds nested (record :: waiting) related) :
    p.keys.map (·.1) = ((nested ++ [record]) ++ waiting).map (·.key) := by
  rw [h.keys, List.append_assoc, List.singleton_append]

theorem Holds.stay (h : p.Holds nested (record :: waiting) related)
    (top : record.package = none) : p.Holds (nested ++ [record]) waiting related := by
  obtain ⟨inside, outside, split, done, left⟩ := h.entities
  obtain ⟨e, behind, ⟨shows, free⟩, rest, rfl⟩ := List.forall₂_cons_left_iff.mp left
  have placed : e.parent = record.package.bind p.entityId? := by
    rw [free, top]
    rfl
  exact
    { sound := h.sound
      keys := h.keys_nested
      outlined := h.outlined
      entities := ⟨inside ++ [e], behind, by simpa using split,
        List.rel_append done (.cons ⟨shows, placed⟩ .nil), rest⟩
      relationships := h.relationships }

theorem Holds.nest (h : p.Holds nested (record :: waiting) related) {container e : Entity}
    {key : String} (package : record.package = some key)
    (known : p.entityId? key = some container.id) (shows : p.Shows record e) {es : Entities}
    (made : p.model.entities.nest e.id container.id = .ok es) :
    Holds { p with model := { p.model with entities := es } } (nested ++ [record]) waiting
      related := by
  have ordered := h.sound.ordered
  obtain ⟨inside, outside, split, done, left⟩ := h.entities
  obtain ⟨first, behind, ⟨shows', free⟩, rest, rfl⟩ := List.forall₂_cons_left_iff.mp left
  have member : first ∈ p.model.entities.items := by
    rw [split]
    simp
  -- The first that waits has the key of the record, and a key leads to one entity only.
  have same : first.id = e.id := Option.some.inj (shows'.known.symm.trans shows.known)
  obtain ⟨_, -, e', found, -, -, rfl⟩ := Entities.nest_eq_ok.mp made
  rw [← same, Entities.find?_of_mem ordered member] at found
  obtain rfl : first = e' := Option.some.inj found
  let new : Entity := { first with parent := some container.id }
  let next : LoadedProject :=
    { p with model := { p.model with entities := p.model.entities.replace new } }
  have kept : ∀ {record e}, p.Shows record e → next.Shows record e :=
    fun shows => shows.later shows.known rfl
  have shown : next.Shows record new :=
    { known := shows'.known
      kind := shows'.kind
      title := shows'.title
      members := shows'.members
      shape := shows'.shape }
  have placed : new.parent = record.package.bind p.entityId? := by
    rw [package]
    exact known.symm
  exact
    { sound := h.sound.entities (Entities.change_of_nest made)
      keys := h.keys_nested
      outlined := fun id shaped =>
        (Entities.contains_replace new id).trans (h.outlined id shaped)
      entities := by
        refine ⟨inside ++ [new], behind, ?_, List.rel_append ?_ (.cons ⟨shown, placed⟩ .nil), ?_⟩
        · rw [List.append_assoc, List.singleton_append]
          exact Entities.items_replace ordered split rfl
        · exact done.imp fun _ _ here => ⟨kept here.1, here.2⟩
        · exact rest.imp fun _ _ here => ⟨kept here.1, here.2⟩
      relationships := h.relationships.imp fun _ _ here => here.later rfl }

theorem Holds.nest_yields (h : p.Holds nested (record :: waiting) related) {container e : Entity}
    {key : String} (package : record.package = some key)
    (known : p.entityId? key = some container.id) (present : container ∈ p.model.entities.items)
    (here : e ∈ p.model.entities.items) (shows : p.Shows record e) :
    Yields (nestingFaults container.id e.id container.kind e.kind)
      (fun m => Holds { p with model := m } (nested ++ [record]) waiting related)
      (p.model.nest e.id container.id) := by
  have foundContainer := Entities.find?_of_mem h.sound.ordered present
  have found := Entities.find?_of_mem h.sound.ordered here
  exact (Entities.nest_yields foundContainer found).bind_pure fun _ made =>
    h.nest package known shows made

theorem Holds.exists_of_split (h : p.Holds nested waiting related)
    (placed : p.Placed name (nested ++ waiting)) {front back : List EntityRecord}
    (split : nested ++ waiting = front ++ record :: back) :
    ∃ e ∈ p.model.entities.items, p.Shows record e ∧ e.id = place front := by
  have inside : record ∈ nested ++ waiting := by
    rw [split]
    simp
  obtain ⟨e, present, shows⟩ := exists_of_mem_left h.shown inside
  have located : p.entityId? record.key = some (place front) := by
    rw [placed.entityId?_eq, find?_placement placed.distinct split]
    rfl
  exact ⟨e, present, shows, Option.some.inj (shows.known.symm.trans located)⟩

theorem Holds.nestEntity (h : p.Holds nested (record :: waiting) related)
    (placed : p.Placed name (nested ++ record :: waiting)) :
    Yields (record.packageFaults (nested ++ record :: waiting) nested)
      (fun next => next.Holds (nested ++ [record]) waiting related ∧
        next.Placed name (nested ++ record :: waiting)) (p.nestEntity record) := by
  obtain ⟨e, here, shows, childId⟩ := h.exists_of_split placed rfl
  unfold LoadedProject.nestEntity EntityRecord.packageFaults
  cases package : record.package with
  | none => exact ⟨p, rfl, h.stay package, placed⟩
  | some key =>
      simp only [resolve_of_known shows.known]
      cases found : (placement (nested ++ record :: waiting)).find? (·.1.key = key) with
      | none =>
          have unknown : p.entityId? key = none := by
            rw [placed.entityId?_eq, found]
            rfl
          simp only [LoadedProject.resolve, unknown]
          rfl
      | some entry =>
          obtain ⟨outer, id⟩ := entry
          have named : outer.key = key := by simpa using List.find?_some found
          obtain ⟨front, back, split, rfl⟩ := mem_placement.mp (List.mem_of_find?_eq_some found)
          obtain ⟨container, there, shown, containerId⟩ := h.exists_of_split placed split
          have known : p.entityId? key = some container.id := named ▸ shown.known
          have nests := h.nest_yields package known there here shows
          rw [containerId, childId, shown.kind, shows.kind] at nests
          simp only [resolve_of_known known, containerId, childId]
          exact (nests.mapError DiagramError.model).bind_pure fun m holds =>
            ⟨holds, placed.remodel m⟩

end Nesting

section Relating

theorem Holds.resolve_yields (h : p.Holds nested waiting related) (key : String) :
    Yields (unknownKeys (nested ++ waiting) key)
      (fun id => p.entityId? key = some id ∧ ∃ e, p.model.entities.find? id = some e)
      (p.resolve key) := by
  unfold unknownKeys
  by_cases known : key ∈ (nested ++ waiting).map (·.key)
  · obtain ⟨e, there, located⟩ := h.exists_of_known known
    rw [if_pos known, resolve_of_known located]
    exact ⟨e.id, rfl, located, e, Entities.find?_of_mem h.sound.ordered there⟩
  · rw [if_neg known, LoadedProject.resolve, h.unknown known]
    rfl

theorem Holds.relate (h : p.Holds nested [] related) {record : RelationshipRecord}
    {source target : EntityId} (sourceKnown : p.entityId? record.source = some source)
    (targetKnown : p.entityId? record.target = some target) {id : RelationshipId} {m : Model}
    (made : p.model.relate source target record.kind record.sourceMultiplicity
      record.targetMultiplicity record.label = .ok (id, m)) :
    Holds { p with model := m } nested [] (related ++ [record]) := by
  obtain ⟨⟨s, sourceFound⟩, ⟨t, targetFound⟩, -, rfl⟩ := Model.relate_eq_ok.mp made
  exact
    { sound := h.sound.relate record.kind _ _ _
        (Entities.contains_of_find? sourceFound) (Entities.contains_of_find? targetFound)
      keys := h.keys
      outlined := h.outlined
      entities := by
        obtain ⟨inside, outside, split, done, left⟩ := h.entities
        refine ⟨inside, outside, split, ?_, ?_⟩
        · exact done.imp fun _ _ here => ⟨here.1.later here.1.known rfl, here.2⟩
        · exact left.imp fun _ _ here => ⟨here.1.later here.1.known rfl, here.2⟩
      relationships := by
        refine List.rel_append (h.relationships.imp fun _ _ here => here.later rfl) ?_
        refine .cons ?_ .nil
        exact
          { source := sourceKnown
            target := targetKnown
            kind := rfl
            sourceMultiplicity := rfl
            targetMultiplicity := rfl
            label := rfl } }

theorem Holds.addRelationship (h : p.Holds nested [] related) (placed : p.Placed name nested)
    (record : RelationshipRecord) :
    Yields (record.faults nested)
      (fun next => next.Holds nested [] (related ++ [record]) ∧ next.Placed name nested)
      (p.addRelationship record) := by
  have resolves := fun key => h.resolve_yields key
  rw [List.append_nil] at resolves
  unfold LoadedProject.addRelationship RelationshipRecord.faults
  refine (resolves record.source).bind fun source here => ?_
  rw [← List.append_nil (unknownKeys nested record.target)]
  refine (resolves record.target).bind fun target there => ?_
  obtain ⟨id, m, made⟩ : ∃ id m, p.model.relate source target record.kind
      record.sourceMultiplicity record.targetMultiplicity record.label = .ok (id, m) :=
    ⟨_, _, Model.relate_eq_ok.mpr ⟨here.2, there.2, rfl, rfl⟩⟩
  rw [made]
  exact ⟨_, rfl, h.relate here.1 there.1 made, placed.remodel m⟩

end Relating

section Replay

theorem entered_yields (project : Project) :
    Yields (alongside EntityRecord.faults [] project.entities).flatten
      (fun p => p.Entering project.name project.entities)
      (project.entities.foldlM addEntity { name := project.name }) := by
  refine Yields.foldlM (fun done _ p => Entering p project.name done) ?_ ?_
  · exact ⟨holds_start _, placed_start _, rfl⟩
  · exact fun _ record _ _ _ here => here.addEntity record

theorem nested_yields {records : List EntityRecord} (h : p.Holds [] records [])
    (placed : p.Placed name records) :
    Yields (alongside (EntityRecord.packageFaults records) [] records).flatten
      (fun next => next.Holds records [] [] ∧ next.Placed name records)
      (records.foldlM nestEntity p) := by
  refine Yields.foldlM (fun done todo p => Holds p done todo [] ∧ Placed p name records)
    ⟨h, placed⟩ ?_
  rintro done record todo p rfl ⟨here, placed⟩
  exact here.nestEntity placed

theorem related_yields {records : List EntityRecord} (h : p.Holds records [] [])
    (placed : p.Placed name records) (relationships : List RelationshipRecord) :
    Yields (relationships.flatMap (RelationshipRecord.faults records))
      (fun next => next.Holds records [] relationships ∧ next.Placed name records)
      (relationships.foldlM addRelationship p) := by
  have listed : (alongside (fun _ => RelationshipRecord.faults records) [] relationships).flatten =
      relationships.flatMap (RelationshipRecord.faults records) := by
    rw [alongside_const, List.flatMap_def]
  rw [← listed]
  refine Yields.foldlM (fun done _ p => Holds p records [] done ∧ Placed p name records)
    ⟨h, placed⟩ ?_
  rintro done record todo p - ⟨here, placed⟩
  exact here.addRelationship placed record

/-- A replay is refused with the first fault of the project, or every record has its entity or
relationship. -/
theorem replay_yields (project : Project) :
    Yields project.faults
      (fun p => p.Holds project.entities [] project.relationships ∧
        p.Placed project.name project.entities) (replay project) := by
  refine (entered_yields project).bind fun entered first => ?_
  refine (nested_yields first.holds first.placed).bind fun nested second => ?_
  exact related_yields second.1 second.2 project.relationships

theorem exists_replay {project : Project} (valid : project.Valid) :
    ∃ p, replay project = .ok p ∧ p.Holds project.entities [] project.relationships := by
  have yields := replay_yields project
  rw [Project.faults_eq_nil.mpr valid] at yields
  obtain ⟨p, replayed, holds, -⟩ := yields
  exact ⟨p, replayed, holds⟩

/-- A project can be replayed exactly if its records fit together. Then the model holds the records
in their order, with trimmed texts, and keys lead to the entities of their records; otherwise the
first fault is reported. -/
theorem replay_exact (project : Project) :
    ((∃ p, replay project = .ok p) ↔ project.Valid) ∧
      (∀ record : MemberRecord, (∃ member, record.toMember = .ok member) ↔ record.Readable) ∧
      (∀ p, replay project = .ok p →
        p.name = project.name ∧ p.keys.map (·.1) = project.entities.map (·.key) ∧
          List.Forall₂
            (fun record e => p.Shows record e ∧
              List.Forall₂ MemberRecord.Gives record.members (e.members.map (·.2)) ∧
                e.parent = record.package.bind p.entityId?)
            project.entities p.model.entities.items ∧
          List.Forall₂ p.Relates project.relationships p.model.relationships.items) ∧
      ∀ e, replay project = .error e ↔ project.faults.head? = some e := by
  have yields := replay_yields project
  refine ⟨yields.exists_ok.trans Project.faults_eq_nil, fun _ => MemberRecord.exists_toMember, ?_,
    fun e => yields.eq_error⟩
  intro p replayed
  obtain ⟨holds, placed⟩ := yields.of_ok replayed
  obtain ⟨inside, outside, split, done, left⟩ := holds.entities
  obtain rfl := List.forall₂_nil_left_iff.mp left
  rw [List.append_nil] at split
  refine ⟨placed.name, ?_, ?_, holds.relationships⟩
  · rw [holds.keys, List.append_nil]
  · rw [split]
    refine done.imp fun record e here => ⟨here.1, ?_, here.2⟩
    have read := mapM_eq_ok.mp here.1.members
    exact read.imp fun _ _ made => MemberRecord.toMember_eq_ok.mp made

end Replay

end LoadedProject

end ClassDiagram
