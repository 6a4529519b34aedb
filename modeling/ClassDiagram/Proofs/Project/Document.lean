import ClassDiagram.Project.Document
import ClassDiagram.Proofs.Toml.Document

/-! Projects survive being written as TOML and read again. Fields that are left out stand for what
they are read as, no two fields share a key, and each word names one thing; so a record is found
again in its table, however the fields of the table are arranged. -/

namespace ClassDiagram

open Toml

def Toml.Value.entries : Value → Table
  | .table entries => entries
  | _ => []

/-- Some of the fields of a record in their order, under keys that are bare and distinct. -/
structure IsRecord (order : List String) (t : Table) : Prop where
  fields : (t.map (·.1)).Sublist order
  bare : ∀ key ∈ order, IsBareKey key
  distinct : order.Nodup

namespace IsRecord

variable {order : List String} {t : Table} (h : IsRecord order t)

include h

theorem known {e : String × Value} (member : e ∈ t) : e.1 ∈ order :=
  h.fields.subset (List.mem_map_of_mem member)

theorem nodup_keys : (t.map (·.1)).Nodup := h.distinct.sublist h.fields

theorem legible {levels : Nat} (values : ∀ e ∈ t, Legible levels e.2) :
    Legible (levels + 1) (.table t) :=
  .table (fun _ member => h.bare _ (h.known member)) h.nodup_keys values

theorem knowing?_arrange : Table.knowing? order (arrange t) = some (arrange t) := by
  have expected : ∀ e ∈ arrange t, e.1 ∈ order := by
    intro e member
    obtain ⟨old, there, rfl⟩ := List.mem_map.mp ((arrange_perm t).mem_iff.mp member)
    exact h.known (e := old) there
  refine if_pos (List.all_eq_true.mpr fun e member => ?_)
  simp [expected e member]

theorem record?_arranged : Value.record? order (Value.table t).arranged = some (arrange t) :=
  h.knowing?_arrange

variable {β : Type} {key : String} {decode : Value → Option β}

theorem required_arrange :
    Table.required (arrange t) key decode =
      (t.lookup key).bind fun value => decode value.arranged := by
  rw [Table.required, lookup_arrange h.nodup_keys, Option.bind_map]
  rfl

theorem optional_arrange (default : β) :
    Table.optional (arrange t) key default decode =
      match t.lookup key with
      | none => some default
      | some value => decode value.arranged := by
  rw [Table.optional, lookup_arrange h.nodup_keys]
  cases t.lookup key <;> rfl

end IsRecord

section Arrays

variable {α : Type} {encode : α → Value} {decode : Value → Option α}

theorem arranged_array {items : List Value}
    (h : (∀ v ∈ items, v.isTable = true) ∨ ∀ v ∈ items, v.arranged = v) :
    (Value.array items).arranged = .array (items.map Value.arranged) := by
  rw [Value.arranged, arrangedItems_eq]
  split
  next => rfl
  next plain =>
    rcases h with tables | same
    · cases items with
      | nil => rfl
      | cons item rest => exact absurd (by simpa [Value.isBlock] using tables) plain
    · rw [List.map_congr_left same, List.map_id']

theorem decode_array (items : List α)
    (h : (∀ a, (encode a).isTable = true) ∨ ∀ a, (encode a).arranged = encode a)
    (back : ∀ a, decode (encode a).arranged = some a) :
    (Value.array (items.map encode)).arranged.array?.bind (·.mapM decode) = some items := by
  have shapes : (∀ v ∈ items.map encode, v.isTable = true) ∨
      ∀ v ∈ items.map encode, v.arranged = v := by
    simpa [List.forall_mem_map] using h.imp (fun all a _ => all a) fun all a _ => all a
  rw [arranged_array shapes, List.map_map, Value.array?, Option.bind_some]
  clear shapes
  induction items with
  | nil => rfl
  | cons a rest ih => simp [back, ih]

theorem legible_array {levels : Nat} {items : List α} (h : ∀ a ∈ items, Legible levels (encode a)) :
    Legible (levels + 1) (.array (items.map encode)) :=
  .array (List.forall_mem_map.mpr h)

end Arrays

namespace ShapeRecord

theorem isRecord (s : ShapeRecord) : IsRecord order s.encode.entries where
  fields := .refl _
  bare := by decide
  distinct := by decide

theorem decode_arranged (s : ShapeRecord) : decode s.encode.arranged = some s := by
  have record : Value.record? order s.encode.arranged = some (arrange s.encode.entries) :=
    s.isRecord.record?_arranged
  simp only [decode, record, Option.bind_eq_bind, Option.bind_some, s.isRecord.required_arrange]
  rfl

def measures (s : ShapeRecord) : List Float32 := [s.x, s.y, s.width, s.height]

theorem legible {s : ShapeRecord} (kept : ∀ x ∈ s.measures, Kept x) (levels : Nat) :
    Legible (levels + 1) s.encode := by
  simp only [measures, List.forall_mem_cons, List.not_mem_nil, false_implies, implies_true,
    and_true] at kept
  obtain ⟨x, y, width, height⟩ := kept
  refine s.isRecord.legible ?_
  simp only [encode, Value.entries, List.forall_mem_cons]
  exact ⟨.float _ x, .float _ y, .float _ width, .float _ height, by simp⟩

end ShapeRecord

namespace MemberRecord

theorem arranged_encode (m : MemberRecord) : m.encode.arranged = m.encode := by
  cases m <;> rfl

theorem decode_encode (m : MemberRecord) : decode m.encode = some m := by
  cases m with
  | line text => rfl
  | fields kind visibility name typeName => cases kind <;> cases visibility <;> rfl

theorem decode_members (members : List MemberRecord) :
    (Value.array (members.map encode)).arranged.array?.bind (·.mapM decode) = some members :=
  decode_array members (.inr arranged_encode) fun m => by rw [arranged_encode, decode_encode]

theorem legible (m : MemberRecord) (levels : Nat) : Legible (levels + 1) m.encode := by
  cases m with
  | line text => exact .string _ text
  | fields kind visibility name typeName =>
      have record : IsRecord ["visibility", "name", "type", "operation"]
          (encode (.fields kind visibility name typeName)).entries :=
        { fields := .refl _, bare := by decide, distinct := by decide }
      refine record.legible ?_
      simp only [encode, Value.entries, List.forall_mem_cons]
      exact ⟨.string _ _, .string _ _, .string _ _, .boolean _ _, by simp⟩

end MemberRecord

namespace EntityRecord

theorem isRecord (e : EntityRecord) : IsRecord order e.encode.entries where
  fields := by
    cases package : e.package <;> cases bounds : e.bounds <;>
      simp [encode, Value.entries, order, package, bounds]
  bare := by decide
  distinct := by decide

theorem decode_arranged (e : EntityRecord) : decode e.encode.arranged = some e := by
  have known : Value.record? order e.encode.arranged = some (arrange e.encode.entries) :=
    e.isRecord.record?_arranged
  simp only [decode, known, Option.bind_eq_bind, Option.bind_some, e.isRecord.required_arrange,
    e.isRecord.optional_arrange]
  obtain ⟨key, kind, title, members, package, bounds⟩ := e
  let t := (EntityRecord.mk key kind title members package bounds).encode.entries
  have keyed : t.lookup "key" = some (.string key) := rfl
  have sort : t.lookup "kind" = some (.string kind.keyword) := rfl
  have word :
      (Value.string kind.keyword).arranged.word?.bind EntityKind.ofKeyword? = some kind := by
    cases kind <;> rfl
  have titled : t.lookup "title" = some (.string title) := rfl
  have listed : t.lookup "members" = some (.array (members.map MemberRecord.encode)) := rfl
  have nested : t.lookup "package" = package.map .string := by
    cases package <;> cases bounds <;> rfl
  have placed : t.lookup "bounds" = bounds.map ShapeRecord.encode := by
    cases package <;> cases bounds <;> rfl
  rw [keyed, sort, titled, listed, nested, placed]
  simp only [Option.bind_some, word, MemberRecord.decode_members]
  cases package <;> cases bounds <;>
    simp [ShapeRecord.decode_arranged, Value.arranged, Value.string?]

def measures (e : EntityRecord) : List Float32 := e.bounds.toList.flatMap ShapeRecord.measures

theorem legible {e : EntityRecord} (kept : ∀ x ∈ e.measures, Kept x) (levels : Nat) :
    Legible (levels + 3) e.encode := by
  refine e.isRecord.legible ?_
  have members : Legible (levels + 2) (.array (e.members.map MemberRecord.encode)) :=
    legible_array fun m _ => m.legible levels
  obtain ⟨key, kind, title, members', package, bounds⟩ := e
  simp only [encode, Value.entries, List.forall_mem_append, List.forall_mem_cons]
  refine ⟨⟨⟨.string _ _, .string _ _, .string _ _, members, by simp⟩, ?_⟩, ?_⟩
  · cases package <;> simp [Legible.string]
  · cases bounds with
    | none => simp
    | some shape => simpa using ShapeRecord.legible (by simpa [measures] using kept) _

end EntityRecord

namespace RelationshipRecord

theorem isRecord (r : RelationshipRecord) : IsRecord order r.encode.entries where
  fields := .refl _
  bare := by decide
  distinct := by decide

theorem decode_arranged (r : RelationshipRecord) : decode r.encode.arranged = some r := by
  have known : Value.record? order r.encode.arranged = some (arrange r.encode.entries) :=
    r.isRecord.record?_arranged
  simp only [decode, known, Option.bind_eq_bind, Option.bind_some, r.isRecord.required_arrange,
    r.isRecord.optional_arrange]
  cases r with
  | mk source target kind sourceMultiplicity targetMultiplicity label => cases kind <;> rfl

theorem legible (r : RelationshipRecord) (levels : Nat) : Legible (levels + 1) r.encode := by
  refine r.isRecord.legible ?_
  simp only [encode, Value.entries, List.forall_mem_cons]
  exact ⟨.string _ _, .string _ _, .string _ _, .string _ _, .string _ _, .string _ _, by simp⟩

end RelationshipRecord

namespace Project

variable {p : Project}

theorem isRecord (p : Project) : IsRecord order p.encode where
  fields := .refl _
  bare := by decide
  distinct := by decide

theorem decode_arrange (p : Project) : decode (arrange p.encode) = some p := by
  simp only [decode, p.isRecord.knowing?_arrange, Option.bind_eq_bind, Option.bind_some,
    p.isRecord.required_arrange, p.isRecord.optional_arrange]
  have name : p.encode.lookup "name" = some (.string p.name) := rfl
  have entities : p.encode.lookup "entities" = some (.array (p.entities.map EntityRecord.encode)) :=
    rfl
  have relationships : p.encode.lookup "relationships" =
      some (.array (p.relationships.map RelationshipRecord.encode)) := rfl
  rw [name, entities, relationships]
  simp only [Option.bind_some, decode_array _ (.inl fun _ => rfl) EntityRecord.decode_arranged,
    decode_array _ (.inl fun _ => rfl) RelationshipRecord.decode_arranged]
  rfl

theorem encode_injective : Function.Injective encode := by
  intro p q same
  have read := decode_arrange p
  rw [same, decode_arrange] at read
  exact (Option.some.inj read).symm

def measures (p : Project) : List Float32 := p.entities.flatMap EntityRecord.measures

theorem legible (kept : ∀ x ∈ p.measures, Kept x) : Legible 5 (.table p.encode) := by
  have entities : ∀ e ∈ p.entities, Legible 3 e.encode := fun e member =>
    EntityRecord.legible (fun x measure => kept x (List.mem_flatMap.mpr ⟨e, member, measure⟩)) 0
  refine p.isRecord.legible ?_
  simp only [encode, List.forall_mem_cons]
  exact ⟨.string _ _, legible_array entities, legible_array fun r _ => r.legible 2, by simp⟩

/-- Different projects have different encodings, and what is written for a project is read as the
project, provided that each of its numbers is. -/
theorem read_write (p : Project) (kept : ∀ x ∈ p.measures, Kept x) :
    (∀ q : Project, q.encode = p.encode → q = p) ∧ read p.write = .ok p := by
  refine ⟨fun q same => encode_injective same, ?_⟩
  have document : Toml.parse p.write = some (arrange p.encode) :=
    parse_write (legible kept) (by decide)
  rw [read, document, Option.bind_some, decode_arrange]

/-- An account, whose operation no line of notation can express, in a package further down. -/
def bank : Project where
  name := "The \"bank\""
  entities :=
    [{ key := "Account", kind := .plainClass, title := "Account", package := some "Sales",
        members := [.line "- balance: Int", .fields .operation .pub "pay(x: Int)" "a: b"] },
      { key := "Sales", kind := .package, title := "Sales",
        bounds := some ⟨0.1, -12.5, 160.5, 90.25⟩ }]
  relationships := [{ source := "Account", target := "Account", label := "line\nbreak" }]

theorem read_write_bank :
    (∀ q : Project, q.encode = bank.encode → q = bank) ∧ read bank.write = .ok bank := by
  have kept : ∀ x ∈ bank.measures, Kept x := by
    show ∀ x ∈ [(0.1 : Float32), -12.5, 160.5, 90.25], Kept x
    simp only [List.forall_mem_cons]
    exact ⟨rfl, rfl, rfl, rfl, by simp⟩
  exact read_write bank kept

end Project

end ClassDiagram
