import ClassDiagram.Proofs.Toml.Entries
import ClassDiagram.Proofs.Toml.Literal

/-! Values on one line are read back as what was written. -/

namespace ClassDiagram.Toml

def IsBareKey (key : String) : Prop := key.toList ≠ [] ∧ ∀ c ∈ key.toList, isBare c = true

instance (key : String) : Decidable (IsBareKey key) :=
  @instDecidableAnd _ _ _ (List.decidableBAll _ _)

/-- Values of at most so many levels that are read back. The keys of a table are distinct. -/
inductive Legible : Nat → Value → Prop where
  | string (levels : Nat) (text : String) : Legible levels (.string text)
  | boolean (levels : Nat) (b : Bool) : Legible levels (.boolean b)
  | float (levels : Nat) {x : Float32} (kept : Kept x) : Legible levels (.float x)
  | array {levels : Nat} {items : List Value} (h : ∀ v ∈ items, Legible levels v) :
      Legible (levels + 1) (.array items)
  | table {levels : Nat} {entries : Table} (bare : ∀ e ∈ entries, IsBareKey e.1)
      (distinct : (entries.map (·.1)).Nodup) (h : ∀ e ∈ entries, Legible levels e.2) :
      Legible (levels + 1) (.table entries)

section Text

theorem keyText_bare {key : String} (bare : IsBareKey key) : keyText key = key := by
  obtain ⟨some, all⟩ := bare
  have filled : key.isEmpty = false := by
    rw [← Bool.not_eq_true, String.isEmpty_iff]
    rintro rfl
    exact some rfl
  exact if_pos (by simp [filled, List.all_eq_true.mpr all])

theorem texts_eq (items : List Value) : Value.texts items = items.map Value.text := by
  induction items with
  | nil => rfl
  | cons v rest ih => rw [Value.texts, ih, List.map_cons]

theorem fieldTexts_eq (entries : Table) :
    Value.fieldTexts entries =
      entries.map fun e => keyText e.1 ++ " = " ++ e.2.text := by
  induction entries with
  | nil => rfl
  | cons e rest ih => rw [Value.fieldTexts, ih, List.map_cons]

def fieldChars (e : String × Value) : List Char :=
  e.1.toList ++ ' ' :: '=' :: ' ' :: e.2.text.toList

theorem toList_field {e : String × Value} (bare : IsBareKey e.1) :
    (keyText e.1 ++ " = " ++ e.2.text).toList = fieldChars e := by
  simp [keyText_bare bare, fieldChars]

theorem toList_array (items : List Value) :
    (Value.array items).text.toList =
      '[' :: (List.intercalate [',', ' '] (items.map (·.text.toList)) ++ [']']) := by
  rw [Value.text, texts_eq]
  simp [String.toList_intercalate, Function.comp_def]

theorem toList_table {e : String × Value} {rest : Table}
    (bare : ∀ entry ∈ e :: rest, IsBareKey entry.1) :
    (Value.table (e :: rest)).text.toList =
      '\x7b' :: ' ' ::
        (List.intercalate [',', ' '] ((e :: rest).map fieldChars) ++ [' ', '\x7d']) := by
  have fields : ((e :: rest).map fun e => keyText e.1 ++ " = " ++ e.2.text).map String.toList =
      (e :: rest).map fieldChars := by
    rw [List.map_map]
    exact List.map_congr_left fun entry member => toList_field (bare entry member)
  have text : (Value.table (e :: rest)).text =
      "\x7b " ++ ", ".intercalate (Value.fieldTexts (e :: rest)) ++ " \x7d" := rfl
  rw [text, fieldTexts_eq, String.toList_append, String.toList_append, String.toList_intercalate,
    fields]
  rfl

end Text

namespace Reader

open Quoted (isIndent)

variable {s rest : List Char}

section Keys

theorem ne_of_isBare {c d : Char} (bare : isBare c = true) (none : isBare d = false) : c ≠ d := by
  rintro rfl
  rw [bare] at none
  cases none

theorem skipIndent_stop {c : Char} (stop : isIndent c = false) : skipIndent (c :: s) = c :: s := by
  simp [skipIndent, stop]

theorem not_isIndent_of_isBare {c : Char} (bare : isBare c = true) : isIndent c = false := by
  have blank : c ≠ ' ' := ne_of_isBare bare rfl
  have tab : c ≠ '\t' := ne_of_isBare bare rfl
  simp [isIndent, blank, tab]

theorem exists_bare {key : String} (bare : IsBareKey key) :
    ∃ c tail, key.toList = c :: tail ∧ isBare c = true := by
  obtain ⟨c, tail, chars⟩ := List.exists_cons_of_ne_nil bare.1
  exact ⟨c, tail, chars, bare.2 c (by simp [chars])⟩

theorem key?_append {key : String} (bare : IsBareKey key)
    (next : ∀ c ∈ rest.head?, isBare c = false) : key? (key.toList ++ rest) = some (key, rest) := by
  obtain ⟨c, tail, chars, first⟩ := exists_bare bare
  have taken : (key.toList ++ rest).takeWhile isBare = key.toList := by
    rw [List.takeWhile_append_of_pos bare.2]
    cases rest with
    | nil => simp
    | cons d rest => simp [next d rfl]
  rw [key?.eq_def]
  split
  next same =>
    rw [chars] at same
    exact absurd (List.cons.inj same).1 (ne_of_isBare first rfl)
  next same =>
    rw [chars] at same
    exact absurd (List.cons.inj same).1 (ne_of_isBare first rfl)
  next => simp [taken, List.isEmpty_iff, bare.1]

theorem skipIndent_key {key : String} (bare : IsBareKey key) (rest : List Char) :
    skipIndent (key.toList ++ rest) = key.toList ++ rest := by
  obtain ⟨c, tail, chars, first⟩ := exists_bare bare
  rw [chars]
  exact skipIndent_stop (not_isIndent_of_isBare first)

theorem path?_append {through : List String} {last : String} {parts : Nat}
    (bare : ∀ key ∈ through ++ [last], IsBareKey key) (few : through.length < parts)
    (apart : ∀ c ∈ rest.head?, isBare c = false)
    (next : ∀ c ∈ (skipIndent rest).head?, c ≠ '.') :
    path? parts (List.intercalate ['.'] ((through ++ [last]).map String.toList) ++ rest) =
      some (⟨through, last⟩, skipIndent rest) := by
  induction through generalizing parts with
  | nil =>
      obtain ⟨parts, rfl⟩ : ∃ n, parts = n + 1 := ⟨parts - 1, by omega⟩
      have bare : IsBareKey last := bare last (by simp)
      simp only [List.nil_append, List.map_cons, List.map_nil, List.intercalate_singleton]
      rw [path?, skipIndent_key bare, key?_append bare apart]
      simp only [Option.bind_eq_bind, Option.bind_some]
      split
      next point => exact absurd rfl (next '.' (by rw [point]; rfl))
      next => rfl
  | cons key through ih =>
      obtain ⟨parts, rfl⟩ : ∃ n, parts = n + 1 := ⟨parts - 1, by omega⟩
      rw [List.cons_append, List.forall_mem_cons] at bare
      have later := ih bare.2 (Nat.lt_of_succ_lt_succ few)
      rw [List.cons_append, List.map_cons, List.intercalate_cons_of_ne_nil (by simp)]
      generalize List.intercalate ['.'] ((through ++ [last]).map String.toList) = path at later ⊢
      have point : ∀ c ∈ ('.' :: (path ++ rest)).head?, isBare c = false := by
        rintro c ⟨⟩
        rfl
      simp only [List.append_assoc, List.cons_append, List.nil_append]
      rw [path?, skipIndent_key bare.1, key?_append bare.1 point]
      simp only [Option.bind_eq_bind, Option.bind_some, skipIndent_stop (c := '.') rfl, later]
      rfl

end Keys

section Inline

variable {c : Char} {depth fuel : Nat} {v : Value}

def IsSolid (c : Char) : Prop := c ∉ [' ', '\t', '\r', '\n', '#']

instance (c : Char) : Decidable (IsSolid c) := inferInstanceAs (Decidable (_ ∉ _))

theorem trivia?_solid (solid : IsSolid c) (s : List Char) :
    trivia? false (c :: s) = some (c :: s) := by
  simp only [IsSolid, List.mem_cons, List.not_mem_nil, or_false, not_or] at solid
  obtain ⟨blank, tab, back, line, hash⟩ := solid
  rw [trivia?.eq_def]
  simp [isIndent, blank, tab, back, line, hash]

theorem trivia?_blank (s : List Char) : trivia? false (' ' :: s) = trivia? false s := by
  rw [trivia?.eq_def]
  simp [isIndent]

/-- What a value or a field begins with: neither does it separate two of them nor close an array or
a table. -/
def Begins (s : List Char) : Prop := ∃ c rest, s = c :: rest ∧ IsSolid c ∧ c ≠ ']' ∧ c ≠ '\x7d'

theorem items?_blank (s : List Char) : items? fuel depth (' ' :: s) = items? fuel depth s := by
  cases fuel with
  | zero => rfl
  | succ fuel => rw [items?, items?, trivia?_blank]

theorem items?_last (begins : Begins s) (first : value? fuel depth s = some (v, ']' :: rest)) :
    items? (fuel + 1) depth s = some ([v], rest) := by
  obtain ⟨c, tail, rfl, solid, open', -⟩ := begins
  rw [items?, trivia?_solid solid]
  simp only [Option.bind_eq_bind, Option.bind_some]
  split
  next same => exact absurd (List.cons.inj same).1 open'
  next => simp [first, trivia?_solid (c := ']') (by decide)]

theorem items?_next (begins : Begins s) (first : value? fuel depth s = some (v, ',' :: rest)) :
    items? (fuel + 1) depth s = (items? fuel depth rest).map fun (vs, rest) => (v :: vs, rest) := by
  obtain ⟨c, tail, rfl, solid, open', -⟩ := begins
  rw [items?, trivia?_solid solid]
  simp only [Option.bind_eq_bind, Option.bind_some]
  split
  next same => exact absurd (List.cons.inj same).1 open'
  next =>
    have comma : trivia? false (',' :: rest) = some (',' :: rest) := trivia?_solid (by decide) rest
    simp [first, comma, Option.map_eq_bind]

theorem fields?_blank {entries : Entries} (s : List Char) :
    fields? fuel depth entries (' ' :: s) = fields? fuel depth entries s := by
  cases fuel with
  | zero => rfl
  | succ fuel => rw [fields?, fields?, trivia?_blank]

variable {key : String} {entries : Entries}

theorem path?_field (bare : IsBareKey key) (s : List Char) :
    path? maxDepth (key.toList ++ ' ' :: '=' :: s) = some (⟨[], key⟩, '=' :: s) := by
  have equals : skipIndent (' ' :: '=' :: s) = '=' :: s := by simp [skipIndent, isIndent]
  have path : path? maxDepth
      (List.intercalate ['.'] (([] ++ [key]).map String.toList) ++ ' ' :: '=' :: s) =
        some (⟨[], key⟩, skipIndent (' ' :: '=' :: s)) :=
    path?_append (by simpa using bare) (by decide) (by simp [isBare]) (by simp [equals])
  rw [equals] at path
  simpa using path

theorem trivia?_begins (begins : Begins s) : trivia? false s = some s := by
  obtain ⟨c, tail, rfl, solid, -⟩ := begins
  exact trivia?_solid solid tail

theorem skipIndent_begins (begins : Begins s) : skipIndent s = s := by
  obtain ⟨c, tail, rfl, solid, -⟩ := begins
  simp only [IsSolid, List.mem_cons, List.not_mem_nil, or_false, not_or] at solid
  exact skipIndent_stop (by simp [isIndent, solid])

theorem begins_of_isBare {c : Char} (bare : isBare c = true) (s : List Char) : Begins (c :: s) := by
  have apart : ∀ d, isBare d = false → c ≠ d := fun d => ne_of_isBare bare
  refine ⟨c, s, rfl, ?_, ?_⟩ <;> simp [IsSolid, isBare, apart]

theorem fields?_value (bare : IsBareKey key) (new : key ∉ entries.map (·.1)) (begins : Begins s) :
    fields? (fuel + 1) depth entries (key.toList ++ ' ' :: '=' :: ' ' :: s) =
      (value? fuel depth s).bind fun (v, rest) =>
        (trivia? false rest).bind fun rest =>
          match rest with
          | ',' :: rest => fields? fuel depth (entries ++ [(key, .closed v)]) rest
          | '\x7d' :: rest => some (entries ++ [(key, .closed v)], rest)
          | _ => none := by
  obtain ⟨c, tail, chars, first⟩ := exists_bare bare
  have start : Begins (key.toList ++ ' ' :: '=' :: ' ' :: s) := by
    rw [chars]
    exact begins_of_isBare first _
  have equals : trivia? false ('=' :: ' ' :: s) = some ('=' :: ' ' :: s) :=
    trivia?_solid (by decide) _
  have value : trivia? false (' ' :: s) = some s := (trivia?_blank s).trans (trivia?_begins begins)
  rw [fields?, trivia?_begins start]
  simp only [Option.bind_eq_bind, Option.bind_some]
  split
  next same =>
    rw [chars] at same
    exact absurd (List.cons.inj same).1 (ne_of_isBare first rfl)
  next =>
    simp only [path?_field bare, equals, value, Option.bind_some, Entries.assign?_new new]
    rfl

theorem fields?_last (bare : IsBareKey key) (new : key ∉ entries.map (·.1)) (begins : Begins s)
    (value : value? fuel depth s = some (v, ' ' :: '\x7d' :: rest)) :
    fields? (fuel + 1) depth entries (key.toList ++ ' ' :: '=' :: ' ' :: s) =
      some (entries ++ [(key, .closed v)], rest) := by
  have close : trivia? false (' ' :: '\x7d' :: rest) = some ('\x7d' :: rest) :=
    (trivia?_blank _).trans (trivia?_solid (by decide) rest)
  simp only [fields?_value bare new begins, value, close, Option.bind_some]

theorem fields?_next (bare : IsBareKey key) (new : key ∉ entries.map (·.1)) (begins : Begins s)
    (value : value? fuel depth s = some (v, ',' :: rest)) :
    fields? (fuel + 1) depth entries (key.toList ++ ' ' :: '=' :: ' ' :: s) =
      fields? fuel depth (entries ++ [(key, .closed v)]) rest := by
  have comma : trivia? false (',' :: rest) = some (',' :: rest) := trivia?_solid (by decide) rest
  simp only [fields?_value bare new begins, value, comma, Option.bind_some]

/-- The value is read from its text, whatever follows there. -/
def Reads (depth : Nat) (v : Value) : Prop :=
  ∀ fuel rest, v.text.toList.length ≤ fuel → Follows rest →
    value? fuel depth (v.text.toList ++ rest) = some (v, rest)

theorem items?_text {items : List Value} (reads : ∀ v ∈ items, Reads depth v)
    (begins : ∀ v ∈ items, ∀ rest, Begins (v.text.toList ++ rest)) (rest : List Char)
    (enough : (List.intercalate [',', ' '] (items.map (·.text.toList))).length < fuel) :
    items? fuel depth (List.intercalate [',', ' '] (items.map (·.text.toList)) ++ ']' :: rest) =
      some (items, rest) := by
  induction items generalizing fuel with
  | nil =>
      obtain ⟨fuel, rfl⟩ : ∃ n, fuel = n + 1 := ⟨fuel - 1, by omega⟩
      have close : trivia? false (']' :: rest) = some (']' :: rest) :=
        trivia?_solid (by decide) rest
      simp [items?, close]
  | cons v items ih =>
      obtain ⟨fuel, rfl⟩ : ∃ n, fuel = n + 1 := ⟨fuel - 1, by omega⟩
      rw [List.forall_mem_cons] at reads begins
      cases items with
      | nil =>
          simp only [List.map_cons, List.map_nil, List.intercalate_singleton] at enough ⊢
          exact items?_last (begins.1 _) (reads.1 _ _ (by omega) (.mark rest (by simp)))
      | cons w items =>
          rw [List.map_cons, List.intercalate_cons_of_ne_nil (by simp)] at enough ⊢
          simp only [List.length_append, List.length_cons, List.length_nil] at enough
          have first := reads.1 fuel
            (',' :: ' ' :: (List.intercalate [',', ' '] ((w :: items).map (·.text.toList)) ++
              ']' :: rest)) (by omega) (.mark _ (by simp))
          have shorter :
              (List.intercalate [',', ' '] ((w :: items).map (·.text.toList))).length < fuel := by
            omega
          have later := ih reads.2 begins.2 shorter
          simp only [List.append_assoc, List.cons_append, List.nil_append] at first ⊢
          rw [items?_next (begins.1 _) first, items?_blank, later]
          rfl

def closed (entries : Table) : Entries := entries.map fun e => (e.1, .closed e.2)

theorem entryValues_closed (entries : Table) : entryValues (closed entries) = entries := by
  simp [entryValues_eq, closed, Function.comp_def, Node.value]

theorem fields?_text (entries : Entries) {e : String × Value} {more : Table}
    (bare : ∀ entry ∈ e :: more, IsBareKey entry.1)
    (reads : ∀ entry ∈ e :: more, Reads depth entry.2)
    (begins : ∀ entry ∈ e :: more, ∀ rest, Begins (entry.2.text.toList ++ rest))
    (distinct : (entries.map (·.1) ++ (e :: more).map (·.1)).Nodup) (rest : List Char)
    (enough : (List.intercalate [',', ' '] ((e :: more).map fieldChars)).length < fuel) :
    fields? fuel depth entries
        (List.intercalate [',', ' '] ((e :: more).map fieldChars) ++ ' ' :: '\x7d' :: rest) =
      some (entries ++ closed (e :: more), rest) := by
  have new : e.1 ∉ entries.map (·.1) :=
    fun old => distinct.disjoint old List.mem_cons_self
  obtain ⟨fuel, rfl⟩ : ∃ n, fuel = n + 1 := ⟨fuel - 1, by omega⟩
  induction more generalizing e fuel entries with
  | nil =>
      rw [List.map_cons, List.map_nil, List.intercalate_singleton, fieldChars] at enough ⊢
      simp only [List.length_append, List.length_cons] at enough
      simp only [List.append_assoc, List.cons_append]
      have value := reads e List.mem_cons_self fuel _ (by omega) (.brace rest)
      exact fields?_last (bare e List.mem_cons_self) new (begins e List.mem_cons_self _) value
  | cons next more ih =>
      rw [List.forall_mem_cons] at bare reads begins
      have distinct : ((entries ++ [(e.1, Node.closed e.2)]).map (·.1) ++
          (next :: more).map (·.1)).Nodup := by
        simpa using distinct
      have newNext : next.1 ∉ (entries ++ [(e.1, Node.closed e.2)]).map (·.1) :=
        fun old => distinct.disjoint old List.mem_cons_self
      rw [List.map_cons, List.intercalate_cons_of_ne_nil (by simp), fieldChars] at enough ⊢
      simp only [List.length_append, List.length_cons, List.length_nil] at enough
      obtain ⟨fuel, rfl⟩ : ∃ n, fuel = n + 1 := ⟨fuel - 1, by omega⟩
      have later := ih _ bare.2 reads.2 begins.2 distinct newNext fuel (by omega)
      have value := reads.1 (fuel + 1)
        (',' :: ' ' :: (List.intercalate [',', ' '] ((next :: more).map fieldChars) ++
          ' ' :: '\x7d' :: rest)) (by omega) (.mark _ (by simp))
      simp only [List.append_assoc, List.cons_append, List.nil_append] at value ⊢
      rw [fields?_next bare.1 new (begins.1 _) value, fields?_blank, later]
      simp [closed]

theorem ne_of_isBody {c d : Char} (body : Literal.IsBody c) (ends : ¬ Literal.IsBody d) :
    c ≠ d := by
  rintro rfl
  exact ends body

theorem begins_of_isBody {c : Char} (body : Literal.IsBody c) (s : List Char) :
    Begins (c :: s) := by
  have apart : ∀ d, ¬ Literal.IsBody d → c ≠ d := fun d => ne_of_isBody body
  refine ⟨c, s, rfl, ?_, ?_⟩ <;>
    simp [IsSolid, Literal.IsBody, Literal.isDelimiter, isIndent, apart]

theorem filled_of_kept {x : Float32} (kept : Kept x) :
    (Decimal.text floatStyle x).toList ≠ [] := by
  intro empty
  rw [Kept, empty] at kept
  cases kept

theorem value?_literal {w : List Char} (filled : w ≠ []) (body : ∀ c ∈ w, Literal.IsBody c)
    (means : Literal.value? w = some v) (follows : Follows rest) :
    value? (fuel + 1) depth (w ++ rest) = some (v, rest) := by
  rw [← Literal.read_append body means follows]
  obtain ⟨c, tail, rfl⟩ := List.exists_cons_of_ne_nil filled
  have here := (List.forall_mem_cons.mp body).1
  rw [List.cons_append, value?]
  all_goals
    intro rest same
    exact ne_of_isBody here (by decide) (List.cons.inj same).1

theorem reads_literal (filled : v.text.toList ≠ [])
    (body : ∀ c ∈ v.text.toList, Literal.IsBody c)
    (means : Literal.value? v.text.toList = some v) : Reads depth v := by
  intro fuel rest enough follows
  have positive := List.length_pos_iff.mpr filled
  obtain ⟨fuel, rfl⟩ : ∃ n, fuel = n + 1 := ⟨fuel - 1, by omega⟩
  exact value?_literal filled body means follows

theorem toList_string (text : String) :
    (Value.string text).text.toList = Quoted.write text.toList := by
  rw [Value.text, Quoted.text, String.toList_ofList]

theorem reads_string (text : String) : Reads depth (.string text) := by
  intro fuel rest enough follows
  obtain ⟨quote, mark, body, written, read⟩ := Quoted.reads_write text.toList
  have taken := read rest follows.unmarked
  rw [String.ofList_toList] at taken
  rw [toList_string, written] at enough ⊢
  obtain ⟨fuel, rfl⟩ : ∃ n, fuel = n + 1 := ⟨fuel - 1, by simp at enough; omega⟩
  simp only [List.mem_cons, List.not_mem_nil, or_false] at mark
  rcases mark with rfl | rfl <;> simp [value?, taken]

theorem reads_table {entries : Table} (bare : ∀ e ∈ entries, IsBareKey e.1)
    (distinct : (entries.map (·.1)).Nodup) (reads : ∀ e ∈ entries, Reads depth e.2)
    (begins : ∀ e ∈ entries, ∀ rest, Begins (e.2.text.toList ++ rest)) :
    Reads (depth + 1) (.table entries) := by
  intro fuel rest enough follows
  cases entries with
  | nil =>
      have open' : (Value.table []).text.toList = ['\x7b', '\x7d'] := rfl
      rw [open'] at enough ⊢
      obtain ⟨fuel, rfl⟩ : ∃ n, fuel = n + 2 := ⟨fuel - 2, by simp at enough; omega⟩
      have close : trivia? false ('\x7d' :: rest) = some ('\x7d' :: rest) :=
        trivia?_solid (by decide) rest
      simp [value?, deeper?, fields?, close, entryValues]
  | cons e more =>
      rw [toList_table bare] at enough ⊢
      simp only [List.length_cons, List.length_append, List.length_nil] at enough
      obtain ⟨fuel, rfl⟩ : ∃ n, fuel = n + 1 := ⟨fuel - 1, by omega⟩
      have inside : (List.intercalate [',', ' '] ((e :: more).map fieldChars)).length < fuel := by
        omega
      have fields := fields?_text [] bare reads begins (by simpa using distinct) rest inside
      simp only [List.cons_append, List.append_assoc, List.nil_append] at fields ⊢
      simp only [value?, deeper?, Option.bind_eq_bind, Option.bind_some, fields?_blank, fields,
        entryValues_closed]
      rfl

theorem reads_array {items : List Value} (reads : ∀ v ∈ items, Reads depth v)
    (begins : ∀ v ∈ items, ∀ rest, Begins (v.text.toList ++ rest)) :
    Reads (depth + 1) (.array items) := by
  intro fuel rest enough follows
  rw [toList_array] at enough ⊢
  simp only [List.length_cons, List.length_append, List.length_nil] at enough
  obtain ⟨fuel, rfl⟩ : ∃ n, fuel = n + 1 := ⟨fuel - 1, by omega⟩
  have inside : (List.intercalate [',', ' '] (items.map (·.text.toList))).length < fuel := by
    omega
  simp only [List.cons_append, List.append_assoc, List.nil_append]
  simp only [value?, deeper?, Option.bind_eq_bind, Option.bind_some,
    items?_text reads begins rest inside]
  rfl

end Inline

theorem begins_text {levels : Nat} {v : Value} (h : Legible levels v) (rest : List Char) :
    Begins (v.text.toList ++ rest) := by
  cases h with
  | string levels text =>
      obtain ⟨quote, mark, body, written, -⟩ := Quoted.reads_write text.toList
      rw [toList_string, written, List.cons_append]
      simp only [List.mem_cons, List.not_mem_nil, or_false] at mark
      rcases mark with rfl | rfl <;> exact ⟨_, _, rfl, by decide, by decide, by decide⟩
  | boolean levels b =>
      cases b <;> exact begins_of_isBody (by decide) _
  | @float levels x kept =>
      obtain ⟨c, tail, chars⟩ := List.exists_cons_of_ne_nil (filled_of_kept kept)
      have body := isBody_text x
      rw [Value.text, chars] at *
      exact begins_of_isBody (body c List.mem_cons_self) _
  | @array levels items h =>
      rw [toList_array]
      exact ⟨'[', _, rfl, by decide, by decide, by decide⟩
  | @table levels entries bare =>
      cases entries with
      | nil => exact ⟨'\x7b', _, rfl, by decide, by decide, by decide⟩
      | cons e rest =>
          rw [toList_table bare]
          exact ⟨'\x7b', _, rfl, by decide, by decide, by decide⟩

theorem reads_of_legible {levels depth : Nat} {v : Value} (h : Legible levels v)
    (deep : levels ≤ depth) : Reads depth v := by
  induction h generalizing depth with
  | string levels text => exact reads_string text
  | boolean levels b =>
      cases b <;> exact reads_literal (by decide) (Literal.isBody_of_all (by decide)) rfl
  | @float levels x kept =>
      have text : (Value.float x).text = Decimal.text floatStyle x := by rw [Value.text]
      exact reads_literal (text ▸ filled_of_kept kept) (text ▸ isBody_text x) (text ▸ kept)
  | @array levels items h ih =>
      obtain ⟨depth, rfl⟩ : ∃ n, depth = n + 1 := ⟨depth - 1, by omega⟩
      exact reads_array (fun v member => ih v member (Nat.le_of_succ_le_succ deep))
        fun v member => begins_text (h v member)
  | @table levels entries bare distinct h ih =>
      obtain ⟨depth, rfl⟩ : ∃ n, depth = n + 1 := ⟨depth - 1, by omega⟩
      exact reads_table bare distinct (fun e member => ih e member (Nat.le_of_succ_le_succ deep))
        fun e member => begins_text (h e member)

end Reader

end ClassDiagram.Toml
