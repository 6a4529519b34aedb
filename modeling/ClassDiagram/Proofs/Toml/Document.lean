import ClassDiagram.Proofs.Toml.Value

/-! Documents are read back as the table that was written. Only the order of entries may differ,
since the plain entries of a table are written before its blocks. -/

namespace ClassDiagram.Toml

section Arrangement

mutual

/-- A value as it comes out of a document: the plain entries of each table that has blocks of its
own come first. -/
def Value.arranged : Value → Value
  | .table entries => .table (entries.filter (!·.2.isBlock) ++ arrangedBlocks entries)
  | .array items =>
    if (Value.array items).isBlock then .array (arrangedItems items) else .array items
  | value => value

def arrangedItems : List Value → List Value
  | [] => []
  | value :: rest => value.arranged :: arrangedItems rest

def arrangedBlocks : Table → Table
  | [] => []
  | (key, value) :: rest =>
    if value.isBlock then (key, value.arranged) :: arrangedBlocks rest else arrangedBlocks rest

end

def Value.tables : Value → List Table
  | .table entries => [entries]
  | .array items =>
    items.filterMap fun
      | .table entries => some entries
      | _ => none
  | _ => []

def arrange (t : Table) : Table := t.filter (!·.2.isBlock) ++ arrangedBlocks t

theorem arranged_of_plain {value : Value} (plain : value.isBlock = false) :
    value.arranged = value := by
  cases value with
  | table => cases plain
  | array items => rw [Value.arranged, if_neg (by simp [plain])]
  | _ => rfl

theorem arrangedItems_eq (items : List Value) : arrangedItems items = items.map Value.arranged := by
  induction items with
  | nil => rfl
  | cons item rest ih => rw [arrangedItems, ih, List.map_cons]

theorem arrangedBlocks_eq (t : Table) :
    arrangedBlocks t = (t.filter (·.2.isBlock)).map fun e => (e.1, e.2.arranged) := by
  induction t with
  | nil => rfl
  | cons e rest ih =>
      by_cases block : e.2.isBlock = true <;> simp [arrangedBlocks, block, ih]

theorem arrange_perm (t : Table) : (arrange t).Perm (t.map fun e => (e.1, e.2.arranged)) := by
  have plain : t.filter (!·.2.isBlock) =
      (t.filter (!·.2.isBlock)).map fun e => (e.1, e.2.arranged) := by
    refine (List.map_id' _).symm.trans (List.map_congr_left fun e member => ?_)
    have none : e.2.isBlock = false := by simpa using (List.mem_filter.mp member).2
    rw [arranged_of_plain none]
  have perm := List.filter_append_perm (!·.2.isBlock) t
  simp only [Bool.not_not] at perm
  rw [arrange, plain, arrangedBlocks_eq, ← List.map_append]
  exact perm.map _

theorem lookup_arrange {t : Table} (distinct : (t.map (·.1)).Nodup) (key : String) :
    (arrange t).lookup key = (t.lookup key).map Value.arranged := by
  have keys : ((arrange t).map (·.1)).Perm (t.map (·.1)) := by
    simpa [Function.comp_def] using (arrange_perm t).map (·.1)
  cases found : t.lookup key with
  | none =>
      refine lookup_eq_none_of_not_mem fun member => ?_
      obtain ⟨e, there, same⟩ := List.mem_map.mp (keys.mem_iff.mp member)
      have missed := List.lookup_eq_none_iff.mp found e there
      simp [same] at missed
  | some value =>
      refine lookup_of_mem (keys.nodup_iff.mpr distinct) ((arrange_perm t).mem_iff.mpr ?_)
      obtain ⟨front, back, rfl, -⟩ := List.lookup_eq_some_iff.mp found
      exact List.mem_map.mpr ⟨(key, value), by simp, rfl⟩

end Arrangement

namespace Reader

abbrev State := List String × Entries

section Steps

variable {chars front back : List Char} {s t u : State}

/-- Reading the characters leads from one state to the other, in no more steps than characters. -/
def Leads (chars : List Char) (s t : State) : Prop :=
  ∃ steps ≤ chars.length, ∀ fuel rest,
    statements? (fuel + steps) s.1 s.2 (chars ++ rest) = statements? fuel t.1 t.2 rest

theorem leads_nil (s : State) : Leads [] s s := ⟨0, Nat.le_refl _, fun _ _ => rfl⟩

theorem Leads.append (first : Leads front s t) (second : Leads back t u) :
    Leads (front ++ back) s u := by
  obtain ⟨m, few, step⟩ := first
  obtain ⟨n, few', step'⟩ := second
  refine ⟨n + m, ?_, fun fuel rest => ?_⟩
  · rw [List.length_append]
    omega
  · rw [List.append_assoc, ← Nat.add_assoc, step, step']

theorem leads_blank (s : State) : Leads ['\n'] s s := by
  refine ⟨0, Nat.zero_le _, fun fuel rest => ?_⟩
  cases fuel with
  | zero => rfl
  | succ fuel =>
    rw [List.singleton_append, statements?, statements?, trivia?.eq_def]
    simp

theorem lineEnd?_line (rest : List Char) : lineEnd? ('\n' :: rest) = some rest := by
  simp [lineEnd?, skipIndent, Quoted.isIndent]

theorem leads_statement {line : List Char} (begins : ∀ rest, Begins (line ++ rest))
    (read : ∀ rest, statement? s.1 s.2 (line ++ '\n' :: rest) = some (t.1, t.2, '\n' :: rest)) :
    Leads (line ++ ['\n']) s t := by
  refine ⟨1, by simp, fun fuel rest => ?_⟩
  rw [List.append_assoc, List.singleton_append, statements?, trivia?_begins (begins _)]
  simp only [Option.bind_eq_bind, Option.bind_some]
  split
  next none =>
    obtain ⟨c, tail, some, -⟩ := begins ('\n' :: rest)
    rw [some] at none
    cases none
  next => simp only [read, Option.bind_some, lineEnd?_line]

end Steps

section Statements

variable {zipper : Zipper} {inner : Entries} {key : String} {levels : Nat}

theorem toList_pathText {path : List String} (bare : ∀ part ∈ path, IsBareKey part) :
    (pathText path).toList = List.intercalate ['.'] (path.map String.toList) := by
  have keys : path.map keyText = path :=
    (List.map_congr_left fun part member => keyText_bare (bare part member)).trans (List.map_id' _)
  rw [pathText, keys, String.toList_intercalate]
  rfl

theorem pathText_bare {path : List String} (some : path ≠ [])
    (bare : ∀ part ∈ path, IsBareKey part) :
    ∃ c tail, (pathText path).toList = c :: tail ∧ isBare c = true := by
  rw [toList_pathText bare]
  cases path with
  | nil => exact absurd rfl some
  | cons first rest =>
      obtain ⟨c, tail, chars, start⟩ := exists_bare (bare first List.mem_cons_self)
      cases rest with
      | nil => exact ⟨c, tail, by simp [chars], start⟩
      | cons second rest =>
          refine ⟨c, tail ++ '.' :: List.intercalate ['.'] ((second :: rest).map String.toList), ?_,
            start⟩
          rw [List.map_cons, List.intercalate_cons_of_ne_nil (by simp), chars]
          simp

theorem path?_header (through : List String) (last : String)
    (bare : ∀ part ∈ through ++ [last], IsBareKey part) (few : through.length < maxDepth)
    (rest : List Char) :
    path? maxDepth ((pathText (through ++ [last])).toList ++ ']' :: rest) =
      some (⟨through, last⟩, ']' :: rest) := by
  have close : skipIndent (']' :: rest) = ']' :: rest := skipIndent_stop rfl
  rw [toList_pathText bare, path?_append bare few (by simp; rfl) (by simp [close]), close]

theorem statement?_assignment {opened path : List String} {last : String} {value : Value}
    {entries entries' : Entries} {c : Char} {tail rest rest' : List Char} (first : isBare c = true)
    (names : path? maxDepth (c :: tail) = some (⟨path, last⟩, '=' :: rest))
    (read : value? ((c :: tail).length + 1) maxDepth (skipIndent rest) = some (value, rest'))
    (assigned : Entries.at? false (Entries.assign? ⟨path, last⟩ value) opened entries =
      some entries') :
    statement? opened entries (c :: tail) = some (opened, entries', rest') := by
  have apart : c ≠ '[' := ne_of_isBare first rfl
  rw [statement?.eq_def]
  split
  next same => exact absurd (List.cons.inj same).1 apart
  next same => exact absurd (List.cons.inj same).1 apart
  next =>
    simp only [names, read, assigned, Option.bind_eq_bind, Option.bind_some]
    rfl

theorem leads_assignment {value : Value} (bare : IsBareKey key) (new : key ∉ inner.map (·.1))
    (h : Legible levels value) (deep : levels ≤ maxDepth) (fresh : zipper.IsFresh) :
    Leads (fieldChars (key, value) ++ ['\n']) (zipper.path, zipper.plug inner)
      (zipper.path, zipper.plug (inner ++ [(key, .closed value)])) := by
  obtain ⟨c, tail, chars, first⟩ := exists_bare bare
  have start : ∀ rest, fieldChars (key, value) ++ rest =
      c :: (tail ++ ' ' :: '=' :: ' ' :: (value.text.toList ++ rest)) := by
    intro rest
    simp [fieldChars, chars]
  refine leads_statement (fun rest => ?_) fun rest => ?_
  · rw [start]
    exact begins_of_isBare first _
  · have names := path?_field bare (' ' :: (value.text.toList ++ '\n' :: rest))
    have indent : skipIndent (' ' :: (value.text.toList ++ '\n' :: rest)) =
        value.text.toList ++ '\n' :: rest :=
      skipIndent_begins (begins_text h ('\n' :: rest))
    have assigned : Entries.at? false (Entries.assign? ⟨[], key⟩ value) zipper.path
        (zipper.plug inner) = some (zipper.plug (inner ++ [(key, .closed value)])) := by
      rw [Zipper.at?_plug fresh, Entries.assign?_new new]
      rfl
    rw [chars, List.cons_append] at names
    rw [start]
    refine statement?_assignment first names ?_ assigned
    rw [indent]
    refine reads_of_legible h deep _ _ ?_ (.mark rest (by simp))
    simp
    omega

theorem leads_header (fresh : zipper.IsFresh) (bare : ∀ part ∈ zipper.path ++ [key], IsBareKey part)
    (few : zipper.length < maxDepth) (new : key ∉ inner.map (·.1)) (opened : List String) :
    Leads (('[' :: (pathText (zipper.path ++ [key])).toList ++ [']']) ++ ['\n'])
      (opened, zipper.plug inner)
      (zipper.path ++ [key], zipper.plug (inner ++ [(key, .table .header [])])) := by
  refine leads_statement (fun rest => ⟨'[', _, rfl, by decide, by decide, by decide⟩) fun rest => ?_
  have path := path?_header zipper.path key bare (by simpa [Zipper.path] using few) ('\n' :: rest)
  have opens : Entries.open? key inner = some (inner ++ [(key, .table .header [])]) := by
    rw [Entries.open?, Entries.lookup_new new, Entries.set_new new]
  have changed : Entries.at? false (Entries.open? key) zipper.path (zipper.plug inner) =
      some (zipper.plug (inner ++ [(key, .table .header [])])) := by
    rw [Zipper.at?_plug fresh, opens]
    rfl
  simp only [List.cons_append, List.append_assoc, List.nil_append]
  rw [statement?.eq_def]
  split
  next same =>
    obtain ⟨c, tail, chars, first⟩ := pathText_bare (by simp) bare
    rw [chars] at same
    exact absurd (List.cons.inj (List.cons.inj same).2).1 (ne_of_isBare first rfl)
  next same =>
    cases same
    simp only [path, Option.bind_eq_bind, Option.bind_some, changed]
    rfl
  next none => exact absurd rfl (none _)

theorem leads_item (fresh : zipper.IsFresh) (bare : ∀ part ∈ zipper.path ++ [key], IsBareKey part)
    (few : zipper.length < maxDepth) {inner' : Entries}
    (opens : Entries.openNext? key inner = some inner') (opened : List String) :
    Leads (('[' :: '[' :: (pathText (zipper.path ++ [key])).toList ++ [']', ']']) ++ ['\n'])
      (opened, zipper.plug inner) (zipper.path ++ [key], zipper.plug inner') := by
  refine leads_statement (fun rest => ⟨'[', _, rfl, by decide, by decide, by decide⟩) fun rest => ?_
  have path :=
    path?_header zipper.path key bare (by simpa [Zipper.path] using few) (']' :: '\n' :: rest)
  have changed : Entries.at? false (Entries.openNext? key) zipper.path (zipper.plug inner) =
      some (zipper.plug inner') := by
    rw [Zipper.at?_plug fresh, opens]
    rfl
  simp only [List.cons_append, List.append_assoc, List.nil_append, statement?, path,
    Option.bind_eq_bind, Option.bind_some, changed]
  rfl

def sectionChars (lines : List String) : List Char :=
  lines.flatMap fun line => line.toList ++ ['\n']

theorem leads_assignments {plain : Table} (bare : ∀ e ∈ plain, IsBareKey e.1)
    (h : ∀ e ∈ plain, Legible levels e.2) (deep : levels ≤ maxDepth)
    (distinct : (inner.map (·.1) ++ plain.map (·.1)).Nodup) (fresh : zipper.IsFresh) :
    Leads (sectionChars (plain.map fun e => keyText e.1 ++ " = " ++ e.2.text))
      (zipper.path, zipper.plug inner) (zipper.path, zipper.plug (inner ++ closed plain)) := by
  induction plain generalizing inner with
  | nil =>
      rw [closed, List.map_nil, List.map_nil, List.append_nil]
      exact leads_nil _
  | cons e rest ih =>
      rw [List.forall_mem_cons] at bare h
      have new : e.1 ∉ inner.map (·.1) :=
        fun old => distinct.disjoint old List.mem_cons_self
      have first := leads_assignment bare.1 new h.1 deep fresh
      have apart : ((inner ++ [(e.1, Node.closed e.2)]).map (·.1) ++ rest.map (·.1)).Nodup := by
        simpa using distinct
      have later := ih bare.2 h.2 apart
      have both := first.append later
      rw [← toList_field bare.1] at both
      simpa [sectionChars, closed] using both

end Statements

section Sections

inductive Chain : List (List String) → State → State → Prop where
  | nil (s : State) : Chain [] s s
  | cons {lines : List String} {sections : List (List String)} {s t u : State}
      (first : Leads (sectionChars lines) s t) (later : Chain sections t u) :
      Chain (lines :: sections) s u

variable {lines : List String} {sections front back : List (List String)} {s t u : State}

theorem Chain.append (first : Chain front s t) (second : Chain back t u) :
    Chain (front ++ back) s u := by
  induction first with
  | nil => exact second
  | cons first later ih => exact .cons first (ih second)

theorem Chain.headed {line : String} (header : Leads (line.toList ++ ['\n']) s t)
    (h : Chain (lines :: sections) t u) : Chain ((line :: lines) :: sections) s u := by
  cases h with
  | cons first later => exact .cons (header.append first) later

/-- Blank lines stand between the sections that have lines. -/
theorem Chain.leads (h : Chain sections s t) :
    Leads (List.intercalate ['\n'] ((sections.filter (!·.isEmpty)).map sectionChars)) s t := by
  induction h with
  | nil s => exact leads_nil s
  | @cons lines sections s t u first later ih =>
      cases lines with
      | nil => exact first.append ih
      | cons line lines =>
          rw [List.filter_cons_of_pos (by simp), List.map_cons]
          generalize (sections.filter (!·.isEmpty)).map sectionChars = parts at ih ⊢
          cases parts with
          | nil =>
              rw [List.intercalate_singleton]
              simpa using first.append ih
          | cons part parts =>
              rw [List.intercalate_cons_of_ne_nil (by simp)]
              exact (first.append (leads_blank t)).append ih

end Sections

section Blocks

theorem blocks_cons (path : List String) (e : String × Value) (rest : Table) :
    blocks path (e :: rest) = blocks path [e] ++ blocks path rest := by
  obtain ⟨key, value⟩ := e
  cases value <;> simp [blocks]

theorem blocks_plain (path : List String) {e : String × Value} (plain : e.2.isBlock = false) :
    blocks path [e] = [] := by
  obtain ⟨key, value⟩ := e
  cases value <;> simp_all [blocks, Value.isBlock]

structure Fits (zipper : Zipper) (levels : Nat) : Prop where
  fresh : zipper.IsFresh
  bare : ∀ part ∈ zipper.path, IsBareKey part
  few : zipper.length + levels ≤ maxDepth + 1

variable {zipper : Zipper} {inner : Entries} {key : String} {levels : Nat}

theorem Fits.bare_inside (fits : Fits zipper (levels + 1)) (bare : IsBareKey key) :
    ∀ part ∈ zipper.path ++ [key], IsBareKey part := by
  rw [List.forall_mem_append, List.forall_mem_singleton]
  exact ⟨fits.bare, bare⟩

theorem Fits.inside (fits : Fits zipper (levels + 1)) (bare : IsBareKey key)
    (new : key ∉ inner.map (·.1)) (wrap : Wrap) :
    Fits (zipper ++ [⟨inner, key, wrap⟩]) levels where
  fresh := by
    rw [Zipper.IsFresh, List.forall_mem_append, List.forall_mem_singleton]
    exact ⟨fits.fresh, new⟩
  bare := by
    rw [Zipper.path, List.map_append]
    exact fits.bare_inside bare
  few := by
    have few := fits.few
    rw [List.length_append, List.length_singleton]
    omega

theorem path_concat (zipper : Zipper) (frame : Frame) :
    Zipper.path (zipper ++ [frame]) = zipper.path ++ [frame.key] := by
  rw [Zipper.path, List.map_append]
  rfl

/-- The entries of a table are read into the table that is open. -/
def Contents (levels : Nat) (t : Table) : Prop :=
  ∀ zipper, Fits zipper levels → ∃ opened nodes, entryValues nodes = arrange t ∧
    Chain (assignments t :: blocks zipper.path t) (zipper.path, zipper.plug [])
      (opened, zipper.plug nodes)

theorem chain_table {t : Table} (contents : Contents levels t) (fits : Fits zipper (levels + 1))
    (deep : 0 < levels) (bare : IsBareKey key) (new : key ∉ inner.map (·.1))
    (opened : List String) :
    ∃ opened' node, node.value = (Value.table t).arranged ∧
      Chain (blocks zipper.path [(key, .table t)]) (opened, zipper.plug inner)
        (opened', zipper.plug (inner ++ [(key, node)])) := by
  let frame : Frame := ⟨inner, key, .table .header⟩
  obtain ⟨opened', nodes, values, chain⟩ := contents _ (fits.inside bare new (.table .header))
  rw [path_concat, Zipper.plug_concat, Zipper.plug_concat] at chain
  refine ⟨opened', .table .header nodes, ?_, ?_⟩
  · rw [Node.value, values, Value.arranged, arrange]
  · have few := fits.few
    have header := leads_header fits.fresh (fits.bare_inside bare) (by omega) new opened
    have text : ("[" ++ pathText (zipper.path ++ [key]) ++ "]").toList =
        '[' :: (pathText (zipper.path ++ [key])).toList ++ [']'] := by
      simp
    rw [← text] at header
    have headed := Chain.headed header chain
    simpa [blocks, Wrap.node] using headed

/-- One item: what is open under its header becomes the last table of the array. -/
theorem chain_item {t : Table} (contents : Contents levels t) (fits : Fits zipper (levels + 1))
    (deep : 0 < levels) (bare : IsBareKey key) (new : key ∉ inner.map (·.1)) {done : List Value}
    {start : Entries}
    (opens : Entries.openNext? key start = some (inner ++ [(key, .tables done [])]))
    (opened : List String) :
    ∃ opened' nodes, entryValues nodes = arrange t ∧
      Chain (itemBlocks (zipper.path ++ [key]) [.table t]) (opened, zipper.plug start)
        (opened', zipper.plug (inner ++ [(key, .tables done nodes)])) := by
  obtain ⟨opened', nodes, values, chain⟩ := contents _ (fits.inside bare new (.tables done))
  rw [path_concat, Zipper.plug_concat, Zipper.plug_concat] at chain
  refine ⟨opened', nodes, values, ?_⟩
  have few := fits.few
  have header := leads_item fits.fresh (fits.bare_inside bare) (by omega) opens opened
  have text : ("[[" ++ pathText (zipper.path ++ [key]) ++ "]]").toList =
      '[' :: '[' :: (pathText (zipper.path ++ [key])).toList ++ [']', ']'] := by
    simp
  rw [← text] at header
  have headed := Chain.headed header chain
  simpa [itemBlocks, Wrap.node] using headed

theorem itemBlocks_cons (path : List String) (item : Value) (rest : List Value) :
    itemBlocks path (item :: rest) = itemBlocks path [item] ++ itemBlocks path rest := by
  cases item <;> simp [itemBlocks]

theorem chain_items {items : List Value} (tables : ∀ item ∈ items, item.isTable = true)
    (contents : ∀ t, .table t ∈ items → Contents levels t) (fits : Fits zipper (levels + 1))
    (deep : 0 < levels) (bare : IsBareKey key) (new : key ∉ inner.map (·.1)) (done : List Value)
    (current : Entries) (opened : List String) :
    ∃ opened' done' current',
      (Node.tables done' current').value =
        .array (done ++ [.table (entryValues current)] ++ arrangedItems items) ∧
      Chain (itemBlocks (zipper.path ++ [key]) items)
        (opened, zipper.plug (inner ++ [(key, .tables done current)]))
        (opened', zipper.plug (inner ++ [(key, .tables done' current')])) := by
  induction items generalizing done current opened with
  | nil =>
      refine ⟨opened, done, current, ?_, ?_⟩
      · simp [Node.value, arrangedItems]
      · rw [itemBlocks]
        exact .nil _
  | cons item rest ih =>
      rw [List.forall_mem_cons] at tables
      obtain ⟨t, rfl⟩ : ∃ t, item = .table t := by
        cases item <;> simp_all [Value.isTable]
      have opens : Entries.openNext? key (inner ++ [(key, .tables done current)]) =
          some (inner ++ [(key, .tables (done ++ [.table (entryValues current)]) [])]) := by
        rw [Entries.openNext?, Entries.lookup_last new]
        exact congrArg some (Entries.set_last new)
      obtain ⟨between, nodes, values, first⟩ :=
        chain_item (contents t List.mem_cons_self) fits deep bare new opens opened
      obtain ⟨opened', done', current', value, later⟩ :=
        ih tables.2 (fun t member => contents t (List.mem_cons_of_mem _ member))
          (done ++ [.table (entryValues current)]) nodes between
      refine ⟨opened', done', current', ?_, ?_⟩
      · rw [value, values]
        simp [arrangedItems, Value.arranged, arrange]
      · rw [itemBlocks_cons]
        exact first.append later

theorem chain_array {items : List Value} (block : (Value.array items).isBlock = true)
    (contents : ∀ t, .table t ∈ items → Contents levels t) (fits : Fits zipper (levels + 1))
    (deep : 0 < levels) (bare : IsBareKey key) (new : key ∉ inner.map (·.1))
    (opened : List String) :
    ∃ opened' node, node.value = (Value.array items).arranged ∧
      Chain (blocks zipper.path [(key, .array items)]) (opened, zipper.plug inner)
        (opened', zipper.plug (inner ++ [(key, node)])) := by
  have tables : ∀ item ∈ items, item.isTable = true := by
    simp [Value.isBlock] at block
    exact block.2
  have sections : blocks zipper.path [(key, .array items)] =
      itemBlocks (zipper.path ++ [key]) items := by
    simp [blocks, block]
  rw [sections, Value.arranged, if_pos block]
  cases items with
  | nil => cases block
  | cons item rest =>
      rw [List.forall_mem_cons] at tables
      obtain ⟨t, rfl⟩ : ∃ t, item = .table t := by
        cases item <;> simp_all [Value.isTable]
      have opens : Entries.openNext? key inner = some (inner ++ [(key, .tables [] [])]) := by
        rw [Entries.openNext?, Entries.lookup_new new, Entries.set_new new]
      obtain ⟨between, nodes, values, first⟩ :=
        chain_item (contents t List.mem_cons_self) fits deep bare new opens opened
      obtain ⟨opened', done', current', value, later⟩ :=
        chain_items tables.2 (fun t member => contents t (List.mem_cons_of_mem _ member)) fits deep
          bare new [] nodes between
      refine ⟨opened', .tables done' current', ?_, ?_⟩
      · rw [value, values]
        simp [arrangedItems, Value.arranged, arrange]
      · rw [itemBlocks_cons]
        exact first.append later

theorem chain_block {value : Value} (h : Legible levels value) (block : value.isBlock = true)
    (contents : ∀ t ∈ value.tables, Contents levels t) (fits : Fits zipper (levels + 1))
    (bare : IsBareKey key) (new : key ∉ inner.map (·.1)) (opened : List String) :
    ∃ opened' node, node.value = value.arranged ∧
      Chain (blocks zipper.path [(key, value)]) (opened, zipper.plug inner)
        (opened', zipper.plug (inner ++ [(key, node)])) := by
  cases h with
  | string | boolean | float => cases block
  | array =>
      refine chain_array block (fun t member => contents t ?_) fits (Nat.succ_pos _) bare new opened
      exact List.mem_filterMap.mpr ⟨_, member, rfl⟩
  | table =>
      exact chain_table (contents _ List.mem_cons_self) fits (Nat.succ_pos _) bare new opened

theorem chain_blocks {t : Table} (bare : ∀ e ∈ t, IsBareKey e.1)
    (h : ∀ e ∈ t, Legible levels e.2)
    (contents : ∀ e ∈ t, ∀ inside ∈ e.2.tables, Contents levels inside)
    (fits : Fits zipper (levels + 1))
    (distinct : (inner.map (·.1) ++ (t.filter (·.2.isBlock)).map (·.1)).Nodup)
    (opened : List String) :
    ∃ opened' nodes, entryValues nodes = arrangedBlocks t ∧
      Chain (blocks zipper.path t) (opened, zipper.plug inner)
        (opened', zipper.plug (inner ++ nodes)) := by
  induction t generalizing inner opened with
  | nil =>
      refine ⟨opened, [], rfl, ?_⟩
      rw [blocks, List.append_nil]
      exact .nil _
  | cons e rest ih =>
      rw [List.forall_mem_cons] at bare h contents
      rw [blocks_cons]
      by_cases block : e.2.isBlock = true
      · simp only [List.filter_cons, if_pos block] at distinct
        have new : e.1 ∉ inner.map (·.1) :=
          fun old => distinct.disjoint old List.mem_cons_self
        obtain ⟨between, node, value, first⟩ :=
          chain_block h.1 block contents.1 fits bare.1 new opened
        have apart : ((inner ++ [(e.1, node)]).map (·.1) ++
            (rest.filter (·.2.isBlock)).map (·.1)).Nodup := by
          simpa using distinct
        obtain ⟨opened', nodes, values, later⟩ := ih bare.2 h.2 contents.2 apart between
        refine ⟨opened', (e.1, node) :: nodes, ?_, ?_⟩
        · rw [entryValues, value, values, arrangedBlocks, if_pos block]
        · rw [List.append_assoc] at later
          exact first.append later
      · simp only [List.filter_cons, if_neg block] at distinct
        obtain ⟨opened', nodes, values, later⟩ := ih bare.2 h.2 contents.2 distinct opened
        refine ⟨opened', nodes, ?_, ?_⟩
        · rw [values, arrangedBlocks, if_neg block]
        · rwa [blocks_plain _ (by simpa using block), List.nil_append]

theorem Contents.deeper {t : Table} (contents : Contents levels t) : Contents (levels + 1) t := by
  intro zipper fits
  have few := fits.few
  exact contents zipper { fits with few := by omega }

theorem contents_table {entries : Table} (bare : ∀ e ∈ entries, IsBareKey e.1)
    (distinct : (entries.map (·.1)).Nodup) (h : ∀ e ∈ entries, Legible levels e.2)
    (contents : ∀ e ∈ entries, ∀ inside ∈ e.2.tables, Contents levels inside) :
    Contents (levels + 1) entries := by
  intro zipper fits
  have few := fits.few
  let plain := entries.filter (!·.2.isBlock)
  have member : ∀ e ∈ plain, e ∈ entries := fun e inside => List.mem_of_mem_filter inside
  have parts : (plain.map (·.1) ++ (entries.filter (·.2.isBlock)).map (·.1)).Nodup := by
    have perm := List.filter_append_perm (!·.2.isBlock) entries
    simp only [Bool.not_not] at perm
    rw [← List.map_append]
    exact (perm.map _).nodup_iff.mpr distinct
  have first : Leads (sectionChars (assignments entries)) (zipper.path, zipper.plug [])
      (zipper.path, zipper.plug ([] ++ closed plain)) :=
    leads_assignments (fun e inside => bare e (member e inside))
      (fun e inside => h e (member e inside)) (by omega) (by simpa using parts.of_append_left)
      fits.fresh
  have keys : (closed plain).map (·.1) = plain.map (·.1) := by simp [closed, Function.comp_def]
  have apart : ((closed plain).map (·.1) ++ (entries.filter (·.2.isBlock)).map (·.1)).Nodup :=
    keys ▸ parts
  obtain ⟨opened, nodes, values, later⟩ := chain_blocks bare h contents fits apart zipper.path
  refine ⟨opened, closed plain ++ nodes, ?_, .cons first later⟩
  rw [entryValues_append, entryValues_closed, values]
  rfl

theorem contents_of_legible {value : Value} (h : Legible levels value) :
    ∀ t ∈ value.tables, Contents levels t := by
  induction h with
  | string | boolean | float => simp [Value.tables]
  | @array levels items h ih =>
      intro t inside
      obtain ⟨item, member, same⟩ := List.mem_filterMap.mp inside
      cases item <;> cases same
      exact (ih _ member t List.mem_cons_self).deeper
  | @table levels entries bare distinct h ih =>
      intro t inside
      rw [List.mem_singleton.mp inside]
      exact contents_table bare distinct h ih

theorem dropMark_of_statements {fuel : Nat} {s : List Char} {entries : Entries}
    (read : statements? fuel [] [] s = some entries) : dropMark s = s := by
  rw [dropMark.eq_def]
  split
  next rest =>
    have noKey : path? maxDepth ('\ufeff' :: rest) = none := by
      rw [maxDepth, path?, skipIndent_stop (by decide)]
      simp [key?, isBare]
    cases fuel with
    | zero => cases read
    | succ fuel =>
        rw [statements?, trivia?_solid (by decide)] at read
        simp [statement?, noKey] at read
  next => rfl

end Blocks

end Reader

theorem toList_write (t : Table) :
    (write t).toList =
      List.intercalate ['\n']
        (((assignments t :: blocks [] t).filter (!·.isEmpty)).map Reader.sectionChars) := by
  rw [write, String.toList_intercalate, List.map_map]
  congr 1
  refine List.map_congr_left fun lines _ => ?_
  simp [Reader.sectionChars, String.toList_join, List.flatMap_map]

/-- What is written is a document of the table, but for the order of its entries. -/
theorem parse_write {levels : Nat} {t : Table} (h : Legible (levels + 1) (.table t))
    (deep : levels ≤ Reader.maxDepth) : parse (write t) = some (arrange t) := by
  have fits : Reader.Fits [] (levels + 1) :=
    { fresh := by simp [Zipper.IsFresh]
      bare := by simp [Zipper.path]
      few := by simpa using deep }
  obtain ⟨opened, nodes, values, chain⟩ :=
    Reader.contents_of_legible h t List.mem_cons_self [] fits
  have sections : Reader.Chain (assignments t :: blocks [] t) ([], []) (opened, nodes) := chain
  obtain ⟨steps, few, run⟩ := sections.leads
  have read : Reader.statements? ((write t).toList.length + 1) [] [] (write t).toList =
      some nodes := by
    rw [← toList_write] at few run
    have fuel : (write t).toList.length + 1 = (write t).toList.length - steps + 1 + steps := by
      omega
    have all := run ((write t).toList.length - steps + 1) []
    rw [List.append_nil, ← fuel] at all
    exact all.trans rfl
  rw [parse, Reader.dropMark_of_statements read, read, Option.map_some, values]

end ClassDiagram.Toml
