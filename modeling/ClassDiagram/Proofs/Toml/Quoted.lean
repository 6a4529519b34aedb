import ClassDiagram.Toml.Quoted
import Mathlib.Data.Bool.AllAny

/-! Quoted texts are read back as what was written, whichever of their forms they take. Reading
goes in two steps, and so does the proof: the closing quotation marks are found where they were
written, since the marks before them are escaped or too few in a row, and what the characters
between them stand for is the text. -/

namespace ClassDiagram.Toml.Quoted

section Marks

/-- No more than `limit` quotation marks stand in a row, of the first ones no more than `room`. An
escaped character is none. -/
inductive Sparse (quote : Char) (escapes : Bool) (limit : Nat) : Nat → List Char → Prop where
  | nil (room : Nat) : Sparse quote escapes limit room []
  | mark {room : Nat} {rest : List Char} (h : Sparse quote escapes limit room rest) :
      Sparse quote escapes limit (room + 1) (quote :: rest)
  | escape {room : Nat} {rest : List Char} (d : Char) (escaped : escapes = true)
      (apart : '\\' ≠ quote) (h : Sparse quote escapes limit limit rest) :
      Sparse quote escapes limit room ('\\' :: d :: rest)
  | plain {room : Nat} {c : Char} {rest : List Char} (apart : c ≠ quote)
      (kept : escapes = true → c ≠ '\\') (h : Sparse quote escapes limit limit rest) :
      Sparse quote escapes limit room (c :: rest)

variable {quote c d : Char} {escapes : Bool} {limit room : Nat} {body rest : List Char}

theorem rawLine_plain (apart : c ≠ quote) (kept : escapes = true → c ≠ '\\') (rest : List Char) :
    rawLine quote escapes (c :: rest) = push c (rawLine quote escapes rest) := by
  have unescaped : ¬ (escapes && decide (c = '\\')) = true := by simpa using kept
  rw [rawLine.eq_def]
  simp only [if_neg apart, if_neg unescaped]

theorem rawLine_escape (escaped : escapes = true) (apart : '\\' ≠ quote) (d : Char)
    (rest : List Char) :
    rawLine quote escapes ('\\' :: d :: rest) =
      push '\\' (push d (rawLine quote escapes rest)) := by
  rw [rawLine.eq_def]
  simp only [if_neg apart, escaped, decide_true, Bool.and_self, ↓reduceIte]

theorem rawLine_sparse (h : Sparse quote escapes limit room body) (none : limit = 0)
    (first : room = limit) (rest : List Char) :
    rawLine quote escapes (body ++ quote :: rest) = some (body, rest) := by
  induction h with
  | nil =>
      rw [List.nil_append, rawLine.eq_def]
      exact if_pos rfl
  | mark => omega
  | escape d escaped apart h ih =>
      rw [List.cons_append, List.cons_append, rawLine_escape escaped apart, ih rfl]
      rfl
  | plain apart kept h ih =>
      rw [List.cons_append, rawLine_plain apart kept, ih rfl]
      rfl

def leading (quote : Char) (s : List Char) : Nat := (s.takeWhile (· = quote)).length

theorem leading_mark (s : List Char) : leading quote (quote :: s) = leading quote s + 1 := by
  simp [leading]

theorem leading_plain (apart : c ≠ quote) (s : List Char) : leading quote (c :: s) = 0 := by
  simp [leading, apart]

theorem rawBlock_end (h : 3 ≤ leading quote (c :: rest)) :
    rawBlock quote escapes (c :: rest) =
      some (List.replicate (min (leading quote (c :: rest)) 5 - 3) quote,
        (c :: rest).drop (min (leading quote (c :: rest)) 5)) := by
  rw [rawBlock.eq_def]
  exact if_pos h

theorem rawBlock_plain (few : leading quote (c :: rest) < 3)
    (kept : escapes = true → c ≠ '\\') :
    rawBlock quote escapes (c :: rest) = push c (rawBlock quote escapes rest) := by
  have unescaped : ¬ (escapes && decide (c = '\\')) = true := by simpa using kept
  rw [rawBlock.eq_def]
  simp only [leading] at few
  simp only [if_neg (Nat.not_le.mpr few), if_neg unescaped]

theorem rawBlock_escape (escaped : escapes = true) (apart : '\\' ≠ quote) (d : Char)
    (rest : List Char) :
    rawBlock quote escapes ('\\' :: d :: rest) =
      push '\\' (push d (rawBlock quote escapes rest)) := by
  have few : ¬ 3 ≤ leading quote ('\\' :: d :: rest) := by
    rw [leading_plain apart]
    omega
  rw [rawBlock.eq_def]
  simp only [leading] at few
  simp only [if_neg few, escaped, decide_true, Bool.and_self, ↓reduceIte]

/-- A sparse text is nothing but marks, or there are no more marks in front than there is room. -/
theorem Sparse.leading_cases (h : Sparse quote escapes limit room body) (rest : List Char) :
    (∃ marks ≤ room, body = List.replicate marks quote) ∨ leading quote (body ++ rest) ≤ room := by
  induction h with
  | nil room => exact .inl ⟨0, Nat.zero_le _, rfl⟩
  | mark h ih =>
      rcases ih with ⟨marks, few, rfl⟩ | few
      · exact .inl ⟨marks + 1, Nat.succ_le_succ few, rfl⟩
      · refine .inr ?_
        rw [List.cons_append, leading_mark]
        exact Nat.succ_le_succ few
  | escape d escaped apart h ih =>
      refine .inr ?_
      rw [List.cons_append, leading_plain apart]
      exact Nat.zero_le _
  | plain apart kept h ih =>
      refine .inr ?_
      rw [List.cons_append, leading_plain apart]
      exact Nat.zero_le _

theorem rawBlock_marks {marks : Nat} (few : marks ≤ 2) (next : leading quote rest = 0) :
    rawBlock quote escapes (List.replicate marks quote ++ quote :: quote :: quote :: rest) =
      some (List.replicate marks quote, rest) := by
  have shape : List.replicate marks quote ++ quote :: quote :: quote :: rest =
      quote :: (List.replicate (marks + 2) quote ++ rest) := by
    calc
      List.replicate marks quote ++ quote :: quote :: quote :: rest
          = List.replicate marks quote ++ List.replicate 3 quote ++ rest := by
        simp [List.replicate]
      _ = quote :: (List.replicate (marks + 2) quote ++ rest) := by
        rw [List.replicate_append_replicate]
        rfl
  have many : leading quote (quote :: (List.replicate (marks + 2) quote ++ rest)) = marks + 3 := by
    rw [← List.cons_append, ← List.replicate_succ]
    unfold leading at next ⊢
    rw [List.takeWhile_append_of_pos (by simp), List.length_append, next, List.length_replicate]
  have five : min (marks + 3) 5 = marks + 3 := by omega
  rw [shape, rawBlock_end (by omega), many, five, ← List.cons_append, ← List.replicate_succ,
    List.drop_append_of_le_length (by simp)]
  simp

theorem rawBlock_sparse (h : Sparse quote escapes limit room body) (two : limit = 2)
    (few : room ≤ limit) (mark : quote ≠ '\\') (next : leading quote rest = 0) :
    rawBlock quote escapes (body ++ quote :: quote :: quote :: rest) = some (body, rest) := by
  induction h with
  | nil => exact rawBlock_marks (Nat.zero_le 2) next
  | @mark room body h ih =>
      rcases (Sparse.mark h).leading_cases (quote :: quote :: quote :: rest) with
        ⟨marks, enough, all⟩ | enough
      · rw [all]
        exact rawBlock_marks (by omega) next
      · rw [List.cons_append] at enough ⊢
        rw [rawBlock_plain (by omega) fun _ => mark, ih (by omega)]
        rfl
  | escape d escaped apart h ih =>
      rw [List.cons_append, List.cons_append, rawBlock_escape escaped apart, ih (Nat.le_refl _)]
      rfl
  | @plain room c body apart kept h ih =>
      have few : leading quote (c :: (body ++ quote :: quote :: quote :: rest)) < 3 := by
        rw [leading_plain apart]
        omega
      rw [List.cons_append, rawBlock_plain few kept, ih (Nat.le_refl _)]
      rfl

end Marks

section Escapes

inductive Spelled (block : Bool) (c : Char) : List Char → Prop where
  | plain (apart : c ≠ '\\') (back : c ≠ '\r')
      (shown : isControl c = true → block = true ∧ c = '\n') : Spelled block c [c]
  | letter (e : Char) (means : escape? e = some c) : Spelled block c ['\\', e]
  | code (digits : List Char) (four : digits.length = 4) (means : coded? digits = some c)
      (apart : ∀ d ∈ digits, d ≠ '"' ∧ d ≠ '\\') : Spelled block c ('\\' :: 'u' :: digits)

theorem code_hexDigits :
    ∀ n < 128, (hexDigits n).length = 4 ∧ coded? (hexDigits n) = some (Char.ofNat n) ∧
      (hexDigits n).all fun d => d ≠ '"' ∧ d ≠ '\\' := by
  decide

theorem spelled_escapeOf? (block : Bool) (c : Char) :
    Spelled block c ((escapeOf? block c).getD [c]) := by
  unfold escapeOf?
  split
  case h_1 | h_2 | h_4 | h_5 | h_6 => exact .letter _ rfl
  case h_3 =>
    cases block with
    | false => exact .letter _ rfl
    | true => exact .plain (by decide) (by decide) fun _ => ⟨rfl, rfl⟩
  case h_7 =>
    split
    next control =>
      have low : c.toNat < 128 := by
        simp [isControl] at control
        omega
      obtain ⟨four, means, apart⟩ := code_hexDigits c.toNat low
      rw [Char.ofNat_toNat] at means
      exact .code _ four means (List.all_iff_forall_prop.mp apart)
    next shown =>
      refine .plain ?_ ?_ fun control => absurd control shown <;> assumption

variable {block : Bool} {c : Char} {chunk rest : List Char}

theorem unescape_plain (apart : c ≠ '\\') (back : c ≠ '\r')
    (shown : isControl c = true → block = true ∧ c = '\n') (rest : List Char) :
    unescape block false (c :: rest) = (unescape block false rest).map (c :: ·) := by
  rw [unescape.eq_def]
  split
  case h_1 same | h_2 same | h_3 same | h_4 same | h_5 same | h_6 same =>
    cases same <;> contradiction
  case h_7 same =>
    cases same
    have visible : ¬ (isControl c && !(block && c == '\n')) = true := by
      intro hidden
      simp only [Bool.and_eq_true, Bool.not_eq_true', Bool.and_eq_false_iff] at hidden
      obtain ⟨control, hidden⟩ := hidden
      obtain ⟨rfl, rfl⟩ := shown control
      simp at hidden
    simp only [Bool.false_and, Bool.false_eq_true, ↓reduceIte, if_neg visible]

theorem unescape_spelled (spelled : Spelled block c chunk) (rest : List Char) :
    unescape block false (chunk ++ rest) = (unescape block false rest).map (c :: ·) := by
  cases spelled with
  | plain apart back shown => exact unescape_plain apart back shown rest
  | letter e means =>
      unfold escape? at means
      split at means <;> cases means <;> simp [unescape, startsLine, isIndent, escape?] <;>
        cases unescape block false rest <;> rfl
  | code digits four means apart =>
      obtain ⟨x, y, z, w, rfl⟩ : ∃ x y z w, digits = [x, y, z, w] := by
        match digits, four with
        | [x, y, z, w], _ => exact ⟨x, y, z, w, rfl⟩
      simp only [List.cons_append, List.nil_append, unescape, means]
      cases unescape block false rest <;> rfl

theorem sparse_spelled {limit room : Nat} (spelled : Spelled block c chunk) (apart : c ≠ '"')
    (h : Sparse '"' true limit limit rest) : Sparse '"' true limit room (chunk ++ rest) := by
  cases spelled with
  | plain kept => exact .plain apart (fun _ => kept) h
  | letter e => exact .escape e rfl (by decide) h
  | code digits four means others =>
      refine .escape 'u' rfl (by decide) ?_
      clear four means
      induction digits with
      | nil => exact h
      | cons d digits ih =>
          obtain ⟨differs, kept⟩ := others d List.mem_cons_self
          exact .plain differs (fun _ => kept) (ih fun x member =>
            others x (List.mem_cons_of_mem _ member))

theorem unescape_escaped (block : Bool) (marks : Nat) (s : List Char) :
    unescape block false (escaped block marks s) = some s := by
  fun_induction escaped block marks s with
  | case1 => rfl
  | case2 marks rest few ih =>
      have shown : ¬ isControl '"' = true := by decide
      rw [unescape_plain (by decide) (by decide) fun control => absurd control shown, ih]
      rfl
  | case3 marks rest many ih =>
      have spelled : Spelled block '"' ['\\', '"'] := .letter _ rfl
      exact (unescape_spelled spelled _).trans (by rw [ih]; rfl)
  | case4 marks c rest other ih =>
      rw [unescape_spelled (spelled_escapeOf? block c), ih]
      rfl

theorem sparse_escaped (block : Bool) (marks : Nat) (s : List Char) :
    let limit := if block then 2 else 0
    Sparse '"' true limit (limit - marks) (escaped block marks s) := by
  intro limit
  fun_induction escaped block marks s with
  | case1 => exact .nil _
  | case2 marks rest few ih =>
      obtain ⟨rfl, few⟩ : block = true ∧ marks < 2 := by simpa using few
      have room : limit - marks = limit - (marks + 1) + 1 := by
        simp only [limit, ↓reduceIte]
        omega
      rw [room]
      exact .mark ih
  | case3 marks rest many ih => exact .escape '"' rfl (by decide) ih
  | case4 marks c rest other ih =>
      exact sparse_spelled (spelled_escapeOf? block c) other ih

end Escapes

section Literals

variable {s : List Char}

theorem verbatim_self {block : Bool}
    (shown : ∀ c ∈ s, isControl c = true → block = true ∧ c = '\n') :
    verbatim block s = some s := by
  induction s with
  | nil => rfl
  | cons c rest ih =>
      obtain ⟨here, later⟩ := List.forall_mem_cons.mp shown
      have visible : ¬ (isControl c && !(block && c == '\n')) = true := by
        intro hidden
        simp only [Bool.and_eq_true, Bool.not_eq_true'] at hidden
        obtain ⟨control, hidden⟩ := hidden
        obtain ⟨rfl, rfl⟩ := here control
        simp at hidden
      have back : c ≠ '\r' := by
        rintro rfl
        exact absurd (here (by decide)).2 (by decide)
      rw [verbatim.eq_def]
      split
      case h_1 same => cases same
      case h_2 same =>
        cases same
        contradiction
      case h_3 same =>
        cases same
        rw [if_neg visible, ih later]
        rfl

theorem sparse_of_not_mem {quote : Char} (absent : quote ∉ s) : Sparse quote false 0 0 s := by
  induction s with
  | nil => exact .nil 0
  | cons c rest ih =>
      rw [List.mem_cons, not_or] at absent
      exact .plain (Ne.symm absent.1) nofun (ih absent.2)

/-- One step of counting runs: the longest one so far, and the one that goes on. -/
def runStep (mark : Char) (runs : Nat × Nat) (c : Char) : Nat × Nat :=
  if c = mark then (max runs.1 (runs.2 + 1), runs.2 + 1) else (runs.1, 0)

theorem longestRun_eq (mark : Char) (s : List Char) :
    longestRun mark s = (s.foldl (runStep mark) (0, 0)).1 :=
  rfl

theorem le_foldl_runStep (mark : Char) (s : List Char) (runs : Nat × Nat) :
    runs.1 ≤ (s.foldl (runStep mark) runs).1 := by
  induction s generalizing runs with
  | nil => exact Nat.le_refl _
  | cons c rest ih =>
      refine Nat.le_trans ?_ (ih _)
      unfold runStep
      split
      next => exact Nat.le_max_left _ _
      next => exact Nat.le_refl _

theorem sparse_of_longestRun {mark : Char} {limit : Nat} (few : longestRun mark s ≤ limit) :
    Sparse mark false limit limit s := by
  have counted : ∀ runs : Nat × Nat, runs.2 ≤ limit →
      (s.foldl (runStep mark) runs).1 ≤ limit → Sparse mark false limit (limit - runs.2) s := by
    clear few
    induction s with
    | nil => exact fun _ _ _ => .nil _
    | cons c rest ih =>
        intro runs before after
        rw [List.foldl_cons] at after
        have now := Nat.le_trans (le_foldl_runStep mark rest _) after
        have later := ih (runStep mark runs c)
        by_cases here : c = mark
        · have step : runStep mark runs c = (max runs.1 (runs.2 + 1), runs.2 + 1) := if_pos here
          rw [step] at now later after
          have room : limit - runs.2 = limit - (runs.2 + 1) + 1 := by omega
          rw [here, room]
          exact .mark (later (by omega) after)
        · have step : runStep mark runs c = (runs.1, 0) := if_neg here
          rw [step] at later after
          exact .plain here nofun (later (Nat.zero_le _) after)
  exact counted (0, 0) (Nat.zero_le _) (longestRun_eq mark s ▸ few)

end Literals

section Forms

variable {quote : Char} {s body rest : List Char}

def Unmarked (rest : List Char) : Prop := ∀ quote ∈ ['"', '\''], leading quote rest = 0

theorem read_line (h : Sparse quote (quote == '"') 0 0 body)
    (means : decode (quote == '"') false body = some s) (next : leading quote rest = 0) :
    read quote (body ++ quote :: rest) = some (String.ofList s, rest) := by
  have line : readLine quote (body ++ quote :: rest) = some (String.ofList s, rest) := by
    simp [readLine, rawLine_sparse h rfl rfl, means]
  rw [read.eq_def]
  split
  next a b tail same =>
    rw [if_neg, ← same, line]
    intro marks
    simp only [Bool.and_eq_true, decide_eq_true_eq] at marks
    obtain ⟨rfl, rfl⟩ := marks
    cases h with
    | nil =>
        cases same
        simp [leading] at next
    | escape d escaped apart => exact apart (List.cons.inj same).1
    | plain apart => exact apart (List.cons.inj same).1
  next => exact line

theorem read_block (h : Sparse quote (quote == '"') 2 2 body) (mark : quote ∈ ['"', '\''])
    (means : decode (quote == '"') true body = some s) (next : leading quote rest = 0)
    {lines : Bool} (start : lines = false → ∀ c ∈ body.head?, c ≠ '\n' ∧ c ≠ '\r') :
    read quote
        (quote :: quote ::
          ((if lines then ['\n'] else []) ++ body ++ quote :: quote :: quote :: rest)) =
      some (String.ofList s, rest) := by
  have raw := rawBlock_sparse h rfl (Nat.le_refl _) (by rintro rfl; simp at mark) next
  have dropped : dropFirstLineEnd
      ((if lines then ['\n'] else []) ++ body ++ quote :: quote :: quote :: rest) =
        body ++ quote :: quote :: quote :: rest := by
    cases lines with
    | true => rfl
    | false =>
        rw [if_neg (by decide), List.nil_append]
        cases body with
        | nil =>
            simp only [List.mem_cons, List.not_mem_nil, or_false] at mark
            rcases mark with rfl | rfl <;> rfl
        | cons c body =>
            obtain ⟨noLine, noBack⟩ := start rfl c rfl
            rw [List.cons_append, dropFirstLineEnd.eq_def]
            split
            next same => exact absurd (List.cons.inj same).1 noLine
            next same => exact absurd (List.cons.inj same).1 noBack
            next => rfl
  have block : readBlock quote
      ((if lines then ['\n'] else []) ++ body ++ quote :: quote :: quote :: rest) =
        some (String.ofList s, rest) := by
    simp only [readBlock, dropped, raw, means, Option.bind_eq_bind, Option.bind_some]
    rfl
  simpa [read] using block

theorem head?_escaped {s : List Char} (line : '\n' ∉ s) :
    ∀ c ∈ (escaped true 0 s).head?, c ≠ '\n' ∧ c ≠ '\r' := by
  cases s with
  | nil => simp [escaped]
  | cons d rest =>
      rw [List.mem_cons, not_or] at line
      by_cases quoted : d = '"'
      · subst quoted
        simp [escaped]
      · rw [escaped.eq_3 _ _ _ _ quoted]
        have spelled := spelled_escapeOf? true d
        generalize (escapeOf? true d).getD [d] = chunk at spelled ⊢
        cases spelled with
        | plain apart back => simpa using ⟨Ne.symm line.1, back⟩
        | letter | code => simp

def Reads (written s : List Char) : Prop :=
  ∃ quote ∈ ['"', '\''], ∃ body, written = quote :: body ∧
    ∀ rest, Unmarked rest → read quote (body ++ rest) = some (String.ofList s, rest)

theorem reads_line (mark : quote ∈ ['"', '\'']) (h : Sparse quote (quote == '"') 0 0 body)
    (means : decode (quote == '"') false body = some s) :
    Reads (enclosed [quote] false body) s := by
  refine ⟨quote, mark, body ++ [quote], rfl, fun rest next => ?_⟩
  rw [List.append_assoc]
  exact read_line h means (next quote mark)

theorem reads_block (mark : quote ∈ ['"', '\'']) (h : Sparse quote (quote == '"') 2 2 body)
    (means : decode (quote == '"') true body = some s) {lines : Bool}
    (start : lines = false → ∀ c ∈ body.head?, c ≠ '\n' ∧ c ≠ '\r') :
    Reads (enclosed [quote, quote, quote] lines body) s := by
  refine ⟨quote, mark, quote :: quote ::
    ((if lines then ['\n'] else []) ++ body ++ [quote, quote, quote]), ?_, fun rest next => ?_⟩
  · simp [enclosed]
  · have block := read_block h mark means (next quote mark) start
    simpa using block

theorem reads_write (s : List Char) : Reads (write s) s := by
  have basicLine : Reads (enclosed ['"'] false (escaped false 0 s)) s :=
    reads_line (by simp) (sparse_escaped false 0 s) (unescape_escaped false 0 s)
  have basicBlock : ∀ lines, (lines = false → '\n' ∉ s) →
      Reads (enclosed ['"', '"', '"'] lines (escaped true 0 s)) s := fun lines start =>
    reads_block (by simp) (sparse_escaped true 0 s) (unescape_escaped true 0 s) fun none =>
      head?_escaped (start none)
  have noLine : s.contains '\n' = false → '\n' ∉ s := by simp
  have onlyLines : hasControl s = false → ∀ c ∈ s, isControl c = true → c = '\n' := by
    simp [hasControl]
  unfold write
  simp only [Bool.and_eq_true, Bool.not_eq_true', decide_eq_true_eq]
  split
  next => exact basicLine
  split
  next literal =>
    obtain ⟨⟨visible, absent⟩, line⟩ := literal
    refine reads_line (by simp) (sparse_of_not_mem (by simpa using absent)) (verbatim_self ?_)
    intro c member control
    have here := onlyLines visible c member control
    exact absurd (here ▸ member) (noLine line)
  split
  next => exact basicBlock _ noLine
  split
  next literal =>
    obtain ⟨visible, few⟩ := literal
    refine reads_block (by simp) (sparse_of_longestRun few)
      (verbatim_self fun c member control => ⟨rfl, onlyLines visible c member control⟩) ?_
    intro none c first
    have member := List.mem_of_mem_head? first
    refine ⟨fun here => noLine none (here ▸ member), ?_⟩
    rintro rfl
    exact absurd (onlyLines visible _ member (by decide)) (by decide)
  split
  next lines => exact basicBlock true nofun
  next => exact basicLine

end Forms

end ClassDiagram.Toml.Quoted
