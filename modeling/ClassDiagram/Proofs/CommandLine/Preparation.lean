import ClassDiagram.CommandLine.InOrder
import ClassDiagram.Proofs.Result

/-! The part of a run before its first output: where settings are found, which step fails first, and
that nothing but looking and reading is done. -/

namespace ClassDiagram.CommandLine

section Preparation

def Files.settings (files : Files) (path : String) : Except DiagramError Settings := do
  Settings.read (← files.text path)

/-- What comes of looking for settings. A path that is given has to be there. -/
inductive Finds (files : Files) (home : Option String) :
    Option String → Except DiagramError Settings → Prop where
  | given {path : String} (there : files.hasPath path = true) :
      Finds files home (some path) (files.settings path)
  | missing {path : String} (absent : files.hasPath path = false) :
      Finds files home (some path) (.error (.settings (.missingFile path)))
  | nearby (there : files.hasPath localSettings = true) :
      Finds files home none (files.settings localSettings)
  | ofUser {directory : String} (known : home = some directory)
      (absent : files.hasPath localSettings = false)
      (there : files.hasPath (userSettings directory) = true) :
      Finds files home none (files.settings (userSettings directory))
  | standard (absent : files.hasPath localSettings = false)
      (absent' : ∀ directory, home = some directory →
        files.hasPath (userSettings directory) = false) :
      Finds files home none (.ok {})

/-- What comes of everything before the first output: the error of the first step that fails, or
the settings and the project. -/
inductive Prepares (files : Files) (home : Option String) (arguments : Arguments) :
    Except DiagramError (Settings × LoadedProject) → Prop where
  | settings {e : DiagramError} (failed : Finds files home arguments.config (.error e)) :
      Prepares files home arguments (.error e)
  | input {settings : Settings} (found : Finds files home arguments.config (.ok settings))
      (failed : files.readText? arguments.input = none) :
      Prepares files home arguments (.error .files)
  | project {settings : Settings} {text : String} {e : DiagramError}
      (found : Finds files home arguments.config (.ok settings))
      (read : files.readText? arguments.input = some text)
      (failed : LoadedProject.parse text = .error e) :
      Prepares files home arguments (.error e)
  | done {settings : Settings} {text : String} {project : LoadedProject}
      (found : Finds files home arguments.config (.ok settings))
      (read : files.readText? arguments.input = some text)
      (replayed : LoadedProject.parse text = .ok project) :
      Prepares files home arguments (.ok (settings, project))

def prepared (home : Option String) (arguments : Arguments) (files : Files) :
    Except DiagramError (Settings × LoadedProject) := do
  let settings ← findSettings files.source home arguments.config
  let text ← files.text arguments.input
  let project ← LoadedProject.parse text
  return (settings, project)

variable {files : Files} {home given : Option String} {arguments : Arguments}

theorem text_eq_ok {path text : String} :
    files.text path = .ok text ↔ files.readText? path = some text := by
  unfold Files.text
  cases files.readText? path <;> simp

theorem text_eq_error {path : String} {e : DiagramError} :
    files.text path = .error e ↔ files.readText? path = none ∧ e = .files := by
  unfold Files.text
  cases files.readText? path <;> simp [eq_comm]

theorem readSettings_eq (path : String) :
    readSettings files.source path =
      if files.hasPath path = true then files.settings path
      else .error (.settings (.missingFile path)) := by
  have source : files.source.readText? = files.readText? := rfl
  rw [readSettings, Files.settings, Files.text, source]
  cases files.readText? path <;> rfl

theorem findSettings_none :
    findSettings files.source home none =
      if files.hasPath localSettings = true then files.settings localSettings
      else
        match home with
        | none => .ok {}
        | some directory =>
          if files.hasPath (userSettings directory) = true then
            files.settings (userSettings directory)
          else .ok {} := by
  have source : files.source.hasPath = files.hasPath := rfl
  rw [findSettings, source]
  by_cases near : files.hasPath localSettings = true
  · simp only [List.find?_cons_of_pos near, readSettings_eq, if_pos near]
  · rw [List.find?_cons_of_neg near, if_neg near]
    cases home with
    | none => rfl
    | some directory =>
        rw [Option.map_some, Option.toList_some]
        by_cases there : files.hasPath (userSettings directory) = true
        · simp only [List.find?_cons_of_pos there, readSettings_eq, if_pos there]
        · rw [List.find?_cons_of_neg there, List.find?_nil]
          exact (if_neg there).symm

theorem finds_findSettings : Finds files home given (findSettings files.source home given) := by
  cases given with
  | some path =>
      rw [findSettings, readSettings_eq]
      split
      next there => exact .given there
      next absent => exact .missing (eq_false_of_ne_true absent)
  | none =>
      rw [findSettings_none]
      split
      next there => exact .nearby there
      next absent =>
        have absent := eq_false_of_ne_true absent
        split
        next => exact .standard absent fun directory known => nomatch known
        next directory =>
          split
          next there => exact .ofUser rfl absent there
          next neither =>
            refine .standard absent fun other known => ?_
            exact Option.some.inj known ▸ eq_false_of_ne_true neither

theorem Finds.eq_findSettings {result : Except DiagramError Settings}
    (h : Finds files home given result) : findSettings files.source home given = result := by
  cases h with
  | given there => rw [findSettings, readSettings_eq, if_pos there]
  | missing absent => rw [findSettings, readSettings_eq, if_neg (by simp [absent])]
  | nearby there => rw [findSettings_none, if_pos there]
  | ofUser known absent there =>
      rw [findSettings_none, if_neg (by simp [absent]), known]
      exact if_pos there
  | standard absent absent' =>
      rw [findSettings_none, if_neg (by simp [absent])]
      cases home with
      | none => rfl
      | some directory => exact if_neg (by simp [absent' directory rfl])

theorem finds_iff {result : Except DiagramError Settings} :
    Finds files home given result ↔ findSettings files.source home given = result :=
  ⟨Finds.eq_findSettings, fun same => same ▸ finds_findSettings⟩

theorem prepares_iff {result : Except DiagramError (Settings × LoadedProject)} :
    Prepares files home arguments result ↔ prepared home arguments files = result := by
  unfold prepared
  constructor
  · intro h
    cases h with
    | settings failed => rw [finds_iff.mp failed]; rfl
    | input found failed => rw [finds_iff.mp found, text_eq_error.mpr ⟨failed, rfl⟩]; rfl
    | project found read failed =>
        rw [finds_iff.mp found, text_eq_ok.mpr read, ok_bind, ok_bind, failed]
        rfl
    | done found read replayed =>
        rw [finds_iff.mp found, text_eq_ok.mpr read, ok_bind, ok_bind, replayed]
        rfl
  · rintro rfl
    cases found : findSettings files.source home arguments.config with
    | error e => exact .settings (finds_iff.mpr found)
    | ok settings =>
        rw [ok_bind]
        cases read : files.text arguments.input with
        | error e =>
            obtain ⟨unread, rfl⟩ := text_eq_error.mp read
            exact .input (finds_iff.mpr found) unread
        | ok text =>
            rw [ok_bind]
            cases replayed : LoadedProject.parse text with
            | error e => exact .project (finds_iff.mpr found) (text_eq_ok.mp read) replayed
            | ok project => exact .done (finds_iff.mpr found) (text_eq_ok.mp read) replayed

end Preparation

namespace InOrder

variable {α β : Type}

theorem noting_nil (w : World) : w.noting [] = w := by
  rcases w with ⟨files, printed, accesses⟩
  exact congrArg _ (List.append_nil accesses)

theorem outcome_bind (part : InOrder β) (next : β → InOrder α) (w : World) :
    (part >>= next).outcome w =
      match part.outcome w with
      | (.ok b, after) => (next b).outcome after
      | (.error e, after) => (.error e, after) := by
  unfold outcome
  simp only [ExceptT.run_bind, StateT.run_bind]
  rcases part.run.run w with ⟨result, after⟩
  cases result <;> rfl

/-- A part of a run that answers from the files and does nothing but to look and to read. -/
def Inquires (part : InOrder α) (answer : Files → Except DiagramError α) : Prop :=
  ∀ w : World, ∃ inputs : List Access, (∀ a ∈ inputs, a.isInput = true) ∧
    part.outcome w = (answer w.files, w.noting inputs)

theorem inquires_ask {access : Access} (input : access.isInput = true)
    (answer : Files → Except DiagramError α) : Inquires (ask access answer) answer :=
  fun _ => ⟨[access], by simpa using input, rfl⟩

theorem inquires_settle (result : Except DiagramError α) :
    Inquires (settle result) fun _ => result :=
  fun w => ⟨[], by simp, by rw [noting_nil]; rfl⟩

theorem Inquires.bind {part : InOrder β} {answer : Files → Except DiagramError β}
    {next : β → InOrder α} {later : β → Files → Except DiagramError α} (h : Inquires part answer)
    (rest : ∀ b, Inquires (next b) (later b)) :
    Inquires (part >>= next) fun files => answer files >>= fun b => later b files := by
  intro w
  obtain ⟨inputs, first, stopped⟩ := h w
  rw [outcome_bind, stopped]
  show ∃ inputs, _ ∧ _ = (answer w.files >>= fun b => later b w.files, _)
  cases answer w.files with
  | error e => exact ⟨inputs, first, rfl⟩
  | ok b =>
      obtain ⟨more, second, ended⟩ := rest b (w.noting inputs)
      refine ⟨inputs ++ more, ?_, ended.trans ?_⟩
      · intro a member
        exact (List.mem_append.mp member).elim (first a) (second a)
      · simp only [World.noting, List.append_assoc]
        rfl

theorem Inquires.ite {part other : InOrder α} {answer answer' : Files → Except DiagramError α}
    (h : Inquires part answer) (h' : Inquires other answer') (choice : Bool) :
    Inquires (if choice = true then part else other) fun files =>
      if choice = true then answer files else answer' files := by
  cases choice with
  | true => exact h
  | false => exact h'

theorem Inquires.congr {part : InOrder α} {answer answer' : Files → Except DiagramError α}
    (h : Inquires part answer) (same : ∀ files, answer files = answer' files) :
    Inquires part answer' :=
  funext same ▸ h

theorem inquires_look (path : String) : Inquires (look path) fun files => .ok (files.hasPath path) :=
  inquires_ask rfl _

theorem inquires_read (path : String) : Inquires (read path) (·.text path) :=
  inquires_ask rfl _

theorem inquires_loadSettings (path : String) :
    Inquires (loadSettings path) fun files => readSettings files.source path := by
  have loads := (inquires_look path).bind fun there =>
    ((inquires_read path).bind fun text => inquires_settle (Settings.read text)).ite
      (inquires_settle (.error (.settings (.missingFile path)))) there
  exact loads.congr fun files => (readSettings_eq path).symm

/-- A place that is there is looked at twice, and it is still there the second time. -/
theorem inquires_place {other : InOrder Settings} {answer : Files → Except DiagramError Settings}
    (h : Inquires other answer) (path : String) :
    Inquires (do if ← look path then loadSettings path else other) fun files =>
      if files.hasPath path = true then files.settings path else answer files := by
  have looks := (inquires_look path).bind fun there => (inquires_loadSettings path).ite h there
  refine looks.congr fun files => ?_
  rw [ok_bind, readSettings_eq]
  split <;> rfl

theorem inquires_lookUpSettings (home given : Option String) :
    Inquires (lookUpSettings home given) fun files => findSettings files.source home given := by
  have standard := inquires_settle (.ok ({} : Settings))
  cases given with
  | some path => exact inquires_loadSettings path
  | none =>
      simp only [findSettings_none]
      refine inquires_place ?_ localSettings
      cases home with
      | none => exact standard
      | some directory => exact inquires_place standard (userSettings directory)

theorem inquires_prepare (home : Option String) (arguments : Arguments) :
    Inquires (prepare home arguments) (prepared home arguments) :=
  (inquires_lookUpSettings home arguments.config).bind fun settings =>
    (inquires_read arguments.input).bind fun text =>
      (inquires_settle (LoadedProject.parse text)).bind fun project =>
        inquires_settle (.ok (settings, project))

end InOrder

end ClassDiagram.CommandLine
