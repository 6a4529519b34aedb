import ClassDiagram.Proofs.CommandLine.Files
import ClassDiagram.Proofs.CommandLine.Preparation

/-! What a run leaves behind. Its outputs come after all that it reads. The declarations are
delivered once, whatever becomes of the preview, and no path is changed but those of the outputs. -/

namespace ClassDiagram.CommandLine

def Arguments.targets (arguments : Arguments) : List String :=
  arguments.output.toList ++ arguments.svg.toList

def delivery (output : Option String) (text : String) : Access :=
  match output with
  | some path => .write path text
  | none => .print text

def drawing (svg : Option String) (preview : Except DiagramError String) : List Access :=
  match svg, preview with
  | some path, .ok text => [.write path text]
  | _, _ => []

def Files.stored (files : Files) (contents : Path → Option ByteArray) :
    Access → Path → Option ByteArray
  | .write text content =>
    match files.target? text with
    | some path => Function.update contents path (some (path.kept content))
    | none => contents
  | .look _ | .read _ | .print _ => contents

/-- The surroundings become others by outputs alone. -/
structure World.Puts (w : World) (outputs : List Access) (after : World) : Prop where
  accesses : after.accesses = w.accesses ++ outputs
  printed : after.printed = outputs.foldl (fun text a => text ++ a.printed) w.printed
  contents : after.files.find? = outputs.foldl w.files.stored w.files.find?
  directories : after.files.isDirectory = w.files.isDirectory
  target : after.files.target? = w.files.target?

namespace World.Puts

variable {w between after : World} {outputs more : List Access}

theorem refl (w : World) : w.Puts [] w :=
  ⟨(List.append_nil _).symm, rfl, rfl, rfl, rfl⟩

theorem trans (h : w.Puts outputs between) (h' : between.Puts more after) :
    w.Puts (outputs ++ more) after where
  accesses := by rw [h'.accesses, h.accesses, List.append_assoc]
  printed := by rw [h'.printed, h.printed, List.foldl_append]
  contents := by
    have same : between.files.stored = w.files.stored := by
      funext contents a
      cases a <;> simp only [Files.stored, h.target]
    rw [h'.contents, h.contents, same, List.foldl_append]
  directories := h'.directories.trans h.directories
  target := h'.target.trans h.target

end World.Puts

namespace InOrder

section Outputs

variable (w : World)

theorem write_outcome (path content : String) :
    (write path content).outcome w =
      match w.files.write? path content with
      | some files => (.ok (), { w.noting [.write path content] with files })
      | none => (.error .files, w.noting [.write path content]) :=
  rfl

theorem write_puts (path content : String) :
    w.Puts [.write path content] ((write path content).outcome w).2 ∧
      ((write path content).outcome w).1 =
        if (w.files.target? path).isSome = true then .ok () else .error .files := by
  rw [write_outcome, ← Files.isSome_write? w.files path content]
  cases written : w.files.write? path content with
  | none =>
      have nowhere : w.files.target? path = none := by
        rw [← Option.isNone_iff_eq_none, ← Option.not_isSome,
          ← Files.isSome_write? w.files path content, written]
        rfl
      refine ⟨⟨rfl, (String.append_empty).symm, ?_, rfl, rfl⟩, rfl⟩
      simp [Files.stored, nowhere, World.noting]
  | some files =>
      obtain ⟨target, leads, contents⟩ := Files.write?_eq_some written
      refine ⟨⟨rfl, (String.append_empty).symm, ?_, Files.isDirectory_write written,
        Files.target?_write written⟩, rfl⟩
      rw [List.foldl_cons, List.foldl_nil, Files.stored, leads]
      exact contents

theorem print_outcome (text : String) :
    (print text).outcome w =
      (.ok (), { w.noting [.print text] with printed := w.printed ++ text }) :=
  rfl

theorem print_puts (text : String) : w.Puts [.print text] ((print text).outcome w).2 :=
  ⟨rfl, rfl, rfl, rfl, rfl⟩

theorem handOver_puts (output : Option String) (text : String) :
    w.Puts [delivery output text] ((handOver output text).outcome w).2 := by
  cases output with
  | none => exact print_puts w text
  | some path => exact (write_puts w path text).1

theorem draw_puts (svg : Option String) (preview : Except DiagramError String) :
    w.Puts (drawing svg preview) ((draw svg preview).outcome w).2 := by
  cases svg with
  | none => exact .refl w
  | some path =>
      cases preview with
      | error e => exact .refl w
      | ok text => exact (write_puts w path text).1

end Outputs

section Deliver

variable (arguments : Arguments) (settings : Settings) (project : LoadedProject) (w : World)

/-- What a run comes to if all its writes succeed: the preview may fail, once it is asked for. -/
def requested (svg : Option String) (preview : Except DiagramError String) :
    Except DiagramError Unit :=
  match svg with
  | none => .ok ()
  | some _ => preview.map fun _ => ()

theorem handOver_done (output : Option String) (text : String)
    (writable : ∀ path ∈ output, (w.files.target? path).isSome = true) :
    ((handOver output text).outcome w).1 = .ok () := by
  cases output with
  | none => rfl
  | some path => exact (write_puts w path text).2.trans (if_pos (writable path rfl))

theorem draw_done (svg : Option String) (preview : Except DiagramError String)
    (writable : ∀ path ∈ svg, (w.files.target? path).isSome = true) :
    ((draw svg preview).outcome w).1 = requested svg preview := by
  cases svg with
  | none => rfl
  | some path =>
      cases preview with
      | error e => rfl
      | ok text => exact (write_puts w path text).2.trans (if_pos (writable path rfl))

/-- A write that fails ends the run before its other output. -/
theorem deliver_puts :
    ∃ outputs, outputs <+: delivery arguments.output (project.generate settings ++ "\n") ::
        drawing arguments.svg (project.preview settings) ∧
      w.Puts outputs ((deliver arguments settings project).outcome w).2 := by
  have first := handOver_puts w arguments.output (project.generate settings ++ "\n")
  rw [deliver, outcome_bind]
  generalize (handOver arguments.output (project.generate settings ++ "\n")).outcome w = reached
    at first ⊢
  obtain ⟨result, between⟩ := reached
  cases result with
  | error e => exact ⟨_, ⟨_, rfl⟩, first⟩
  | ok done => exact ⟨_, List.prefix_rfl, first.trans (draw_puts between _ _)⟩

theorem deliver_done (writable : ∀ path ∈ arguments.targets, (w.files.target? path).isSome = true) :
    ((deliver arguments settings project).outcome w).1 =
        requested arguments.svg (project.preview settings) ∧
      w.Puts (delivery arguments.output (project.generate settings ++ "\n") ::
        drawing arguments.svg (project.preview settings))
        ((deliver arguments settings project).outcome w).2 := by
  have first := handOver_puts w arguments.output (project.generate settings ++ "\n")
  have handed := handOver_done w arguments.output (project.generate settings ++ "\n")
    fun path asked => writable path (List.mem_append_left _ (Option.mem_toList.mpr asked))
  rw [deliver, outcome_bind]
  generalize (handOver arguments.output (project.generate settings ++ "\n")).outcome w = reached
    at first handed ⊢
  obtain ⟨result, between⟩ := reached
  obtain rfl : result = .ok () := handed
  refine ⟨draw_done between _ _ fun path asked => ?_, first.trans (draw_puts between _ _)⟩
  rw [first.target]
  exact writable path (List.mem_append_right _ (Option.mem_toList.mpr asked))

end Deliver

section Plan

variable (arguments : Arguments) (settings : Settings) (project : LoadedProject)

def planned : Plan where
  declarations := project.generate settings ++ "\n"
  output := arguments.output
  preview := arguments.svg.map fun path => (path, project.preview settings)

theorem plan_eq (files : Files) (home : Option String) :
    plan files.source home arguments =
      (prepared home arguments files).map fun (settings, project) =>
        planned arguments settings project := by
  have source : files.source.readText? = files.readText? := rfl
  rw [plan, prepared, Files.text, source]
  cases findSettings files.source home arguments.config with
  | error e => rfl
  | ok settings =>
      cases files.readText? arguments.input with
      | none => rfl
      | some text =>
          rw [ok_bind, ok_bind, ok_bind, map_bind]
          rfl

theorem drawPreview_eq (w : World) :
    (planned arguments settings project).drawPreview w.printed w.files =
      let after := (draw arguments.svg (project.preview settings)).outcome w
      ⟨after.1, after.2.printed, after.2.files⟩ := by
  rw [Plan.drawPreview, planned]
  cases arguments.svg with
  | none => rfl
  | some path =>
      cases project.preview settings with
      | error e => rfl
      | ok text =>
          have outcome : (draw (some path) (.ok text)).outcome w = (write path text).outcome w := rfl
          rw [outcome, write_outcome]
          show (match w.files.write? path text with | some files => _ | none => _) = _
          cases w.files.write? path text <;> rfl

theorem execute_eq (files : Files) (accesses : List Access) :
    (planned arguments settings project).execute files =
      let after := (deliver arguments settings project).outcome { files, accesses }
      ⟨after.1, after.2.printed, after.2.files⟩ := by
  let text := project.generate settings ++ "\n"
  have drawn := drawPreview_eq arguments settings project
  rw [Plan.execute, deliver, outcome_bind]
  show (match arguments.output with | none => _ | some path => _) = _
  cases arguments.output with
  | none =>
      rw [handOver, print_outcome, String.empty_append]
      exact drawn { files, printed := text, accesses := accesses ++ [.print text] }
  | some path =>
      rw [handOver, write_outcome]
      show (match files.write? path text with | some files => _ | none => _) = _
      cases files.write? path text with
      | none => rfl
      | some next => exact drawn { files := next, accesses := accesses ++ [.write path text] }

end Plan

section Run

variable {home : Option String} {arguments : Arguments} {files : Files}

theorem perform_failed {e : DiagramError} (failed : prepared home arguments files = .error e) :
    ∃ inputs : List Access, (∀ a ∈ inputs, a.isInput = true) ∧
      (perform home arguments).outcome { files } = (.error e, { files, accesses := inputs }) := by
  obtain ⟨inputs, only, stopped⟩ := inquires_prepare home arguments { files }
  refine ⟨inputs, only, ?_⟩
  rw [perform, outcome_bind, stopped, failed]
  rfl

theorem perform_prepared {settings : Settings} {project : LoadedProject}
    (done : prepared home arguments files = .ok (settings, project)) :
    ∃ inputs : List Access, (∀ a ∈ inputs, a.isInput = true) ∧
      (perform home arguments).outcome { files } =
        (deliver arguments settings project).outcome { files, accesses := inputs } := by
  obtain ⟨inputs, only, stopped⟩ := inquires_prepare home arguments { files }
  refine ⟨inputs, only, ?_⟩
  rw [perform, outcome_bind, stopped, done]
  rfl

theorem run_eq (home : Option String) (arguments : Arguments) (files : Files) :
    run home arguments files =
      let after := (perform home arguments).outcome { files }
      ⟨after.1, after.2.printed, after.2.files⟩ := by
  rw [run, plan_eq]
  cases result : prepared home arguments files with
  | error e =>
      obtain ⟨inputs, -, same⟩ := perform_failed result
      rw [same]
      rfl
  | ok both =>
      obtain ⟨inputs, -, same⟩ := perform_prepared result
      rw [same]
      exact execute_eq arguments both.1 both.2 files inputs

end Run

section Frame

theorem foldl_stored {files : Files} {outputs : List Access} {path : Path}
    (untouched : ∀ text content, .write text content ∈ outputs → files.target? text ≠ some path)
    (contents : Path → Option ByteArray) :
    outputs.foldl files.stored contents path = contents path := by
  induction outputs generalizing contents with
  | nil => rfl
  | cons a outputs ih =>
      rw [List.foldl_cons, ih fun text content member =>
        untouched text content (List.mem_cons_of_mem a member)]
      cases a with
      | write text content =>
          have apart := untouched text content List.mem_cons_self
          rw [Files.stored]
          cases leads : files.target? text with
          | none => rfl
          | some target =>
              have other : path ≠ target := fun here => apart (here ▸ leads)
              exact Function.update_of_ne other _ contents
      | look _ => rfl
      | read _ => rfl
      | print _ => rfl

theorem mem_targets {arguments : Arguments} {text content declarations : String}
    {preview : Except DiagramError String}
    (member : .write text content ∈
      delivery arguments.output declarations :: drawing arguments.svg preview) :
    text ∈ arguments.targets := by
  rw [Arguments.targets, List.mem_append, Option.mem_toList, Option.mem_toList]
  rcases List.mem_cons.mp member with here | later
  · refine .inl ?_
    unfold delivery at here
    split at here
    next path asked =>
      cases here
      exact asked
    next => cases here
  · refine .inr ?_
    unfold drawing at later
    split at later
    next path drawn asked =>
      cases List.mem_singleton.mp later
      exact asked
    next => cases later

end Frame

section Results

variable {home : Option String} {arguments : Arguments} {files : Files}

theorem perform_refused {e : DiagramError} (failed : prepared home arguments files = .error e) :
    let after := (perform home arguments).outcome { files }
    after.1 = .error e ∧ after.2.printed = "" ∧ after.2.files = files ∧
      ∀ a ∈ after.2.accesses, a.isInput = true := by
  obtain ⟨inputs, only, same⟩ := perform_failed failed
  rw [same]
  exact ⟨rfl, rfl, rfl, only⟩

theorem perform_puts (home : Option String) (arguments : Arguments) (files : Files) :
    ∃ inputs outputs : List Access, (∀ a ∈ inputs, a.isInput = true) ∧
      (∀ text content, .write text content ∈ outputs → text ∈ arguments.targets) ∧
      World.Puts { files, accesses := inputs } outputs
        ((perform home arguments).outcome { files }).2 := by
  cases result : prepared home arguments files with
  | error e =>
      obtain ⟨inputs, only, same⟩ := perform_failed result
      rw [same]
      exact ⟨inputs, [], only, fun _ _ member => (List.not_mem_nil member).elim, .refl _⟩
  | ok both =>
      obtain ⟨inputs, only, same⟩ := perform_prepared result
      obtain ⟨outputs, first, puts⟩ :=
        deliver_puts arguments both.1 both.2 { files, accesses := inputs }
      rw [same]
      exact ⟨inputs, outputs, only, fun _ _ member => mem_targets (first.subset member), puts⟩

theorem filterMap_text?_of_inputs {inputs : List Access} (only : ∀ a ∈ inputs, a.isInput = true) :
    inputs.filterMap Access.text? = [] := by
  refine List.filterMap_eq_nil_iff.mpr fun a member => ?_
  have input := only a member
  cases a <;> first | rfl | cases input

end Results

section Outputs

variable (output svg : Option String) (text : String) (preview : Except DiagramError String)

theorem printed_outputs :
    (delivery output text :: drawing svg preview).foldl (fun text a => text ++ a.printed) "" =
      if output.isSome = true then "" else text := by
  have quiet : ∀ printed : String,
      (drawing svg preview).foldl (fun text a => text ++ a.printed) printed = printed := by
    intro printed
    unfold drawing
    split
    next => exact String.append_empty
    next => rfl
  rw [List.foldl_cons, quiet, String.empty_append]
  cases output <;> rfl

theorem filterMap_text?_outputs :
    (delivery output text :: drawing svg preview).filterMap Access.text? =
      text :: if svg.isSome = true then preview.toOption.toList else [] := by
  have delivered : (delivery output text).text? = some text := by cases output <;> rfl
  rw [List.filterMap_cons_some delivered]
  cases svg with
  | none => rfl
  | some path => cases preview <;> rfl

theorem requested_eq_ok :
    requested svg preview = .ok () ↔ svg = none ∨ ∃ drawn, preview = .ok drawn := by
  cases svg with
  | none => simp [requested]
  | some path => cases preview <;> simp [requested, Except.map]

theorem requested_eq_error {e : DiagramError} :
    requested svg preview = .error e ↔ svg ≠ none ∧ preview = .error e := by
  cases svg with
  | none => simp [requested]
  | some path => cases preview <;> simp [requested, Except.map]

theorem requested_congr {other : Option String} (same : other.isSome = svg.isSome) :
    requested other preview = requested svg preview := by
  cases svg <;> cases other <;> first | rfl | cases same

end Outputs

theorem isSome_target? {files : Files} {targets : List String}
    (writable : ∀ text ∈ targets, ∀ content, (files.write? text content).isSome = true) :
    ∀ text ∈ targets, (files.target? text).isSome = true := by
  intro text member
  rw [← Files.isSome_write? files text ""]
  exact writable text member ""

/-- Everything is read before the first write. So it makes no difference for what is delivered where
that goes, not even if it goes to what was read. -/
theorem perform_alike (home : Option String) {arguments other : Arguments} {files : Files}
    (input : other.input = arguments.input) (config : other.config = arguments.config)
    (output : other.output.isSome = arguments.output.isSome)
    (svg : other.svg.isSome = arguments.svg.isSome)
    (writable : ∀ text ∈ arguments.targets ++ other.targets, (files.target? text).isSome = true) :
    let after := (perform home arguments).outcome { files }
    let after' := (perform home other).outcome { files }
    after'.1 = after.1 ∧ after'.2.printed = after.2.printed ∧
      after'.2.accesses.filterMap Access.text? = after.2.accesses.filterMap Access.text? := by
  intro after after'
  have alike : prepared home other files = prepared home arguments files := by
    rw [prepared, prepared, input, config]
  cases result : prepared home arguments files with
  | error e =>
      obtain ⟨failed, quiet, -, silent⟩ := perform_refused result
      obtain ⟨failed', quiet', -, silent'⟩ := perform_refused (alike.trans result)
      exact ⟨failed'.trans failed.symm, quiet'.trans quiet.symm,
        (filterMap_text?_of_inputs silent').trans (filterMap_text?_of_inputs silent).symm⟩
  | ok both =>
      obtain ⟨inputs, only, same⟩ := perform_prepared result
      obtain ⟨inputs', only', same'⟩ := perform_prepared (alike.trans result)
      obtain ⟨ended, puts⟩ := deliver_done arguments both.1 both.2 { files, accesses := inputs }
        fun text member => writable text (List.mem_append_left _ member)
      obtain ⟨ended', puts'⟩ := deliver_done other both.1 both.2 { files, accesses := inputs' }
        fun text member => writable text (List.mem_append_right _ member)
      rw [← same] at ended puts
      rw [← same'] at ended' puts'
      refine ⟨ended'.trans ((requested_congr _ _ svg).trans ended.symm), ?_, ?_⟩
      · have printed := puts.printed.trans (printed_outputs ..)
        have printed' := puts'.printed.trans (printed_outputs ..)
        rw [printed, printed', output]
      · rw [puts'.accesses, puts.accesses, List.filterMap_append, List.filterMap_append,
          filterMap_text?_of_inputs only, filterMap_text?_of_inputs only',
          filterMap_text?_outputs, filterMap_text?_outputs, svg]

/-- A run is refused for the first step that fails before its outputs, and then nothing has happened.
Otherwise the declarations are delivered once, also if the preview fails; that is written only as a
whole. No other path is changed, and where the outputs go has no influence on what they are. -/
theorem run_delivers_once (home : Option String) (arguments : Arguments) (files : Files) :
    let after := (perform home arguments).outcome { files }
    run home arguments files = ⟨after.1, after.2.printed, after.2.files⟩ ∧
      (∀ path, (∀ text ∈ arguments.targets, files.resolve? text ≠ some path) →
        after.2.files.find? path = files.find? path) ∧
      after.2.files.isDirectory = files.isDirectory ∧
      (∃! result, Prepares files home arguments result) ∧
      (∀ e, Prepares files home arguments (.error e) →
        after.1 = .error e ∧ after.2.printed = "" ∧ after.2.files = files ∧
          ∀ a ∈ after.2.accesses, a.isInput = true) ∧
      (∀ settings project, Prepares files home arguments (.ok (settings, project)) →
        (∀ text ∈ arguments.targets, ∀ content, (files.write? text content).isSome = true) →
        let declarations := project.generate settings ++ "\n"
        let preview := project.preview settings
        let outputs := delivery arguments.output declarations :: drawing arguments.svg preview
        (∃ inputs, after.2.accesses = inputs ++ outputs ∧ ∀ a ∈ inputs, a.isInput = true) ∧
          after.2.printed = (if arguments.output.isSome = true then "" else declarations) ∧
          after.2.files.find? = outputs.foldl files.stored files.find? ∧
          (after.1 = .ok () ↔ arguments.svg = none ∨ ∃ drawn, preview = .ok drawn) ∧
          ∀ e, after.1 = .error e ↔ arguments.svg ≠ none ∧ preview = .error e) ∧
      ∀ other : Arguments, other.input = arguments.input → other.config = arguments.config →
        other.output.isSome = arguments.output.isSome → other.svg.isSome = arguments.svg.isSome →
        (∀ text ∈ arguments.targets ++ other.targets, ∀ content,
          (files.write? text content).isSome = true) →
        let after' := (perform home other).outcome { files }
        after'.1 = after.1 ∧ after'.2.printed = after.2.printed ∧
          after'.2.accesses.filterMap Access.text? = after.2.accesses.filterMap Access.text? := by
  intro after
  obtain ⟨inputs, outputs, only, asked, puts⟩ := perform_puts home arguments files
  refine ⟨run_eq home arguments files, fun path elsewhere => ?_, puts.directories,
    ⟨prepared home arguments files, prepares_iff.mpr rfl, fun _ h => (prepares_iff.mp h).symm⟩,
    fun e failed => perform_refused (prepares_iff.mp failed), ?_,
    fun other input config output svg writable =>
      perform_alike home input config output svg (isSome_target? writable)⟩
  · rw [puts.contents]
    refine foldl_stored (fun text content member leads => ?_) files.find?
    exact elsewhere text (asked text content member) (Files.target?_eq_some.mp leads).1
  · intro settings project done writable
    obtain ⟨inputs, only, same⟩ := perform_prepared (prepares_iff.mp done)
    have delivered := deliver_done arguments settings project { files, accesses := inputs }
      (isSome_target? writable)
    rw [← same] at delivered
    obtain ⟨result, puts⟩ := delivered
    refine ⟨⟨inputs, puts.accesses, only⟩, puts.printed.trans (printed_outputs ..), puts.contents,
      ?_, fun e => ?_⟩
    · exact result ▸ requested_eq_ok _ _
    · exact result ▸ requested_eq_error _ _

/-- Here the output is the input, and the preview is to go where the settings are. It fails, because
the class has no rectangle. -/
theorem run_delivers_once_coinciding :
    let text := "name = \"shop\"\n[[entities]]\nkey = \"order\"\nkind = \"class\"\n" ++
      "title = \"Order\"\nmembers = [\"- total: Money\"]\n"
    let settings := "[codegen]\nindent = \"    \"\n"
    let files : Files := ⟨["tmp", "shop"],
      [(["tmp", "shop", "order.toml"], text.toUTF8), (["tmp", "shop", "wide.toml"], settings.toUTF8)]⟩
    let arguments : Arguments :=
      { input := "order.toml", output := some "./order.toml", svg := some "wide.toml"
        config := some "wide.toml" }
    let outcome := run none arguments files
    outcome.result = .error (.route (.missingGeometry ⟨1⟩)) ∧ outcome.printed = "" ∧
      outcome.files.find? ["tmp", "shop", "order.toml"] =
        some "class Order \x7b\n    private Money total;\n\x7d\n".toUTF8 ∧
      outcome.files.find? ["tmp", "shop", "wide.toml"] = some settings.toUTF8 := by
  intro text settings files arguments outcome
  obtain ⟨same, -, -, -, -, done, -⟩ := run_delivers_once none arguments files
  have read : (prepared none arguments files).toOption.map (fun both =>
      (both.2.generate both.1 ++ "\n", error? (both.2.preview both.1))) =
      some ("class Order \x7b\n    private Money total;\n\x7d\n",
        some (.route (.missingGeometry ⟨1⟩))) := by
    decide +kernel
  have writable : ∀ text ∈ arguments.targets, ∀ content,
      (files.write? text content).isSome = true := by
    have reached : ∀ text ∈ arguments.targets, (files.target? text).isSome = true := by
      decide +kernel
    intro text member content
    rw [Files.isSome_write? files text content]
    exact reached text member
  cases both : prepared none arguments files with
  | error e =>
      rw [both] at read
      cases read
  | ok both' =>
      rw [both] at read
      obtain ⟨declared, failed⟩ := Prod.mk.inj (Option.some.inj read)
      obtain ⟨-, printed, contents, -, ended⟩ :=
        done both'.1 both'.2 (prepares_iff.mpr both) writable
      have refused := error?_eq_some.mp failed
      rw [declared, refused] at contents
      have left : outcome.files.find? =
          [Access.write "./order.toml" "class Order \x7b\n    private Money total;\n\x7d\n"].foldl
            files.stored files.find? :=
        (congrArg (·.files.find?) same).trans contents
      refine ⟨(congrArg (·.result) same).trans ((ended _).mpr ⟨Option.some_ne_none _, refused⟩),
        (congrArg (·.printed) same).trans printed, ?_, ?_⟩
      · rw [left]
        decide +kernel
      · rw [left]
        decide +kernel

end InOrder

end ClassDiagram.CommandLine
