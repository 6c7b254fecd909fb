import AnnotationMetadata.CommandLine.Command

set_option autoImplicit false

/-!
# Spelling build commands

Every build command can be asked for, whatever the names and paths in it look like: a value
that is attached to its option, and an operand after two dashes, are taken as they are.
-/

namespace AnnotationMetadata.CommandLine

namespace Arguments

private theorem splitEquals_append {before : List Char} (unequal : '=' ∉ before)
    (after : List Char) :
    splitEquals (before ++ '=' :: after) = (before, some after) := by
  induction before with
  | nil => rfl
  | cons first rest ih =>
    have other : first ≠ '=' := fun same => unequal (same ▸ List.mem_cons_self)
    have later := ih fun inside => unequal (List.mem_cons_of_mem _ inside)
    rw [List.cons_append, splitEquals, if_neg other, later]

/-- A long option with a value attached starts the option with the value. -/
theorem readNext_attached {specs : List OptionSpec} {arguments : Arguments} (spec : OptionSpec)
    (proceeds : arguments.literal = false) (unequal : '=' ∉ spec.name.toList)
    (found : (specs.find? fun other => other.name == spec.name) = some spec) (limit : Nat)
    (value : String) :
    readNext specs limit arguments ("--" ++ spec.name ++ "=" ++ value) =
      arguments.startOption spec (some value) := by
  have spelled : ("--" ++ spec.name ++ "=" ++ value).toList =
      '-' :: '-' :: (spec.name.toList ++ '=' :: value.toList) := by
    simp
  have some : spec.name.toList ++ '=' :: value.toList ≠ [] := by simp
  rw [readNext, proceeds, spelled]
  obtain ⟨first, rest, chars⟩ := List.exists_cons_of_ne_nil some
  simp only [chars, Bool.false_eq_true, if_false]
  rw [← chars, readLong, splitEquals_append unequal]
  simp [found]

end Arguments

/-! ## Build commands -/

def Mode.text : Mode → String
  | .full => "full"
  | .declared => "declared"
  | .overridden => "overridden"
  | .method => "method"

private theorem Mode.ofText?_text (mode : Mode) : ofText? mode.text = some mode := by
  cases mode <;> rfl

/-- An option of build commands with its value. -/
def attach (name value : String) : String :=
  "--" ++ name ++ "=" ++ value

/-- Arguments that ask for a command with compact output. -/
def BuildCommand.arguments (command : BuildCommand) : List String :=
  "build" :: (command.elements.map (attach "element") ++
    ([attach "mode" command.mode.text] ++
      (command.configPath.toList.map (attach "config") ++ ["--", command.modelPath])))

/-- The arguments of a command, once they are read. -/
def BuildCommand.spelled (command : BuildCommand) : Arguments where
  options :=
    command.elements.map (fun name => ("element", name)) ++
      (("mode", command.mode.text) :: command.configPath.toList.map fun path => ("config", path))
  operands := [command.modelPath]
  literal := true

namespace Arguments

variable {options : List (String × String)}

private theorem readNext_element (options : List (String × String)) (name : String) :
    readNext buildOptions 1 { options } (attach "element" name) =
      .ok { options := options ++ [("element", name)] } :=
  readNext_attached ⟨"element", some 'e', .many⟩ rfl (by decide) rfl 1 name

/-- An option that takes one value takes it when it was not given before. -/
theorem readNext_single {name value : String} {letter : Option Char} {choices : List String}
    (found : (buildOptions.find? fun other => other.name == name) =
      some ⟨name, letter, .single choices⟩)
    (unequal : '=' ∉ name.toList) (first : ∀ entry ∈ options, entry.1 ≠ name)
    (allowed : choices = [] ∨ value ∈ choices) :
    readNext buildOptions 1 { options } (attach name value) =
      .ok { options := options ++ [(name, value)] } := by
  have new : ({ options } : Arguments).has name = false := by
    simpa [has] using first
  have fits : (!choices.isEmpty && !choices.contains value) = false := by
    rcases allowed with rfl | listed
    · rfl
    · simp [listed]
  rw [attach, readNext_attached ⟨name, letter, .single choices⟩ rfl unequal found 1 value]
  simp only [startOption, giveValue, new, fits]
  rfl

/-! ### Runs of arguments -/

theorem foldlM_append_of_ok {step : Arguments → String → Except Stop Arguments}
    {start between : Arguments} {first : List String} (done : first.foldlM step start = .ok between)
    (second : List String) : (first ++ second).foldlM step start = second.foldlM step between := by
  rw [List.foldlM_append, done]
  rfl

private theorem foldlM_elements (options : List (String × String)) (names : List String) :
    (names.map (attach "element")).foldlM (readNext buildOptions 1) { options } =
      .ok { options := options ++ names.map fun name => ("element", name) } := by
  induction names generalizing options with
  | nil => simp [pure, Except.pure]
  | cons name rest ih =>
    rw [List.map_cons, List.foldlM_cons, readNext_element]
    exact (ih _).trans (by simp)

private theorem foldlM_mode (options : List (String × String)) (mode : Mode)
    (first : ∀ entry ∈ options, entry.1 ≠ "mode") :
    [attach "mode" mode.text].foldlM (readNext buildOptions 1) { options } =
      .ok { options := options ++ [("mode", mode.text)] } := by
  rw [List.foldlM_cons, readNext_single rfl (by decide) first (.inr (by cases mode <;> decide))]
  rfl

private theorem foldlM_config (options : List (String × String)) (configPath : Option String)
    (first : ∀ entry ∈ options, entry.1 ≠ "config") :
    (configPath.toList.map (attach "config")).foldlM (readNext buildOptions 1) { options } =
      .ok { options := options ++ configPath.toList.map fun path => ("config", path) } := by
  cases configPath with
  | none => simp [pure, Except.pure]
  | some path =>
    rw [Option.toList_some, List.map_singleton, List.foldlM_cons,
      readNext_single rfl (by decide) first (.inl rfl)]
    rfl

private theorem foldlM_operand (options : List (String × String)) (operand : String) :
    ["--", operand].foldlM (readNext buildOptions 1) { options } =
      .ok { options, operands := [operand], literal := true } :=
  rfl

private theorem foldlM_arguments (command : BuildCommand) :
    command.arguments.tail.foldlM (readNext buildOptions 1) {} = .ok command.spelled := by
  have elements := foldlM_elements [] command.elements
  rw [List.nil_append] at elements
  have mode := foldlM_mode (command.elements.map fun name => ("element", name)) command.mode
    (by simp)
  have config := foldlM_config
    (command.elements.map (fun name => ("element", name)) ++ [("mode", command.mode.text)])
    command.configPath (by simp +contextual [or_imp])
  rw [BuildCommand.arguments, List.tail_cons, foldlM_append_of_ok elements,
    foldlM_append_of_ok mode, foldlM_append_of_ok config, foldlM_operand, List.append_assoc]
  rfl

end Arguments

/-! ### Commands of arguments -/

/-- Options of one name are kept together or left out together. -/
theorem filter_named (name other : String) (values : List String) :
    ((values.map fun value => (other, value)).filter fun entry => entry.1 == name) =
      if other = name then values.map fun value => (other, value) else [] := by
  split
  · next same => exact List.filter_eq_self.mpr (by simp [same])
  · next different => exact List.filter_eq_nil_iff.mpr (by simp [different])

namespace BuildCommand

private theorem elements_spelled (command : BuildCommand) :
    command.spelled.valuesOf "element" = command.elements := by
  simp [Arguments.valuesOf, spelled, filter_named, Function.comp_def]

private theorem mode_spelled (command : BuildCommand) :
    command.spelled.value? "mode" = some command.mode.text := by
  simp [Arguments.value?, Arguments.valuesOf, spelled, filter_named]

private theorem configPath_spelled (command : BuildCommand) :
    command.spelled.value? "config" = command.configPath := by
  cases path : command.configPath <;>
    simp [Arguments.value?, Arguments.valuesOf, spelled, filter_named, path]

private theorem pretty_spelled (command : BuildCommand) : command.spelled.has "pretty" = false := by
  simp [Arguments.has, spelled]

end BuildCommand

/-- Arguments for a command with compact output are read as that command. -/
theorem ofArguments_arguments {command : BuildCommand} (plain : command.pretty = false) :
    Request.ofArguments command.arguments = .command (.build command) := by
  have read : Arguments.read buildOptions 1 command.arguments.tail = .ok command.spelled := by
    rw [Arguments.read, Arguments.foldlM_arguments]
    rfl
  have started : Request.ofArguments command.arguments = readBuild command.arguments.tail := rfl
  have operand : command.spelled.operands.head? = some command.modelPath := rfl
  simp only [started, readBuild, read, operand, command.elements_spelled, command.mode_spelled,
    command.configPath_spelled, command.pretty_spelled, Option.bind_some, Mode.ofText?_text,
    Option.getD_some, ← plain]

end AnnotationMetadata.CommandLine
