import FlowCalibration.CommandLine.Arguments

/-!
# Jobs

What a command line asks for: to list the printers, to generate the programs of a run, or to
preview a program.
-/

namespace FlowCalibration

/-- A run to generate. -/
structure GenerateRequest where
  /-- Number or name of the printer. -/
  printer : String
  /-- Path of the catalog to use in place of the built-in one. -/
  catalog : Option String := none
  /-- Path of a settings file to use in place of the user's. -/
  settings : Option String := none
  /-- Pairs `key=value` above all other settings. -/
  overrides : List String := []
  /-- Directory for the generated files. -/
  directory : String := "."
  /-- Whether all plates go into one archive. -/
  zip : Bool := false
  /-- Whether a preview of each plate is written too. -/
  preview : Bool := false
  deriving DecidableEq, Repr

/-- A program to preview. -/
structure PreviewRequest where
  /-- Path of the program. -/
  input : String
  /-- Path of the drawing; without one it is printed. -/
  output : Option String := none
  /-- Path of the view options. -/
  options : Option String := none
  deriving DecidableEq, Repr

/-- What a command line asks for. -/
inductive Job
  /-- List the printers of a catalog. -/
  | printers (catalog : Option String)
  /-- Generate the programs of a run. -/
  | generate (request : GenerateRequest)
  /-- Preview a program. -/
  | preview (request : PreviewRequest)
  deriving DecidableEq, Repr

/-- A job, and whether to report on it in detail. -/
structure Invocation where
  verbose : Bool
  job : Job
  deriving DecidableEq, Repr

namespace Invocation

/-- The option for a detailed report, which every command takes. -/
def verboseOption : OptionForm := ⟨"verbose", some 'v', .switch⟩

/-- The option that asks for help, which every command takes. -/
def helpOption : OptionForm := ⟨"help", some 'h', .help⟩

/-- Options in front of the command. -/
def topForm : ArgumentForm where
  options := [verboseOption, helpOption, ⟨"version", some 'V', .version⟩]

/-- Options of the command that lists printers. -/
def printersForm : ArgumentForm where
  options := [⟨"catalog", none, .path⟩, verboseOption, helpOption]

/-- Options of the command that generates programs. -/
def generateForm : ArgumentForm where
  options :=
    [ ⟨"printer", some 'p', .text⟩, ⟨"catalog", none, .path⟩, ⟨"settings", some 's', .path⟩,
      ⟨"set", none, .texts⟩, ⟨"out-dir", some 'o', .path⟩, ⟨"zip", none, .switch⟩,
      ⟨"preview", none, .switch⟩, verboseOption, helpOption ]

/-- Options and operand of the command that previews a program. -/
def previewForm : ArgumentForm where
  options :=
    [⟨"output", some 'o', .path⟩, ⟨"options", none, .path⟩, verboseOption, helpOption]
  operands := 1

/-- The run that was asked for; a printer has to be given. -/
def generateJob? (given : Given) : Option Job :=
  (given.value? "printer").map fun printer => .generate
    { printer
      catalog := given.value? "catalog"
      settings := given.value? "settings"
      overrides := given.allValues "set"
      directory := (given.value? "out-dir").getD "."
      zip := given.contains "zip"
      preview := given.contains "preview" }

/-- The preview that was asked for; a program has to be given. -/
def previewJob? (given : Given) : Option Job :=
  given.operands.head?.map fun input => .preview
    { input, output := given.value? "output", options := given.value? "options" }

/-- Read the arguments of a command; `before` are the options in front of it. -/
def readJob (before : Given) (form : ArgumentForm) (job? : Given → Option Job)
    (arguments : List String) : Except Interruption Invocation :=
  match form.read false none {} arguments with
  | .error interruption => .error interruption
  | .ok given =>
      match job? given with
      | none => .error .misuse
      | some job =>
          .ok { verbose := before.contains "verbose" || given.contains "verbose", job }

/-- Names of the commands. -/
def commandNames : List String := ["printers", "generate", "preview", "help"]

/-- Read a command and its arguments. -/
def readCommand (before : Given) (command : String) (arguments : List String) :
    Except Interruption Invocation :=
  match command with
  | "printers" =>
      readJob before printersForm (fun given => some (.printers (given.value? "catalog"))) arguments
  | "generate" => readJob before generateForm generateJob? arguments
  | "preview" => readJob before previewForm previewJob? arguments
  | "help" =>
      match arguments with
      | [] => .error .help
      | [name] => if commandNames.contains name then .error .help else .error .misuse
      | _ => .error .misuse
  | _ => .error .misuse

/-- Read a command line after the options in `before`. -/
def readAfter (before : Given) : List String → Except Interruption Invocation
  | [] => .error .misuse
  | argument :: tail =>
      match argument.toList with
      | ['-', '-'] => .error .misuse
      | '-' :: '-' :: body =>
          match topForm.readName before body with
          | .error interruption => .error interruption
          | .ok (given, _) => readAfter given tail
      | '-' :: letter :: letters =>
          match topForm.readLetters before (letter :: letters) with
          | .error interruption => .error interruption
          | .ok (given, _) => readAfter given tail
      | _ => readCommand before argument tail

/-- Read a command line. -/
def read (arguments : List String) : Except Interruption Invocation :=
  readAfter {} arguments

/-- Text for those who ask for the version. -/
def versionText : String := "flowtower 0.1.0\n"

/-- Text for those who ask for help. -/
def usageText : String :=
  String.join
    [ "Flow and temperature tower calibration for FFF printers\n\n",
      "Usage: flowtower [-v] <COMMAND>\n\n",
      "  printers [--catalog FILE]\n",
      "      List the printer catalog\n",
      "  generate -p PRINTER [--catalog FILE] [-s FILE] [--set KEY=VALUE]...\n",
      "           [-o DIRECTORY] [--zip] [--preview]\n",
      "      Generate calibration programs\n",
      "  preview [-o FILE] [--options FILE] INPUT\n",
      "      Render a program to SVG\n" ]

end Invocation

end FlowCalibration
