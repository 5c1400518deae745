/-!
# Reading arguments

A command describes the options and operands that it takes.  Arguments are read from the left, and
the first one that does not fit, or that asks for help, decides.
-/

namespace FlowCalibration

/-- What an option means. -/
inductive OptionKind
  /-- Switch something on; may be given once. -/
  | switch
  /-- Take a text; may be given once. -/
  | text
  /-- Take a text each time it is given. -/
  | texts
  /-- Take a path, which is not empty; may be given once. -/
  | path
  /-- Ask for help. -/
  | help
  /-- Ask for the version. -/
  | version
  deriving DecidableEq, Repr

/-- An option of a command. -/
structure OptionForm where
  /-- Name after two dashes. -/
  name : String
  /-- Letter after one dash. -/
  letter : Option Char
  /-- What the option means. -/
  kind : OptionKind
  deriving DecidableEq, Repr

/-- Options and operands of a command. -/
structure ArgumentForm where
  /-- The options. -/
  options : List OptionForm
  /-- How many operands may be given; operands are paths. -/
  operands : Nat := 0

/-- Why reading ends before a command is known. -/
inductive Interruption
  /-- The arguments do not fit. -/
  | misuse
  /-- Help is asked for. -/
  | help
  /-- The version is asked for. -/
  | version
  deriving DecidableEq, Repr

/-- What has been given. -/
structure Given where
  /-- Names and values of the options in order; switches have the empty value. -/
  values : List (String × String) := []
  /-- The operands in order. -/
  operands : List String := []
  deriving DecidableEq, Repr

namespace Given

/-- Whether an option was given. -/
def contains (given : Given) (name : String) : Bool :=
  given.values.any (·.1 == name)

/-- The value of an option. -/
def value? (given : Given) (name : String) : Option String :=
  given.values.lookup name

/-- The values of an option in order. -/
def allValues (given : Given) (name : String) : List String :=
  (given.values.filter (·.1 == name)).map (·.2)

/-- Give an operand. -/
def addOperand (form : ArgumentForm) (given : Given) (operand : String) :
    Except Interruption Given :=
  if operand.isEmpty || form.operands ≤ given.operands.length then .error .misuse
  else .ok { given with operands := given.operands ++ [operand] }

end Given

namespace OptionForm

/-- Whether a value follows the option. -/
def takesValue (form : OptionForm) : Bool :=
  match form.kind with
  | .text | .texts | .path => true
  | .switch | .help | .version => false

/-- Give an option with a value. -/
def give (form : OptionForm) (given : Given) (value : String) : Except Interruption Given :=
  let added : Given := { given with values := given.values ++ [(form.name, value)] }
  match form.kind with
  | .help => .error .help
  | .version => .error .version
  | .texts => .ok added
  | .switch | .text => if given.contains form.name then .error .misuse else .ok added
  | .path =>
      if given.contains form.name || value.isEmpty then .error .misuse else .ok added

end OptionForm

namespace ArgumentForm

/-- Read what follows two dashes.  An option whose value is still to come is returned too. -/
def readName (form : ArgumentForm) (given : Given) (body : List Char) :
    Except Interruption (Given × Option OptionForm) :=
  let name := String.ofList (body.takeWhile (· != '='))
  let attached := body.dropWhile (· != '=')
  match form.options.find? (·.name == name) with
  | none => .error .misuse
  | some option =>
      match attached with
      | [] =>
          if option.takesValue then .ok (given, some option)
          else (option.give given "").map (·, none)
      | _ :: value =>
          if option.takesValue then (option.give given (String.ofList value)).map (·, none)
          else .error .misuse

/-- Read what follows one dash: letters of switches, of which the last may be the letter of an
option with its value. -/
def readLetters (form : ArgumentForm) (given : Given) :
    List Char → Except Interruption (Given × Option OptionForm)
  | [] => .ok (given, none)
  | letter :: tail =>
      match form.options.find? (·.letter == some letter) with
      | none => .error .misuse
      | some option =>
          if option.takesValue then
            match tail with
            | [] => .ok (given, some option)
            | '=' :: value => (option.give given (String.ofList value)).map (·, none)
            | value => (option.give given (String.ofList value)).map (·, none)
          else
            match option.give given "" with
            | .error interruption => .error interruption
            | .ok given => readLetters form given tail

/-- Read arguments.  `pending` is the option whose value is still to come, and `operandsOnly` says
that two lone dashes stood before. -/
def read (form : ArgumentForm) (operandsOnly : Bool) (pending : Option OptionForm)
    (given : Given) : List String → Except Interruption Given
  | [] => if pending.isSome then .error .misuse else .ok given
  | argument :: tail =>
      if operandsOnly then
        match given.addOperand form argument with
        | .error interruption => .error interruption
        | .ok given => read form true none given tail
      else
        match pending, argument.toList with
        | some _, '-' :: _ :: _ => .error .misuse
        | some option, _ =>
            match option.give given argument with
            | .error interruption => .error interruption
            | .ok given => read form false none given tail
        | none, ['-', '-'] => read form true none given tail
        | none, '-' :: '-' :: body =>
            match form.readName given body with
            | .error interruption => .error interruption
            | .ok (given, pending) => read form false pending given tail
        | none, '-' :: letter :: letters =>
            match form.readLetters given (letter :: letters) with
            | .error interruption => .error interruption
            | .ok (given, pending) => read form false pending given tail
        | none, _ =>
            match given.addOperand form argument with
            | .error interruption => .error interruption
            | .ok given => read form false none given tail

end ArgumentForm

end FlowCalibration
