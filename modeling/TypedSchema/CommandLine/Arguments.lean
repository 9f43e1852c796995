import TypedSchema.Python.Source

/-!
# CommandLine/Arguments — what a command line asks for

A command line names one of two targets, Python source or declarations as JSON, and gives it
options.  An option has a long spelling, perhaps a letter, and takes no value, one, or all words up
to the next option (`Arity`).  A value may be attached to its option; letters of options may share
one argument.

## Order of errors

Arguments are read from the first to the last, and the first error ends the reading.  An option that
takes its values from the words behind it is *pending* until another known option, or the end,
settles it: only then are its values counted and checked.  An argument that is not known is an error
at once, before what is pending.
-/

namespace TypedSchema
namespace CommandLine

/-- Why no command is run: a text was asked for, or the arguments are not in order. -/
inductive Usage where
  | displayHelp
  | displayVersion
  | displayHelpOnMissing
  | missingSubcommand
  | invalidSubcommand
  | unknownArgument
  | missingRequired
  | invalidValue
  | tooManyValues
  | conflict
  deriving DecidableEq, Repr

/-- The exit status without a run: success if a text was asked for. -/
def Usage.exitStatus : Usage → Nat
  | displayHelp => 0
  | displayVersion => 0
  | _ => 2

/-- What is produced. -/
inductive Target where
  | python
  | decls
  deriving DecidableEq, Repr

/-- A command in order. -/
structure Command where
  verbosity : Nat
  target : Target
  pointer : Option String
  inputs : List String
  style : Python.EnumStyle
  out : Option String
  noOp : Bool
  deriving DecidableEq, Repr

/-! ## Options -/

/-- The options. -/
inductive Switch where
  | verbose
  | help
  | version
  | pointer
  | input
  | enumStyle
  | out
  | noOp
  deriving DecidableEq, Repr

/-- Where options are given: before the target, or behind it. -/
inductive Scope where
  | top
  | behind (target : Target)
  deriving DecidableEq, Repr

/-- The options of a scope. -/
def Scope.switches : Scope → List Switch
  | top => [.verbose, .help, .version]
  | behind .python => [.verbose, .help, .pointer, .input, .enumStyle, .out, .noOp]
  | behind .decls => [.verbose, .help, .pointer, .input, .out, .noOp]

namespace Switch

/-- The long spelling. -/
def long : Switch → String
  | verbose => "verbose"
  | help => "help"
  | version => "version"
  | pointer => "json-pointer"
  | input => "input"
  | enumStyle => "enum-style"
  | out => "out"
  | noOp => "no-op"

/-- The letter, if there is one. -/
def letter? : Switch → Option Char
  | verbose => some 'v'
  | help => some 'h'
  | version => some 'V'
  | input => some 'i'
  | out => some 'o'
  | _ => none

end Switch

/-- How many values an option takes. -/
inductive Arity where
  | none
  | one
  | many
  deriving DecidableEq, Repr

/-- How many values an option takes. -/
def Switch.arity : Switch → Arity
  | verbose => .none
  | help => .none
  | version => .none
  | pointer => .one
  | input => .many
  | enumStyle => .one
  | out => .one
  | noOp => .none

/-! ## Settling options -/

/-- What has been given so far. -/
structure Draft where
  verbosity : Nat := 0
  pointer : Option String := none
  inputs : List String := []
  style : Option Python.EnumStyle := none
  out : Option String := none
  noOp : Bool := false
  /-- The option that may still take values, and its values. -/
  pending : Option (Switch × List String) := none

/-- How the styles of enumerations are given. -/
def enumStyle? : String → Option Python.EnumStyle
  | "literal" => some .literal
  | "class" => some .enumClass
  | _ => none

/-- The draft with an option given; an option that takes values needs one. -/
def Draft.give (draft : Draft) (switch : Switch) (values : List String) : Except Usage Draft :=
  match switch, values with
  | .verbose, _ => .ok { draft with verbosity := min 255 (draft.verbosity + 1) }
  | .help, _ => .error .displayHelp
  | .version, _ => .error .displayVersion
  | .noOp, _ => if draft.noOp then .error .conflict else .ok { draft with noOp := true }
  | _, [] => .error .invalidValue
  | .input, values => .ok { draft with inputs := draft.inputs ++ values }
  | .pointer, value :: _ =>
    if draft.pointer.isSome then .error .conflict else .ok { draft with pointer := some value }
  | .out, value :: _ =>
    if draft.out.isSome then .error .conflict
    else if value = "" then .error .invalidValue
    else .ok { draft with out := some value }
  | .enumStyle, value :: _ =>
    if draft.style.isSome then .error .conflict
    else
      match enumStyle? value with
      | some style => .ok { draft with style := some style }
      | none => .error .invalidValue

/-- The draft with nothing pending. -/
def Draft.settle (draft : Draft) : Except Usage Draft :=
  match draft.pending with
  | none => .ok draft
  | some (switch, values) => { draft with pending := none }.give switch values

/-- The draft with an option given behind what is pending: at once if it takes no value or has one
attached, pending otherwise. -/
def Draft.meet (draft : Draft) (switch : Switch) (attached : Option String) :
    Except Usage Draft := do
  let draft ← draft.settle
  match switch.arity, attached with
  | .none, _ => draft.give switch []
  | _, some value => draft.give switch [value]
  | _, none => return { draft with pending := some (switch, []) }

/-! ## Reading arguments -/

/-- Reads letters of options that share an argument.  What follows the letter of an option with
values is its value. -/
def Draft.letters (scope : Scope) (draft : Draft) : List Char → Except Usage Draft
  | [] => .ok draft
  | c :: rest =>
    match scope.switches.find? fun switch => switch.letter? == some c with
    | none => .error .unknownArgument
    | some switch => do
      if switch.arity = .none then
        let draft ← draft.meet switch none
        draft.letters scope rest
      else
        match rest with
        | [] => draft.meet switch none
        | '=' :: value => draft.meet switch (some (String.ofList value))
        | value => draft.meet switch (some (String.ofList value))

/-- Reads a long option, perhaps with a value attached. -/
def Draft.long (scope : Scope) (draft : Draft) (text : List Char) : Except Usage Draft :=
  let name := String.ofList (text.takeWhile (· != '='))
  let value :=
    match text.dropWhile (· != '=') with
    | [] => none
    | _ :: value => some (String.ofList value)
  match scope.switches.find? fun switch => switch.long == name with
  | none => .error .unknownArgument
  | some switch =>
    if switch.arity = .none && value.isSome then .error .tooManyValues
    else draft.meet switch value

/-- Reads an argument that is no option: a value of what is pending, if that takes another one. -/
def Draft.word (draft : Draft) (text : String) : Except Usage Draft :=
  match draft.pending with
  | some (switch, values) =>
    if switch.arity = .many || values.isEmpty then
      .ok { draft with pending := some (switch, values ++ [text]) }
    else .error .unknownArgument
  | none => .error .unknownArgument

/-- The sort of an argument. -/
inductive Argument where
  | escape
  | long (text : List Char)
  | letters (text : List Char)
  | word (text : String)

/-- The sort of an argument; a single dash is a word. -/
def Argument.of (text : String) : Argument :=
  match text.toList with
  | ['-', '-'] => escape
  | '-' :: '-' :: rest => long rest
  | '-' :: c :: rest => letters (c :: rest)
  | _ => word text

/-- Reads the arguments behind a target.  Behind an escape, all arguments are words that nothing
takes. -/
def readOptions (scope : Scope) (draft : Draft) : List String → Except Usage Draft
  | [] => draft.settle
  | argument :: rest => do
    match Argument.of argument with
    | .escape => if rest.isEmpty then draft.settle else .error .unknownArgument
    | .long text => readOptions scope (← draft.long scope text) rest
    | .letters text => readOptions scope (← draft.letters scope text) rest
    | .word text => readOptions scope (← draft.word text) rest

/-- The target that a word names. -/
def target? : String → Option Target
  | "python" => some .python
  | "decls" => some .decls
  | _ => none

/-- The command for a target.  A count of `-v` behind the target takes the place of one before
it. -/
def readCommand (verbosity : Nat) (target : Target) (arguments : List String) :
    Except Usage Command := do
  let draft ← readOptions (.behind target) {} arguments
  if draft.inputs.isEmpty then .error .missingRequired
  else
    return {
      verbosity := if draft.verbosity = 0 then verbosity else draft.verbosity
      target
      pointer := draft.pointer
      inputs := draft.inputs
      style := draft.style.getD .literal
      out := draft.out
      noOp := draft.noOp }

/-- What the words behind `help` ask for. -/
def readHelp : List String → Usage
  | [] => .displayHelp
  | [word] =>
    if (target? word).isSome || word = "help" then .displayHelp else .invalidSubcommand
  | _ => .invalidSubcommand

/-- Without a target: an overview if nothing was given at all. -/
def withoutTarget (draft : Draft) : Usage :=
  if draft.verbosity = 0 then .displayHelpOnMissing else .missingSubcommand

/-- Reads the arguments in front of a target. -/
def readTop (draft : Draft) : List String → Except Usage Command
  | [] => .error (withoutTarget draft)
  | argument :: rest => do
    match Argument.of argument with
    | .escape =>
      match rest with
      | [] => .error (withoutTarget draft)
      | word :: _ =>
        if (target? word).isSome || word = "help" then .error .unknownArgument
        else .error .invalidSubcommand
    | .long text => readTop (← draft.long .top text) rest
    | .letters text => readTop (← draft.letters .top text) rest
    | .word text =>
      match target? text with
      | some target => readCommand draft.verbosity target rest
      | none => if text = "help" then .error (readHelp rest) else .error .invalidSubcommand

/-- The command that some arguments ask for. -/
def parse (arguments : List String) : Except Usage Command := readTop {} arguments

end CommandLine
end TypedSchema
