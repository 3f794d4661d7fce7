/-!
# Arguments of a command

A command takes switches, which are options without a value, and operands. A switch has a long name
(`--verbose`) and perhaps a letter (`-v`); letters may be joined behind one dash (`-vu`). Switches
and operands come in any order, and behind two dashes alone everything is an operand. Each switch
may be given once. Every command understands two switches besides its own: they ask for its help
text and its version.

Arguments are read from the left, and the first that decides what happens ends the reading: one that
asks for a text, or one that does not belong there. So what follows a decision does not matter.

* `PicoLoader.CommandLine.Grammar` – what a command takes;
* `PicoLoader.CommandLine.Grammar.read` – reads arguments;
* `PicoLoader.CommandLine.Grammar.help` – the help text, made from the same table.
-/

namespace PicoLoader.CommandLine

/-- What a switch stands for: one of the two that all commands have, or one of the command's own. -/
inductive Meaning (α : Type) where
  | help
  | version
  | own (a : α)
deriving DecidableEq, Repr

/-- An option without a value. -/
structure Switch (α : Type) where
  long : String
  letter : Option Char
  purpose : String
  meaning : Meaning α
deriving DecidableEq, Repr

/-- An argument that is no option. -/
structure Operand where
  name : String
  purpose : String
deriving DecidableEq, Repr

/-- How a text names an operand. -/
def Operand.shown (operand : Operand) : String := "<" ++ operand.name ++ ">"

/-- What a command takes, and what it has to tell about itself. -/
structure Grammar (α : Type) where
  program : String
  release : String
  about : String
  switches : List (Switch α)
  operands : List Operand
deriving DecidableEq, Repr

/-- What ends the reading before the last argument. -/
inductive Stop where
  | help
  | version
  /-- An argument does not belong there, or one is missing. -/
  | misuse
deriving DecidableEq, Repr

/-- The switches and operands that have been read, in order. -/
structure Given (α : Type) where
  switches : List α
  operands : List String
deriving DecidableEq, Repr

/-- The forms of an argument, as long as no two dashes alone came before it. -/
inductive Argument where
  /-- Two dashes alone. -/
  | dashes
  | long (name : List Char)
  | letters (letters : List Char)
  | operand
deriving DecidableEq, Repr

/-- The form of an argument. One dash alone is an operand. -/
def Argument.ofText (text : String) : Argument :=
  match text.toList with
  | ['-', '-'] => .dashes
  | '-' :: '-' :: name => .long name
  | '-' :: letter :: others => .letters (letter :: others)
  | _ => .operand

namespace Grammar

variable {α : Type}

/-- All switches: those of the command, and the two that all commands have. -/
def allSwitches (grammar : Grammar α) : List (Switch α) :=
  grammar.switches ++ [
    ⟨"help", some 'h', "Print help", .help⟩,
    ⟨"version", some 'V', "Print version", .version⟩]

/-! ### Reading -/

section Reading

variable [DecidableEq α] (grammar : Grammar α)

/-- Takes a switch, unless it is unknown or was given before. -/
def takeSwitch (given : Given α) (switch? : Option (Switch α)) : Except Stop (Given α) :=
  match switch?.map Switch.meaning with
  | none => .error .misuse
  | some .help => .error .help
  | some .version => .error .version
  | some (.own a) =>
    if a ∈ given.switches then .error .misuse
    else .ok { given with switches := given.switches ++ [a] }

/-- Takes a switch by its long name. Anything that is not exactly such a name is unknown, also a
name with a value behind it. -/
def takeLong (given : Given α) (name : List Char) : Except Stop (Given α) :=
  takeSwitch given (grammar.allSwitches.find? fun switch => switch.long.toList = name)

/-- Takes a switch by its letter. -/
def takeLetter (given : Given α) (letter : Char) : Except Stop (Given α) :=
  takeSwitch given (grammar.allSwitches.find? fun switch => switch.letter = some letter)

/-- Takes an operand, if there may be one more. -/
def takeOperand (given : Given α) (text : String) : Except Stop (Given α) :=
  if given.operands.length < grammar.operands.length then
    .ok { given with operands := given.operands ++ [text] }
  else .error .misuse

/-- Takes an argument that is not two dashes alone. -/
def takeArgument (given : Given α) (text : String) : Except Stop (Given α) :=
  match Argument.ofText text with
  | .long name => grammar.takeLong given name
  | .letters letters => letters.foldlM grammar.takeLetter given
  | .dashes | .operand => grammar.takeOperand given text

/-- Reads arguments, when some have been read. -/
def readFrom (given : Given α) : List String → Except Stop (Given α)
  | [] => .ok given
  | text :: texts =>
    if Argument.ofText text = .dashes then texts.foldlM grammar.takeOperand given
    else
      match grammar.takeArgument given text with
      | .ok given => readFrom given texts
      | .error stop => .error stop

/-- **Reads the arguments of a command.** All operands have to be there. -/
def read (texts : List String) : Except Stop (Given α) :=
  match grammar.readFrom ⟨[], []⟩ texts with
  | .ok given =>
    if given.operands.length = grammar.operands.length then .ok given else .error .misuse
  | .error stop => .error stop

end Reading

/-! ### Texts -/

/-- Lines with two columns; the second begins two blanks behind the longest entry of the first. -/
def table (rows : List (String × String)) : List String :=
  let width := (rows.map fun (left, _) => left.length).foldl max 0
  rows.map fun (left, right) =>
    "  " ++ left ++ String.ofList (List.replicate (width - left.length + 2) ' ') ++ right

/-- The row of a switch in the help text. Without a letter its place stays blank. -/
def switchRow (switch : Switch α) : String × String :=
  let letter := match switch.letter with
    | some c => String.ofList ['-', c, ',', ' ']
    | none => "    "
  (letter ++ "--" ++ switch.long, switch.purpose)

/-- The line that shows how the command is used. -/
def usage (grammar : Grammar α) : String :=
  let operands := grammar.operands.map fun operand => " " ++ operand.shown
  "Usage: " ++ grammar.program ++ " [OPTIONS]" ++ String.join operands

/-- The lines about operands in the help text. -/
def operandLines (grammar : Grammar α) : List String :=
  if grammar.operands = [] then []
  else
    "Arguments:" ::
      table (grammar.operands.map fun operand => (operand.shown, operand.purpose)) ++ [""]

/-- The help text. -/
def help (grammar : Grammar α) : String :=
  let lines := [grammar.about, "", grammar.usage, ""] ++ grammar.operandLines ++
    "Options:" :: table (grammar.allSwitches.map switchRow)
  String.join (lines.map (· ++ "\n"))

/-- The version text. -/
def version (grammar : Grammar α) : String := grammar.program ++ " " ++ grammar.release ++ "\n"

end Grammar

end PicoLoader.CommandLine
