import PicoLoader.Text.Terminal

/-!
# The log

Operations leave messages behind: warnings about failures that do not stop them, and details that
only a curious user wants to see. A message is a `PicoLoader.Log.Entry`; which entries are shown is
decided at the end, by a `PicoLoader.Log.Threshold`, and never by the operation that wrote them.

A message may hold text from outside, such as the reason that a host gives for a refusal. So the
printed form, `PicoLoader.Log.Entry.line`, indents what follows a line feed, and holds no terminal
control.
-/

namespace PicoLoader.Log

/-- How urgent a message is. -/
inductive Level where
  | warn
  | info
  | debug
deriving DecidableEq, Repr

/-- The part of the program that a message comes from. -/
inductive Source where
  | elf
  | plan
  | load
  | usb
  | reset
  | reboot
  | loadTool
deriving DecidableEq, Repr

/-- One message. -/
structure Entry where
  level : Level
  source : Source
  text : String
deriving DecidableEq, Repr

/-- The least urgent messages that are shown. -/
inductive Threshold where
  /-- Nothing is shown: no message is an error. -/
  | silent
  | warn
  | info
  | debug
deriving DecidableEq, Repr

namespace Level

/-- The name of a level. -/
def name : Level → String
  | warn => "WARN"
  | info => "INFO"
  | debug => "DEBUG"

/-- The name of a level, filled up with blanks to five characters. -/
def column : Level → String
  | warn => "WARN "
  | info => "INFO "
  | debug => "DEBUG"

end Level

namespace Source

/-- The name under which a part of the program logs. -/
def name : Source → String
  | elf => "dapico::elf"
  | plan => "dapico::plan"
  | load => "dapico::load"
  | usb => "dapico::picoboot::usb"
  | reset => "dapico::reset"
  | reboot => "dapico::reboot"
  | loadTool => "dapico_load"

end Source

namespace Threshold

/-- Whether messages of a level are shown. -/
def shows : Threshold → Level → Bool
  | silent, _ => false
  | warn, level => level = .warn
  | info, level => level ≠ .debug
  | debug, _ => true

/-- The threshold that a word asks for. Messages below a level named by no word are not told apart
from the nearest one: `trace` shows what `debug` shows, and `error` shows nothing. Any other word
names no level, and shows nothing. -/
def ofWord (word : String) : Threshold :=
  match word.toLower with
  | "warn" => warn
  | "info" => info
  | "debug" | "trace" => debug
  | _ => silent

end Threshold

namespace Entry

/-- The blanks in front of each line of a message but the first. -/
def indent : String := "    "

/-- A text whose lines are indented, all but the first. -/
def indented (text : String) : String :=
  String.ofList (text.toList.flatMap fun c => if c = '\n' then c :: indent.toList else [c])

/-- A message as it is printed: level and source in brackets, the text, and a line feed, all without
terminal control. -/
def line (entry : Entry) : String :=
  Terminal.plain
    ("[" ++ entry.level.column ++ " " ++ entry.source.name ++ "] " ++ indented entry.text ++ "\n")

end Entry

/-- How a message shows a value that may be missing. -/
def optional {α : Type} (shown : α → String) : Option α → String
  | some a => "Some(" ++ shown a ++ ")"
  | none => "None"

/-- The printed log: the entries that are shown, in order. -/
def printed (threshold : Threshold) (entries : List Entry) : String :=
  String.join ((entries.filter fun entry => threshold.shows entry.level).map Entry.line)

end PicoLoader.Log
