import PicoLoader.CommandLine.LoadCommand
import PicoLoader.CommandLine.RebootCommand

/-!
# The program

The first argument names the command, and the others go to it. No driver for a real bus is linked
in, so the bus is empty: dry runs work on any file, and all else ends where no board is found.
-/

open PicoLoader

/-- The bus without devices. -/
def noBus : Usb.Bus := ⟨none, []⟩

/-- The environment variable with the word that sets the log. -/
def logVariable : String := "RUST_LOG"

/-- Reads a file of the file system. -/
def readPath (path : String) : IO (Except Elf.Error (List UInt8)) := do
  try
    let bytes ← IO.FS.readBinFile path
    return .ok bytes.toList
  catch _ => return .error (.unreadable path)

/-- Reads the file that arguments for loading name, if they name one. -/
def readFor (texts : List String) : IO (String → Except Elf.Error (List UInt8)) := do
  match CommandLine.LoadRequest.ofArguments texts with
  | .ok request =>
    let file ← readPath request.file
    return fun _ => file
  | .error _ => return fun path => .error (.unreadable path)

/-- Writes the texts of a command out, and gives its exit code. -/
def finish (exit : CommandLine.Exit) : IO UInt32 := do
  IO.print exit.stdout
  IO.eprint exit.stderr
  return exit.code

def main (args : List String) : IO UInt32 := do
  let word ← IO.getEnv logVariable
  match args with
  | "load" :: texts =>
    finish (CommandLine.load texts word (← readFor texts) noBus (.start [])).1
  | "reboot" :: texts => finish (CommandLine.reboot texts word noBus (.start [])).1
  | _ => finish ⟨2, "", "Usage: picoloader load|reboot [ARGUMENTS]\n"⟩
