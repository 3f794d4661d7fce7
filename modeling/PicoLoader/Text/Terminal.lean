/-!
# Terminal control in text

A terminal obeys some characters instead of showing them. The escape character introduces a
sequence: an escape sequence proper, a control sequence, a device control string, a system command,
or a string of some other kind. Where a text goes to a file or a pipe such characters are noise, and
it is written without them: `PicoLoader.Terminal.plain` drops the sequences, and every control
character that is no white space.

A reader of the text is always in one of a few states (`PicoLoader.Terminal.State`), and a
character takes it to the next one (`PicoLoader.Terminal.Reader.next`). White space interrupts a
sequence: it is kept, and so is the text behind it, up to the next character that has to be dropped.
There the sequence goes on where it was, unless the text has held a character beyond ASCII, which
ends it. A string is not interrupted, it swallows white space like all else.
-/

namespace PicoLoader.Terminal

/-! ### Classes of characters -/

/-- White space among the control characters: tab, line feed, form feed and carriage return. -/
def isSpacing (c : Char) : Bool := c = '\t' || c = '\n' || c = '\x0c' || c = '\r'

/-- A character that takes up room: all but the control characters below the blank, and delete. -/
def isGraphic (c : Char) : Bool := ' ' ≤ c && c ≠ '\x7f'

/-- A character that a plain text may hold. -/
def isShown (c : Char) : Bool := isGraphic c || isSpacing c

/-- The character that introduces a sequence, wherever it stands. -/
def isEscape (c : Char) : Bool := c = '\x1b'

/-- A character that cancels a sequence, wherever it stands. -/
def isCancel (c : Char) : Bool := c = '\x18' || c = '\x1a'

/-- A character that may stand between the introduction of a sequence and its end. -/
def isIntermediate (c : Char) : Bool := ' ' ≤ c && c ≤ '/'

/-- A character of a parameter. -/
def isParameter (c : Char) : Bool := '0' ≤ c && c ≤ '?'

/-- A parameter character that may only be the first one. -/
def isMark (c : Char) : Bool := '<' ≤ c && c ≤ '?'

/-- A character that ends a control sequence, or the head of a device control string. -/
def isFinal (c : Char) : Bool := '@' ≤ c && c ≤ '~'

/-- A character that ends an escape sequence. -/
def isEscapeFinal (c : Char) : Bool := '0' ≤ c && c ≤ '~'

/-- A character beyond ASCII. -/
def isWide (c : Char) : Bool := '\x7f' < c

/-- A character whose encoding holds the byte that terminates strings. -/
def endsString (c : Char) : Bool := (String.utf8EncodeChar c).contains 0x9c

/-! ### States -/

/-- How far the head of a device control string has been read: nothing yet, parameters, or
intermediates. -/
inductive Head where
  | start
  | parameters
  | intermediates
deriving DecidableEq, Repr

/-- The head after one more character. Parameters come before intermediates, and a mark only at the
start; any other order is not well formed. A character that belongs to no head changes nothing. -/
def Head.next? (head : Head) (c : Char) : Option Head :=
  if isIntermediate c then some .intermediates
  else if isParameter c then
    match head with
    | .start => some .parameters
    | .parameters => if isMark c then none else some .parameters
    | .intermediates => none
  else some head

/-- Where a reader of a text stands. -/
inductive State where
  /-- Outside all sequences. -/
  | ground
  /-- Behind the escape character. -/
  | escape
  /-- Behind the escape character and intermediates. -/
  | escapeIntermediate
  /-- In a control sequence. -/
  | control
  /-- In the head of a device control string. -/
  | device (head : Head)
  /-- In a system command, which the bell ends. -/
  | command
  /-- In a string of any other kind, or behind the head of a device control string. -/
  | string
deriving DecidableEq, Repr

namespace State

/-- The state in which a character behind the escape character leaves a reader. -/
def introduced (c : Char) : State :=
  if isIntermediate c then .escapeIntermediate
  else if c = '[' then .control
  else if c = ']' then .command
  else if c = 'P' then .device .start
  else if c = 'X' || c = '^' || c = '_' then .string
  else if isEscapeFinal c then .ground
  else .escape

/-- Whether white space interrupts what is read in this state. -/
def isInterruptible : State → Bool
  | device _ | command | string => false
  | _ => true

/-- The state after a character that is dropped and neither begins nor cancels a sequence. -/
def continued (state : State) (c : Char) : State :=
  match state with
  | ground => ground
  | escape => introduced c
  | escapeIntermediate => if isEscapeFinal c then ground else escapeIntermediate
  | control => if isFinal c then ground else control
  | device head =>
    if isFinal c then string
    else match head.next? c with
      | some head => device head
      | none => string
  | command => if c = '\x07' then ground else command
  | string => if endsString c then ground else string

end State

/-! ### Readers -/

/-- A reader of a text: where it stands, and whether the character before it has been kept. Both can
hold amid a sequence, when white space has interrupted it. -/
structure Reader where
  state : State
  showing : Bool
deriving DecidableEq, Repr

namespace Reader

/-- A reader at the start of a text. -/
def start : Reader := ⟨.ground, true⟩

/-- Whether a reader keeps a character: outside all sequences, or where one is interrupted, whatever
a plain text may hold, and amid a sequence only white space that interrupts it. -/
def keeps (reader : Reader) (c : Char) : Bool :=
  if reader.showing || reader.state = .ground then isShown c
  else reader.state.isInterruptible && isSpacing c

/-- The reader after a character. What is kept leaves a sequence waiting, or ends it, and what is
dropped takes the sequence on. -/
def next (reader : Reader) (c : Char) : Reader :=
  if isEscape c then ⟨.escape, false⟩
  else if isCancel c then ⟨.ground, false⟩
  else if reader.keeps c then ⟨if isWide c then .ground else reader.state, true⟩
  else ⟨reader.state.continued c, false⟩

end Reader

/-! ### Plain text -/

/-- What remains of the characters that a reader has before it. -/
def remains : Reader → List Char → List Char
  | _, [] => []
  | reader, c :: cs =>
    let rest := remains (reader.next c) cs
    if reader.keeps c then c :: rest else rest

/-- **A text without terminal control**: what remains of it to a reader. -/
def plain (text : String) : String := String.ofList (remains .start text.toList)

end PicoLoader.Terminal
