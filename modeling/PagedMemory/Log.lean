import PagedMemory.Text.Numeral
import PagedMemory.Text.Line

namespace PagedMemory

inductive Level where
  | debug
  | info
  | warning
  | error
  | fatal
  | other
deriving DecidableEq

namespace Level

def name : Level → String
  | .debug => "DEBUG"
  | .info => "INFO"
  | .warning => "WARN"
  | .error => "ERROR"
  | .fatal => "FATAL"
  | .other => "?"

-- Levels are numbered from the least severe; numbers past the last name have none.
def ofSeverity : Nat → Level
  | 0 => .debug
  | 1 => .info
  | 2 => .warning
  | 3 => .error
  | 4 => .fatal
  | _ => .other

-- Debug lines are discarded.
def sink : Level → Sink
  | .debug => .discarded
  | _ => .kept

end Level

-- A place in a program.
structure Position where
  file : String
  line : Int32

namespace Position

def text (position : Position) : List Char :=
  position.file.toList ++ ':' :: Numeral.signed position.line.toInt

end Position

-- A logged line without its position.
structure LogEntry where
  level : Level
  text : String
deriving DecidableEq

namespace LogEntry

def render (entry : LogEntry) : String := "[" ++ entry.level.name ++ "] " ++ entry.text

end LogEntry

namespace Level

def header (level : Level) (position : Position) : List Char :=
  '[' :: level.name.toList ++ ']' :: ' ' :: position.text ++ [':', ' ']

-- Opens a line for a level. A line that is discarded gets no header.
def opening (level : Level) (position : Position) (slot : Nat) : List LineCommand :=
  match level with
  | .debug => [.create slot (.sink .discarded)]
  | _ => [.create slot (.sink .kept), .print slot (level.header position)]

-- What is kept of a line that is opened and used by these commands.
def shown (level : Level) (position : Position) (commands : List LineCommand) : List Char :=
  ((Lines.run {} (level.opening position 0 ++ commands)).map Lines.written).getD []

-- A line that is opened, printed to once and ended.
def entry (level : Level) (position : Position) (text : List Char) : List Char :=
  level.shown position [.print 0 text, .finish 0]

-- The same with the line moved before its text is printed: the last owner ends it.
def movedEntry (level : Level) (position : Position) (text : List Char) : List Char :=
  level.shown position [.move 0 1, .print 1 text, .finish 1, .finish 0]

end Level

end PagedMemory
