import SignedHandshake.Text.Basic

/-!
# Log lines (specification §10.2)

What happens is reported at one of five levels. A logger has a name, which it puts in front of every
message, and a level below which it writes nothing.

- `MessageLevel`, `LogLevel`: the levels of messages, and the levels from which a logger writes.
- `LogLine`: a message with its level, as it is handed to a logger.
- `Logger.write?`: what a logger with a name and a level writes of a line.
-/

namespace SignedHandshake

/-- The levels of a message. -/
inductive MessageLevel where
  | trace
  | debug
  | info
  | warn
  | error
  deriving DecidableEq, Repr

/-- The levels of a logger: that of the least message it writes, or that it writes none. -/
inductive LogLevel where
  | from (level : MessageLevel)
  | silent
  deriving DecidableEq, Repr

namespace MessageLevel

/-- All levels, least first. -/
def all : List MessageLevel := [.trace, .debug, .info, .warn, .error]

/-- The word for a level. -/
def name : MessageLevel → String
  | .trace => "trace"
  | .debug => "debug"
  | .info => "info"
  | .warn => "warn"
  | .error => "error"

/-- How much a level weighs. -/
def rank : MessageLevel → Nat
  | .trace => 0
  | .debug => 1
  | .info => 2
  | .warn => 3
  | .error => 4

/-- The console channel for messages of a level. Traces have none of their own. -/
def channel : MessageLevel → String
  | .trace => "debug"
  | level => level.name

end MessageLevel

namespace LogLevel

/-- All levels, most talkative first. -/
def all : List LogLevel := MessageLevel.all.map .from ++ [.silent]

/-- The word for a level. -/
def name : LogLevel → String
  | .from level => level.name
  | .silent => "silent"

/-- The level with this very word. -/
def ofName? (name : Text) : Option LogLevel :=
  all.find? (·.name == name)

/-- Whether a logger of this level writes messages of a level. -/
def writes : LogLevel → MessageLevel → Bool
  | .from least, level => least.rank ≤ level.rank
  | .silent, _ => false

end LogLevel

/-- A message and its level. -/
structure LogLine where
  level : MessageLevel
  message : Text
  deriving DecidableEq, Repr

/-- A logger. -/
structure Logger where
  name : Text
  level : LogLevel := .from .warn
  deriving DecidableEq

namespace Logger

/-- The channel and the text that a message is written as, unless it is below the logger's level. -/
def write? (logger : Logger) (line : LogLine) : Option (String × Text) :=
  if logger.level.writes line.level then
    some (line.level.channel, "[" ++ logger.name ++ "] " ++ line.message)
  else none

end Logger

end SignedHandshake
