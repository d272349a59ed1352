/-!
Log records and the line of text that each one becomes on the console.
-/

namespace EnvKernel.Console

/-- How important a log record is. -/
inductive Level where
  | error
  | warn
  | info
  | debug
  | trace
deriving DecidableEq, Repr

/-- The name of a level. -/
def Level.text : Level → String
  | error => "ERROR"
  | warn => "WARN"
  | info => "INFO"
  | debug => "DEBUG"
  | trace => "TRACE"

/-- All levels, the most important one first. -/
def Level.all : List Level := [error, warn, info, debug, trace]

/-- The level with the given name. -/
def Level.ofText? (text : String) : Option Level := all.find? (·.text == text)

/-- A log record: its text, and the file and line of the statement that made it where both are known. -/
structure Record where
  level : Level
  text : String
  file : Option String := none
  line : Option Nat := none
deriving DecidableEq, Repr

/-- The console takes records of every level. -/
def enabled (_ : Level) : Bool := true

/-- The line that a record becomes. Its place is given only if both file and line are known. -/
def Record.render (r : Record) : String :=
  match r.file, r.line with
  | some file, some line =>
    "[" ++ r.level.text ++ "\t" ++ file ++ ":" ++ toString line ++ "]\t" ++ r.text ++ "\n"
  | _, _ => "[" ++ r.level.text ++ "] " ++ r.text ++ "\n"

end EnvKernel.Console
