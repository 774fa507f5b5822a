/-! Log lines as data. Every operation that reports something returns its lines in the order in
which it writes them; nothing is printed here. -/
namespace Strand.Log

inductive Level
  | trace
  | debug
  | info
  | warn
  | error
  deriving DecidableEq, Repr

def Level.name : Level → String
  | .trace => "TRACE"
  | .debug => "DEBUG"
  | .info => "INFO"
  | .warn => "WARN"
  | .error => "ERROR"

structure Line where
  level : Level
  text : String
  deriving DecidableEq, Repr

def Line.render (line : Line) : String := line.level.name ++ " " ++ line.text

end Strand.Log
