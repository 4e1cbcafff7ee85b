/-!
Lines of the diagnostic log.
-/

namespace FolderWatch

inductive Severity where
  | debug
  | info
  | warn
  deriving DecidableEq, Repr

namespace Severity

def label : Severity → String
  | debug => "DEBUG"
  | info => "INFO"
  | warn => "WARN"

end Severity

structure LogLine where
  severity : Severity
  message : String
  deriving DecidableEq, Repr

namespace LogLine

def text (line : LogLine) : String := line.severity.label ++ " " ++ line.message

end LogLine

end FolderWatch
