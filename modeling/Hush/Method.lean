/-!
# Diagnostic methods

The methods of the console object whose calls are commented out.
-/

namespace Hush

inductive Method
  | log
  | error
  | warn
  | debug
  | info
  deriving DecidableEq

namespace Method

def all : List Method := [log, error, warn, debug, info]

theorem mem_all (method : Method) : method ∈ all := by
  cases method <;> decide

def name : Method → String
  | log => "log"
  | error => "error"
  | warn => "warn"
  | debug => "debug"
  | info => "info"

def receiver : String := "console"

end Method

end Hush
