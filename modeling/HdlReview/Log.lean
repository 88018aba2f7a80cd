/-!
# Log records

The parts of the program report what they do to named loggers. A run returns the records it makes,
in order.

## Main definitions

* `Log.Record`: a record of a logger at a level
-/

namespace HdlReview.Log

/-- How serious a record is. -/
inductive Level where
  | debug
  | info
  | error
deriving DecidableEq, Repr

/-- The name of a level. -/
def Level.name : Level → String
  | debug => "DEBUG"
  | info => "INFO"
  | error => "ERROR"

/-- One record of a logger. -/
structure Record where
  logger : String
  level : Level
  message : String
deriving DecidableEq, Repr

end HdlReview.Log
