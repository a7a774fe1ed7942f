import PrimaryElection.Value

namespace PrimaryElection.Log

inductive Level
  | debug
  | info
  | warning
  | error
  deriving DecidableEq, Repr

def Level.name : Level → String
  | .debug => "DEBUG"
  | .info => "INFO"
  | .warning => "WARNING"
  | .error => "ERROR"

structure Record (ε : Type) where
  level : Level
  source : String
  message : String
  details : List (String × Value)
  failure : Option ε := none

def optionalText : Option Text → Value
  | some s => .text s
  | none => .null

end PrimaryElection.Log
