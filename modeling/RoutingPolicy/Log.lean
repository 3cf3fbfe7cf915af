import RoutingPolicy.Text.Basic

/-!
# Log entries

What happens while a policy is read or fetched is told in log entries: a level and a message.
-/

namespace RoutingPolicy

inductive LogLevel where
  | debug
  | warn
  | error
deriving DecidableEq

def LogLevel.name : LogLevel → Text
  | debug => "DEBUG".toList
  | warn => "WARN".toList
  | error => "ERROR".toList

/-- A message with its level. -/
structure LogEntry where
  level : LogLevel
  message : Text
deriving DecidableEq

end RoutingPolicy
