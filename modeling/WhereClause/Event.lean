import WhereClause.Condition.Basic
import WhereClause.Dialect
import WhereClause.Rejection
import WhereClause.Text.Quoted

/-!
# Event: what a call reports of its course

Compiling reports its start, a rejection, and its end with the number of parameters; rendering reports every condition it
comes to, and the fields of a map that it leaves out. The events of a call are part of its result, in the order in which they
happened.
-/

namespace WhereClause

/-- How much detail an event is. -/
inductive Event.Level where
  | trace | debug
  deriving DecidableEq

/-- Something that happened during a call. -/
inductive Event where
  /-- A condition is to be compiled for an entity in a dialect. -/
  | compiling (kind : Condition.Kind) (entity : String) (dialect : Dialect)
  /-- A condition was rejected for an entity. -/
  | rejected (entity : String) (reason : Rejection)
  /-- A condition is to be rendered. -/
  | rendering (kind : Condition.Kind)
  /-- Fields of a map are left out, because the entity does not declare them. -/
  | skipping (entity : String) (fields : List String)
  /-- A clause is ready, with so many parameters. -/
  | compiled (parameters : Nat)
  deriving DecidableEq

/-- The level of an event: what rendering comes to is finer detail than the rest. -/
def Event.level : Event → Event.Level
  | .rendering _ => .trace
  | _ => .debug

/-- An event in words. -/
def Event.message : Event → String
  | .compiling kind entity dialect =>
    "Compiling " ++ kind.name ++ " condition for '" ++ entity ++ "' (" ++ dialect.displayName ++ ")"
  | .rejected entity reason => "Condition rejected by '" ++ entity ++ "': " ++ reason.message
  | .rendering kind => "Rendering " ++ kind.name ++ " condition"
  | .skipping entity fields => "Skipping fields unknown to '" ++ entity ++ "': " ++ Text.quotedList fields
  | .compiled parameters => "Compiled WHERE clause with " ++ toString parameters ++ " parameter(s)"

/-- A result, and the events of the call that gave it. -/
structure Logged (α : Type) where
  log : List Event
  result : α

end WhereClause
