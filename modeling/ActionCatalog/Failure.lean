import ActionCatalog.Document.Resolve

/-! What keeps a catalog from being made. -/
namespace ActionCatalog

inductive Failure where
  | parameterCount (path : String) (found declared : Nat)
  | unknownParameter (path name : String)
  | unresolved (reference place : String) (obstacle : Obstacle)
  | endless (place : String)
  | duplicateAlias (nickname first second : String)
  | shadowingAlias (nickname action : String)
  | missingOperation (action : String)
  | unwritable
  deriving DecidableEq, Repr

namespace Failure

def message : Failure → String
  | parameterCount path found declared =>
    s!"path '{path}' has {found} positional parameters, but spec has {declared} declared"
  | unknownParameter path name =>
    s!"path '{path}' refers to parameter '{name}', which doesn't exist in specification"
  | unresolved reference place obstacle =>
    s!"cannot resolve '{reference}' in {place}: {obstacle.reason}"
  | endless place => s!"references in {place} never end"
  | duplicateAlias nickname first second =>
    s!"mask alias '{nickname}' is declared by both '{first}' and '{second}'"
  | shadowingAlias nickname action =>
    s!"mask alias '{nickname}' of '{action}' shadows the declared action '{nickname}'"
  | missingOperation action => s!"action '{action}' has no operation definition"
  | unwritable => "failed to serialize named actions catalog"

end Failure

namespace RefOr
variable {α : Type}

/-- The text by which a node is named in messages. -/
def target : RefOr α → String
  | reference target _ => target
  | inline _ => "<inline>"

/-- Blames an obstacle on a node in a place of the document. -/
def blame (node : RefOr α) (place : String) : Except Obstacle α → Except Failure α
  | .ok v => .ok v
  | .error o => .error (.unresolved node.target place o)

end RefOr
end ActionCatalog
