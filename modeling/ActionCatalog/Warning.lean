/-! What is worth telling about a document or a mask, although a catalog can be made of them. -/
namespace ActionCatalog

inductive Warning where
  | duplicateOperation (id replaced replacement : String)
  | unknownAction (action : String)
  | unknownParameter (action parameter : String)
  | missingServer
  deriving DecidableEq, Repr

namespace Warning

def text : Warning → String
  | duplicateOperation id replaced replacement => s!"operation id '{id}' of {replacement} replaces {replaced}"
  | unknownAction action => s!"mask action '{action}' matches no operation"
  | unknownParameter action parameter => s!"[{action}] mask parameter '{parameter}' matches no parameter"
  | missingServer => "document declares no server, URL templates use an empty host"

/-- Whether an entry of a mask selects nothing, as a misspelled one would. -/
def isMismatch : Warning → Bool
  | unknownAction _ => true
  | unknownParameter .. => true
  | _ => false

end Warning
end ActionCatalog
