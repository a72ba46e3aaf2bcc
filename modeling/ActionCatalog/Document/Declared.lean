import ActionCatalog.Document.Model
import ActionCatalog.Text.Piece
import ActionCatalog.Tree.Settle

/-! Which operations of a document spell out their security. An operation that lists no requirement is
open to all, one without the list falls under the requirements of the document; only the document as
it was written tells them apart. -/
namespace ActionCatalog

/-- For each path the keys, in lower case, of the entries that spell out their security. -/
abbrev DeclaredSecurity := Dict (List String)

namespace DeclaredSecurity
open ActionCatalog.Tree

/-- Whether a key names the security of an entry. Keys may be texts, or naturals that count through the members that
are asked for, of which there is this one; any other key is refused. -/
def namesSecurity? (key : Tree) : Option Bool :=
  match key, key.settle? with
  | _, some (.text name) => some (name = "security")
  | .written w, some (.number (.int i)) => if w.text.toList.head? = some '-' then none else some (i = 0)
  | _, _ => none

/-- The members of an entry, each with whether its key names security, unless a key is refused. -/
def members? (entries : List (Tree × Tree)) : Option (List (Bool × Tree)) :=
  entries.mapM fun (k,v) => do return (← namesSecurity? k, ← v.settle?)

/-- Whether security is given, once and not as null. -/
def givesSecurity (members : List (Bool × Tree)) : Bool :=
  match members.filter (·.1) with
  | [(_,.null)] => false
  | [_] => true
  | _ => false

/-- Whether an entry of a path is an object that gives its security. One with a key that is refused does not. -/
def spellsOut? (entry : Tree) : Option Bool := do
  let _ ← entry.settle?
  match entry with
  | .record _ entries => return (members? entries).any givesSecurity
  | _ => return false

def keys? (item : Tree) : Option (List String) := do
  let entries ← item.asDict? spellsOut?
  return (entries.entries.filter (·.2)).map fun e => Text.asciiLower e.1

def read? (t : Tree) : Option DeclaredSecurity := do (← t.fields?).dict? "paths" keys?

/-- Whether a path has such an entry for a method, in whatever case its name is written. -/
def declares (d : DeclaredSecurity) (path method : String) : Bool :=
  (d.get? path).any (·.contains (Text.asciiLower method))

end DeclaredSecurity
end ActionCatalog
