import ActionCatalog.Console.Job
import ActionCatalog.Console.Table

/-! Lists of the actions of a document, and of the parameters of one of them. -/
namespace ActionCatalog.Console.Listing

/-- The providers that an operation asks, with the scopes asked of them. -/
def providers (grants : List Grant) : String :=
  if grants.isEmpty then "-"
  else ", ".intercalate (grants.map fun g =>
    if g.scopes.isEmpty then g.provider else g.provider ++ "[" ++ " ".intercalate g.scopes ++ "]")

def actionRow (m : Mask) (a : Action) (o : Operation) : List String :=
  [a.name,o.method.name,a.path,toString a.inputs.size,providers o.security,m.actionStatus a.name]

def actions (m : Mask) (d : Discovery) : Table where
  columns := [("OPERATION ID",false), ("METHOD",true), ("PATH",false), ("PARAMS",true), ("AUTH",false),
    ("MASK",false)]
  rows := d.actions.filterMap fun a => (d.registry.get? a.name).map (actionRow m a)

def parameterRow (m : Mask) (action name : String) (i : Input) : List String :=
  [name,(i.category.map Category.text).getD "-",if i.required then "yes" else "no",
    String.ofList (Number.ofInt i.index),m.parameterStatus action name]

/-- The action that a name or an alias stands for. -/
def chosen? (m : Mask) (d : Discovery) (name : String) : Option Action :=
  d.actions.find? (·.name == m.canonicalAction name)

def parameters (m : Mask) (name : String) (a : Action) : Table where
  columns := [("PARAMETER",false), ("TYPE",false), ("REQUIRED",false), ("INDEX",true), ("MASK",false)]
  rows := a.inputs.entries.map fun (p,i) => parameterRow m name p i

end ActionCatalog.Console.Listing
