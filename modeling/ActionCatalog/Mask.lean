import ActionCatalog.Dict
import ActionCatalog.Failure
import ActionCatalog.Yaml.Data

/-! Masks choose the actions of a catalog and what is shown of them. A mask that lists no action exposes
all of them; once it lists any, only what it lists is exposed. -/
namespace ActionCatalog

/-- What a mask says about a parameter. An index of zero says nothing. -/
structure Mask.Parameter where
  nickname : Option String := none
  required : Option Bool := none
  type : Option String := none
  index : Int := 0
  isMulti : Bool := false
  default : Option String := none
  description : Option String := none
  deriving DecidableEq, Repr

/-- What a mask says about an action; it lists the parameters that are kept. -/
structure Mask.Action where
  nickname : Option String := none
  displayName : Option String := none
  description : Option String := none
  isConnectionOptional : Option Bool := none
  parameters : Dict Mask.Parameter := ∅
  deriving DecidableEq, Repr

structure Mask where
  requestUrlConnection : Option String := none
  requestUrl : Option String := none
  actions : Dict Mask.Action := ∅
  name : String := ""
  connectionTypes : Dict Yaml.Data := ∅
  iconUri : String := ""
  isConnectionOptional : Bool := false
  deriving DecidableEq, Repr

namespace Mask

instance : Inhabited Mask := ⟨{}⟩

/-- Text that says something. -/
def spoken (s : Option String) : Option String := s.filter (· ≠ "")

/-- Whether a mask lists no action. -/
def isEmpty (m : Mask) : Bool := m.actions.isEmpty

/-- The aliases of the actions with the names they stand for, in the order of the names. -/
def actionAliases (m : Mask) : List (String × String) :=
  m.actions.entries.filterMap fun (name,a) => (spoken a.nickname).map (·,name)

/-- The aliases of an action's parameters with the names they stand for. -/
def Action.aliases (a : Mask.Action) : List (String × String) :=
  a.parameters.entries.filterMap fun (name,p) => (spoken p.nickname).map (·,name)

/-- The first conflict among the aliases, of which `taken` have been looked at: an alias must be the name of
no other action and may be declared only once. -/
def conflictFrom (m : Mask) (taken : List (String × String)) : List (String × String) → Option Failure
  | [] => none
  | (nickname,name) :: rest =>
    if nickname ≠ name && m.actions.contains nickname then some (.shadowingAlias nickname name)
    else match taken.lookup nickname with
      | some first => some (.duplicateAlias nickname first name)
      | none => conflictFrom m ((nickname,name) :: taken) rest

def conflict? (m : Mask) : Option Failure := conflictFrom m [] m.actionAliases

/-- The name of the action that a name or an alias stands for. -/
def canonicalAction (m : Mask) (name : String) : String := (m.actionAliases.lookup name).getD name

/-- The entry of an action under its name or alias. -/
def action? (m : Mask) (name : String) : Option Mask.Action := m.actions.get? (m.canonicalAction name)

/-- The name of the parameter that a name or an alias stands for; of two with one alias, the later by
name. -/
def canonicalParameter (m : Mask) (action parameter : String) : String :=
  ((m.action? action).bind fun a => a.aliases.reverse.lookup parameter).getD parameter

/-- The entry of a parameter; both it and its action may be given by alias. -/
def parameter? (m : Mask) (action parameter : String) : Option Mask.Parameter :=
  (m.action? action).bind fun a => a.parameters.get? (m.canonicalParameter action parameter)

def aliasStatus (nickname : Option String) : String :=
  match spoken nickname with
  | some nickname => "as " ++ nickname
  | none => "exposed"

/-- What a mask does to an action, for people. Only its own name selects an entry. -/
def actionStatus (m : Mask) (name : String) : String :=
  if m.isEmpty then "all"
  else match m.actions.get? name with
    | some a => aliasStatus a.nickname
    | none => "excluded"

/-- What a mask does to a parameter of an action, for people. -/
def parameterStatus (m : Mask) (action parameter : String) : String :=
  if m.isEmpty then "all"
  else match m.parameter? action parameter with
    | some p => aliasStatus p.nickname
    | none => if (m.action? action).isSome then "excluded" else "action excluded"

end Mask
end ActionCatalog
