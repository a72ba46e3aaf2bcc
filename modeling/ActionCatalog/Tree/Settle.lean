import ActionCatalog.Tree.Read

/-! Nodes whose scalars have a type of their own, as in places that admit every type. -/
namespace ActionCatalog.Tree
open Yaml

mutual
/-- Gives every scalar the type it has by itself; types of a document's own are refused. -/
def settle? : Tree → Option Tree
  | .written w => Yaml.settle? w
  | .list tag items => if isLocal tag then none else do return .list none (← settleItems items)
  | .record tag entries => if isLocal tag then none else do return .record none (← settleEntries entries)
  | .cycle => none
  | t => some t

def settleItems : List Tree → Option (List Tree)
  | [] => some []
  | t :: rest => do return (← t.settle?) :: (← settleItems rest)

def settleEntries : List (Tree × Tree) → Option (List (Tree × Tree))
  | [] => some []
  | (k,v) :: rest => do return (← k.settle?, ← v.settle?) :: (← settleEntries rest)
end

end Tree

namespace Value

/-- Puts a member into an object, in the place of an earlier one of its name. -/
def putMember (k : String) (v : Value) : List (String × Value) → List (String × Value)
  | [] => [(k,v)]
  | (k',v') :: rest => if k = k' then (k,v) :: rest else (k',v') :: putMember k v rest

mutual
/-- The value of a settled node. What JSON has no number for reads as null. -/
def ofTree? : Tree → Option Value
  | .null => some .null
  | .bool b => some (.bool b)
  | .number (.int i) => some (.number (.int i))
  | .number (.float x) => some (if x.isFinite then .number (.float x) else .null)
  | .text s => some (.text s)
  | .list _ items => do return .list (← itemsOf items)
  | .record _ entries => do return .object (← membersOf entries []) 
  | _ => none

def itemsOf : List Tree → Option (List Value)
  | [] => some []
  | t :: rest => do return (← ofTree? t) :: (← itemsOf rest)

def membersOf : List (Tree × Tree) → List (String × Value) → Option (List (String × Value))
  | [], found => some found
  | (k,v) :: rest, found => do membersOf rest (putMember (← k.asText?) (← ofTree? v) found)
end

end Value
end ActionCatalog
