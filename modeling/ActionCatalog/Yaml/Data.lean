import ActionCatalog.Yaml.Scalar

/-! Values that a YAML document holds where every type is admitted, types of its own included. -/
namespace ActionCatalog.Yaml

inductive Data where
  | null
  | bool (b : Bool)
  | number (n : Number)
  | text (s : String)
  | list (items : List Data)
  | map (entries : List (Data × Data))
  | tagged (tag : String) (content : Data)
  deriving Repr

instance : Inhabited Data := ⟨.null⟩

/-- Equality of numbers as keys: zeros are equal, and so are all that are no number. -/
def sameNumber : Number → Number → Bool
  | .float x, .float y => x = y || (x.isZero && y.isZero)
  | a, b => a = b

namespace Data

mutual
/-- Equality as keys, for which the order of entries does not matter. -/
def same : Data → Data → Bool
  | null, null => true
  | bool a, bool b => a == b
  | number a, number b => sameNumber a b
  | text a, text b => a == b
  | list as, list bs => sameItems as bs
  | map as, map bs => as.length == bs.length && containsAll as bs
  | tagged t a, tagged u b => t == u && same a b
  | _, _ => false

def sameItems : List Data → List Data → Bool
  | [], [] => true
  | a :: as, b :: bs => same a b && sameItems as bs
  | _, _ => false

def containsAll : List (Data × Data) → List (Data × Data) → Bool
  | [], _ => true
  | (k,v) :: as, bs => bs.any (fun e => same k e.1 && same v e.2) && containsAll as bs
end

mutual
/-- Whether two values are one and the same, order of entries included. -/
def equal : Data → Data → Bool
  | null, null => true
  | bool a, bool b => a = b
  | number a, number b => a = b
  | text a, text b => a = b
  | list as, list bs => equalItems as bs
  | map as, map bs => equalEntries as bs
  | tagged t a, tagged u b => t = u && equal a b
  | _, _ => false

def equalItems : List Data → List Data → Bool
  | [], [] => true
  | a :: as, b :: bs => equal a b && equalItems as bs
  | _, _ => false

def equalEntries : List (Data × Data) → List (Data × Data) → Bool
  | [], [] => true
  | (k,v) :: as, (l,w) :: bs => equal k l && equal v w && equalEntries as bs
  | _, _ => false
end

mutual
theorem equal_iff : ∀ v w : Data, equal v w = true ↔ v = w
  | null, w => by cases w <;> simp [equal]
  | bool _, w => by cases w <;> simp [equal]
  | number _, w => by cases w <;> simp [equal]
  | text _, w => by cases w <;> simp [equal]
  | list as, w => by cases w <;> simp [equal,equalItems_iff]
  | map as, w => by cases w <;> simp [equal,equalEntries_iff]
  | tagged _ a, w => by cases w <;> simp [equal,equal_iff a]

theorem equalItems_iff : ∀ vs ws : List Data, equalItems vs ws = true ↔ vs = ws
  | [], ws => by cases ws <;> simp [equalItems]
  | v :: vs, ws => by cases ws <;> simp [equalItems,equal_iff v,equalItems_iff vs]

theorem equalEntries_iff : ∀ vs ws : List (Data × Data), equalEntries vs ws = true ↔ vs = ws
  | [], ws => by cases ws <;> simp [equalEntries]
  | (k,v) :: vs, ws => by
    cases ws <;> simp [equalEntries,equal_iff k,equal_iff v,equalEntries_iff vs,Prod.ext_iff]
end

instance : DecidableEq Data := fun v w => decidable_of_iff _ (equal_iff v w)

/-- Whether no key is given twice. -/
def distinctKeys : List (Data × Data) → Bool
  | [] => true
  | (k,_) :: rest => rest.all (fun e => !same k e.1) && distinctKeys rest

/-- The value of a settled scalar. -/
def ofScalar? : Tree → Option Data
  | .null => some .null
  | .bool b => some (.bool b)
  | .number n => some (.number n)
  | .text s => some (.text s)
  | _ => none

/-- Puts the tag of a type of the document's own around a value. -/
def wrap (tag : Option String) (v : Data) : Option Data :=
  match tag with
  | some t => if isLocal tag then if t = "!" then none else some (.tagged t v) else some v
  | none => some v

/-- The value of a scalar. The type of a tagged one is that of its letters. -/
def ofWritten? (w : Written) : Option Data := do
  if isLocal w.tag then wrap w.tag (← (settle? { w with tag := none }).bind ofScalar?)
  else (settle? w).bind ofScalar?

mutual
/-- The value of a node. A key that is given twice is refused. -/
def ofTree? : Tree → Option Data
  | .null => some .null
  | .bool b => some (.bool b)
  | .number n => some (.number n)
  | .text s => some (.text s)
  | .written w => ofWritten? w
  | .list tag items => do wrap tag (.list (← ofItems? items))
  | .record tag entries => do
    let entries ← ofEntries? entries
    if distinctKeys entries then wrap tag (.map entries) else none
  | .cycle => none

def ofItems? : List Tree → Option (List Data)
  | [] => some []
  | t :: rest => do return (← ofTree? t) :: (← ofItems? rest)

def ofEntries? : List (Tree × Tree) → Option (List (Data × Data))
  | [] => some []
  | (k,v) :: rest => do return (← ofTree? k, ← ofTree? v) :: (← ofEntries? rest)
end

/-- A map under text keys. -/
def record (members : List (String × Data)) : Data := .map (members.map fun e => (.text e.1, e.2))

end Data
end ActionCatalog.Yaml
