import ActionCatalog.Body.Template
import Mathlib.Tactic.Common

/-! The forms in which a parameter is put into a body. Main statement: what is written tells the form and
the parameter. -/
namespace ActionCatalog.Body

/-- How a parameter is cast: not at all, by one of the functions, or by one inside a list. -/
inductive Form where
  | bare | int | bool | arr | obj
  deriving DecidableEq, Repr

namespace Form

/-- The form for a value of a type. -/
def ofType : Option DataType → Form
  | some .string => bare
  | some .integer => int
  | some .number => int
  | some .boolean => bool
  | some .array => arr
  | _ => obj

/-- The form that belongs to the kind of field that a value is typed into. -/
def ofCategory : Option Category → Form
  | some .string => bare
  | some .dropdown => bare
  | some .integer => int
  | some .number => int
  | some .bool => bool
  | some .array => arr
  | _ => obj

def call (function name : String) : String := "\x7b\x7b" ++ function ++ "(params." ++ name ++ ")\x7d\x7d"

def expression : Form → String → String
  | bare, name => "\x7b\x7bparams." ++ name ++ "\x7d\x7d"
  | int, name => call "int" name
  | bool, name => call "bool" name
  | arr, name => call "arr" name
  | obj, name => call "obj" name

def write (f : Form) (name : String) : Value :=
  match f with
  | arr => .list [.text (f.expression name)]
  | _ => .text (f.expression name)

/-- An expression tells its form and its parameter. -/
lemma expression_inj {f g : Form} {m n : String} (h : f.expression m = g.expression n) : f = g ∧ m = n := by
  have hl := congrArg String.toList h
  cases f <;> cases g <;> simp [expression,call,String.toList_append,String.toList_inj] at hl <;>
    exact ⟨rfl,hl⟩

/-- The expression inside what is written. -/
def expression? : Value → Option String
  | .text e => some e
  | .list [.text e] => some e
  | _ => none

lemma expression?_write (f : Form) (name : String) : expression? (f.write name) = some (f.expression name) := by
  cases f <;> rfl

theorem write_inj {f g : Form} {m n : String} (h : f.write m = g.write n) : f = g ∧ m = n := by
  have he := congrArg expression? h
  rw [expression?_write,expression?_write] at he
  exact expression_inj (Option.some.inj he)

lemma ofType_bind_ofType? (t : Option DataType) : ofCategory (t.bind Category.ofType?) = ofType t := by
  cases t with
  | none => rfl
  | some t => cases t <;> rfl

end Form

/-- A placeholder has the form for its type. -/
theorem placeholder_eq_write (t : Option DataType) (name : String) :
    placeholder t name = (Form.ofType t).write name := by
  cases t with
  | none => rfl
  | some t => cases t <;> rfl

end ActionCatalog.Body
