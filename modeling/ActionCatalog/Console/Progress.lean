import ActionCatalog.Console.Job
import ActionCatalog.Console.Palette

/-! What is told while a catalog is made. -/
namespace ActionCatalog.Console

/-- Lines for the standard output and for the standard error output. -/
structure Lines where
  out : List String := []
  err : List String := []
  deriving DecidableEq, Repr

namespace Lines

instance : Append Lines := ⟨fun a b => ⟨a.out ++ b.out,a.err ++ b.err⟩⟩

def ofOut (out : List String) : Lines := { out := out }

@[simp] theorem out_append (a b : Lines) : (a ++ b).out = a.out ++ b.out := rfl
@[simp] theorem err_append (a b : Lines) : (a ++ b).err = a.err ++ b.err := rfl

end Lines

/-- How things are told: colours, the time of day, and how much. -/
structure Voice where
  palette : Palette
  clock : String
  verbose : Bool
  quiet : Bool

namespace Voice

/-- Tells something unless quiet is asked for. -/
def tell (v : Voice) (lines : Lines) : Lines := if v.quiet then {} else lines

def stamped (v : Voice) (text : String) : String := v.palette.timestamp.paint v.clock ++ " " ++ text

def info (v : Voice) (color : Color) (text : String) : List String := [v.stamped (color.paint text)]

def count (v : Voice) (label value : String) : List String :=
  ["            " ++ v.palette.label.paint label ++ " " ++ v.palette.value.paint value]

/-- A count that is told only if it counts something. -/
def countAny (v : Voice) (label : String) (n : Nat) (value : String) : List String :=
  if n = 0 then [] else v.count label value

def loading (v : Voice) (j : Job) : Lines :=
  v.tell (.ofOut (v.info v.palette.primary ("Loading OpenAPI document from: " ++ j.source.text)
    ++ if v.verbose then v.info v.palette.muted ("Using mask: " ++ j.mask) else []))

def generating (v : Voice) : Lines := v.tell (.ofOut (v.info v.palette.primary "Generating named actions..."))

def cycle (v : Voice) (n : Nat) (chain : List String) : String :=
  "              " ++ v.palette.accent.paint s!"Cycle {n}" ++ ": "
    ++ v.palette.muted.paint (" -> ".intercalate chain)

def cycles (v : Voice) (r : Report) : List String :=
  v.countAny "Recursive refs skipped:" r.skipped (toString r.skipped)
    ++ if v.verbose then r.cycles.mapIdx fun i chain => v.cycle (i + 1) chain else []

def warning (v : Voice) (w : Warning) : String :=
  v.palette.accent.paint (if w.isMismatch then "Mask:" else "Warning:") ++ " " ++ v.palette.primary.paint w.text

/-- The warnings to show; those about a mask always are. -/
def warnings (v : Voice) (r : Report) : Lines :=
  match r.warnings.filter fun w => w.isMismatch || v.verbose with
  | [] => {}
  | shown => { out := [""], err := shown.map v.warning }

def statistics (v : Voice) (r : Report) : Lines :=
  v.tell (.ofOut (
    v.count "Operations extracted:" (toString r.extracted)
    ++ v.count "Actions discovered:" (toString r.discovered)
    ++ v.count "Actions generated:" (toString r.generated)
    ++ v.countAny "" r.filtered s!"{r.filtered} excluded by mask"
    ++ v.count "Parameters generated:" (toString r.parameters)
    ++ v.countAny "Warnings:" r.warnings.length (toString r.warnings.length)
    ++ v.cycles r) ++ v.warnings r)

def writing (v : Voice) (j : Job) : Lines :=
  v.tell (.ofOut (v.info v.palette.primary ("Writing to: " ++ j.output)))

def done (v : Voice) : Lines :=
  v.tell (.ofOut ("" :: v.info v.palette.success "Successfully generated named actions"))

end Voice
end ActionCatalog.Console
