import ActionCatalog.Warning

/-! What came of making a catalog. -/
namespace ActionCatalog

/-- Counts of operations, actions and parameters, the chains of references cut short, and warnings. -/
structure Report where
  extracted : Nat := 0
  discovered : Nat := 0
  generated : Nat := 0
  filtered : Nat := 0
  parameters : Nat := 0
  skipped : Nat := 0
  cycles : List (List String) := []
  warnings : List Warning := []
  deriving DecidableEq, Repr

namespace Report

instance : Inhabited Report := ⟨{}⟩

def addExtracted (r : Report) (n : Nat) : Report := { r with extracted := r.extracted + n }
def addDiscovered (r : Report) (n : Nat) : Report := { r with discovered := r.discovered + n }

/-- Counts one action and its parameters. -/
def addGenerated (r : Report) (parameters : Nat) : Report :=
  { r with generated := r.generated + 1, parameters := r.parameters + parameters }

def addFiltered (r : Report) : Report := { r with filtered := r.filtered + 1 }

def addCycle (r : Report) (chain : List String) : Report :=
  { r with skipped := r.skipped + 1, cycles := r.cycles ++ [chain] }

def addWarnings (r : Report) (ws : List Warning) : Report := { r with warnings := r.warnings ++ ws }

end Report
end ActionCatalog
