import ActionCatalog.Console.Listing
import ActionCatalog.Console.Progress

/-! Commands carried out on the files of a directory. -/
namespace ActionCatalog.Console

/-- What surrounds a command: the time of day, what the terminal tells of its colours, and where relative
paths start. -/
structure Surroundings where
  clock : String
  colors : Option String
  directory : String

/-- A text to be written to a file in a directory. -/
structure Draft where
  directory : String
  path : String
  text : String
  deriving DecidableEq, Repr

/-- What a command comes to: lines, then a problem, or perhaps a draft with what is told once it is
written. -/
structure Plan where
  lines : Lines
  outcome : Except Problem (Option (Draft × Lines))

namespace Plan

def theme (s : Surroundings) (r : Request) : Theme :=
  match r.get? .theme with
  | some "dark" => .dark
  | some "light" => .light
  | _ => (s.colors.bind Theme.ofColors?).getD .dark

/-- Colours are used only when they are asked for. -/
def palette (s : Surroundings) (r : Request) : Palette :=
  .ofTheme (r.get? .color = some "always") (theme s r)

def voice (s : Surroundings) (r : Request) : Voice where
  palette := palette s r
  clock := s.clock
  verbose := r.has .verbose
  quiet := r.has .quiet

def generate (v : Voice) (j : Job) (look : String → Entry) : Plan :=
  match j.load look with
  | .error p => ⟨v.loading j,.error p⟩
  | .ok i =>
    match ActionCatalog.generate i.document i.declared i.mask with
    | .error f => ⟨v.loading j ++ v.generating,.error (.failed f)⟩
    | .ok g =>
      ⟨v.loading j ++ v.generating ++ v.statistics g.report ++ v.writing j,
        .ok (some (⟨j.directory,j.output,g.text⟩,v.done))⟩

def tableOf (r : Request) (j : Job) (look : String → Entry) : Except Problem Table := do
  let i ← j.load look
  let d ← Problem.ofFailure (Discovery.ofDocument i.document i.declared)
  match r.command with
  | .listParameters =>
    let name := (r.get? .action).getD ""
    match Listing.chosen? i.mask d name with
    | none => .error (.unknownAction name j.source)
    | some a => return Listing.parameters i.mask name a
  | _ => return Listing.actions i.mask d

def list (r : Request) (j : Job) (look : String → Entry) : Plan :=
  match tableOf r j look with
  | .error p => ⟨{},.error p⟩
  | .ok t => ⟨.ofOut t.lines,.ok none⟩

/-- The plan of a request, for whatever lies at the paths it looks at. -/
def ofRequest (s : Surroundings) (r : Request) (look : String → Entry) : Plan :=
  let j := Job.ofRequest s.directory r
  match r.command with
  | .generateActions => generate (voice s r) j look
  | _ => list r j look

end Plan

/-- What a finished command leaves to see. -/
structure Answer where
  lines : Lines
  problem : Option Problem

def Answer.exitCode (a : Answer) : Nat := if a.problem.isSome then 1 else 0

namespace Draft

/-- Writes a draft, making its directory first if it is missing. -/
def store (d : Draft) (s : Storage) : Storage × Option Problem :=
  match s.makeDirectory d.directory with
  | (s,some reason) => (s,some (.makeDirectory reason))
  | (s,none) =>
    match s.write? d.path d.text.toUTF8 with
    | none => (s,some (.write d.path))
    | some s => (s,none)

end Draft

/-- Carries out a plan. -/
def Plan.run (p : Plan) (s : Storage) : Answer × Storage :=
  match p.outcome with
  | .error problem => (⟨p.lines,some problem⟩,s)
  | .ok none => (⟨p.lines,none⟩,s)
  | .ok (some (draft,closing)) =>
    match draft.store s with
    | (s,some problem) => (⟨p.lines,some problem⟩,s)
    | (s,none) => (⟨p.lines ++ closing,none⟩,s)

/-- Carries out a command line on the files of a directory. -/
def run (around : Surroundings) (s : Storage) (arguments : List String) : Except Usage (Answer × Storage) := do
  let r ← Request.read arguments
  return (Plan.ofRequest around r s.look).run s

end ActionCatalog.Console
