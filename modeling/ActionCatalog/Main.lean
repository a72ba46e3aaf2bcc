import ActionCatalog.Console.Session
import Std.Time.Zoned

/-! The command line. Everything that is decided is decided by a plan; here files are read and written. -/
namespace ActionCatalog.Console

/-- What lies at a path of the disk. -/
def lookUp (path : String) : IO Entry := do
  try
    return .file (← IO.FS.readBinFile path)
  catch
    | .noFileOrDirectory .. => return .absent
    | _ => return .obstructed

/-- Reads all that a job looks at. -/
def gather (j : Job) : IO (String → Entry) := do
  let document ← match j.source with
    | .file path => lookUp path
    | .remote _ => pure .absent
  let mask ← lookUp j.mask
  return fun path => if path = j.source.text then document else if path = j.mask then mask else .absent

def twoDigits (n : Nat) : String := if n < 10 then s!"0{n}" else toString n

/-- The time of day. -/
def clock : IO String := do
  let now ← Std.Time.PlainDateTime.now
  return s!"[{twoDigits now.time.hour.val.toNat}:{twoDigits now.time.minute.val.toNat}:"
    ++ s!"{twoDigits now.time.second.val.toNat}]"

def tell (lines : Lines) : IO Unit := do
  for line in lines.out do IO.println line
  for line in lines.err do IO.eprintln line

def fail (p : Problem) : IO UInt32 := do
  IO.eprintln ("Error: " ++ p.message)
  return 1

def write (d : Draft) : IO (Option Problem) := do
  try
    IO.FS.createDirAll d.directory
  catch e => return some (.makeDirectory (toString e))
  try
    IO.FS.writeFile d.path d.text
    return none
  catch _ => return some (.write d.path)

def carryOut (p : Plan) : IO UInt32 := do
  tell p.lines
  match p.outcome with
  | .error problem => fail problem
  | .ok none => return 0
  | .ok (some (draft,closing)) =>
    match ← write draft with
    | some problem => fail problem
    | none =>
      tell closing
      return 0

def usage : String := "\n".intercalate
  ["action-catalog generate named-actions --path DIR [--mask FILE] [--openapi FILE|URL]",
    "action-catalog list actions --path DIR",
    "action-catalog list parameters --path DIR --action NAME",
    "Options: --verbose, --quiet, --color always|auto|never, --theme dark|light|auto"]

def explain : Usage → IO UInt32
  | .version => do
    IO.println "action-catalog 0.1.0"
    return 0
  | .help => do
    IO.println usage
    return 0
  | u => do
    IO.eprintln usage
    return u.exitCode.toUInt32

end ActionCatalog.Console

open ActionCatalog.Console

def main (arguments : List String) : IO UInt32 := do
  match Request.read arguments with
  | .error u => explain u
  | .ok r =>
    let around : Surroundings :=
      { clock := ← clock, colors := ← IO.getEnv "COLORFGBG", directory := toString (← IO.currentDir) }
    carryOut (.ofRequest around r (← gather (Job.ofRequest around.directory r)))
