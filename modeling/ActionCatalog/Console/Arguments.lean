/-! Command lines: groups of commands, options with a value and flags. -/
namespace ActionCatalog.Console

/-- Why a command line is not carried out: help is asked for, or something is wrong with it. -/
inductive Usage where
  | help | version | helpForGroup | missingCommand | missingOption | unknownCommand | unknownArgument
  | invalidValue | unexpectedValue | repeated
  deriving DecidableEq, Repr

def Usage.exitCode : Usage → Nat
  | help => 0
  | version => 0
  | _ => 2

inductive Command where
  | listActions | listParameters | generateActions
  deriving DecidableEq, Repr

/-- Options that take a value. -/
inductive Setting where
  | color | theme | path | mask | openapi | action
  deriving DecidableEq, Repr

inductive Flag where
  | verbose | quiet
  deriving DecidableEq, Repr

/-- Where in the tree of commands the arguments stand. -/
inductive Level where
  | root | list | generate
  | command (c : Command)
  deriving DecidableEq, Repr

namespace Level

/-- The commands and groups below a level, aliases included. -/
def below : Level → List (String × Level)
  | root => [("list", list), ("generate", generate), ("gen", generate)]
  | list => [("actions", command .listActions), ("parameters", command .listParameters),
      ("params", command .listParameters)]
  | generate => [("named-actions", command .generateActions), ("na", command .generateActions)]
  | command _ => []

def isGroup (l : Level) : Bool := !l.below.isEmpty

/-- The options of a level by name and letter. Colours can be set everywhere. -/
def settings : Level → List (String × Option Char × Setting)
  | command c =>
    [("color", none, .color), ("theme", none, .theme), ("path", some 'p', .path), ("mask", some 'm', .mask),
      ("openapi", some 'o', .openapi)]
    ++ if c = .listParameters then [("action", some 'a', .action)] else []
  | _ => [("color", none, .color), ("theme", none, .theme)]

def flags : Level → List (String × Char × Flag)
  | command _ => [("verbose", 'v', .verbose), ("quiet", 'q', .quiet)]
  | _ => []

def required : Level → List Setting
  | command .listParameters => [.action,.path]
  | command _ => [.path]
  | _ => []

end Level

namespace Setting

/-- Whether an option takes a value. -/
def accepts (s : Setting) (value : String) : Bool :=
  match s with
  | color => value ∈ ["always", "auto", "never"]
  | theme => value ∈ ["dark", "light", "auto"]
  | path => value ≠ ""
  | _ => true

end Setting

/-- What has been read at one level. The last option is open as long as its value may follow. -/
structure Given where
  settings : List (Setting × String) := []
  flags : List Flag := []
  opened : Option (Setting × Option String) := none
  deriving DecidableEq, Repr

namespace Given

def has (g : Given) (s : Setting) : Bool := g.settings.any (·.1 = s)

/-- Takes an option with its value. -/
def take (g : Given) (s : Setting) (value : String) : Except Usage Given :=
  if g.has s then .error .repeated
  else if s.accepts value then .ok { g with settings := g.settings ++ [(s,value)] }
  else .error .invalidValue

/-- Closes the open option. -/
def close (g : Given) : Except Usage Given :=
  match g.opened with
  | none => .ok g
  | some (_,none) => .error .invalidValue
  | some (s,some value) => { g with opened := none }.take s value

/-- Opens an option, or takes it with a value that is attached to it. -/
def setting (g : Given) (s : Setting) (attached : Option String) : Except Usage Given := do
  let g ← g.close
  match attached with
  | some value => g.take s value
  | none => return { g with opened := some (s,none) }

def flag (g : Given) (f : Flag) : Except Usage Given := do
  let g ← g.close
  if f ∈ g.flags then .error .repeated else return { g with flags := g.flags ++ [f] }

/-- Ends the reading with an answer of its own. -/
def stop (g : Given) (u : Usage) : Except Usage Given := do
  let _ ← g.close
  .error u

/-- Reads an argument behind two dashes. -/
def takeLong (l : Level) (g : Given) (body : List Char) : Except Usage Given :=
  let name := String.ofList (body.takeWhile (· ≠ '='))
  let attached := match body.dropWhile (· ≠ '=') with
    | [] => none
    | _ :: value => some (String.ofList value)
  let plain (next : Except Usage Given) : Except Usage Given :=
    if attached.isSome then .error .unexpectedValue else next
  match l.settings.lookup name, l.flags.lookup name with
  | some (_,s), _ => g.setting s attached
  | none, some (_,f) => plain (g.flag f)
  | none, none =>
    if name = "help" then plain (g.stop .help)
    else if name = "version" && l = .root then plain (g.stop .version)
    else .error .unknownArgument

/-- Reads letters behind one dash; what follows the letter of an option is its value. -/
def takeShort (l : Level) (g : Given) : List Char → Except Usage Given
  | [] => .ok g
  | c :: rest =>
    match l.settings.find? (·.2.1 = some c), l.flags.find? (·.2.1 = c) with
    | some (_,_,s), _ =>
      match rest with
      | [] => g.setting s none
      | '=' :: value => g.setting s (some (.ofList value))
      | value => g.setting s (some (.ofList value))
    | none, some (_,_,f) => do takeShort l (← g.flag f) rest
    | none, none =>
      if c = 'h' then g.stop .help
      else if c = 'V' && l = .root then g.stop .version
      else .error .unknownArgument

end Given

/-- A command with what was given for it, from the outer levels to the inner ones. -/
structure Request where
  command : Command
  settings : List (Setting × String)
  flags : List Flag
  deriving DecidableEq, Repr

namespace Request

/-- The value of an option; an inner level counts more than an outer one. -/
def get? (r : Request) (s : Setting) : Option String := r.settings.reverse.lookup s

def has (r : Request) (f : Flag) : Bool := r.flags.contains f

/-- Help is given on a command that exists. -/
def helpOn : Level → List String → Usage
  | _, [] => .help
  | l, name :: rest =>
    match l.below.lookup name with
    | some next => helpOn next rest
    | none => if name = "help" && l.isGroup && rest.isEmpty then .help else .unknownCommand

/-- What is wrong with an argument that is neither an option nor a command. -/
def stray (l : Level) (escaped : Bool) (argument : String) : Usage :=
  if escaped && (argument = "help" && l.isGroup || (l.below.lookup argument).isSome) then .unknownArgument
  else if l.isGroup then .unknownCommand
  else .unknownArgument

/-- Ends a level after the level below it, if there is one. -/
def finish (l : Level) (g : Given) (inner : Option Request) : Except Usage Request := do
  let g ← g.close
  match inner, l with
  | some r, _ => return { r with settings := g.settings ++ r.settings }
  | none, .command c =>
    if l.required.all g.has then return ⟨c,g.settings,g.flags⟩ else .error .missingOption
  | none, _ => .error (if g.settings.isEmpty then .helpForGroup else .missingCommand)

/-- Reads the arguments of a level. Behind two bare dashes nothing is an option or a command. -/
def readAt (l : Level) (g : Given) (escaped : Bool) : List String → Except Usage Request
  | [] => finish l g none
  | a :: rest =>
    if escaped then .error (stray l true a)
    else match a.toList with
      | ['-','-'] => readAt l g true rest
      | '-' :: '-' :: body => do readAt l (← g.takeLong l body) false rest
      | '-' :: c :: cs => do readAt l (← g.takeShort l (c :: cs)) false rest
      | _ =>
        match g.opened with
        | some (s,none) => readAt l { g with opened := some (s,some a) } false rest
        | _ =>
          match l.below.lookup a with
          | some next => do finish l g (some (← readAt next {} false rest))
          | none => .error (if a = "help" && l.isGroup then helpOn l rest else stray l false a)

def read (arguments : List String) : Except Usage Request := readAt .root {} false arguments

end Request
end ActionCatalog.Console
