import ActionCatalog.Yaml.Lexer
import ActionCatalog.Yaml.Scalar

/-! Nodes from tokens. An alias stands for the node that was given its name last; a text that takes
too many aliases to spell out, or nests too deeply, is refused. -/
namespace ActionCatalog.Yaml

/-- Tokens to read, and what was named so far: the node that a name stands for, and each finished node
with the number of aliases in it. -/
structure Reading where
  tokens : List Token
  handles : List (String × String) := []
  names : List (String × Nat) := []
  nodes : List (Nat × Tree × Nat) := []
  fresh : Nat := 0
  aliases : Nat := 0
  events : Nat := 0

namespace Reading

def next? (r : Reading) : Option Token := r.tokens.head?
def skip (r : Reading) : Reading := { r with tokens := r.tokens.tail }
def count (r : Reading) (n : Nat) : Reading := { r with events := r.events + n }

/-- The meaning of a tag under the shorthands in force; a lone exclamation mark means none. -/
def tagOf? (r : Reading) (handle suffix : String) : Option String :=
  if handle = "" then some suffix
  else match r.handles.lookup handle with
    | some expansion => some (expansion ++ suffix)
    | none =>
      if handle = "!" then some ("!" ++ suffix)
      else if handle = "!!" then some (ownTag suffix)
      else none

/-- The properties before a node, an anchor and a tag in either order. -/
def properties? (r : Reading) : Option (Option String × Option String × Reading) :=
  match r.tokens with
  | .anchor a :: .tag h s :: rest => do return (some a, some (← r.tagOf? h s), { r with tokens := rest })
  | .anchor a :: rest => some (some a, none, { r with tokens := rest })
  | .tag h s :: .anchor a :: rest => do return (some a, some (← r.tagOf? h s), { r with tokens := rest })
  | .tag h s :: rest => do return (none, some (← r.tagOf? h s), { r with tokens := rest })
  | _ => some (none, none, r)

def named? (r : Reading) (name : String) : Option (Tree × Reading) := do
  let id ← r.names.lookup name
  match r.nodes.lookup id with
  | some (tree, inside) => return (tree, { r with aliases := r.aliases + inside + 1 })
  | none => return (.cycle, { r with aliases := r.aliases + 1 })

def announce (r : Reading) : Option String → Reading
  | some name => { r with names := (name, r.fresh) :: r.names, fresh := r.fresh + 1 }
  | none => r

end Reading

/-- Whether nothing stands between the indicator before and the token at hand. -/
def lacksNode (closers : List Token) (r : Reading) : Bool := r.next?.all (· ∈ closers)

mutual
/-- A node. Block collections are admitted in block context, and a sequence that is indented no
further than the mapping around it only as the content of that mapping. -/
def node : Nat → (block indentless : Bool) → Reading → Option (Tree × Reading)
  | 0, _, _, _ => none
  | n+1, block, indentless, r =>
    match r.next? with
    | some (.mention name) => r.skip.named? name |>.map fun (t, r) => (t, r.count 1)
    | _ => do
      let (anchor, tag, r) ← r.properties?
      let id := r.fresh
      let before := r.aliases
      let (tree, r) ← content n block indentless (anchor.isSome || tag.isSome) tag (r.announce anchor)
      let nodes := if anchor.isSome then (id, tree, r.aliases - before) :: r.nodes else r.nodes
      return (tree, { r with nodes := nodes }.count 2)

def content : Nat → (block indentless optional : Bool) → Option String → Reading →
    Option (Tree × Reading)
  | 0, _, _, _, _, _ => none
  | n+1, block, indentless, optional, tag, r =>
    match r.next? with
    | some (.scalar text style) =>
      some (.written ⟨text,style,if tag = some "!" then none else tag⟩, r.skip)
    | some .flowSequenceStart => do
      let (items, r) ← flowItems n true r.skip
      return (.list tag items, r)
    | some .flowMappingStart => do
      let (entries, r) ← flowEntries n true r.skip
      return (.record tag entries, r)
    | some .blockSequenceStart => do
      if !block then none
      let (items, r) ← blockItems n r.skip
      return (.list tag items, r)
    | some .blockMappingStart => do
      if !block then none
      let (entries, r) ← blockEntries n r.skip
      return (.record tag entries, r)
    | some .blockEntry =>
      if indentless then do
        let (items, r) ← indentlessItems n r
        return (.list tag items, r)
      else if optional then some (.written { text := "", tag := tag }, r) else none
    | _ => if optional then some (.written { text := "", tag := tag }, r) else none

def blockItems : Nat → Reading → Option (List Tree × Reading)
  | 0, _ => none
  | n+1, r =>
    match r.next? with
    | some .blockEntry => do
      let (item, r) ← if lacksNode [.blockEntry,.blockEnd] r.skip then some (.empty, r.skip)
        else node n true false r.skip
      let (items, r) ← blockItems n r
      return (item :: items, r)
    | some .blockEnd => some ([], r.skip)
    | _ => none

def indentlessItems : Nat → Reading → Option (List Tree × Reading)
  | 0, _ => none
  | n+1, r =>
    match r.next? with
    | some .blockEntry => do
      let (item, r) ← if lacksNode [.blockEntry,.key,.value,.blockEnd] r.skip then some (.empty, r.skip)
        else node n true false r.skip
      let (items, r) ← indentlessItems n r
      return (item :: items, r)
    | _ => some ([], r)

def blockEntries : Nat → Reading → Option (List (Tree × Tree) × Reading)
  | 0, _ => none
  | n+1, r =>
    match r.next? with
    | some .key => do
      let (key, r) ← blockPart n r.skip
      let (value, r) ← if r.next? = some .value then blockPart n r.skip else some (.empty, r)
      let (entries, r) ← blockEntries n r
      return ((key, value) :: entries, r)
    | some .blockEnd => some ([], r.skip)
    | _ => none

/-- The key or the value behind its indicator in a block mapping. -/
def blockPart : Nat → Reading → Option (Tree × Reading)
  | 0, _ => none
  | n+1, r =>
    if lacksNode [.key,.value,.blockEnd] r then some (.empty, r) else node n true true r

def flowItems : Nat → (first : Bool) → Reading → Option (List Tree × Reading)
  | 0, _, _ => none
  | n+1, first, r => do
    if r.next? = some .flowSequenceEnd then return ([], r.skip)
    let r ← if first then some r else if r.next? = some .flowEntry then some r.skip else none
    match r.next? with
    | some .flowSequenceEnd => return ([], r.skip)
    | some .key =>
      let (pair, r) ← flowPair n r.skip
      let (items, r) ← flowItems n false r
      return (.record none [pair] :: items, r)
    | _ =>
      let (item, r) ← node n false false r
      let (items, r) ← flowItems n false r
      return (item :: items, r)

/-- A mapping of one entry, written in a flow sequence without braces. -/
def flowPair : Nat → Reading → Option ((Tree × Tree) × Reading)
  | 0, _ => none
  | n+1, r => do
    let (key, r) ← if lacksNode [.value,.flowEntry,.flowSequenceEnd] r then some (.empty, r.skip)
      else node n false false r
    if r.next? = some .value then
      if lacksNode [.flowEntry,.flowSequenceEnd] r.skip then return ((key, .empty), r.skip)
      let (value, r) ← node n false false r.skip
      return ((key, value), r)
    else return ((key, .empty), r)

def flowEntries : Nat → (first : Bool) → Reading → Option (List (Tree × Tree) × Reading)
  | 0, _, _ => none
  | n+1, first, r => do
    if r.next? = some .flowMappingEnd then return ([], r.skip)
    let r ← if first then some r else if r.next? = some .flowEntry then some r.skip else none
    match r.next? with
    | some .flowMappingEnd => return ([], r.skip)
    | some .key =>
      let (key, r) ← if lacksNode [.value,.flowEntry,.flowMappingEnd] r.skip then some (.empty, r.skip)
        else node n false false r.skip
      let (value, r) ← if r.next? = some .value then
          if lacksNode [.flowEntry,.flowMappingEnd] r.skip then some (.empty, r.skip)
          else node n false false r.skip
        else some (.empty, r)
      let (entries, r) ← flowEntries n false r
      return ((key, value) :: entries, r)
    | _ =>
      let (key, r) ← node n false false r
      let (entries, r) ← flowEntries n false r
      return ((key, .empty) :: entries, r)
end

def isDirective : Token → Bool
  | .version .. => true
  | .tagShorthand .. => true
  | _ => false

/-- Reads the directives before a document; a version or a handle is declared once. -/
def directives : List Token → Reading → Bool → Option Reading
  | .version major minor :: rest, r, versioned =>
    if versioned || major ≠ 1 || (minor ≠ 1 && minor ≠ 2) then none
    else directives rest { r with tokens := rest } true
  | .tagShorthand handle expansion :: rest, r, versioned =>
    if (r.handles.lookup handle).isSome then none
    else directives rest { r with tokens := rest, handles := (handle, expansion) :: r.handles } versioned
  | _, r, _ => some r

/-- The only document of a token list. -/
def document? (tokens : List Token) : Option (Tree × Reading) := do
  let fuel := 4 * tokens.length + 4
  if tokens.isEmpty then return (.empty, { tokens := [] })
  let r ← directives tokens { tokens := tokens } false
  let explicit := r.next? = some .documentStart
  if tokens.head?.any isDirective && !explicit then none
  let r := if explicit then r.skip else r
  let bare : Bool := explicit && r.next?.all fun t => isDirective t || t = .documentStart || t = .documentEnd
  let (tree, r) ← if bare then some (.empty, r) else node fuel true false r
  if (r.tokens.dropWhile (· = .documentEnd)).isEmpty then return (tree, r) else none

def maxDepth : Nat := 128

/-- The document of a text. -/
def read? (text : String) : Option Tree := do
  let (tree, r) ← document? (← tokens? text.toList)
  if 100 * (r.events + 2) < r.aliases then none
  if tree.depth ≤ maxDepth then return tree else none

end ActionCatalog.Yaml
