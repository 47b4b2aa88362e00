import EnsembleTransport.Toml.Scalar

/-!
# TOML documents

A document is a list of lines, each of which assigns a value to a key or opens a table. Reading
the lines and putting their tables together are two steps. A key gets one value only, and a table
is opened by one header only.
-/

namespace EnsembleTransport.Toml

structure Table where
  origin : TableOrigin
  entries : List (String × Value) := []

namespace Table

def toValue (table : Table) : Value := .table table.origin table.entries

/-- A value of a table that a key may go through: the table, or the last of repeated ones. A dotted
key goes through no table with a header of its own. -/
def inside? (isDotted : Bool) : Value → Option (Table × (Table → Value))
  | .table origin entries =>
    if origin = .inline ∨ (isDotted ∧ !origin.takesDottedKeys) then none
    else some (⟨origin, entries⟩, toValue)
  | .tables items =>
    match items.getLast? with
    | some (.table origin entries) =>
      some (⟨origin, entries⟩, fun table => .tables (items.dropLast ++ [table.toValue]))
    | _ => none
  | _ => none

/-- Changes the table that a path of keys leads to, and gives back what the change brings to light;
tables that are missing on the way are made with the given origin. -/
def alter {α : Type} (made : TableOrigin) (change : Table → Option (α × Table)) :
    List String → Table → Option (α × Table)
  | [], table => change table
  | key :: path, table =>
    match find? table.entries key with
    | none => do
      let (found, child) ← alter made change path { origin := made }
      return (found, { table with entries := put table.entries key child.toValue })
    | some value => do
      let (child, wrap) ← inside? made.isDotted value
      let (found, child) ← alter made change path child
      return (found, { table with entries := put table.entries key (wrap child) })

def addNew (key : String) (value : Value) (table : Table) : Option (Unit × Table) :=
  if (find? table.entries key).isSome then none
  else some ((), { table with entries := put table.entries key value })

/-- Assigns a value; `made` is the origin of tables that the dotted key names. -/
def assign (made : TableOrigin) (path : List String) (value : Value) (table : Table) :
    Option Table := do
  let key ← path.getLast?
  let way := path.dropLast
  let ((), table) ← alter made (fun target =>
    if target.origin.isDotted == way.isEmpty then none else addNew key value target) way table
  return table

/-- The table between braces that the assignments give. -/
def ofPairs (pairs : List (List String × Value)) : Option Value := do
  let table ← pairs.foldlM (fun table (path, value) => table.assign .inlineDotted path value)
    ({ origin := .inline } : Table)
  return table.toValue

end Table

/-- The values up to the closing bracket; `more` says that one has been read and no comma since. -/
def readItems (readValue : Reader Value) (more : Bool) (text : List Char) :
    Option (List Value × List Char) :=
  match skipGap text with
  | ']' :: rest => some ([], rest)
  | ',' :: rest =>
    if more && rest.length < text.length then readItems readValue false rest else none
  | gapless =>
    if more then none
    else
      match readValue gapless with
      | none => none
      | some (value, rest) =>
        if rest.length < text.length then
          (readItems readValue true rest).map fun (values, rest) => (value :: values, rest)
        else none
termination_by text.length
decreasing_by all_goals simp_all

def readPair (readValue : Reader Value) : Reader (List String × Value) := fun text => do
  let (path, rest) ← readKey text
  let ((), rest) ← readMark '=' rest
  let (value, rest) ← readValue (skipBlanks rest)
  return ((path, value), rest)

/-- The assignments up to the closing brace, with at least one to come. -/
def readPairs (readValue : Reader Value) (text : List Char) :
    Option (List (List String × Value) × List Char) :=
  match readPair readValue text with
  | none => none
  | some (pair, rest) =>
    match skipBlanks rest with
    | '}' :: rest => some ([pair], rest)
    | ',' :: rest =>
      if rest.length < text.length then
        (readPairs readValue rest).map fun (pairs, rest) => (pair :: pairs, rest)
      else none
    | _ => none
termination_by text.length

def readInlineTable (readValue : Reader Value) (text : List Char) : Option (Value × List Char) :=
  match skipBlanks text with
  | '}' :: rest => some (.table .inline [], rest)
  | text => do
    let (pairs, rest) ← readPairs readValue text
    return (← Table.ofPairs pairs, rest)

/-- A value with at most so many brackets around each other. -/
def readValue : (depth : Nat) → Reader Value
  | 0, text => readScalar text
  | depth + 1, text =>
    match text with
    | '[' :: rest =>
      (readItems (readValue depth) false rest).map fun (values, rest) => (.array values, rest)
    | '{' :: rest => readInlineTable (readValue depth) rest
    | _ => readScalar text

inductive Line where
  | assignment (path : List String) (value : Value)
  | header (path : List String)
  /-- A header in double brackets. -/
  | element (path : List String)

def readStatement (text : List Char) : Option (Line × List Char) :=
  match text with
  | '[' :: '[' :: rest => do
    let (path, rest) ← readKey rest
    let ((), rest) ← readMark ']' rest
    let ((), rest) ← readMark ']' rest
    return (.element path, rest)
  | '[' :: rest => do
    let (path, rest) ← readKey rest
    let ((), rest) ← readMark ']' rest
    return (.header path, rest)
  | text => do
    let ((path, value), rest) ← readPair (readValue (depthLimit - 1)) text
    return (.assignment path value, rest)

def readLines (text : List Char) : Option (List Line) :=
  match skipGap text with
  | [] => some []
  | statement =>
    match readStatement statement with
    | none => none
    | some (line, rest) =>
      match endLine? rest with
      | none => none
      | some rest => if rest.length < text.length then (readLines rest).map (line :: ·) else none
termination_by text.length

/-- The tables put together so far, without the one that lines still go to. -/
structure Assembly where
  document : Table := { origin := .header }
  /-- Where the open table will stand; nowhere for the document itself. -/
  path : List String := []
  isElement : Bool := false
  body : Table := { origin := .header }

namespace Assembly

def splitLast? (path : List String) : Option (List String × String) :=
  path.getLast?.map (path.dropLast, ·)

/-- Adds a table to the repeated ones under a key. -/
def appendElement (key : String) (body parent : Table) : Option (Unit × Table) :=
  match find? parent.entries key with
  | none => some ((), { parent with entries := put parent.entries key (.tables [body.toValue]) })
  | some (.tables items) =>
    some ((), { parent with
      entries := put parent.entries key (.tables (items ++ [body.toValue])) })
  | some _ => none

def close (a : Assembly) : Option Table :=
  match splitLast? a.path with
  | none => some a.body
  | some (way, key) =>
    let place := if a.isElement then appendElement key a.body else Table.addNew key a.body.toValue
    (Table.alter .implicit place way a.document).map Prod.snd

/-- Takes out a table that so far was only named on the way to others. -/
def takeOut (key : String) (parent : Table) : Option (List (String × Value) × Table) :=
  match find? parent.entries key with
  | none => some ([], parent)
  | some (.table .implicit entries) =>
    some (entries, { parent with entries := remove parent.entries key })
  | some _ => none

def openHeader (document : Table) (path : List String) : Option Assembly := do
  let (way, key) ← splitLast? path
  let (entries, document) ← Table.alter .implicit (takeOut key) way document
  return { document, path, body := ⟨.header, entries⟩ }

/-- Lets a parent pass that may get one more of the repeated tables under a key. -/
def checkElement (key : String) (parent : Table) : Option (Unit × Table) :=
  match find? parent.entries key with
  | none | some (.tables _) => some ((), parent)
  | some _ => none

/-- Opens one more of the repeated tables under a path. -/
def openElement (document : Table) (path : List String) : Option Assembly := do
  let (way, key) ← splitLast? path
  let ((), document) ← Table.alter .implicit (checkElement key) way document
  return { document, path, isElement := true }

def step (a : Assembly) : Line → Option Assembly
  | .assignment path value => do return { a with body := ← a.body.assign .dotted path value }
  | .header path => do openHeader (← a.close) path
  | .element path => do openElement (← a.close) path

end Assembly

def assemble (lines : List Line) : Option Table := do
  (← lines.foldlM Assembly.step {}).close

/-- Reads a document; a byte order mark at its start counts for nothing. -/
def parse? (text : String) : Option Table :=
  match text.toList with
  | '\uFEFF' :: rest => readLines rest >>= assemble
  | text => readLines text >>= assemble

end EnsembleTransport.Toml
