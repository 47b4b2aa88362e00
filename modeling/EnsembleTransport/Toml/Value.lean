import EnsembleTransport.Binary64

/-!
# TOML values

A document is a table of values. Tables remember how they came about, because that decides which
later lines may still add to them.
-/

namespace EnsembleTransport.Toml

inductive TableOrigin where
  /-- Written between braces; nothing is added to it later. -/
  | inline
  /-- Named by a dotted key between braces, while the braces are open. -/
  | inlineDotted
  /-- Named by a header of its own, or the document itself. -/
  | header
  /-- Named on the way to the table of a header. -/
  | implicit
  /-- Named by a dotted key. -/
  | dotted
deriving DecidableEq, Repr

namespace TableOrigin

def isInline (origin : TableOrigin) : Bool := origin == inline || origin == inlineDotted

/-- Whether a dotted key may still go through the table. -/
def takesDottedKeys : TableOrigin → Bool
  | inlineDotted | implicit | dotted => true
  | inline | header => false

def isDotted (origin : TableOrigin) : Bool := origin == inlineDotted || origin == dotted

end TableOrigin

inductive Value where
  | string (text : String)
  | integer (n : Int)
  | float (x : Binary64)
  | boolean (b : Bool)
  /-- A date, a time or both, in canonical text. -/
  | moment (text : String)
  | array (items : List Value)
  /-- The tables of repeated headers in double brackets. -/
  | tables (items : List Value)
  | table (origin : TableOrigin) (entries : List (String × Value))

def find? {α : Type} (entries : List (String × α)) (key : String) : Option α :=
  (entries.find? (·.1 == key)).map Prod.snd

/-- Gives a key a value, in its old place if it has one and at the end otherwise. -/
def put {α : Type} (entries : List (String × α)) (key : String) (value : α) : List (String × α) :=
  if entries.any (·.1 == key) then
    entries.map fun entry => if entry.1 == key then (key, value) else entry
  else entries ++ [(key, value)]

def remove {α : Type} (entries : List (String × α)) (key : String) : List (String × α) :=
  entries.filter (·.1 != key)

end EnsembleTransport.Toml
