import EnsembleTransport.Digits
import EnsembleTransport.Settings.Decode

/-!
# Trees of loosely typed settings

Settings from a file and from the environment are laid over each other in one tree. Names in the
tree have no capitals. A table laid over a table is merged into it member by member; anything else
replaces what was there. `lenient` converts a value to the type a setting has.
-/

namespace EnsembleTransport

inductive Setting where
  | nothing
  | boolean (b : Bool)
  | integer (n : Int)
  | float (x : Binary64)
  | string (text : String)
  | list (items : List Setting)
  | table (entries : List (String × Setting))

/-- Text without capitals; the Kelvin sign is one of the letter k. -/
def lowered (text : String) : String :=
  text.map fun c => if c = '\u212A' then 'k' else c.toLower

namespace Setting

mutual

def ofToml : Toml.Value → Setting
  | .string text | .moment text => string text
  | .integer n => integer n
  | .float x => float x
  | .boolean b => boolean b
  | .array items | .tables items => list (ofTomlItems items)
  | .table _ entries => table (ofTomlEntries entries)

def ofTomlItems : List Toml.Value → List Setting
  | [] => []
  | item :: items => ofToml item :: ofTomlItems items

def ofTomlEntries : List (String × Toml.Value) → List (String × Setting)
  | [] => []
  | (key, value) :: entries => (key, ofToml value) :: ofTomlEntries entries

end

def entries : Setting → List (String × Setting)
  | table entries => entries
  | nothing | boolean _ | integer _ | float _ | string _ | list _ => []

def items : Setting → List Setting
  | list items => items
  | nothing | boolean _ | integer _ | float _ | string _ | table _ => []

mutual

def lay (name : String) (value : Setting) (target : Setting) : Setting :=
  let key := lowered name
  let old := Toml.find? target.entries key
  match value with
  | table entries => table (Toml.put target.entries key (layAll entries (old.getD (table []))))
  | value => table (Toml.put target.entries key value)

def layAll (entries : List (String × Setting)) (target : Setting) : Setting :=
  match entries with
  | [] => target
  | (name, value) :: entries => layAll entries (lay name value target)

end

inductive Step where
  | member (name : String)
  | item (index : Nat)
deriving DecidableEq, Repr

/-- Gives a list an item, with nothing in the places before it. -/
def putItem (items : List Setting) (index : Nat) (value : Setting) : List Setting :=
  (items ++ List.replicate (index + 1 - items.length) nothing).set index value

def layAt : List Step → (value target : Setting) → Setting
  | [], value, _ => value
  | [.member name], value, target => lay name value target
  | .member name :: path, value, target =>
    let key := lowered name
    let old := (Toml.find? target.entries key).getD nothing
    table (Toml.put target.entries key (layAt path value old))
  | .item index :: path, value, target =>
    let old := target.items.getD index nothing
    list (putItem target.items index (layAt path value old))

def isNameChar (c : Char) : Bool := c.isAlphanum || c == ' ' || c == '_' || c == '-'

def readIndex? (text : List Char) : Option (Nat × List Char) :=
  let digits := text.takeWhile Char.isDigit
  match text.dropWhile Char.isDigit with
  | ']' :: rest => (Digits.natural? digits).map (·, rest)
  | _ => none

def readSteps? : List Char → Option (List Step)
  | [] => some []
  | '.' :: text =>
    let name := text.takeWhile isNameChar
    if name.isEmpty then none
    else (readSteps? (text.dropWhile isNameChar)).map (.member (String.ofList name) :: ·)
  | '[' :: text =>
    match readIndex? text with
    | some (index, rest) =>
      if rest.length ≤ text.length then (readSteps? rest).map (.item index :: ·) else none
    | none => none
  | _ => none
termination_by text => text.length
decreasing_by
  · have := (List.dropWhile_suffix isNameChar (l := text)).length_le
    simp only [List.length_cons]
    omega
  · simp only [List.length_cons]
    omega

/-- The path that a name spells; a name that spells none stands for itself. -/
def pathOf (name : String) : List Step :=
  let first := name.toList.takeWhile isNameChar
  match readSteps? (name.toList.dropWhile isNameChar) with
  | some steps => if first.isEmpty then [.member name] else .member (String.ofList first) :: steps
  | none => [.member name]

def overlay (tree : Setting) (named : List (String × Setting)) : Setting :=
  named.foldl (fun tree (name, value) => layAt (pathOf name) value tree) tree

/-- Digits with an optional sign, within 64 bits. -/
def parseInteger? (text : String) : Option Int :=
  (Digits.integer? text.toList).filter fun n =>
    Int64.minValue.toInt ≤ n ∧ n ≤ Int64.maxValue.toInt

def toText? : Setting → Option String
  | string text => some text
  | boolean b => some (toString b)
  | integer n => some (toString n)
  | float x => some x.shortest
  | nothing | list _ | table _ => none

def isZero : Binary64 → Bool
  | .finite _ mantissa _ => mantissa == 0
  | .notANumber | .infinite _ => false

def toFlag? : Setting → Option Bool
  | boolean b => some b
  | integer n => some (n != 0)
  | float x => some (!isZero x)
  | string text =>
    if lowered text ∈ ["1", "true", "on", "yes"] then some true
    else if lowered text ∈ ["0", "false", "off", "no"] then some false
    else none
  | nothing | list _ | table _ => none

def toCount? : Setting → Option Nat
  | boolean b => some b.toNat
  | integer n => if 0 ≤ n then some n.toNat else none
  | float x => some (x.roundWithin 0 (UInt64.size - 1)).toNat
  | string text =>
    if lowered text ∈ ["true", "on", "yes"] then some 1
    else if lowered text ∈ ["false", "off", "no"] then some 0
    else (Digits.unsigned? text.toList).filter (· < UInt64.size)
  | nothing | list _ | table _ => none

def toPolicy? : Setting → Option ErrorPolicy
  | string name | table [(name, _)] => ErrorPolicy.ofName? (lowered name)
  | nothing | boolean _ | integer _ | float _ | list _ | table _ => none

/-- Converts a value to the type a setting has, where there is a way to. -/
def lenient : Conversion Setting where
  members names
    | table entries => some (Conversion.named names entries)
    | list items => some (names.zip items)
    | nothing | boolean _ | integer _ | float _ | string _ => none
  isNothing
    | nothing => true
    | boolean _ | integer _ | float _ | string _ | list _ | table _ => false
  text := toText?
  flag := toFlag?
  count := toCount?
  policy := toPolicy?

end Setting

end EnsembleTransport
