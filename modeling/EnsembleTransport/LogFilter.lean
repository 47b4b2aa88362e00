import EnsembleTransport.Digits
import EnsembleTransport.Event
import EnsembleTransport.Settings.Blank

/-!
# Log filters

A filter is a list of directives, parted by commas. A directive is a verbosity for everything, or
a verbosity for the parts whose names start with a target. Of the directives that apply to an event
the one with the longest target decides, and of two with equal targets the later one. A directive
for a span never applies, because the receiver reports no spans.
-/

namespace EnsembleTransport

inductive Verbosity where
  | off
  | error
  | warn
  | info
  | debug
  | trace
deriving DecidableEq, Repr

namespace Verbosity

def rank : Verbosity → Nat
  | off => 0
  | error => 1
  | warn => 2
  | info => 3
  | debug => 4
  | trace => 5

def names : List (String × Verbosity) :=
  [("off", off), ("error", error), ("warn", warn), ("info", info), ("debug", debug),
    ("trace", trace)]

/-- Reads a name in any case, or a number from zero to five. -/
def parse? (text : List Char) : Option Verbosity :=
  match Digits.unsigned? text with
  | some n => (names.map Prod.snd).find? (·.rank == n)
  | none => (names.find? (·.1.toList == text.map Char.toLower)).map Prod.snd

def ofLevel : Level → Verbosity
  | .error => error
  | .warn => warn
  | .info => info

end Verbosity

namespace LogFilter

structure Directive where
  /-- What the names of parts start with; nothing for all parts. -/
  target : Option (List Char)
  verbosity : Verbosity
  /-- The directive is for spans or for events with certain fields. -/
  isSpecial : Bool := false
deriving DecidableEq, Repr

namespace Directive

/-- Characters above the Latin letters that are no letters: punctuation, symbols and pictures. -/
def isSymbol (c : Char) : Bool :=
  let code := c.toNat
  (0x80 ≤ code && code ≤ 0xA9) || (0xAB ≤ code && code ≤ 0xB1) || code == 0xB4 ||
    (0xB6 ≤ code && code ≤ 0xB8) || code == 0xBB || code == 0xBF || code == 0xD7 || code == 0xF7 ||
    (0x2000 ≤ code && code ≤ 0x206F) || (0x20A0 ≤ code && code ≤ 0x20FF) ||
    (0x2190 ≤ code && code ≤ 0x245F) || (0x2500 ≤ code && code ≤ 0x2775) ||
    (0x2794 ≤ code && code ≤ 0x2BFF) || (0x3000 ≤ code && code ≤ 0x3004) ||
    (0x3008 ≤ code && code ≤ 0x3020) || (0x1F300 ≤ code && code ≤ 0x1FAFF)

/-- A character that a directive may start with, brackets apart. -/
def isStart (c : Char) : Bool :=
  c.isAlphanum || c == '-' || c == ':' || c == '_' || (0x80 ≤ c.toNat && !isSymbol c)

def trim (text : List Char) : List Char :=
  ((text.dropWhile isWhiteSpace).reverse.dropWhile isWhiteSpace).reverse

/-- The verbosity behind an equals sign; nothing there means everything. -/
def assigned? (text : List Char) : Option Verbosity :=
  if text.isEmpty then some .trace else Verbosity.parse? text

def skipFields? (text : List Char) : Option (List Char) :=
  match text.dropWhile (· != '}') with
  | _ :: ']' :: rest => some rest
  | _ => none

def bracket? (text : List Char) : Option (Bool × List Char) :=
  let name := text.takeWhile fun c => c != ']' && c != '\x7b'
  match text.drop name.length with
  | ']' :: rest => some (!name.isEmpty, rest)
  | _ :: fields => (skipFields? fields).map (true, ·)
  | [] => none

/-- Reads a directive. Places are found in the trimmed text and parts are taken from the text as it
stands, so that blanks in front belong to the first part. -/
def parse? (text : List Char) : Option Directive :=
  let trimmed := trim text
  let head := trimmed.takeWhile fun c => c != '=' && c != '['
  let startsWell := match trimmed with
    | [] => false
    | c :: _ => c == '[' || isStart c
  if !startsWell then none
  else
    let target := if head.isEmpty then none else some (text.take head.length)
    match trimmed.drop head.length with
    | [] =>
      match Verbosity.parse? text with
      | some verbosity => some { target := none, verbosity }
      | none => some { target := some text, verbosity := .trace }
    | '=' :: _ =>
      (assigned? (text.drop (head.length + 1))).map fun verbosity => { target, verbosity }
    | _ :: inside => do
      let (isSpecial, rest) ← bracket? inside
      match rest with
      | [] => return { target, verbosity := .trace, isSpecial }
      | '=' :: level =>
        let verbosity ← assigned? (text.drop (trimmed.length - level.length))
        return { target, verbosity, isSpecial }
      | _ => none

def applies (directive : Directive) (name : List Char) : Bool :=
  !directive.isSpecial && directive.target.all (·.isPrefixOf name)

/-- How long the target is; no target is shorter than any. -/
def weight (directive : Directive) : Nat :=
  match directive.target with
  | none => 0
  | some target => target.length + 1

end Directive

def parse? (text : String) : Option (List Directive) :=
  ((text.splitOn ",").filter (· != "")).mapM fun part => Directive.parse? part.toList

/-- The directive that decides about a part. -/
def deciding? (directives : List Directive) (name : List Char) : Option Directive :=
  (directives.filter (·.applies name)).foldl (fun best directive =>
    match best with
    | some best => if directive.weight < best.weight then some best else some directive
    | none => some directive) none

def passes (directives : List Directive) (event : Event) : Bool :=
  match deciding? directives event.component.target.toList with
  | some directive => (Verbosity.ofLevel event.level).rank ≤ directive.verbosity.rank
  | none => false

end LogFilter

end EnsembleTransport
