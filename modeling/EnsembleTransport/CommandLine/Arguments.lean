import EnsembleTransport.Digits
import EnsembleTransport.Settings.Basic

/-!
# Arguments of the command

Two positional arguments name host and port. Options come in a long form and mostly in a short one;
short ones may share a dash, and a value may be attached or be the next argument. Everything behind
a bare double dash is positional. An option may be given once, and its value is looked at before
the next one is read.
-/

namespace EnsembleTransport

structure Arguments where
  host : Option String := none
  port : Option Nat := none
  timestamps : Bool := false
  configPath : Option String := none
  outputPath : Option String := none
  strict : Bool := false
  logLevel : Option String := none
deriving DecidableEq, Repr

namespace Arguments

def overrides (arguments : Arguments) : Overrides :=
  { host := arguments.host, port := arguments.port, timestamps := arguments.timestamps
    outputPath := arguments.outputPath, strict := arguments.strict
    logLevel := arguments.logLevel }

end Arguments

namespace CommandLine

inductive Slot where
  | host
  | port
  | config
  | output
  | logLevel
deriving DecidableEq, Repr

inductive Switch where
  | timestamps
  | strict
  | help
  | version
deriving DecidableEq, Repr

/-- Why reading the arguments ends early. -/
inductive Stop where
  | help
  | version
  | unknownArgument (text : String)
  | missingValue (slot : Slot)
  | invalidValue (slot : Slot) (text : String)
  | unexpectedValue (option text : String)
  | repeated (text : String)
deriving DecidableEq, Repr

inductive Spelling where
  | switch (switch : Switch)
  | slot (slot : Slot)
deriving DecidableEq, Repr

namespace Spelling

def ofLong? (name : String) : Option Spelling :=
  match name with
  | "timestamps" => some (switch .timestamps)
  | "strict" => some (switch .strict)
  | "help" => some (switch .help)
  | "version" => some (switch .version)
  | "config" => some (slot .config)
  | "output" => some (slot .output)
  | "log-level" => some (slot .logLevel)
  | _ => none

def ofShort? (name : Char) : Option Spelling :=
  match name with
  | 't' => some (switch .timestamps)
  | 'h' => some (switch .help)
  | 'V' => some (switch .version)
  | 'c' => some (slot .config)
  | 'o' => some (slot .output)
  | 'l' => some (slot .logLevel)
  | _ => none

end Spelling

structure Reading where
  arguments : Arguments := {}
  /-- The place whose value is still to be looked at, or still to come. -/
  pending : Option (Slot × Option String) := none
  positionals : Nat := 0
  /-- A bare double dash has been read. -/
  onlyPositionals : Bool := false
deriving DecidableEq, Repr

namespace Slot

def name : Slot → String
  | host => "[HOST]"
  | port => "[PORT]"
  | config => "--config <CONFIG>"
  | output => "--output <OUTPUT>"
  | logLevel => "--log-level <LOG_LEVEL>"

/-- A port is a decimal of 16 bits with an optional sign. -/
def port? (text : String) : Option Nat :=
  ((Digits.integer? text.toList).filter fun n => 0 ≤ n ∧ n < 65536).map Int.toNat

def path? (text : String) : Option String := if text = "" then none else some text

/-- Fills the place of a value; none when it does not suit. -/
def fill? (slot : Slot) (text : String) (a : Arguments) : Option Arguments :=
  match slot with
  | host => some { a with host := some text }
  | port => (port? text).map fun n => { a with port := some n }
  | config => (path? text).map fun path => { a with configPath := some path }
  | output => (path? text).map fun path => { a with outputPath := some path }
  | logLevel => some { a with logLevel := some text }

def isFilled (slot : Slot) (a : Arguments) : Bool :=
  match slot with
  | host => a.host.isSome
  | port => a.port.isSome
  | config => a.configPath.isSome
  | output => a.outputPath.isSome
  | logLevel => a.logLevel.isSome

end Slot

namespace Reading

def store (reading : Reading) (slot : Slot) (text : String) : Except Stop Reading :=
  if slot.isFilled reading.arguments then .error (.repeated slot.name)
  else match slot.fill? text reading.arguments with
    | some arguments => .ok { reading with arguments }
    | none => .error (.invalidValue slot text)

def settle (reading : Reading) : Except Stop Reading :=
  match reading.pending with
  | none => .ok reading
  | some (slot, none) => .error (.missingValue slot)
  | some (slot, some text) => { reading with pending := none }.store slot text

def flip (reading : Reading) (switch : Switch) : Except Stop Reading := do
  let reading ← reading.settle
  let a := reading.arguments
  match switch with
  | .help => .error .help
  | .version => .error .version
  | .timestamps =>
    if a.timestamps then .error (.repeated "--timestamps")
    else .ok { reading with arguments := { a with timestamps := true } }
  | .strict =>
    if a.strict then .error (.repeated "--strict")
    else .ok { reading with arguments := { a with strict := true } }

/-- Takes an option with the value attached to it, if there is one. -/
def option (reading : Reading) (slot : Slot) (attached : Option String) :
    Except Stop Reading := do
  let reading ← reading.settle
  match attached with
  | some text => reading.store slot text
  | none => .ok { reading with pending := some (slot, none) }

def long (reading : Reading) (body : List Char) : Except Stop Reading :=
  let name := String.ofList (body.takeWhile (· != '='))
  let attached := match body.dropWhile (· != '=') with
    | _ :: value => some (String.ofList value)
    | [] => none
  match Spelling.ofLong? name, attached with
  | none, _ => .error (.unknownArgument ("--" ++ name))
  | some (.switch _), some value => .error (.unexpectedValue ("--" ++ name) value)
  | some (.switch switch), none => reading.flip switch
  | some (.slot slot), _ => reading.option slot attached

/-- Options in their short forms behind one dash. The first one that takes a value takes the rest
as its value. -/
def shorts (reading : Reading) : List Char → Except Stop Reading
  | [] => .ok reading
  | c :: rest =>
    match Spelling.ofShort? c with
    | none => .error (.unknownArgument (String.ofList ['-', c]))
    | some (.switch switch) => do (← reading.flip switch).shorts rest
    | some (.slot slot) =>
      match rest with
      | [] => reading.option slot none
      | '=' :: value => reading.option slot (some (String.ofList value))
      | value => reading.option slot (some (String.ofList value))

def positional (reading : Reading) (text : String) : Except Stop Reading := do
  let slot ← match reading.positionals with
    | 0 => .ok Slot.host
    | 1 => .ok Slot.port
    | _ => .error (.unknownArgument text)
  let reading ← reading.settle
  return { reading with pending := some (slot, some text), positionals := reading.positionals + 1 }

def step (reading : Reading) (text : String) : Except Stop Reading :=
  if reading.onlyPositionals then reading.positional text
  else
    match text.toList with
    | ['-', '-'] => .ok { reading with onlyPositionals := true }
    | '-' :: '-' :: body => reading.long body
    | '-' :: c :: rest => reading.shorts (c :: rest)
    | _ =>
      match reading.pending with
      | some (slot, none) => .ok { reading with pending := some (slot, some text) }
      | _ => reading.positional text

end Reading

def read (arguments : List String) : Except Stop Arguments := do
  let reading ← arguments.foldlM Reading.step ({} : Reading)
  return (← reading.settle).arguments

end CommandLine

end EnsembleTransport
