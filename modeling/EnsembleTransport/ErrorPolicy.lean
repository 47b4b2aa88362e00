/-!
# Error policies

The policy says what becomes of a message that cannot be taken apart: it is dropped and counted,
or it ends the run before any of it is written.
-/

namespace EnsembleTransport

inductive ErrorPolicy where
  | skip
  | abort
deriving DecidableEq, Repr

namespace ErrorPolicy

def name : ErrorPolicy → String
  | skip => "skip"
  | abort => "abort"

def ofName? (name : String) : Option ErrorPolicy :=
  if name = skip.name then some skip else if name = abort.name then some abort else none

/-- Reads a name whatever the case of its letters; a refusal quotes it in lower case. -/
def parse (text : String) : Except String ErrorPolicy :=
  let lowered := text.map Char.toLower
  match ofName? lowered with
  | some policy => .ok policy
  | none => .error s!"unknown error policy '{lowered}' (expected skip or abort)"

theorem ofName?_name (policy : ErrorPolicy) : ofName? policy.name = some policy := by
  cases policy <;> rfl

end ErrorPolicy

end EnsembleTransport
