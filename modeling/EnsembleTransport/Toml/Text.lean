import EnsembleTransport.Digits

/-!
# The text level of TOML

Blanks, line ends, comments, quoted strings and keys. A reader takes something off the front of
the text and returns what follows it, or refuses.
-/

namespace EnsembleTransport.Toml

abbrev Reader (α : Type) := List Char → Option (α × List Char)

def isBlank (c : Char) : Bool := c == ' ' || c == '\t'

def isPlain (c : Char) : Bool := c == '\t' || (' ' ≤ c && c ≤ '~') || '\x80' ≤ c

def skipBlanks (text : List Char) : List Char := text.dropWhile isBlank

theorem length_skipBlanks_le (text : List Char) : (skipBlanks text).length ≤ text.length :=
  (List.dropWhile_suffix isBlank).length_le

def newline? : List Char → Option (List Char)
  | '\n' :: rest => some rest
  | '\r' :: '\n' :: rest => some rest
  | _ => none

theorem length_lt_of_newline? {text rest : List Char} (h : newline? text = some rest) :
    rest.length < text.length := by
  unfold newline? at h
  split at h
  · cases h
    exact Nat.lt_succ_self _
  · cases h
    exact Nat.lt_add_of_pos_right (by decide : 0 < 2)
  · cases h

def skipComment : List Char → List Char
  | '#' :: rest => rest.dropWhile isPlain
  | text => text

/-- The next line, when nothing but blanks and a comment is left of this one. -/
def endLine? (text : List Char) : Option (List Char) :=
  match skipComment (skipBlanks text) with
  | [] => some []
  | rest => newline? rest

def skipSpace (text : List Char) : List Char :=
  match _h : newline? (skipBlanks text) with
  | some rest => skipSpace rest
  | none => skipBlanks text
termination_by text.length
decreasing_by
  have h1 := length_lt_of_newline? _h
  have h2 := length_skipBlanks_le text
  omega

def skipGap (text : List Char) : List Char :=
  match newline? (skipComment (skipBlanks text)) with
  | some rest => if rest.length < text.length then skipGap rest else rest
  | none => skipComment (skipBlanks text)
termination_by text.length

/-- The character of a scalar value spelled in hexadecimal digits. -/
def scalar? (digits : List Char) : Option Char :=
  let code := Digits.numberOf 16 digits
  if digits.any fun c => (Digits.value? c).isNone then none
  else if code < 0xD800 ∨ 0xDFFF < code ∧ code < 0x110000 then some (Char.ofNat code)
  else none

def escapedLetter? : Char → Option Char
  | 'b' => some '\x08'
  | 't' => some '\t'
  | 'n' => some '\n'
  | 'f' => some '\x0c'
  | 'r' => some '\r'
  | '"' => some '"'
  | '\\' => some '\\'
  | _ => none

def readScalarValue (width : Nat) : Reader Char := fun text =>
  if width ≤ text.length then (scalar? (text.take width)).map (·, text.drop width) else none

def escape? : Reader Char
  | [] => none
  | c :: rest =>
    match escapedLetter? c with
    | some escaped => some (escaped, rest)
    | none =>
      if c = 'u' then readScalarValue 4 rest
      else if c = 'U' then readScalarValue 8 rest
      else none

theorem length_le_of_readScalarValue {width : Nat} {text rest : List Char} {c : Char}
    (h : readScalarValue width text = some (c, rest)) : rest.length ≤ text.length := by
  unfold readScalarValue at h
  split at h
  · obtain ⟨_, _, hrest⟩ := Option.map_eq_some_iff.1 h
    cases hrest
    simp
  · cases h

theorem length_lt_of_escape? {text rest : List Char} {c : Char}
    (h : escape? text = some (c, rest)) : rest.length < text.length := by
  cases text with
  | nil => cases h
  | cons d tail =>
    simp only [escape?] at h
    have hle : rest.length ≤ tail.length := by
      split at h
      · cases h
        exact Nat.le_refl _
      · split at h
        · exact length_le_of_readScalarValue h
        · split at h
          · exact length_le_of_readScalarValue h
          · cases h
    simp only [List.length_cons]
    omega

def readQuoted (quote : Char) (escapes : Bool) (text : List Char) :
    Option (List Char × List Char) :=
  match text with
  | [] => none
  | c :: rest =>
    if c = quote then some ([], rest)
    else if escapes ∧ c = '\\' then
      match _h : escape? rest with
      | some (escaped, rest) =>
        (readQuoted quote escapes rest).map fun (inside, rest) => (escaped :: inside, rest)
      | none => none
    else if isPlain c then
      (readQuoted quote escapes rest).map fun (inside, rest) => (c :: inside, rest)
    else none
termination_by text.length
decreasing_by
  all_goals simp
  have := length_lt_of_escape? _h
  omega

/-- The text behind a backslash that ends its line: all space up to the next character goes. -/
def joinedLine? (text : List Char) : Option (List Char) :=
  (newline? (skipBlanks text)).map skipSpace

/-- The inside of a string over several lines, up to its three closing quotes. Up to two more
quotes before them belong to the string. -/
def readBlock (quote : Char) (escapes : Bool) (text : List Char) :
    Option (List Char × List Char) :=
  match text with
  | [] => none
  | c :: rest =>
    if c = quote then
      match rest with
      | d :: e :: rest =>
        if d = quote ∧ e = quote then
          let extra := (rest.take 2).takeWhile (· == quote)
          some (extra, rest.drop extra.length)
        else (readBlock quote escapes (d :: e :: rest)).map fun (inside, rest) => (c :: inside, rest)
      | _ => none
    else if escapes ∧ c = '\\' then
      match joinedLine? rest with
      | some joined =>
        if joined.length < rest.length then readBlock quote escapes joined else none
      | none =>
        match _h : escape? rest with
        | some (escaped, rest) =>
          (readBlock quote escapes rest).map fun (inside, rest) => (escaped :: inside, rest)
        | none => none
    else if c = '\n' ∨ isPlain c then
      (readBlock quote escapes rest).map fun (inside, rest) => (c :: inside, rest)
    else
      match rest with
      | '\n' :: rest =>
        if c = '\r' then
          (readBlock quote escapes rest).map fun (inside, rest) => ('\n' :: inside, rest)
        else none
      | _ => none
termination_by text.length
decreasing_by
  all_goals simp only [List.length_cons]
  · omega
  · omega
  · have := length_lt_of_escape? (by assumption)
    omega
  · omega
  · omega

def readLineString : Reader String
  | '"' :: rest => (readQuoted '"' true rest).map fun (inside, rest) => (String.ofList inside, rest)
  | '\'' :: rest =>
    (readQuoted '\'' false rest).map fun (inside, rest) => (String.ofList inside, rest)
  | _ => none

/-- A string of either quotes, in single or triple ones. A line end right behind the opening
triple goes. -/
def readString (text : List Char) : Option (String × List Char) :=
  let block (quote : Char) (escapes : Bool) (rest : List Char) :=
    (readBlock quote escapes ((newline? rest).getD rest)).map
      fun (inside, rest) => (String.ofList inside, rest)
  match text with
  | '"' :: '"' :: '"' :: rest => block '"' true rest
  | '\'' :: '\'' :: '\'' :: rest => block '\'' false rest
  | text => readLineString text

def isBareKeyChar (c : Char) : Bool := c.isAlphanum || c == '_' || c == '-'

def readSimpleKey : Reader String := fun text =>
  let bare := text.takeWhile isBareKeyChar
  if bare.isEmpty then readLineString text
  else some (String.ofList bare, text.dropWhile isBareKeyChar)

def readKeyParts (text : List Char) : Option (List String × List Char) :=
  match readSimpleKey (skipBlanks text) with
  | none => none
  | some (key, rest) =>
    match skipBlanks rest with
    | '.' :: rest =>
      if rest.length < text.length then
        (readKeyParts rest).map fun (keys, rest) => (key :: keys, rest)
      else none
    | rest => some ([key], rest)
termination_by text.length

def depthLimit : Nat := 80

/-- A dotted key, up to the depth limit. -/
def readKey : Reader (List String) := fun text => do
  let (keys, rest) ← readKeyParts text
  if keys.length < depthLimit then some (keys, rest) else none

end EnsembleTransport.Toml
