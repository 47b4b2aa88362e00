import EnsembleTransport.Toml.Document
import Mathlib.Data.List.Nodup

/-!
# The keys of a document

A key that has a value keeps it, so in no table of a document, however deep, does a key stand twice.
A value is given to a key in one place only, and the tables on the way to it are put back where they
were.
-/

namespace EnsembleTransport.Toml

section Entries

variable {α : Type} {entries : List (String × α)} {key : String} {value : α}

@[simp] theorem find?_nil : find? ([] : List (String × α)) key = none := rfl

theorem find?_cons (entry : String × α) (entries : List (String × α)) (key : String) :
    find? (entry :: entries) key = if entry.1 = key then some entry.2 else find? entries key := by
  by_cases h : entry.1 = key
  · simp [find?, h]
  · simp [find?, h]

theorem find?_append (front entries : List (String × α)) (key : String) :
    find? (front ++ entries) key = (find? front key).or (find? entries key) := by
  simp [find?, List.find?_append, Option.map_or]

theorem find?_of_not_mem (h : key ∉ entries.map Prod.fst) : find? entries key = none := by
  induction entries with
  | nil => rfl
  | cons entry entries ih =>
    rw [List.map_cons, List.mem_cons, not_or] at h
    rw [find?_cons, if_neg (Ne.symm h.1), ih h.2]

theorem mem_of_find? (h : find? entries key = some value) : (key, value) ∈ entries := by
  induction entries with
  | nil => cases h
  | cons entry entries ih =>
    rw [find?_cons] at h
    by_cases hentry : entry.1 = key
    · rw [if_pos hentry] at h
      cases h
      exact hentry ▸ List.mem_cons_self
    · rw [if_neg hentry] at h
      exact List.mem_cons_of_mem _ (ih h)

theorem exists_of_mem_keys (h : key ∈ entries.map Prod.fst) :
    ∃ value, find? entries key = some value := by
  induction entries with
  | nil => cases h
  | cons entry entries ih =>
    rw [find?_cons]
    by_cases hentry : entry.1 = key
    · exact ⟨entry.2, if_pos hentry⟩
    · rw [if_neg hentry]
      exact ih ((List.mem_cons.mp h).resolve_left (Ne.symm hentry))

theorem any_key_iff : (entries.any fun entry => entry.1 == key) = true ↔
    key ∈ entries.map Prod.fst := by
  simp [List.any_eq_true]

theorem put_of_mem (h : key ∈ entries.map Prod.fst) : put entries key value =
    entries.map fun entry => if entry.1 == key then (key, value) else entry :=
  if_pos (any_key_iff.mpr h)

theorem put_of_not_mem (h : key ∉ entries.map Prod.fst) :
    put entries key value = entries ++ [(key, value)] :=
  if_neg (mt any_key_iff.mp h)

theorem find?_replace (entries : List (String × α)) (key : String) (value : α) (other : String) :
    find? (entries.map fun entry => if entry.1 == key then (key, value) else entry) other =
      if other = key then (find? entries key).map fun _ => value else find? entries other := by
  induction entries with
  | nil => simp
  | cons entry entries ih =>
    rw [List.map_cons, find?_cons, find?_cons, find?_cons, ih]
    by_cases hentry : entry.1 = key
    · by_cases hother : other = key
      · simp [hentry, hother]
      · simp [hentry, hother, Ne.symm hother]
    · by_cases hother : other = key
      · simp [hentry, hother]
      · simp [hentry, hother]

/-- What a key is given is found under this key and changes no other one. -/
theorem find?_put (entries : List (String × α)) (key : String) (value : α) (other : String) :
    find? (put entries key value) other = if other = key then some value else find? entries other := by
  by_cases hkey : key ∈ entries.map Prod.fst
  · rw [put_of_mem hkey, find?_replace]
    by_cases hother : other = key
    · obtain ⟨old, hold⟩ := exists_of_mem_keys hkey
      simp [hother, hold]
    · simp [hother]
  · rw [put_of_not_mem hkey, find?_append, find?_cons, find?_nil]
    by_cases hother : other = key
    · simp [hother, find?_of_not_mem hkey]
    · simp [hother, Ne.symm hother]

theorem keys_put (entries : List (String × α)) (key : String) (value : α) :
    (put entries key value).map Prod.fst =
      if key ∈ entries.map Prod.fst then entries.map Prod.fst else entries.map Prod.fst ++ [key] := by
  by_cases hkey : key ∈ entries.map Prod.fst
  · rw [put_of_mem hkey, if_pos hkey, List.map_map]
    apply List.map_congr_left
    intro entry _
    by_cases hentry : entry.1 = key
    · simp [hentry]
    · simp [hentry]
  · rw [put_of_not_mem hkey, if_neg hkey, List.map_append]
    rfl

theorem nodup_put (h : (entries.map Prod.fst).Nodup) (key : String) (value : α) :
    ((put entries key value).map Prod.fst).Nodup := by
  rw [keys_put]
  by_cases hkey : key ∈ entries.map Prod.fst
  · rwa [if_pos hkey]
  · rw [if_neg hkey]
    rw [← List.concat_eq_append]
    exact h.concat hkey

theorem mem_put {entry : String × α} (h : entry ∈ put entries key value) :
    entry ∈ entries ∨ entry = (key, value) := by
  by_cases hkey : key ∈ entries.map Prod.fst
  · rw [put_of_mem hkey, List.mem_map] at h
    obtain ⟨old, hold, rfl⟩ := h
    by_cases hentry : old.1 = key
    · simp [hentry]
    · simp [hentry, hold]
  · rw [put_of_not_mem hkey, List.mem_append, List.mem_singleton] at h
    exact h

end Entries

/-- What every step preserves holds at the end of a run of steps, if there is one. -/
theorem invariant_of_foldlM {σ τ : Type} {Inv : σ → Prop} {step : σ → τ → Option σ} {inputs : List τ}
    (hstep : ∀ input ∈ inputs, ∀ {state after : σ}, Inv state → step state input = some after →
      Inv after)
    {state after : σ} (hstate : Inv state) (h : inputs.foldlM step state = some after) :
    Inv after := by
  induction inputs generalizing state with
  | nil =>
    cases h
    exact hstate
  | cons input inputs ih =>
    rw [List.foldlM_cons] at h
    obtain ⟨next, hnext, h⟩ := Option.bind_eq_some_iff.mp h
    have hinputs := List.forall_mem_cons.mp hstep
    exact ih hinputs.2 (hinputs.1 hstate hnext) h

/-- In no table of the value, at any depth, does a key stand twice. -/
inductive Value.Distinct : Value → Prop
  | string (text : String) : Distinct (.string text)
  | integer (n : Int) : Distinct (.integer n)
  | float (x : Binary64) : Distinct (.float x)
  | boolean (b : Bool) : Distinct (.boolean b)
  | moment (text : String) : Distinct (.moment text)
  | array {items : List Value} (hitems : ∀ item ∈ items, Distinct item) : Distinct (.array items)
  | tables {items : List Value} (hitems : ∀ item ∈ items, Distinct item) : Distinct (.tables items)
  | table {origin : TableOrigin} {entries : List (String × Value)}
      (hkeys : (entries.map Prod.fst).Nodup) (hvalues : ∀ entry ∈ entries, Distinct entry.2) :
      Distinct (.table origin entries)

structure EntriesDistinct (entries : List (String × Value)) : Prop where
  nodup : (entries.map Prod.fst).Nodup
  values : ∀ entry ∈ entries, entry.2.Distinct

theorem distinct_table_iff {origin : TableOrigin} {entries : List (String × Value)} :
    (Value.table origin entries).Distinct ↔ EntriesDistinct entries := by
  constructor
  · intro h
    cases h with
    | table hkeys hvalues => exact ⟨hkeys, hvalues⟩
  · intro h
    exact .table h.nodup h.values

namespace EntriesDistinct

variable {entries : List (String × Value)} {key : String} {value : Value}

theorem nil : EntriesDistinct [] := ⟨List.nodup_nil, List.forall_mem_nil _⟩

theorem find (h : EntriesDistinct entries) (hfind : find? entries key = some value) :
    value.Distinct := h.values _ (mem_of_find? hfind)

theorem put (h : EntriesDistinct entries) (hvalue : value.Distinct) :
    EntriesDistinct (put entries key value) := by
  refine ⟨nodup_put h.nodup key value, fun entry hentry => ?_⟩
  rcases mem_put hentry with hold | rfl
  · exact h.values entry hold
  · exact hvalue

theorem remove (h : EntriesDistinct entries) : EntriesDistinct (remove entries key) := by
  constructor
  · exact h.nodup.sublist (List.filter_sublist.map _)
  · intro entry hentry
    exact h.values entry (List.mem_of_mem_filter hentry)

end EntriesDistinct

namespace Table

def Distinct (table : Table) : Prop := EntriesDistinct table.entries

theorem distinct_toValue {table : Table} (h : table.Distinct) : table.toValue.Distinct :=
  distinct_table_iff.mpr h

/-- What a table is left with when it stands anew in the value that it was found inside of. -/
theorem distinct_of_inside? {isDotted : Bool} {value : Value} {child : Table}
    {wrap : Table → Value} (h : value.Distinct) (hinside : inside? isDotted value = some (child, wrap)) :
    child.Distinct ∧ ∀ table : Table, table.Distinct → (wrap table).Distinct := by
  cases h with
  | table hkeys hvalues =>
    simp only [inside?] at hinside
    split at hinside
    · cases hinside
    · cases hinside
      exact ⟨⟨hkeys, hvalues⟩, fun table htable => distinct_toValue htable⟩
  | @tables items hitems =>
    simp only [inside?] at hinside
    split at hinside
    · rename_i origin entries hlast
      cases hinside
      refine ⟨distinct_table_iff.mp (hitems _ (List.mem_of_getLast? hlast)), ?_⟩
      intro table htable
      apply Value.Distinct.tables
      intro item hitem
      rcases List.mem_append.mp hitem with hitem | hitem
      · exact hitems item (List.dropLast_subset _ hitem)
      · rw [List.mem_singleton.mp hitem]
        exact distinct_toValue htable
    · cases hinside
  | _ => cases hinside

/-- A change that lets no key stand twice may be made at the end of any path. The tables on the way
are made empty or found in their parents, and put back where they were. -/
theorem distinct_of_alter {α : Type} {made : TableOrigin} {change : Table → Option (α × Table)}
    (Good : α → Prop) (hchange : ∀ {table : Table} {found : α} {after : Table}, table.Distinct →
      change table = some (found, after) → Good found ∧ after.Distinct)
    {path : List String} {table : Table} {found : α} {after : Table} (htable : table.Distinct)
    (h : alter made change path table = some (found, after)) : Good found ∧ after.Distinct := by
  induction path generalizing table found after with
  | nil => exact hchange htable h
  | cons key path ih =>
    rw [alter] at h
    split at h
    · obtain ⟨⟨_, child⟩, halter, hafter⟩ := Option.bind_eq_some_iff.mp h
      cases hafter
      have hmade : Table.Distinct { origin := made } := EntriesDistinct.nil
      have hchild := ih hmade halter
      exact ⟨hchild.1, htable.put (distinct_toValue hchild.2)⟩
    · rename_i value hfind
      obtain ⟨⟨child, wrap⟩, hinside, h⟩ := Option.bind_eq_some_iff.mp h
      obtain ⟨⟨_, _⟩, halter, hafter⟩ := Option.bind_eq_some_iff.mp h
      cases hafter
      have hwrap := distinct_of_inside? (htable.find hfind) hinside
      have hchild := ih hwrap.1 halter
      exact ⟨hchild.1, htable.put (hwrap.2 _ hchild.2)⟩

theorem distinct_of_addNew {key : String} {value : Value} {table after : Table} {found : Unit}
    (hvalue : value.Distinct) (htable : table.Distinct)
    (h : addNew key value table = some (found, after)) : after.Distinct := by
  rw [addNew] at h
  split at h
  · cases h
  · cases h
    exact htable.put hvalue

theorem distinct_of_assign {made : TableOrigin} {path : List String} {value : Value}
    {table after : Table} (hvalue : value.Distinct) (htable : table.Distinct)
    (h : assign made path value table = some after) : after.Distinct := by
  obtain ⟨key, _, h⟩ := Option.bind_eq_some_iff.mp h
  obtain ⟨⟨_, _⟩, halter, hafter⟩ := Option.bind_eq_some_iff.mp h
  cases hafter
  refine (distinct_of_alter (fun _ => True) ?_ htable halter).2
  intro target found after htarget hchange
  split at hchange
  · cases hchange
  · exact ⟨trivial, distinct_of_addNew hvalue htarget hchange⟩

theorem distinct_of_ofPairs {pairs : List (List String × Value)} {value : Value}
    (hpairs : ∀ pair ∈ pairs, pair.2.Distinct) (h : ofPairs pairs = some value) :
    value.Distinct := by
  obtain ⟨table, htable, hvalue⟩ := Option.bind_eq_some_iff.mp h
  cases hvalue
  apply distinct_toValue
  have hempty : Table.Distinct { origin := .inline } := EntriesDistinct.nil
  refine invariant_of_foldlM ?_ hempty htable
  intro pair hpair state after hstate hassign
  exact distinct_of_assign (hpairs pair hpair) hstate hassign

end Table

def ReadsDistinct (read : Reader Value) : Prop :=
  ∀ {text rest : List Char} {value : Value}, read text = some (value, rest) → value.Distinct

theorem distinct_of_integer? {n : Int} {value : Value} (h : integer? n = some value) :
    value.Distinct := by
  rw [integer?] at h
  split at h
  · cases h
    exact .integer n
  · cases h

theorem distinct_of_float? {text : List Char} {value : Value} (h : float? text = some value) :
    value.Distinct := by
  obtain ⟨x, _, h⟩ := Option.bind_eq_some_iff.mp h
  split at h
  · cases h
  · cases h
    exact .float x

theorem readsDistinct_readBased (base : Nat) : ReadsDistinct (readBased base) := by
  intro text rest value h
  obtain ⟨⟨_, _⟩, _, h⟩ := Option.bind_eq_some_iff.mp h
  obtain ⟨_, hinteger, h⟩ := Option.bind_eq_some_iff.mp h
  cases h
  exact distinct_of_integer? hinteger

theorem readsDistinct_readDecimal : ReadsDistinct readDecimal := by
  intro text rest value h
  unfold readDecimal at h
  generalize readSign text = signed at h
  obtain ⟨⟨_, _⟩, _, h⟩ := Option.bind_eq_some_iff.mp h
  obtain ⟨⟨_, _⟩, _, h⟩ := Option.bind_eq_some_iff.mp h
  obtain ⟨⟨_, _⟩, _, h⟩ := Option.bind_eq_some_iff.mp h
  dsimp only at h
  split at h
  · obtain ⟨_, hinteger, h⟩ := Option.bind_eq_some_iff.mp h
    cases h
    exact distinct_of_integer? hinteger
  · obtain ⟨_, hfloat, h⟩ := Option.bind_eq_some_iff.mp h
    cases h
    exact distinct_of_float? hfloat

theorem readsDistinct_readNumber : ReadsDistinct readNumber := by
  intro text rest value h
  unfold readNumber at h
  split at h
  · exact readsDistinct_readBased 16 h
  · exact readsDistinct_readBased 8 h
  · exact readsDistinct_readBased 2 h
  · dsimp only at h
    split at h
    · cases h
      exact .float _
    · cases h
      exact .float _
    · exact readsDistinct_readDecimal h

theorem readsDistinct_readMoment : ReadsDistinct readMoment := by
  intro text rest value h
  unfold readMoment at h
  split at h
  · cases h
    exact .moment _
  · obtain ⟨_, _, h⟩ := Option.map_eq_some_iff.mp h
    cases h
    exact .moment _

theorem readsDistinct_readScalar : ReadsDistinct readScalar := by
  intro text rest value h
  unfold readScalar at h
  split at h
  · cases h
  · split at h
    · obtain ⟨_, _, h⟩ := Option.map_eq_some_iff.mp h
      cases h
      exact .string _
    · split at h
      · cases h
        exact .boolean true
      · cases h
        exact .boolean false
      · rw [Option.orElse_eq_or, Option.or_eq_some_iff] at h
        rcases h with hmoment | ⟨_, hnumber⟩
        · exact readsDistinct_readMoment hmoment
        · exact readsDistinct_readNumber hnumber

section Brackets

variable {readValue : Reader Value}

theorem distinct_of_readItems (hread : ReadsDistinct readValue) {more : Bool}
    {text rest : List Char} {values : List Value}
    (h : readItems readValue more text = some (values, rest)) : ∀ value ∈ values, value.Distinct := by
  fun_induction readItems readValue more text generalizing values rest with
  | case1 =>
    cases h
    exact List.forall_mem_nil _
  | case2 _ _ _ _ _ ih => exact ih h
  | case6 _ _ _ _ _ _ _ _ hvalue ih =>
    obtain ⟨⟨_, _⟩, hvalues, h⟩ := Option.map_eq_some_iff.mp h
    cases h
    exact List.forall_mem_cons.mpr ⟨hread hvalue, ih hvalues⟩
  | _ => cases h

theorem distinct_of_readPair (hread : ReadsDistinct readValue) {text rest : List Char}
    {pair : List String × Value} (h : readPair readValue text = some (pair, rest)) :
    pair.2.Distinct := by
  obtain ⟨⟨_, _⟩, _, h⟩ := Option.bind_eq_some_iff.mp h
  obtain ⟨⟨_, _⟩, _, h⟩ := Option.bind_eq_some_iff.mp h
  obtain ⟨⟨_, _⟩, hvalue, h⟩ := Option.bind_eq_some_iff.mp h
  cases h
  exact hread hvalue

theorem distinct_of_readPairs (hread : ReadsDistinct readValue) {text rest : List Char}
    {pairs : List (List String × Value)} (h : readPairs readValue text = some (pairs, rest)) :
    ∀ pair ∈ pairs, pair.2.Distinct := by
  fun_induction readPairs readValue text generalizing pairs rest with
  | case2 _ _ _ hpair =>
    cases h
    exact List.forall_mem_singleton.mpr (distinct_of_readPair hread hpair)
  | case3 _ _ _ hpair _ _ _ ih =>
    obtain ⟨⟨_, _⟩, hpairs, h⟩ := Option.map_eq_some_iff.mp h
    cases h
    exact List.forall_mem_cons.mpr ⟨distinct_of_readPair hread hpair, ih hpairs⟩
  | _ => cases h

theorem distinct_of_readInlineTable (hread : ReadsDistinct readValue) :
    ReadsDistinct (readInlineTable readValue) := by
  intro text rest value h
  rw [readInlineTable] at h
  split at h
  · cases h
    exact distinct_table_iff.mpr .nil
  · obtain ⟨⟨pairs, _⟩, hpairs, h⟩ := Option.bind_eq_some_iff.mp h
    obtain ⟨table, htable, h⟩ := Option.bind_eq_some_iff.mp h
    cases h
    exact Table.distinct_of_ofPairs (distinct_of_readPairs hread hpairs) htable

end Brackets

theorem readsDistinct_readValue (depth : Nat) : ReadsDistinct (readValue depth) := by
  induction depth with
  | zero => exact readsDistinct_readScalar
  | succ depth ih =>
    intro text rest value h
    unfold readValue at h
    split at h
    · obtain ⟨⟨values, _⟩, hvalues, h⟩ := Option.map_eq_some_iff.mp h
      cases h
      exact .array (distinct_of_readItems ih hvalues)
    · exact distinct_of_readInlineTable ih h
    · exact readsDistinct_readScalar h

def Line.Distinct : Line → Prop
  | .assignment _ value => value.Distinct
  | .header _ | .element _ => True

theorem distinct_of_readStatement {text rest : List Char} {line : Line}
    (h : readStatement text = some (line, rest)) : line.Distinct := by
  unfold readStatement at h
  split at h
  · obtain ⟨⟨_, _⟩, _, h⟩ := Option.bind_eq_some_iff.mp h
    obtain ⟨⟨_, _⟩, _, h⟩ := Option.bind_eq_some_iff.mp h
    obtain ⟨⟨_, _⟩, _, h⟩ := Option.bind_eq_some_iff.mp h
    cases h
    trivial
  · obtain ⟨⟨_, _⟩, _, h⟩ := Option.bind_eq_some_iff.mp h
    obtain ⟨⟨_, _⟩, _, h⟩ := Option.bind_eq_some_iff.mp h
    cases h
    trivial
  · obtain ⟨⟨_, _⟩, hpair, h⟩ := Option.bind_eq_some_iff.mp h
    cases h
    exact distinct_of_readPair (readsDistinct_readValue _) hpair

theorem distinct_of_readLines {text : List Char} {lines : List Line}
    (h : readLines text = some lines) : ∀ line ∈ lines, line.Distinct := by
  fun_induction readLines text generalizing lines with
  | case1 =>
    cases h
    exact List.forall_mem_nil _
  | case4 _ _ _ _ _ _ _ hstatement ih =>
    obtain ⟨_, hlines, h⟩ := Option.map_eq_some_iff.mp h
    cases h
    exact List.forall_mem_cons.mpr ⟨distinct_of_readStatement hstatement, ih hlines⟩
  | _ => cases h

namespace Assembly

/-- In the tables put together so far, and in the open one, no key stands twice. -/
structure Distinct (a : Assembly) : Prop where
  document : a.document.Distinct
  body : a.body.Distinct

theorem distinct_of_appendElement {key : String} {body parent after : Table} {found : Unit}
    (hbody : body.Distinct) (hparent : parent.Distinct)
    (h : appendElement key body parent = some (found, after)) : after.Distinct := by
  have hbodyValue := Table.distinct_toValue hbody
  unfold appendElement at h
  split at h
  · cases h
    exact hparent.put (.tables (List.forall_mem_singleton.mpr hbodyValue))
  · rename_i items hfind
    cases h
    cases hparent.find hfind with
    | tables hitems =>
      refine hparent.put (.tables fun item hitem => ?_)
      rcases List.mem_append.mp hitem with hitem | hitem
      · exact hitems item hitem
      · rw [List.mem_singleton.mp hitem]
        exact hbodyValue
  · cases h

theorem distinct_of_close {a : Assembly} {document : Table} (ha : a.Distinct)
    (h : a.close = some document) : document.Distinct := by
  unfold close at h
  split at h
  · cases h
    exact ha.body
  · obtain ⟨⟨_, _⟩, halter, h⟩ := Option.map_eq_some_iff.mp h
    cases h
    refine (Table.distinct_of_alter (fun _ => True) ?_ ha.document halter).2
    intro table found after htable hchange
    split at hchange
    · exact ⟨trivial, distinct_of_appendElement ha.body htable hchange⟩
    · exact ⟨trivial, Table.distinct_of_addNew (Table.distinct_toValue ha.body) htable hchange⟩

/-- The entries of a table that is opened anew, and the tables that are left. -/
theorem distinct_of_takeOut {key : String} {parent after : Table} {found : List (String × Value)}
    (hparent : parent.Distinct) (h : takeOut key parent = some (found, after)) :
    EntriesDistinct found ∧ after.Distinct := by
  unfold takeOut at h
  split at h
  · cases h
    exact ⟨.nil, hparent⟩
  · rename_i hfind
    cases h
    exact ⟨distinct_table_iff.mp (hparent.find hfind), hparent.remove⟩
  · cases h

theorem distinct_of_openHeader {document : Table} {path : List String} {after : Assembly}
    (hdocument : document.Distinct) (h : openHeader document path = some after) :
    after.Distinct := by
  obtain ⟨⟨_, _⟩, _, h⟩ := Option.bind_eq_some_iff.mp h
  obtain ⟨⟨_, _⟩, halter, h⟩ := Option.bind_eq_some_iff.mp h
  cases h
  have hleft := Table.distinct_of_alter EntriesDistinct distinct_of_takeOut hdocument halter
  exact ⟨hleft.2, hleft.1⟩

theorem distinct_of_openElement {document : Table} {path : List String} {after : Assembly}
    (hdocument : document.Distinct) (h : openElement document path = some after) :
    after.Distinct := by
  obtain ⟨⟨_, _⟩, _, h⟩ := Option.bind_eq_some_iff.mp h
  obtain ⟨⟨_, _⟩, halter, h⟩ := Option.bind_eq_some_iff.mp h
  cases h
  refine ⟨(Table.distinct_of_alter (fun _ => True) ?_ hdocument halter).2, EntriesDistinct.nil⟩
  intro table found after htable hchange
  unfold checkElement at hchange
  split at hchange
  · cases hchange
    exact ⟨trivial, htable⟩
  · cases hchange
    exact ⟨trivial, htable⟩
  · cases hchange

theorem distinct_of_step {a after : Assembly} {line : Line} (hline : line.Distinct)
    (ha : a.Distinct) (h : a.step line = some after) : after.Distinct := by
  cases line with
  | assignment path value =>
    obtain ⟨_, hassign, h⟩ := Option.bind_eq_some_iff.mp h
    cases h
    exact ⟨ha.document, Table.distinct_of_assign hline ha.body hassign⟩
  | header path =>
    obtain ⟨_, hclose, h⟩ := Option.bind_eq_some_iff.mp h
    exact distinct_of_openHeader (distinct_of_close ha hclose) h
  | element path =>
    obtain ⟨_, hclose, h⟩ := Option.bind_eq_some_iff.mp h
    exact distinct_of_openElement (distinct_of_close ha hclose) h

end Assembly

theorem distinct_of_assemble {lines : List Line} {document : Table}
    (hlines : ∀ line ∈ lines, line.Distinct) (h : assemble lines = some document) :
    document.Distinct := by
  obtain ⟨assembly, hassembly, hclose⟩ := Option.bind_eq_some_iff.mp h
  have hempty : Assembly.Distinct {} := ⟨EntriesDistinct.nil, EntriesDistinct.nil⟩
  refine Assembly.distinct_of_close (invariant_of_foldlM ?_ hempty hassembly) hclose
  intro line hline state after hstate hstep
  exact Assembly.distinct_of_step (hlines line hline) hstate hstep

/-- No key stands twice in a table of a document. -/
theorem distinct_of_parse? {text : String} {document : Table} (h : parse? text = some document) :
    document.Distinct := by
  unfold parse? at h
  split at h
  · obtain ⟨lines, hlines, h⟩ := Option.bind_eq_some_iff.mp h
    exact distinct_of_assemble (distinct_of_readLines hlines) h
  · obtain ⟨lines, hlines, h⟩ := Option.bind_eq_some_iff.mp h
    exact distinct_of_assemble (distinct_of_readLines hlines) h

end EnsembleTransport.Toml
