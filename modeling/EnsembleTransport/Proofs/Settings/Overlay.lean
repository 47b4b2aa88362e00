import EnsembleTransport.Proofs.Settings.Keys
import Mathlib.Data.List.TakeWhile

/-!
# Settings laid over a tree

A value that is laid over a setting is what the tree then gives for it, and what the tree gives for the
other settings stays, unless the section was a list: a list becomes a table with one member. Whatever
is laid over a table leaves a table. A file whose names have no capitals and spell no paths is its own
tree.
-/

namespace EnsembleTransport

namespace Setting

/-- A value that is there and holds no others. -/
inductive IsLeaf : Setting → Prop
  | boolean (b : Bool) : IsLeaf (.boolean b)
  | integer (n : Int) : IsLeaf (.integer n)
  | float (x : Binary64) : IsLeaf (.float x)
  | string (text : String) : IsLeaf (.string text)

theorem lay_of_ne_table {value : Setting} (h : ∀ entries, value ≠ table entries) (name : String)
    (target : Setting) :
    lay name value target = table (Toml.put target.entries (lowered name) value) := by
  cases value with
  | table entries => exact absurd rfl (h entries)
  | _ => simp [lay]

theorem IsLeaf.ne_table {value : Setting} (h : value.IsLeaf) (entries : List (String × Setting)) :
    value ≠ table entries := by
  cases h <;> exact Setting.noConfusion

def assign (key : SettingKey) (value target : Setting) : Setting :=
  layAt [.member key.sectionName, .member key.name] value target

theorem lowered_sectionName (key : SettingKey) : lowered key.sectionName = key.sectionName := by
  cases key <;> decide +kernel

theorem lowered_name (key : SettingKey) : lowered key.name = key.name := by
  cases key <;> decide +kernel

theorem assign_of_isLeaf (key : SettingKey) {value : Setting} (h : value.IsLeaf)
    (target : Setting) : assign key value target = table (Toml.put target.entries key.sectionName
      (table (Toml.put ((Toml.find? target.entries key.sectionName).getD nothing).entries key.name
        value))) := by
  simp only [assign, layAt, lay_of_ne_table h.ne_table, lowered_sectionName, lowered_name]

def isListed (tree : Setting) (sectionName : String) : Bool :=
  match Toml.find? tree.entries sectionName with
  | some (list _) => true
  | _ => false

/-- What is left of a section that becomes a table: its members, unless it was a list. -/
theorem find?_entries_section (tree : Setting) (sectionName : String) (names : List String)
    (name : String) :
    Toml.find? ((Toml.find? tree.entries sectionName).getD nothing).entries name =
      if tree.isListed sectionName then none
      else (Toml.find? tree.entries sectionName).bind (member? names name) := by
  rw [isListed]
  rcases Toml.find? tree.entries sectionName with _ | value
  · rfl
  · cases value <;> rfl

theorem given?_assign_self (key : SettingKey) {value : Setting} (h : value.IsLeaf)
    (target : Setting) : (assign key value target).given? key = some value := by
  rw [assign_of_isLeaf key h, given?, entries, Toml.find?_put, if_pos rfl, Option.bind_some, member?,
    Toml.find?_put, if_pos rfl]
  cases h <;> rfl

theorem given?_assign_sibling {key other : SettingKey} (hne : key ≠ other)
    (hsection : key.sectionName = other.sectionName) {value : Setting} (h : value.IsLeaf)
    (target : Setting) : (assign other value target).given? key =
      if target.isListed key.sectionName then none else target.given? key := by
  have hname : key.name ≠ other.name := fun heq => hne (SettingKey.name_injective heq)
  rw [assign_of_isLeaf other h, given?, entries, Toml.find?_put, if_pos hsection, Option.bind_some,
    member?, Toml.find?_put, if_neg hname, ← hsection,
    find?_entries_section target key.sectionName key.names]
  by_cases hlisted : target.isListed key.sectionName
  · rw [if_pos hlisted, if_pos hlisted]
    rfl
  · rw [if_neg hlisted, if_neg hlisted, given?]

theorem given?_assign_other {key other : SettingKey}
    (hsection : key.sectionName ≠ other.sectionName) {value : Setting} (h : value.IsLeaf)
    (target : Setting) : (assign other value target).given? key = target.given? key := by
  rw [assign_of_isLeaf other h, given?, entries, Toml.find?_put, if_neg hsection, given?]

theorem isListed_assign (key : SettingKey) {value : Setting} (h : value.IsLeaf) (target : Setting)
    (sectionName : String) : (assign key value target).isListed sectionName =
      if sectionName = key.sectionName then false else target.isListed sectionName := by
  rw [assign_of_isLeaf key h, isListed, entries, Toml.find?_put]
  by_cases hsection : sectionName = key.sectionName
  · rw [if_pos hsection, if_pos hsection]
  · rw [if_neg hsection, if_neg hsection, isListed]

def lastAssigned? (assignments : List (SettingKey × Setting)) (key : SettingKey) : Option Setting :=
  (assignments.filterMap fun assignment =>
    if assignment.1 = key then some assignment.2 else none).getLast?

/-- A section that is a list is given up as a whole as soon as a value is laid over one of its
settings. -/
def GivenUp (tree : Setting) (assignments : List (SettingKey × Setting)) (key : SettingKey) : Prop :=
  tree.isListed key.sectionName = true ∧
    ∃ assignment ∈ assignments, assignment.1.sectionName = key.sectionName

instance (tree : Setting) (assignments : List (SettingKey × Setting)) (key : SettingKey) :
    Decidable (tree.GivenUp assignments key) := inferInstanceAs (Decidable (_ ∧ _))

/-- What a tree gives for a setting when values are laid over settings of it. -/
def layered? (tree : Setting) (assignments : List (SettingKey × Setting)) (key : SettingKey) :
    Option Setting :=
  (lastAssigned? assignments key).or
    (if tree.GivenUp assignments key then none else tree.given? key)

theorem lastAssigned?_cons (assignment : SettingKey × Setting)
    (assignments : List (SettingKey × Setting)) (key : SettingKey) :
    lastAssigned? (assignment :: assignments) key =
      (lastAssigned? assignments key).or
        (if assignment.1 = key then some assignment.2 else none) := by
  rw [lastAssigned?, lastAssigned?, List.filterMap_cons]
  by_cases hkey : assignment.1 = key
  · rw [if_pos hkey, List.getLast?_cons]
    rcases List.getLast? _ <;> rfl
  · rw [if_neg hkey, Option.or_none]

/-- A value that is laid over a setting takes its section away from the lists. -/
theorem givenUp_assign_iff (key other : SettingKey) {value : Setting} (h : value.IsLeaf)
    (target : Setting) (assignments : List (SettingKey × Setting)) :
    (assign other value target).GivenUp assignments key ↔
      key.sectionName ≠ other.sectionName ∧ target.GivenUp assignments key := by
  rw [GivenUp, GivenUp, isListed_assign other h]
  by_cases hsection : key.sectionName = other.sectionName
  · simp [hsection]
  · simp [hsection]

theorem givenUp_cons_iff (tree : Setting) (assignment : SettingKey × Setting)
    (assignments : List (SettingKey × Setting)) (key : SettingKey) :
    tree.GivenUp (assignment :: assignments) key ↔
      tree.isListed key.sectionName = true ∧ assignment.1.sectionName = key.sectionName ∨
        tree.GivenUp assignments key := by
  simp only [GivenUp, List.exists_mem_cons_iff, and_or_left]

/-- Values that are laid over settings, one after the other. Each is seen at its own setting, and at
the siblings of it only by what it does to a list. -/
theorem given?_foldl_assign {assignments : List (SettingKey × Setting)}
    (h : ∀ assignment ∈ assignments, assignment.2.IsLeaf) (tree : Setting) (key : SettingKey) :
    (assignments.foldl (fun tree assignment => assign assignment.1 assignment.2 tree) tree).given?
      key = layered? tree assignments key := by
  induction assignments generalizing tree with
  | nil => simp [layered?, lastAssigned?, GivenUp]
  | cons assignment assignments ih =>
    obtain ⟨other, value⟩ := assignment
    obtain ⟨hleaf, h⟩ := List.forall_mem_cons.mp h
    rw [List.foldl_cons, ih h, layered?, layered?, lastAssigned?_cons]
    simp only [givenUp_assign_iff key other hleaf, givenUp_cons_iff]
    by_cases hsection : key.sectionName = other.sectionName
    · by_cases hkey : other = key
      · rw [hkey, given?_assign_self key hleaf]
        simp
      · rw [given?_assign_sibling (Ne.symm hkey) hsection hleaf]
        by_cases hlisted : tree.isListed other.sectionName
        · simp [hkey, hsection, hlisted]
        · simp [hkey, hsection, hlisted, GivenUp]
    · have hkey : other ≠ key := fun heq => hsection (congrArg SettingKey.sectionName heq.symm)
      rw [given?_assign_other hsection hleaf]
      simp [hkey, hsection, Ne.symm hsection]

end Setting

namespace Toml.Value

/-- No key of a table has capitals. What stands in an array is not looked at. -/
inductive Lowercase : Value → Prop
  | table {origin : TableOrigin} {entries : List (String × Value)}
      (hkeys : ∀ entry ∈ entries, lowered entry.1 = entry.1)
      (hvalues : ∀ entry ∈ entries, Lowercase entry.2) : Lowercase (.table origin entries)
  | other {value : Value} (h : ∀ origin entries, value ≠ .table origin entries) : Lowercase value

end Toml.Value

namespace Setting

theorem ofTomlEntries_eq_map (entries : List (String × Toml.Value)) :
    ofTomlEntries entries = entries.map fun entry => (entry.1, ofToml entry.2) := by
  induction entries with
  | nil => rw [ofTomlEntries, List.map_nil]
  | cons entry entries ih => rw [ofTomlEntries, ih, List.map_cons]

/-- What is laid over a table under a name that it does not have is put behind its members. -/
def LaysItself (value : Toml.Value) : Prop :=
  ∀ {name : String} {base : List (String × Setting)}, lowered name = name →
    name ∉ base.map Prod.fst → lay name (ofToml value) (table base) =
      table (base ++ [(name, ofToml value)])

theorem layAll_of_new {entries : List (String × Toml.Value)} {base : List (String × Setting)}
    (hlowered : ∀ entry ∈ entries, lowered entry.1 = entry.1)
    (hvalues : ∀ entry ∈ entries, LaysItself entry.2) (hkeys : (entries.map Prod.fst).Nodup)
    (hnew : ∀ entry ∈ entries, entry.1 ∉ base.map Prod.fst) :
    layAll (ofTomlEntries entries) (table base) = table (base ++ ofTomlEntries entries) := by
  induction entries generalizing base with
  | nil => rw [ofTomlEntries, layAll, List.append_nil]
  | cons entry entries ih =>
    obtain ⟨name, value⟩ := entry
    obtain ⟨hloweredName, hlowered⟩ := List.forall_mem_cons.mp hlowered
    obtain ⟨hvalue, hvalues⟩ := List.forall_mem_cons.mp hvalues
    obtain ⟨hnewName, hnew⟩ := List.forall_mem_cons.mp hnew
    obtain ⟨hname, hkeys⟩ := List.nodup_cons.mp hkeys
    rw [ofTomlEntries, layAll, hvalue hloweredName hnewName, ih hlowered hvalues hkeys,
      List.append_assoc, List.singleton_append]
    intro entry hentry
    rw [List.map_append, List.mem_append, not_or]
    refine ⟨hnew entry hentry, ?_⟩
    intro heq
    rw [List.map_singleton, List.mem_singleton] at heq
    exact hname (heq ▸ List.mem_map_of_mem hentry)

/-- A table is laid member by member over an empty one, so its members have to lay themselves
first. -/
theorem laysItself_of_lowercase {value : Toml.Value} (hdistinct : value.Distinct)
    (hlowercase : value.Lowercase) : LaysItself value := by
  induction hdistinct with
  | @table origin entries hkeys _ ih =>
    cases hlowercase with
    | other h => exact absurd rfl (h origin entries)
    | table hlowered hvalues =>
      intro name base hname hnew
      have hentries : layAll (ofTomlEntries entries) (table []) =
          table ([] ++ ofTomlEntries entries) :=
        layAll_of_new hlowered (fun entry hentry => ih entry hentry (hvalues entry hentry)) hkeys
          (fun _ _ => List.not_mem_nil)
      rw [ofToml, lay, hname, Setting.entries, Toml.find?_of_not_mem hnew, Option.getD_none, hentries,
        Toml.put_of_not_mem hnew, List.nil_append]
  | _ =>
    intro name base hname hnew
    rw [lay_of_ne_table _ name, hname, entries, Toml.put_of_not_mem hnew]
    intro entries
    rw [ofToml]
    exact Setting.noConfusion

theorem exists_layAt (name : String) (steps : List Step) (value target : Setting) :
    ∃ entries, layAt (.member name :: steps) value target = table entries := by
  cases steps with
  | nil =>
    cases value with
    | table entries => exact ⟨_, by rw [layAt, lay]⟩
    | _ => exact ⟨_, by rw [layAt, lay_of_ne_table (fun _ => Setting.noConfusion)]⟩
  | cons step steps =>
    simp only [layAt]
    exact ⟨_, rfl⟩

theorem exists_pathOf (name : String) : ∃ first steps, pathOf name = .member first :: steps := by
  rw [pathOf]
  split
  · split
    · exact ⟨_, _, rfl⟩
    · exact ⟨_, _, rfl⟩
  · exact ⟨_, _, rfl⟩

theorem exists_overlay {tree : Setting} (h : ∃ entries, tree = table entries)
    (named : List (String × Setting)) : ∃ entries, tree.overlay named = table entries := by
  induction named generalizing tree with
  | nil => exact h
  | cons entry named ih =>
    obtain ⟨name, value⟩ := entry
    obtain ⟨first, steps, hpath⟩ := exists_pathOf name
    rw [overlay, List.foldl_cons]
    apply ih
    dsimp only
    rw [hpath]
    exact exists_layAt first steps value tree

theorem pathOf_of_isNameChar {name : String} (h : ∀ c ∈ name.toList, isNameChar c = true) :
    pathOf name = [.member name] := by
  have htake : name.toList.takeWhile isNameChar = name.toList := List.takeWhile_eq_self_iff.mpr h
  have hdrop : name.toList.dropWhile isNameChar = [] := List.dropWhile_eq_nil_iff.mpr h
  rw [pathOf, htake, hdrop, readSteps?, String.ofList_toList]
  exact ite_self _

theorem overlay_eq_layAll {named : List (String × Setting)}
    (h : ∀ entry ∈ named, pathOf entry.1 = [.member entry.1]) (tree : Setting) :
    tree.overlay named = layAll named tree := by
  induction named generalizing tree with
  | nil => rw [layAll, overlay, List.foldl_nil]
  | cons entry named ih =>
    obtain ⟨name, value⟩ := entry
    obtain ⟨hpath, h⟩ := List.forall_mem_cons.mp h
    rw [layAll, ← ih h, overlay, overlay, List.foldl_cons]
    simp only [hpath, layAt]

end Setting

/-- Keys without capitals, the first of which are names and not paths. -/
structure Toml.Table.Plain (document : Toml.Table) : Prop where
  lowercase : document.toValue.Lowercase
  named : ∀ entry ∈ document.entries, ∀ c ∈ entry.1.toList, Setting.isNameChar c = true

theorem Setting.overlay_of_plain {document : Toml.Table} (hdistinct : document.Distinct)
    (hplain : document.Plain) :
    (table []).overlay (ofTomlEntries document.entries) = table (ofTomlEntries document.entries) := by
  rw [overlay_eq_layAll]
  · cases hplain.lowercase with
    | other h => exact absurd rfl (h _ _)
    | table hlowered hvalues =>
      apply layAll_of_new hlowered _ hdistinct.nodup (fun _ _ => List.not_mem_nil)
      intro entry hentry
      exact laysItself_of_lowercase (hdistinct.values entry hentry) (hvalues entry hentry)
  · rw [ofTomlEntries_eq_map]
    intro entry hentry
    obtain ⟨old, hold, rfl⟩ := List.mem_map.mp hentry
    exact pathOf_of_isNameChar (hplain.named old hold)

end EnsembleTransport
