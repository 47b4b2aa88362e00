import EnsembleTransport.Proofs.Metadata.Runs

/-!
# Groups that cannot be decoded

Behind the longest run of complete records there is too little for a header, a marker that comes
before every required tag was met, or a value that is cut off. Each of these gives one fault, told
from the octets at that place and from the records in front of it, and a group is decoded exactly
when none of them is there.
-/

namespace EnsembleTransport.Metadata

def absent (records : List Record) : List String :=
  ([((1 : UInt8), "utc_offset"), (2, "edi_time"), (3, "dlfc")].filter fun (tag, _) =>
    records.all (·.tag != tag)).map Prod.snd

/-- What is wrong with a group whose complete records end at an offset. -/
inductive Broken (block : Octets) (place : Nat) (records : List Record) : MessageFault → Prop where
  | header (hshort : block.length - place < 3) :
      Broken block place records (.truncatedMetadata none place 3 (block.length - place))
  | marker (hroom : 3 ≤ block.length - place) (htag : Octets.octet block place = 0)
      (habsent : absent records ≠ []) :
      Broken block place records (.incompleteMetadata (absent records) place)
  | value (hroom : 3 ≤ block.length - place) (htag : Octets.octet block place ≠ 0)
      (hshort : block.length - place <
        3 + wireSize (Octets.octet block place) (declaredAt block place)) :
      Broken block place records (.truncatedMetadata (some (Octets.octet block place).toNat) place
        (3 + wireSize (Octets.octet block place) (declaredAt block place)) (block.length - place))

theorem isNone_lastValue? (records : List Record) (tag : Tag) :
    (lastValue? records tag).isNone = records.all (·.tag != tag.toOctet) := by
  rw [Bool.eq_iff_iff, Option.isNone_iff_eq_none, ← Option.not_isSome_iff_eq_none,
    isSome_lastValue?_iff]
  simp

theorem missing_eq_absent (records : List Record) : missing records = absent records := by
  have htags : [((1 : UInt8), "utc_offset"), (2, "edi_time"), (3, "dlfc")] =
      Tag.required.map fun tag => (tag.toOctet, tag.name) := rfl
  rw [absent, htags, List.filter_map, List.map_map, missing]
  simp only [isNone_lastValue?]
  rfl

theorem attributes?_eq_none_iff {records : List Record} :
    attributes? records = none ↔ absent records ≠ [] := by
  rw [← missing_eq_absent, missing, ne_eq, List.map_eq_nil_iff, List.filter_eq_nil_iff,
    ← Option.not_isSome_iff_eq_none, isSome_attributes?_iff]
  simp [← isSome_lastValue?_iff]

section Place

variable {block : Octets} {start place : Nat} {records : List Record} {ending : Ending}
  {fault : MessageFault}

theorem broken_of_stops (hplace : place = start + totalSize records)
    (hstops : Stops (block.drop place) ending) (h : conclude start records ending = .error fault) :
    Broken block place records fault := by
  generalize hrest : block.drop place = rest at hstops
  have hlength : block.length - place = rest.length := by rw [← hrest, List.length_drop]
  cases hstops with
  | header hshort =>
    cases h
    rw [← hplace, ← hlength]
    exact .header (hlength ▸ hshort)
  | marker high low body =>
    cases hattributes : attributes? records with
    | some metadata => simp [conclude, hattributes] at h
    | none =>
      simp only [conclude, hattributes, missing_eq_absent, ← hplace] at h
      cases h
      refine .marker ?_ (header_of_drop hrest).1 (attributes?_eq_none_iff.mp hattributes)
      rw [hlength]
      exact Nat.le_add_left 3 body.length
  | value tag high low body hne hcut =>
    obtain ⟨htag, hdeclared⟩ := header_of_drop hrest
    have hleft : block.length - place = 3 + body.length := by
      rw [hlength]
      exact Nat.add_comm body.length 3
    rw [conclude_value, ← hplace, ← hleft, ← hdeclared, ← htag] at h
    cases h
    refine .value (by omega) (htag ▸ hne) ?_
    rw [htag, hdeclared, hleft]
    exact Nat.add_lt_add_left hcut 3

theorem exists_stops_of_broken (hplace : place = start + totalSize records)
    (h : Broken block place records fault) :
    ∃ ending, Stops (block.drop place) ending ∧ conclude start records ending = .error fault := by
  have hlength : (block.drop place).length = block.length - place := List.length_drop
  cases h with
  | header hshort =>
    refine ⟨_, .header (by rwa [hlength]), ?_⟩
    rw [hlength, hplace]
    rfl
  | marker hroom htag habsent =>
    obtain ⟨tag, high, low, body, hdrop⟩ := exists_header_of_room hroom
    obtain ⟨rfl, -⟩ := header_of_drop hdrop
    rw [hdrop, htag]
    refine ⟨_, .marker high low body, ?_⟩
    simp only [conclude, attributes?_eq_none_iff.mpr habsent, missing_eq_absent, hplace]
  | value hroom hne hshort =>
    obtain ⟨tag, high, low, body, hdrop⟩ := exists_header_of_room hroom
    obtain ⟨rfl, hdeclared⟩ := header_of_drop hdrop
    have hleft : block.length - place = 3 + body.length := by
      rw [← hlength, hdrop]
      exact Nat.add_comm body.length 3
    rw [hdeclared, hleft] at hshort
    have hcut := Nat.lt_of_add_lt_add_left hshort
    rw [hdrop, hdeclared, hleft]
    refine ⟨_, .value _ high low body hne hcut, ?_⟩
    rw [conclude_value, hplace]

theorem decodeGroup_eq_error_iff (h : RunsFurthest block start place records) :
    (decodeGroup block start).value = .error fault ↔ Broken block place records fault := by
  obtain ⟨-, -, hplace⟩ := runsFurthest_iff.mp h
  obtain ⟨ending, hscan, hstops⟩ := exists_stops h
  have hvalue : (decodeGroup block start).value = conclude start records ending := by
    rw [decodeGroup, hscan]
  rw [hvalue]
  constructor
  · exact broken_of_stops hplace hstops
  · intro hbroken
    obtain ⟨other, hother, hfault⟩ := exists_stops_of_broken hplace hbroken
    cases (scan_of_stops hother).symm.trans (scan_of_stops hstops)
    exact hfault

end Place

/-- From every offset of a block there is a longest run of complete records, and decoding fails
exactly when the group is broken behind it, with the fault that tells how. What is missing in front
of a marker is listed by name. -/
theorem decodeGroup_fault_behind_run (block : Octets) (start : Nat) :
    (start ≤ block.length → ∃ place records, RunsFurthest block start place records) ∧
    ∀ place records, RunsFurthest block start place records →
      (∀ fault, (decodeGroup block start).value = .error fault ↔
        Broken block place records fault) ∧
      (MessageFault.incompleteMetadata (absent records) place).message =
        "Incomplete metadata: missing " ++ ", ".intercalate (absent records) ++
          s!" before separation marker at offset {place}" := by
  constructor
  · intro hstart
    exact ⟨_, _, runsFurthest_iff.mpr ⟨hstart, rfl, rfl⟩⟩
  · intro place records h
    exact ⟨fun fault => decodeGroup_eq_error_iff h, rfl⟩

/-- An unknown record and one that declares a wrong length stand in front of an early marker. -/
example : (decodeGroup [9, 0, 1, 0, 1, 0, 7, 0, 37, 0, 0, 0] 0).value =
    .error (.incompleteMetadata ["edi_time", "dlfc"] 9) := by cbv

end EnsembleTransport.Metadata
