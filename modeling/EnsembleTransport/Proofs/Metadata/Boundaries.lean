import EnsembleTransport.Proofs.Metadata.Runs

/-!
# Where groups end

A group carries its own end. Whatever stands behind its marker does not change how it is decoded,
nor that it is found incomplete, and a group that was cut short is never taken for a shorter one or
for an incomplete one.
-/

namespace EnsembleTransport.Metadata

theorem exists_group_of_scan {bytes rest : Octets} {records : List Record} {declared : UInt16}
    (h : scan bytes = (records, .marker declared rest)) :
    ∃ group, bytes = group ++ rest ∧ group.length = totalSize records + recordHeaderSize ∧
      ∀ more, scan (group ++ more) = (records, .marker declared more) := by
  obtain ⟨run, back, rfl, hrun, hstops⟩ := scan_eq_iff.mp h
  cases hstops with
  | marker high low =>
    refine ⟨run ++ [0, high, low], by simp, ?_, fun more => ?_⟩
    · rw [List.length_append, length_of_spellsRun hrun]
      rfl
    · exact scan_eq_iff.mpr ⟨run, 0 :: high :: low :: more, by simp, hrun, .marker high low more⟩

theorem scan_append_of_marker {bytes rest : Octets} {records : List Record} {declared : UInt16}
    (h : scan bytes = (records, .marker declared rest)) (more : Octets) :
    scan (bytes ++ more) = (records, .marker declared (rest ++ more)) := by
  obtain ⟨group, rfl, -, hgroup⟩ := exists_group_of_scan h
  rw [List.append_assoc]
  exact hgroup (rest ++ more)

/-- Blocks with the same records in front of the same marker are decoded alike, warnings and all. -/
theorem decodeGroup_congr {block other rest rest' : Octets} {start : Nat} {records : List Record}
    {declared : UInt16} (h : scan (block.drop start) = (records, .marker declared rest))
    (h' : scan (other.drop start) = (records, .marker declared rest')) :
    decodeGroup block start = decodeGroup other start := by
  rw [decodeGroup, decodeGroup, h, h']
  rfl

section Decoded

variable {block : Octets} {start stop : Nat} {metadata : FrameMetadata}

theorem exists_scan_of_ok (h : (decodeGroup block start).value = .ok (metadata, stop)) :
    ∃ records declared rest, scan (block.drop start) = (records, .marker declared rest) ∧
      stop = start + totalSize records + recordHeaderSize := by
  obtain ⟨records, group, rest, hgroup, hdrop, -, hstop⟩ := decodeGroup_eq_ok.mp h
  obtain ⟨declared, hscan⟩ := scan_of_spells hgroup rest
  rw [length_of_spells hgroup, ← Nat.add_assoc] at hstop
  exact ⟨records, declared, rest, hdrop ▸ hscan, hstop⟩

/-- Only a scan that ends at a marker finds a group incomplete. -/
theorem exists_scan_of_incomplete {names : List String} {offset : Nat}
    (h : (decodeGroup block start).value = .error (.incompleteMetadata names offset)) :
    ∃ records declared rest, scan (block.drop start) = (records, .marker declared rest) := by
  simp only [decodeGroup] at h
  cases hending : (scan (block.drop start)).2 with
  | cut shortage =>
    rw [hending] at h
    cases shortage <;> cases h
  | marker declared rest => exact ⟨_, declared, rest, Prod.ext rfl hending⟩

theorem exists_truncation_of_cut {shortage : Shortage}
    (h : (scan (block.drop start)).2 = .cut shortage) : ∃ tag offset need remaining,
      (decodeGroup block start).value = .error (.truncatedMetadata tag offset need remaining) := by
  simp only [decodeGroup, h]
  cases shortage with
  | header left => exact ⟨_, _, _, _, rfl⟩
  | value tag declared left => exact ⟨_, _, _, _, rfl⟩

theorem bounds_of_scan {records : List Record} {declared : UInt16} {rest : Octets}
    (h : scan (block.drop start) = (records, .marker declared rest)) :
    start + totalSize records + recordHeaderSize ≤ block.length := by
  obtain ⟨group, hgroup, hlength, -⟩ := exists_group_of_scan h
  have hwhole := congrArg List.length hgroup
  rw [List.length_drop, List.length_append, hlength, recordHeaderSize] at hwhole
  rw [recordHeaderSize]
  omega

end Decoded

/-- A group is decoded in the same way whatever stands behind it, and a part of it from the front on
is truncated. A group that is incomplete stays so whatever stands behind the block. -/
theorem decodeGroup_delimits_itself (block : Octets) (start : Nat) :
    (∀ metadata stop, (decodeGroup block start).value = .ok (metadata, stop) →
      (∀ more, decodeGroup (block.take stop ++ more) start = decodeGroup block start) ∧
      ∀ k < stop, ∃ tag offset need remaining, (decodeGroup (block.take k) start).value =
        .error (.truncatedMetadata tag offset need remaining)) ∧
    ∀ names offset, (decodeGroup block start).value = .error (.incompleteMetadata names offset) →
      ∀ more, decodeGroup (block ++ more) start = decodeGroup block start := by
  constructor
  · intro metadata stop h
    obtain ⟨records, declared, rest, hscan, hstop⟩ := exists_scan_of_ok h
    have hbound := bounds_of_scan hscan
    constructor
    · intro more
      obtain ⟨group, hdrop, hlength, hgroup⟩ := exists_group_of_scan hscan
      have hfront : (block.take stop ++ more).drop start = group ++ more := by
        rw [List.drop_append_of_le_length (by rw [List.length_take]; omega), List.drop_take, hdrop,
          hstop, Nat.add_assoc, ← hlength, Nat.add_sub_cancel_left, List.take_left]
      exact decodeGroup_congr (hfront ▸ hgroup more) hscan
    · intro k hk
      cases hending : (scan ((block.take k).drop start)).2 with
      | cut shortage => exact exists_truncation_of_cut hending
      | marker declared' rest' =>
        have hshort : scan ((block.take k).drop start) = (_, .marker declared' rest') :=
          Prod.ext rfl hending
        have hinside := bounds_of_scan hshort
        rw [List.length_take] at hinside
        have hwhole := scan_append_of_marker hshort (block.drop k)
        rw [← List.drop_append_of_le_length (by rw [List.length_take]; omega),
          List.take_append_drop] at hwhole
        cases hscan.symm.trans hwhole
        omega
  · intro names offset h more
    obtain ⟨records, declared, rest, hscan⟩ := exists_scan_of_incomplete h
    have hbound := bounds_of_scan hscan
    have hmore := scan_append_of_marker hscan more
    rw [← List.drop_append_of_le_length (by omega)] at hmore
    exact decodeGroup_congr hmore hscan

end EnsembleTransport.Metadata
