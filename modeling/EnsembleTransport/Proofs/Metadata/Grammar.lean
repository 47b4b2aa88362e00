import EnsembleTransport.Metadata.Group
import EnsembleTransport.Proofs.Message.Windows

/-!
# The grammar of record groups

A group is a run of records without a marker among them, and a marker behind them. Decoding accepts
exactly the groups in which every required tag occurs, and no octets can be read as a group in two
ways.
-/

namespace EnsembleTransport.Metadata

/-- Octets of a value on the wire: fixed for the known tags, as declared for all others. -/
def wireSize (tag : UInt8) (declared : Nat) : Nat :=
  if tag = 0 then 0
  else if tag = 1 then 2
  else if tag = 2 then 4
  else if tag = 3 then 2
  else declared

/-- The octets spell the records, none of which is a marker, and then one marker. -/
inductive Spells : List Record → Octets → Prop where
  | marker (high low : UInt8) : Spells [] [0, high, low]
  | record {records : List Record} {rest : Octets} (tag high low : UInt8) (value : Octets) :
    tag ≠ 0 → value.length = wireSize tag (256 * high.toNat + low.toNat) → Spells records rest →
    Spells (⟨tag, .ofNat (256 * high.toNat + low.toNat), value⟩ :: records)
      (tag :: high :: low :: (value ++ rest))

def IsLast (records : List Record) (tag : UInt8) (r : Record) : Prop :=
  ∃ before after, records = before ++ r :: after ∧ r.tag = tag ∧ ∀ other ∈ after, other.tag ≠ tag

theorem valueSize_eq_wireSize (tag : UInt8) (declared : Nat) :
    valueSize tag declared = wireSize tag declared := by
  cases htag : Tag.ofOctet? tag with
  | none =>
    have hlarge := Tag.ofOctet?_eq_none_iff.mp htag
    have hne (small : UInt8) (h : small.toNat < 4) : tag ≠ small := by
      rintro rfl
      omega
    simp [valueSize, htag, wireSize, hne 0 (by decide), hne 1 (by decide), hne 2 (by decide),
      hne 3 (by decide)]
  | some known =>
    rw [valueSize, htag, ← Tag.toOctet_of_ofOctet? htag]
    cases known <;> rfl

theorem big_pair (high low : UInt8) : Octets.big [high, low] = 256 * high.toNat + low.toNat := by
  simp only [Octets.big, List.reverse_cons, List.reverse_nil, List.nil_append, List.cons_append,
    Octets.little_cons, Octets.little_nil]
  omega

theorem toNat_ofNat_pair (high low : UInt8) :
    (UInt16.ofNat (256 * high.toNat + low.toNat)).toNat = 256 * high.toNat + low.toNat := by
  have hhigh := high.toNat_lt
  have hlow := low.toNat_lt
  rw [UInt16.toNat_ofNat']
  omega

theorem readRecord_eq (tag high low : UInt8) (value rest : Octets)
    (h : value.length = wireSize tag (256 * high.toNat + low.toNat)) :
    readRecord (tag :: high :: low :: (value ++ rest)) =
      .ok (⟨tag, .ofNat (256 * high.toNat + low.toNat), value⟩, rest) := by
  simp only [readRecord, big_pair, toNat_ofNat_pair, valueSize_eq_wireSize, ← h, List.take_left,
    List.drop_left, if_true]

theorem eq_of_readRecord {bytes rest : Octets} {r : Record} (h : readRecord bytes = .ok (r, rest)) :
    ∃ high low, bytes = r.tag :: high :: low :: (r.value ++ rest) ∧
      r.declared = .ofNat (256 * high.toNat + low.toNat) ∧
      r.value.length = wireSize r.tag (256 * high.toNat + low.toNat) := by
  unfold readRecord at h
  split at h
  · rename_i tag high low body
    dsimp only at h
    split at h
    · rename_i hvalue
      cases h
      refine ⟨high, low, ?_, by rw [big_pair], ?_⟩
      · rw [List.take_append_drop]
      · rw [hvalue, valueSize_eq_wireSize, big_pair, toNat_ofNat_pair]
    · cases h
  · cases h

theorem isMarker_iff (r : Record) : r.isMarker = true ↔ r.tag = 0 := by
  rw [Record.isMarker, beq_iff_eq]
  rfl

section Scan

variable {bytes rest : Octets} {r : Record}

theorem scan_of_shortage {shortage : Shortage} (h : readRecord bytes = .error shortage) :
    scan bytes = ([], .cut shortage) := by
  rw [scan]
  split
  · rename_i hread
    cases h.symm.trans hread
    rfl
  · rename_i hread
    cases h.symm.trans hread

theorem scan_of_marker (h : readRecord bytes = .ok (r, rest)) (hr : r.tag = 0) :
    scan bytes = ([], .marker r.declared rest) := by
  rw [scan]
  split
  · rename_i hread
    cases h.symm.trans hread
  · rename_i hread
    cases h.symm.trans hread
    rw [if_pos ((isMarker_iff r).mpr hr)]

theorem scan_of_record (h : readRecord bytes = .ok (r, rest)) (hr : r.tag ≠ 0) :
    scan bytes = (r :: (scan rest).1, (scan rest).2) := by
  rw [scan]
  split
  · rename_i hread
    cases h.symm.trans hread
  · rename_i hread
    cases h.symm.trans hread
    rw [if_neg (mt (isMarker_iff r).mp hr)]

end Scan

/-- Scanning octets that start with a group gives its records and what follows the group. -/
theorem scan_of_spells {records : List Record} {group : Octets} (h : Spells records group)
    (rest : Octets) : ∃ declared, scan (group ++ rest) = (records, .marker declared rest) := by
  induction h with
  | marker high low =>
    exact ⟨_, scan_of_marker (readRecord_eq 0 high low [] rest rfl) rfl⟩
  | @record records group tag high low value htag hsize _ ih =>
    obtain ⟨declared, ih⟩ := ih
    have hscan := scan_of_record (readRecord_eq tag high low value (group ++ rest) hsize) htag
    rw [ih] at hscan
    refine ⟨declared, ?_⟩
    rw [List.cons_append, List.cons_append, List.cons_append, List.append_assoc]
    exact hscan

theorem spells_of_scan {bytes rest : Octets} {records : List Record} {declared : UInt16}
    (h : scan bytes = (records, .marker declared rest)) :
    ∃ group, Spells records group ∧ bytes = group ++ rest := by
  induction records generalizing bytes with
  | nil =>
    cases hread : readRecord bytes with
    | error shortage => cases (scan_of_shortage hread).symm.trans h
    | ok pair =>
      obtain ⟨r, body⟩ := pair
      obtain ⟨high, low, hbytes, _, hsize⟩ := eq_of_readRecord hread
      by_cases hr : r.tag = 0
      · cases (scan_of_marker hread hr).symm.trans h
        rw [hr] at hbytes hsize
        rw [List.length_eq_zero_iff.mp hsize] at hbytes
        exact ⟨_, .marker high low, hbytes⟩
      · cases congrArg Prod.fst ((scan_of_record hread hr).symm.trans h)
  | cons first records ih =>
    cases hread : readRecord bytes with
    | error shortage => cases (scan_of_shortage hread).symm.trans h
    | ok pair =>
      obtain ⟨r, body⟩ := pair
      obtain ⟨high, low, hbytes, hdeclared, hsize⟩ := eq_of_readRecord hread
      by_cases hr : r.tag = 0
      · cases (scan_of_marker hread hr).symm.trans h
      · obtain ⟨hrecords, hending⟩ := Prod.mk.inj ((scan_of_record hread hr).symm.trans h)
        obtain ⟨rfl, hlater⟩ := List.cons.inj hrecords
        obtain ⟨group, hgroup, rfl⟩ := ih (Prod.ext hlater hending)
        obtain ⟨tag, _, value⟩ := r
        subst hdeclared
        refine ⟨_, .record tag high low value hr hsize hgroup, ?_⟩
        rw [hbytes, ← List.append_assoc]
        rfl

theorem length_of_spells {records : List Record} {group : Octets} (h : Spells records group) :
    group.length = totalSize records + recordHeaderSize := by
  induction h with
  | marker high low => rfl
  | record tag high low value _ _ _ ih =>
    simp only [List.length_cons, List.length_append, ih, totalSize, List.map_cons, List.sum_cons,
      Record.size, recordHeaderSize]
    omega

/-- Of two groups at the start of the same octets neither is longer, and both are the same. -/
theorem spells_unique {records records' : List Record} {group group' rest rest' : Octets}
    (h : Spells records group) (h' : Spells records' group')
    (heq : group ++ rest = group' ++ rest') : records = records' ∧ group = group' := by
  obtain ⟨_, hscan⟩ := scan_of_spells h rest
  obtain ⟨_, hscan'⟩ := scan_of_spells h' rest'
  rw [heq] at hscan
  cases hscan.symm.trans hscan'
  exact ⟨rfl, List.append_cancel_right heq⟩

theorem length_value_of_spells {records : List Record} {group : Octets} (h : Spells records group) :
    ∀ r ∈ records, r.value.length = wireSize r.tag r.declared.toNat := by
  induction h with
  | marker => exact fun r hr => nomatch hr
  | record tag high low value _ hsize _ ih =>
    intro r hr
    rcases List.mem_cons.mp hr with rfl | hr
    · rw [toNat_ofNat_pair]
      exact hsize
    · exact ih r hr

theorem exists_isLast_iff {records : List Record} {tag : UInt8} :
    (∃ r, IsLast records tag r) ↔ ∃ r ∈ records, r.tag = tag := by
  constructor
  · rintro ⟨r, before, after, rfl, htag, _⟩
    exact ⟨r, List.mem_append_right _ List.mem_cons_self, htag⟩
  · intro h
    induction records with
    | nil => simp at h
    | cons first records ih =>
      by_cases hlater : ∃ r ∈ records, r.tag = tag
      · obtain ⟨last, before, after, rfl, hlast⟩ := ih hlater
        exact ⟨last, first :: before, after, rfl, hlast⟩
      · obtain ⟨r, hr, htag⟩ := h
        rcases List.mem_cons.mp hr with rfl | hr
        · exact ⟨r, [], records, rfl, htag, fun other ho he => hlater ⟨other, ho, he⟩⟩
        · exact absurd ⟨r, hr, htag⟩ hlater

theorem lastValue?_of_isLast {records : List Record} {tag : Tag} {r : Record}
    (h : IsLast records tag.toOctet r) : lastValue? records tag = some r.value := by
  obtain ⟨before, after, rfl, htag, hafter⟩ := h
  have hnone : after.filter (·.tag == tag.toOctet) = [] := by
    rw [List.filter_eq_nil_iff]
    intro other hother
    simpa using hafter other hother
  simp [lastValue?, List.filter_append, htag, hnone]

theorem isSome_lastValue?_iff {records : List Record} {tag : Tag} :
    (lastValue? records tag).isSome ↔ ∃ r ∈ records, r.tag = tag.toOctet := by
  simp [lastValue?]

theorem toInt_toInt16_ofNat {n : Nat} (h : n < 65536) :
    (UInt16.ofNat n).toInt16.toInt = Word.signed16 n := by
  have hsize : Int16.size = 65536 := rfl
  rw [UInt16.toInt16_ofNat', Int16.toInt_ofNat', Int.bmod_def, Word.signed16, hsize]
  split <;> split <;> omega

/-- The attributes are the numbers in the last records of the required tags. -/
structure Tells (records : List Record) (metadata : FrameMetadata) : Prop where
  utcOffset : ∃ r, IsLast records 1 r ∧
    metadata.utcOffset.toInt = Word.signed16 (Octets.big r.value)
  ediTime : ∃ r, IsLast records 2 r ∧ metadata.ediTime.toNat = Octets.big r.value
  dlfc : ∃ r, IsLast records 3 r ∧ metadata.dlfc.toNat = Octets.big r.value

theorem tells_of_attributes? {records : List Record} {metadata : FrameMetadata}
    (hsize : ∀ r ∈ records, r.value.length = wireSize r.tag r.declared.toNat)
    (h : attributes? records = some metadata) : Tells records metadata := by
  have hlast {tag : Tag} {value : Octets} (hvalue : lastValue? records tag = some value) :
      ∃ r, IsLast records tag.toOctet r ∧ r.value = value ∧
        ∀ size, wireSize tag.toOctet r.declared.toNat = size → Octets.big value < 256 ^ size := by
    obtain ⟨r, hr⟩ := exists_isLast_iff.mpr
      (isSome_lastValue?_iff.mp (Option.isSome_of_eq_some hvalue))
    cases (lastValue?_of_isLast hr).symm.trans hvalue
    refine ⟨r, hr, rfl, ?_⟩
    rintro size rfl
    obtain ⟨before, after, rfl, htag, _⟩ := hr
    rw [← htag, ← hsize r (List.mem_append_right _ List.mem_cons_self)]
    exact Octets.big_lt r.value
  simp only [attributes?, Option.bind_eq_bind, Option.bind_eq_some_iff, Option.pure_def,
    Option.some.injEq] at h
  obtain ⟨utcOffset, hutc, ediTime, hedi, dlfc, hdlfc, rfl⟩ := h
  obtain ⟨r₁, hr₁, rfl, hbound₁⟩ := hlast hutc
  obtain ⟨r₂, hr₂, rfl, hbound₂⟩ := hlast hedi
  obtain ⟨r₃, hr₃, rfl, hbound₃⟩ := hlast hdlfc
  have hbound₁ := hbound₁ 2 rfl
  have hbound₂ := hbound₂ 4 rfl
  have hbound₃ := hbound₃ 2 rfl
  refine ⟨⟨r₁, hr₁, ?_⟩, ⟨r₂, hr₂, ?_⟩, ⟨r₃, hr₃, ?_⟩⟩
  · exact toInt_toInt16_ofNat (by omega)
  · rw [UInt32.toNat_ofNat']
    omega
  · rw [UInt16.toNat_ofNat']
    omega

theorem isSome_attributes?_iff {records : List Record} :
    (attributes? records).isSome ↔ ∀ tag ∈ Tag.required, ∃ r ∈ records, r.tag = tag.toOctet := by
  simp only [← isSome_lastValue?_iff, Tag.required, List.forall_mem_cons]
  cases hutc : lastValue? records .utcOffset <;> cases hedi : lastValue? records .ediTime <;>
    cases hdlfc : lastValue? records .dlfc <;> simp [attributes?, hutc, hedi, hdlfc]

/-- Decoding succeeds on a group with all required tags, and only there. -/
theorem decodeGroup_eq_ok {block : Octets} {start stop : Nat} {metadata : FrameMetadata} :
    (decodeGroup block start).value = .ok (metadata, stop) ↔
      ∃ records group rest, Spells records group ∧ block.drop start = group ++ rest ∧
        attributes? records = some metadata ∧ stop = start + group.length := by
  constructor
  · intro h
    simp only [decodeGroup] at h
    cases hending : (scan (block.drop start)).2 with
    | cut shortage =>
      rw [hending] at h
      cases h
    | marker declared rest =>
      obtain ⟨group, hgroup, hdrop⟩ := spells_of_scan (Prod.ext rfl hending)
      rw [hending, conclude] at h
      cases hattributes : attributes? (scan (block.drop start)).1 with
      | none =>
        simp only [hattributes] at h
        cases h
      | some found =>
        simp only [hattributes] at h
        cases h
        refine ⟨_, group, rest, hgroup, hdrop, hattributes, ?_⟩
        rw [length_of_spells hgroup, Nat.add_assoc]
  · rintro ⟨records, group, rest, hgroup, hdrop, hattributes, rfl⟩
    obtain ⟨declared, hscan⟩ := scan_of_spells hgroup rest
    simp only [decodeGroup, hdrop, hscan, conclude, hattributes, length_of_spells hgroup,
      Nat.add_assoc]

theorem spells_window_iff {block : Octets} {start stop : Nat} {records : List Record} :
    (start ≤ stop ∧ stop ≤ block.length ∧
        Spells records (Octets.window block start (stop - start))) ↔
      ∃ group rest, Spells records group ∧ block.drop start = group ++ rest ∧
        stop = start + group.length := by
  constructor
  · rintro ⟨hle, hstop, hgroup⟩
    refine ⟨_, (block.drop start).drop (stop - start), hgroup,
      (List.take_append_drop _ _).symm, ?_⟩
    rw [Octets.length_window_of_le (by omega)]
    omega
  · rintro ⟨group, rest, hgroup, hdrop, rfl⟩
    have hlength := congrArg List.length hdrop
    have hsize := length_of_spells hgroup
    simp only [List.length_drop, List.length_append, recordHeaderSize] at hlength hsize
    refine ⟨by omega, by omega, ?_⟩
    rwa [Octets.window, hdrop, Nat.add_sub_cancel_left, List.take_left]

/-- Decoding accepts exactly the groups of the grammar in which each required tag occurs. The
attributes are those of the last records, and a block has at most one group at each offset. -/
theorem decodeGroup_accepts_grammar (block : Octets) (start : Nat) :
    (∀ stop, (∃ metadata, (decodeGroup block start).value = .ok (metadata, stop)) ↔
      start ≤ stop ∧ stop ≤ block.length ∧ ∃ records,
        Spells records (Octets.window block start (stop - start)) ∧
        (∃ r ∈ records, r.tag = 1) ∧ (∃ r ∈ records, r.tag = 2) ∧ (∃ r ∈ records, r.tag = 3)) ∧
    (∀ metadata stop records, (decodeGroup block start).value = .ok (metadata, stop) →
      Spells records (Octets.window block start (stop - start)) → Tells records metadata) ∧
    (∀ stop stop' records records', start ≤ stop → stop ≤ block.length →
      start ≤ stop' → stop' ≤ block.length →
      Spells records (Octets.window block start (stop - start)) →
      Spells records' (Octets.window block start (stop' - start)) →
        stop = stop' ∧ records = records') := by
  have hrequired (records : List Record) :
      ((∃ r ∈ records, r.tag = 1) ∧ (∃ r ∈ records, r.tag = 2) ∧ (∃ r ∈ records, r.tag = 3)) ↔
        (attributes? records).isSome := by
    rw [isSome_attributes?_iff]
    simp [Tag.required, Tag.toOctet]
  refine ⟨?_, ?_, ?_⟩
  · intro stop
    simp only [hrequired]
    constructor
    · rintro ⟨metadata, h⟩
      obtain ⟨records, group, rest, hgroup, hdrop, hattributes, hstop⟩ := decodeGroup_eq_ok.mp h
      obtain ⟨hle, hbound, hwindow⟩ := spells_window_iff.mpr ⟨group, rest, hgroup, hdrop, hstop⟩
      exact ⟨hle, hbound, records, hwindow, Option.isSome_of_eq_some hattributes⟩
    · rintro ⟨hle, hbound, records, hwindow, hattributes⟩
      obtain ⟨group, rest, hgroup, hdrop, hstop⟩ := spells_window_iff.mp ⟨hle, hbound, hwindow⟩
      obtain ⟨metadata, hmetadata⟩ := Option.isSome_iff_exists.mp hattributes
      exact ⟨metadata,
        decodeGroup_eq_ok.mpr ⟨records, group, rest, hgroup, hdrop, hmetadata, hstop⟩⟩
  · intro metadata stop records h hwindow
    obtain ⟨decoded, group, rest, hgroup, hdrop, hattributes, rfl⟩ := decodeGroup_eq_ok.mp h
    rw [Octets.window, hdrop, Nat.add_sub_cancel_left, List.take_left] at hwindow
    obtain ⟨rfl, _⟩ := spells_unique hwindow hgroup (rfl : group ++ [] = group ++ [])
    exact tells_of_attributes? (length_value_of_spells hgroup) hattributes
  · intro stop stop' records records' hle hbound hle' hbound' hwindow hwindow'
    obtain ⟨group, rest, hgroup, hdrop, rfl⟩ := spells_window_iff.mp ⟨hle, hbound, hwindow⟩
    obtain ⟨group', rest', hgroup', hdrop', rfl⟩ :=
      spells_window_iff.mp ⟨hle', hbound', hwindow'⟩
    obtain ⟨rfl, rfl⟩ := spells_unique hgroup hgroup' (hdrop.symm.trans hdrop')
    exact ⟨rfl, rfl⟩

end EnsembleTransport.Metadata
