import EnsembleTransport.Proofs.Metadata.Boundaries

/-!
# Blocks put one behind the other

Decoding does not depend on where a group stands, only its offsets do. So the groups of two blocks
put one behind the other are those of the first and then those of the second, and a fault among the
latter has its offset moved by the length of the first. A reader that has met a fault stays in front
of it.
-/

namespace EnsembleTransport

namespace Metadata

/-- An answer for a block that starts `n` octets later. -/
def moved (n : Nat) : Except MessageFault (FrameMetadata × Nat) →
    Except MessageFault (FrameMetadata × Nat)
  | .ok (metadata, stop) => .ok (metadata, n + stop)
  | .error fault => .error (fault.shift n)

theorem conclude_add (n start : Nat) (records : List Record) (ending : Ending) :
    conclude (n + start) records ending = moved n (conclude start records ending) := by
  have hplace : n + start + totalSize records = start + totalSize records + n := by omega
  cases ending with
  | marker declared rest =>
    cases hattributes : attributes? records with
    | none => simp only [conclude, hattributes, moved, MessageFault.shift, hplace]
    | some metadata => simp only [conclude, hattributes, moved, Nat.add_assoc]
  | cut shortage =>
    cases shortage with
    | header left => simp only [conclude, Shortage.fault, moved, MessageFault.shift, hplace]
    | value tag declared left =>
      simp only [conclude, Shortage.fault, moved, MessageFault.shift, hplace]

/-- A group is decoded in the same way with other octets in front of its block. -/
theorem decodeGroup_behind (front block : Octets) (start : Nat) :
    (decodeGroup (front ++ block) (front.length + start)).value =
      moved front.length (decodeGroup block start).value := by
  have hdrop : (front ++ block).drop (front.length + start) = block.drop start := by
    rw [← List.drop_drop, List.drop_left]
  simp only [decodeGroup, hdrop]
  exact conclude_add front.length start _ _

theorem totalSize_erase {records : List Record} {r : Record} (h : r ∈ records) :
    totalSize records = r.size + totalSize (records.erase r) :=
  ((List.perm_cons_erase h).map Record.size).sum_nat

theorem recordSize_of_toOctet {r : Record} {tag : Tag} (htag : r.tag = tag.toOctet)
    (h : r.value.length = wireSize r.tag r.declared.toNat) : r.size = tag.recordSize := by
  rw [Record.size, h, htag, ← valueSize_eq_wireSize, valueSize, Tag.ofOctet?_toOctet, Tag.recordSize]

/-- Each of several tags that occur takes up the size of its record. Taking one record out leaves
those of the other tags. -/
theorem sum_recordSize_le {tags : List Tag} {records : List Record} (hnodup : tags.Nodup)
    (hsize : ∀ r ∈ records, r.value.length = wireSize r.tag r.declared.toNat)
    (h : ∀ tag ∈ tags, ∃ r ∈ records, r.tag = tag.toOctet) :
    (tags.map Tag.recordSize).sum ≤ totalSize records := by
  induction tags generalizing records with
  | nil => exact Nat.zero_le _
  | cons tag tags ih =>
    obtain ⟨hnot, hnodup⟩ := List.nodup_cons.mp hnodup
    obtain ⟨r, hr, htag⟩ := h tag List.mem_cons_self
    have hothers : (tags.map Tag.recordSize).sum ≤ totalSize (records.erase r) := by
      refine ih hnodup (fun s hs => hsize s (List.mem_of_mem_erase hs)) fun other hother => ?_
      obtain ⟨s, hs, hsame⟩ := h other (List.mem_cons_of_mem tag hother)
      refine ⟨s, (List.mem_erase_of_ne ?_).mpr hs, hsame⟩
      rintro rfl
      have heq := Tag.ofOctet?_toOctet other
      rw [← hsame, htag, Tag.ofOctet?_toOctet, Option.some_inj] at heq
      exact hnot (heq ▸ hother)
    rw [List.map_cons, List.sum_cons, totalSize_erase hr, recordSize_of_toOctet htag (hsize r hr)]
    exact Nat.add_le_add_left hothers _

theorem twenty_le_length {records : List Record} {group : Octets} (hgroup : Spells records group)
    (h : (attributes? records).isSome) : 20 ≤ group.length := by
  have hrecords : 17 ≤ totalSize records :=
    sum_recordSize_le (by decide) (length_value_of_spells hgroup) (isSome_attributes?_iff.mp h)
  rw [length_of_spells hgroup, recordHeaderSize]
  exact Nat.add_le_add_right hrecords 3

theorem add_twenty_le_of_decodeGroup {block : Octets} {start stop : Nat} {metadata : FrameMetadata}
    (h : (decodeGroup block start).value = .ok (metadata, stop)) :
    start + 20 ≤ stop ∧ stop ≤ block.length := by
  refine ⟨?_, stop_le_of_decodeGroup h⟩
  obtain ⟨records, group, rest, hgroup, -, hattributes, rfl⟩ := decodeGroup_eq_ok.mp h
  exact Nat.add_le_add_left (twenty_le_length hgroup (Option.isSome_of_eq_some hattributes)) start

def canonicalRecords (metadata : FrameMetadata) : List Record :=
  [.ofTag .utcOffset (Octets.ofBig 2 metadata.utcOffset.toUInt16.toNat),
    .ofTag .ediTime (Octets.ofBig 4 metadata.ediTime.toNat),
    .ofTag .dlfc (Octets.ofBig 2 metadata.dlfc.toNat)]

theorem spells_ofTag {records : List Record} {rest value : Octets} {tag : Tag}
    (htag : tag ≠ .separationMarker) (hvalue : value.length = tag.valueSize)
    (h : Spells records rest) :
    Spells (.ofTag tag value :: records) ((Record.ofTag tag value).encode ++ rest) := by
  have hdeclared : Octets.ofBig 2 (UInt16.ofNat tag.valueSize).toNat =
      [0, UInt8.ofNat tag.valueSize] := by
    cases tag <;> rfl
  have hencode : (Record.ofTag tag value).encode ++ rest =
      tag.toOctet :: 0 :: UInt8.ofNat tag.valueSize :: (value ++ rest) := by
    rw [Record.ofTag, Record.encode, hvalue, hdeclared]
    rfl
  have hrecord : Record.ofTag tag value = ⟨tag.toOctet, .ofNat (256 * (0 : UInt8).toNat +
      (UInt8.ofNat tag.valueSize).toNat), value⟩ := by
    rw [Record.ofTag, hvalue]
    cases tag <;> rfl
  rw [hencode, hrecord]
  refine .record _ _ _ _ ?_ ?_ h
  · cases tag with
    | separationMarker => exact absurd rfl htag
    | _ => decide
  · rw [hvalue]
    cases tag <;> rfl

theorem spells_encodeGroup (metadata : FrameMetadata) :
    Spells (canonicalRecords metadata) (encodeGroup metadata) := by
  rw [encodeGroup, List.append_assoc, List.append_assoc]
  refine spells_ofTag (by decide) (Octets.length_ofBig _ _) ?_
  refine spells_ofTag (by decide) (Octets.length_ofBig _ _) ?_
  exact spells_ofTag (by decide) (Octets.length_ofBig _ _) (.marker 0 0)

theorem length_encodeGroup (metadata : FrameMetadata) : (encodeGroup metadata).length = 20 := by
  simp [encodeGroup, Record.encode, Record.ofTag]

theorem attributes?_canonicalRecords (metadata : FrameMetadata) :
    attributes? (canonicalRecords metadata) = some metadata := by
  have hutc := metadata.utcOffset.toUInt16.toNat_lt
  have hedi := metadata.ediTime.toNat_lt
  have hdlfc := metadata.dlfc.toNat_lt
  have hread : attributes? (canonicalRecords metadata) = some
      ⟨(UInt16.ofNat (Octets.big (Octets.ofBig 2 metadata.utcOffset.toUInt16.toNat))).toInt16,
        UInt32.ofNat (Octets.big (Octets.ofBig 4 metadata.ediTime.toNat)),
        UInt16.ofNat (Octets.big (Octets.ofBig 2 metadata.dlfc.toNat))⟩ := rfl
  rw [hread, Octets.big_ofBig, Octets.big_ofBig, Octets.big_ofBig, Nat.mod_eq_of_lt hutc,
    Nat.mod_eq_of_lt hedi, Nat.mod_eq_of_lt hdlfc]
  simp

theorem decodeGroup_encodeGroup (metadata : FrameMetadata) (rest : Octets) :
    (decodeGroup (encodeGroup metadata ++ rest) 0).value = .ok (metadata, 20) :=
  decodeGroup_eq_ok.mpr ⟨_, _, rest, spells_encodeGroup metadata, rfl,
    attributes?_canonicalRecords metadata, by rw [length_encodeGroup]⟩

end Metadata

namespace GroupReader

open Metadata

/-- The answers of so many reads one after the other, and the reader behind them. -/
def reads (reader : GroupReader) : Nat → List (Except MessageFault FrameMetadata) × GroupReader
  | 0 => ([], reader)
  | count + 1 =>
    (reader.next.1.value :: (reader.next.2.reads count).1, (reader.next.2.reads count).2)

def behind (reader : GroupReader) (front : Octets) : GroupReader :=
  ⟨front ++ reader.block, front.length + reader.consumed⟩

variable {reader next last : GroupReader} {metadata : FrameMetadata} {fault : MessageFault}
  {events : List Event} {count : Nat} {groups : List FrameMetadata}

theorem next_eq_error : reader.next = (⟨.error fault, events⟩, next) ↔
    (decodeGroup reader.block reader.consumed).value = .error fault ∧
      (decodeGroup reader.block reader.consumed).events = events ∧ next = reader := by
  unfold GroupReader.next
  rcases decodeGroup reader.block reader.consumed with ⟨found | ⟨found, stop⟩, reported⟩
  · simp only [Prod.mk.injEq, Logged.mk.injEq, Except.error.injEq, and_assoc, eq_comm]
  · simp

theorem reads_succ {answer : Except MessageFault FrameMetadata}
    (h : reader.next = (⟨answer, events⟩, next)) :
    reader.reads (count + 1) = (answer :: (next.reads count).1, (next.reads count).2) := by
  rw [reads, h]

theorem exists_of_reads_succ (h : reader.reads (count + 1) = (groups.map .ok, last)) :
    ∃ metadata events next others, reader.next = (⟨.ok metadata, events⟩, next) ∧
      groups = metadata :: others ∧ next.reads count = (others.map .ok, last) := by
  rcases hnext : reader.next with ⟨⟨answer, events⟩, next⟩
  rw [reads_succ hnext] at h
  cases groups with
  | nil => cases h
  | cons metadata others =>
    obtain ⟨hanswers, hlast⟩ := Prod.mk.inj h
    obtain ⟨rfl, hothers⟩ := List.cons.inj hanswers
    exact ⟨metadata, events, next, others, rfl, rfl, Prod.ext hothers hlast⟩

theorem eq_of_reads_zero (h : reader.reads 0 = (groups.map .ok, last)) :
    groups = [] ∧ last = reader := by
  obtain ⟨hanswers, hlast⟩ := Prod.mk.inj h
  exact ⟨List.map_eq_nil_iff.mp hanswers.symm, hlast.symm⟩

theorem nextGroups_succ (h : reader.next = (⟨.ok metadata, events⟩, next)) :
    (reader.nextGroups (count + 1)).value = (next.nextGroups count).value.map (metadata :: ·) := by
  rw [nextGroups, h]

theorem nextGroups_of_error (h : reader.next = (⟨.error fault, events⟩, next)) :
    (reader.nextGroups (count + 1)).value = .error fault := by
  rw [nextGroups, h]

/-- A reader in front of a fault stays there. -/
theorem reads_of_error (h : reader.next.1.value = .error fault) (count : Nat) :
    reader.reads count = (List.replicate count (.error fault), reader) := by
  rcases hnext : reader.next with ⟨⟨answer, events⟩, next⟩
  rw [hnext] at h
  cases h
  obtain ⟨-, -, rfl⟩ := next_eq_error.mp hnext
  induction count with
  | zero => rfl
  | succ count ih => rw [reads_succ hnext, ih, List.replicate_succ]

theorem nextGroups_eq_ok_iff : (reader.nextGroups count).value = .ok groups ↔
    (reader.reads count).1 = groups.map .ok := by
  induction count generalizing reader groups with
  | zero => cases groups <;> simp [nextGroups, reads]
  | succ count ih =>
    rcases hnext : reader.next with ⟨⟨fault | metadata, events⟩, next⟩
    · rw [nextGroups_of_error hnext, reads_succ hnext]
      cases groups <;> simp
    · rw [nextGroups_succ hnext, reads_succ hnext]
      cases groups with
      | nil => cases (next.nextGroups count).value <;> simp [Except.map]
      | cons group groups =>
        rw [List.map_cons, List.cons.injEq, Except.ok.injEq, ← ih]
        cases (next.nextGroups count).value <;> simp [Except.map]

theorem nextGroups_add (h : reader.reads count = (groups.map .ok, last)) (others : Nat) :
    (reader.nextGroups (count + others)).value =
      (last.nextGroups others).value.map (groups ++ ·) := by
  induction count generalizing reader groups with
  | zero =>
    obtain ⟨rfl, rfl⟩ := eq_of_reads_zero h
    rw [Nat.zero_add]
    cases (last.nextGroups others).value <;> rfl
  | succ count ih =>
    obtain ⟨metadata, events, next, rest, hnext, rfl, hrest⟩ := exists_of_reads_succ h
    rw [Nat.add_right_comm, nextGroups_succ hnext, ih hrest]
    cases (last.nextGroups others).value <;> rfl

theorem reads_extend (h : reader.reads count = (groups.map .ok, last)) (more : Octets) :
    (reader.extend more).reads count = (groups.map .ok, last.extend more) := by
  induction count generalizing reader groups with
  | zero =>
    obtain ⟨rfl, rfl⟩ := eq_of_reads_zero h
    rfl
  | succ count ih =>
    obtain ⟨metadata, events, next, rest, hnext, rfl, hrest⟩ := exists_of_reads_succ h
    obtain ⟨_, hextend⟩ := next_extend hnext more
    rw [reads_succ hextend, ih hrest]
    rfl

/-- Other octets in front of a block move its faults and nothing else. -/
theorem nextGroups_behind (reader : GroupReader) (front : Octets) (count : Nat) :
    ((reader.behind front).nextGroups count).value =
      (reader.nextGroups count).value.mapError (·.shift front.length) := by
  induction count generalizing reader with
  | zero => rfl
  | succ count ih =>
    have hmoved := decodeGroup_behind front reader.block reader.consumed
    rcases hnext : reader.next with ⟨⟨fault | metadata, events⟩, next⟩
    · obtain ⟨hfault, -, -⟩ := next_eq_error.mp hnext
      rw [hfault] at hmoved
      rw [nextGroups_of_error hnext, nextGroups_of_error (next_eq_error.mpr ⟨hmoved, rfl, rfl⟩)]
      rfl
    · obtain ⟨hfound, -, hblock⟩ := next_eq_ok.mp hnext
      rw [hfound] at hmoved
      have hbehind : (reader.behind front).next = (⟨.ok metadata, _⟩, next.behind front) :=
        next_eq_ok.mpr ⟨hmoved, rfl, by rw [behind, behind, hblock]⟩
      rw [nextGroups_succ hnext, nextGroups_succ hbehind, ih]
      cases (next.nextGroups count).value <;> rfl

/-- Each group that is read takes up twenty octets at least, all of them of the block. -/
theorem bounds_of_reads (h : reader.reads count = (groups.map .ok, last)) :
    reader.consumed + 20 * count ≤ last.consumed ∧
      (reader.consumed ≤ reader.block.length → last.consumed ≤ reader.block.length) := by
  induction count generalizing reader groups with
  | zero =>
    obtain ⟨-, rfl⟩ := eq_of_reads_zero h
    exact ⟨Nat.le_refl _, id⟩
  | succ count ih =>
    obtain ⟨metadata, events, next, rest, hnext, -, hrest⟩ := exists_of_reads_succ h
    obtain ⟨hfound, -, hblock⟩ := next_eq_ok.mp hnext
    obtain ⟨hleast, hmost⟩ := add_twenty_le_of_decodeGroup hfound
    obtain ⟨hlow, hhigh⟩ := ih hrest
    rw [hblock] at hhigh
    exact ⟨by omega, fun _ => hhigh hmost⟩

end GroupReader

namespace Metadata

open GroupReader

/-- The groups of a block are those in front of an offset and those behind it. -/
theorem decodeGroups_append {front rest : Octets} {count others : Nat}
    {groups : List FrameMetadata}
    (h : ({ block := front } : GroupReader).reads count =
      (groups.map .ok, ⟨front, front.length⟩)) :
    (decodeGroups (front ++ rest) (count + others)).value =
      match (decodeGroups rest others).value with
      | .ok found => .ok (groups ++ found)
      | .error fault => .error (fault.shift front.length) := by
  have hwhole := nextGroups_add (reads_extend h rest) others
  have hrest := ({ block := rest } : GroupReader).nextGroups_behind front others
  have hsame : (⟨front, front.length⟩ : GroupReader).extend rest =
      ({ block := rest } : GroupReader).behind front := rfl
  rw [hsame, hrest] at hwhole
  rw [decodeGroups, decodeGroups]
  refine hwhole.trans ?_
  cases (({ block := rest } : GroupReader).nextGroups others).value <;> rfl

theorem decodeGroups_encode (groups : List FrameMetadata) (rest : Octets) :
    (decodeGroups ((groups.map encodeGroup).flatten ++ rest) groups.length).value = .ok groups := by
  induction groups with
  | nil => rfl
  | cons group groups ih =>
    have hdecoded := decodeGroup_encodeGroup group []
    rw [List.append_nil] at hdecoded
    have hnext : ({ block := encodeGroup group } : GroupReader).next =
        (⟨.ok group, _⟩, ⟨encodeGroup group, 20⟩) := next_eq_ok.mpr ⟨hdecoded, rfl, rfl⟩
    have hread : ({ block := encodeGroup group } : GroupReader).reads 1 =
        ([group].map .ok, ⟨encodeGroup group, (encodeGroup group).length⟩) := by
      rw [reads_succ hnext, length_encodeGroup]
      rfl
    rw [List.map_cons, List.flatten_cons, List.append_assoc, List.length_cons, Nat.add_comm,
      decodeGroups_append hread, ih]
    rfl

/-- Groups that use up the front of a block are followed by those of the rest, whose faults only
move. A fault holds a reader back for good. Groups are decoded together exactly when each of them
is, they take up twenty octets each at least, and canonical groups are read back from the front of
any block. -/
theorem decodeGroups_compose :
    (∀ (front rest : Octets) (count others : Nat) (groups : List FrameMetadata),
      ({ block := front } : GroupReader).reads count = (groups.map .ok, ⟨front, front.length⟩) →
        (decodeGroups (front ++ rest) (count + others)).value =
          match (decodeGroups rest others).value with
          | .ok found => .ok (groups ++ found)
          | .error fault => .error (fault.shift front.length)) ∧
    (∀ (reader : GroupReader) (fault : MessageFault), reader.next.1.value = .error fault →
      ∀ count, reader.reads count = (List.replicate count (.error fault), reader)) ∧
    (∀ (block : Octets) (count : Nat) (groups : List FrameMetadata),
      (decodeGroups block count).value = .ok groups ↔
        (({ block } : GroupReader).reads count).1 = groups.map .ok) ∧
    (∀ (block : Octets) (count : Nat) (groups : List FrameMetadata),
      (decodeGroups block count).value = .ok groups →
        20 * count ≤ (({ block } : GroupReader).reads count).2.consumed ∧
          (({ block } : GroupReader).reads count).2.consumed ≤ block.length) ∧
    ∀ (groups : List FrameMetadata) (rest : Octets),
      (∀ group ∈ groups, (encodeGroup group).length = 20) ∧
      (decodeGroups ((groups.map encodeGroup).flatten ++ rest) groups.length).value =
        .ok groups := by
  refine ⟨fun front rest count others groups => decodeGroups_append,
    fun reader fault => reads_of_error, fun block count groups => nextGroups_eq_ok_iff, ?_, ?_⟩
  · intro block count groups h
    obtain ⟨hlow, hhigh⟩ := bounds_of_reads (Prod.ext (nextGroups_eq_ok_iff.mp h) rfl)
    rw [Nat.zero_add] at hlow
    exact ⟨hlow, hhigh (Nat.zero_le _)⟩
  · intro groups rest
    exact ⟨fun group _ => length_encodeGroup group, decodeGroups_encode groups rest⟩

end Metadata

end EnsembleTransport
