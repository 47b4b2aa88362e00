import EnsembleTransport.Proofs.Metadata.Grammar

/-!
# Groups read one after the other

Successive reads of a block give its groups until one of them fails. Octets behind a block never
change a group that has been read from it, so a block that is cut short gives the first of the
groups that the whole block gives.
-/

namespace EnsembleTransport

namespace Metadata

theorem decodeGroup_append {block : Octets} {start stop : Nat} {metadata : FrameMetadata}
    (h : (decodeGroup block start).value = .ok (metadata, stop)) (more : Octets) :
    (decodeGroup (block ++ more) start).value = .ok (metadata, stop) := by
  obtain ⟨records, group, rest, hgroup, hdrop, hattributes, hstop⟩ := decodeGroup_eq_ok.mp h
  have hstart : start ≤ block.length := by
    have hlength := congrArg List.length hdrop
    rw [List.length_drop, List.length_append, length_of_spells hgroup, recordHeaderSize] at hlength
    omega
  refine decodeGroup_eq_ok.mpr ⟨records, group, rest ++ more, hgroup, ?_, hattributes, hstop⟩
  rw [List.drop_append_of_le_length hstart, hdrop, List.append_assoc]

end Metadata

namespace GroupReader

/-- The groups that so many successive reads give before the first read that fails, and the fault
of that read. -/
def leading (reader : GroupReader) : Nat → List FrameMetadata × Option MessageFault
  | 0 => ([], none)
  | count + 1 =>
    match reader.next with
    | (⟨.error fault, _⟩, _) => ([], some fault)
    | (⟨.ok metadata, _⟩, reader) =>
      (metadata :: (reader.leading count).1, (reader.leading count).2)

theorem length_leading_le (reader : GroupReader) (count : Nat) :
    (reader.leading count).1.length ≤ count := by
  induction count generalizing reader with
  | zero => exact Nat.le_refl 0
  | succ count ih =>
    rw [leading]
    rcases reader.next with ⟨⟨fault | metadata, events⟩, next⟩
    · exact Nat.zero_le _
    · exact Nat.succ_le_succ (ih next)

theorem isSome_leading_iff (reader : GroupReader) (count : Nat) :
    (reader.leading count).2.isSome ↔ (reader.leading count).1.length < count := by
  induction count generalizing reader with
  | zero => simp [leading]
  | succ count ih =>
    rw [leading]
    rcases reader.next with ⟨⟨fault | metadata, events⟩, next⟩
    · simp
    · simpa using ih next

def extend (reader : GroupReader) (more : Octets) : GroupReader :=
  { reader with block := reader.block ++ more }

theorem next_eq_ok {reader next : GroupReader} {metadata : FrameMetadata} {events : List Event} :
    reader.next = (⟨.ok metadata, events⟩, next) ↔
      (Metadata.decodeGroup reader.block reader.consumed).value = .ok (metadata, next.consumed) ∧
      (Metadata.decodeGroup reader.block reader.consumed).events = events ∧
      next.block = reader.block := by
  unfold GroupReader.next
  rcases Metadata.decodeGroup reader.block reader.consumed with ⟨fault | ⟨found, stop⟩, reported⟩
  · simp
  · cases next
    simp only [Prod.mk.injEq, Logged.mk.injEq, Except.ok.injEq, mk.injEq]
    constructor
    · rintro ⟨⟨rfl, rfl⟩, rfl, rfl⟩
      exact ⟨⟨rfl, rfl⟩, rfl, rfl⟩
    · rintro ⟨⟨rfl, rfl⟩, rfl, rfl⟩
      exact ⟨⟨rfl, rfl⟩, rfl, rfl⟩

theorem next_extend {reader next : GroupReader} {metadata : FrameMetadata} {events : List Event}
    (h : reader.next = (⟨.ok metadata, events⟩, next)) (more : Octets) :
    ∃ events, (reader.extend more).next = (⟨.ok metadata, events⟩, next.extend more) := by
  obtain ⟨hvalue, _, hblock⟩ := next_eq_ok.mp h
  refine ⟨_, next_eq_ok.mpr ⟨Metadata.decodeGroup_append hvalue more, rfl, ?_⟩⟩
  rw [extend, extend, hblock]

/-- More octets behind a block leave the groups that can be read without them. -/
theorem leading_extend (reader : GroupReader) (more : Octets) (count : Nat) :
    (reader.leading count).1 <+: ((reader.extend more).leading count).1 := by
  induction count generalizing reader with
  | zero => exact List.prefix_rfl
  | succ count ih =>
    rw [leading]
    rcases hnext : reader.next with ⟨⟨fault | metadata, events⟩, next⟩
    · exact List.nil_prefix
    · obtain ⟨_, hextend⟩ := next_extend hnext more
      rw [leading, hextend]
      exact (List.prefix_cons_inj metadata).mpr (ih next)

end GroupReader

end EnsembleTransport
