import EnsembleTransport.Proofs.Metadata.Reader
import EnsembleTransport.Proofs.Walk.Message

/-!
# Groups read through a cursor

A walk over the records of a group asks for three octets before it reads tag and length, so neither
read is ever refused. A reader stands inside its block or at its end, so a group never begins past
the end.
-/

namespace EnsembleTransport

namespace Metadata

def walkRecord (fb : Fallbacks) (cursor : Cursor) : Except MessageFault (Record × Cursor) :=
  if cursor.remaining < recordHeaderSize then
    .error (.truncatedMetadata none cursor.position recordHeaderSize cursor.remaining)
  else do
    let (tag, next) ← cursor.readOctet.mapError (fb.field "tag")
    let (declared, next) ← (next.read .u16Big).mapError (fb.field "length")
    let size := valueSize tag declared.toNat
    let (value, next) ← (next.take size).mapError fun _ =>
      .truncatedMetadata (some tag.toNat) cursor.position (recordHeaderSize + size) cursor.remaining
    return (⟨tag, .ofNat declared.toNat, value⟩, next)

variable (fb : Fallbacks) {cursor : Cursor}

theorem readRecord_of_short {bytes : Octets} (h : bytes.length < recordHeaderSize) :
    readRecord bytes = .error (.header bytes.length) := by
  unfold readRecord
  split
  · simp only [List.length_cons, recordHeaderSize] at h
    omega
  · rfl

theorem readHeader_of_rest {tag high low : UInt8} {body : Octets}
    (h : cursor.rest = tag :: high :: low :: body) :
    cursor.readOctet = .ok (tag, cursor.advance 1) ∧
      (cursor.advance 1).read .u16Big =
        .ok (((256 * high.toNat + low.toNat : Nat) : Int), cursor.advance 3) := by
  constructor
  · apply Cursor.readOctet_eq_ok
    have hfirst := congrArg (·[0]?) h
    simpa [Cursor.rest] using hfirst
  · have hwindow : Octets.window cursor.buffer (cursor.position + 1) 2 = [high, low] := by
      rw [Cursor.window_eq_take_rest, h]
      rfl
    have hlength := Cursor.length_rest cursor
    simp only [h, List.length_cons, Cursor.remaining] at hlength
    rw [Cursor.read_eq_ok (by simp only [Cursor.advance, Word.size]; omega)]
    simp only [Cursor.advance, Word.size, Word.value, hwindow, big_pair]

theorem exists_header (h : recordHeaderSize ≤ cursor.remaining) :
    ∃ tag high low body, cursor.rest = tag :: high :: low :: body := by
  rw [← Cursor.length_rest, recordHeaderSize] at h
  generalize cursor.rest = rest at h ⊢
  rcases rest with _ | ⟨tag, _ | ⟨high, _ | ⟨low, body⟩⟩⟩
  · simp at h
  · simp at h
  · simp at h
  · exact ⟨tag, high, low, body, rfl⟩

/-- Behind a header there is a value, or too little for one. -/
theorem readRecord_of_header (tag high low : UInt8) (body : Octets) :
    readRecord (tag :: high :: low :: body) =
      let declared := 256 * high.toNat + low.toNat
      let size := valueSize tag declared
      if size ≤ body.length then .ok (⟨tag, .ofNat declared, body.take size⟩, body.drop size)
      else .error (.value tag (.ofNat declared) (recordHeaderSize + body.length)) := by
  simp only [readRecord, big_pair, toNat_ofNat_pair, List.length_take]
  split
  · rw [if_pos (by omega)]
  · rw [if_neg (by omega)]

theorem walkRecord_of_header {tag high low : UInt8} {body : Octets}
    (h : cursor.rest = tag :: high :: low :: body) :
    walkRecord fb cursor =
      let declared := 256 * high.toNat + low.toNat
      let size := valueSize tag declared
      if size ≤ body.length then
        .ok (⟨tag, .ofNat declared, body.take size⟩, cursor.advance (recordHeaderSize + size))
      else
        .error (.truncatedMetadata (some tag.toNat) cursor.position (recordHeaderSize + size)
          (recordHeaderSize + body.length)) := by
  obtain ⟨htag, hdeclared⟩ := readHeader_of_rest h
  have hremaining : cursor.remaining = recordHeaderSize + body.length := by
    rw [← Cursor.length_rest, h]
    simp only [List.length_cons, recordHeaderSize]
    omega
  have hspace : cursor.position + 3 + body.length = cursor.buffer.length := by
    rw [Cursor.remaining, recordHeaderSize] at hremaining
    omega
  rw [walkRecord, if_neg (by omega), htag]
  simp only [Fallible.mapError_ok, Fallible.ok_bind, hdeclared, Int.toNat_natCast, hremaining]
  split
  · have hvalue (size : Nat) : Octets.window cursor.buffer (cursor.position + 3) size =
        body.take size := by
      rw [Cursor.window_eq_take_rest, h]
      rfl
    rw [Cursor.take_eq_ok (by simp only [Cursor.advance]; omega)]
    simp only [Cursor.advance, hvalue, Nat.add_assoc, Fallible.mapError_ok]
    rfl
  · rw [Cursor.take_eq_error (by simp only [Cursor.advance]; omega)]
    rfl

/-- The record in front of a cursor is read, or it is the fault of its octets that it cannot be. -/
theorem walkRecord_eq (cursor : Cursor) : walkRecord fb cursor =
    ((readRecord cursor.rest).mapError (Shortage.fault cursor.position)).map fun read =>
      (read.1, cursor.advance read.1.size) := by
  by_cases hshort : cursor.remaining < recordHeaderSize
  · rw [walkRecord, if_pos hshort, readRecord_of_short (by rwa [Cursor.length_rest]),
      Cursor.length_rest]
    rfl
  · obtain ⟨tag, high, low, body, hrest⟩ := exists_header (Nat.le_of_not_lt hshort)
    rw [walkRecord_of_header fb hrest, hrest, readRecord_of_header]
    dsimp only
    split
    · rename_i hfits
      simp only [Fallible.mapError_ok, Except.map, Record.size, List.length_take,
        Nat.min_eq_left hfits]
    · simp only [Fallible.mapError_error, Except.map, Shortage.fault, toNat_ofNat_pair]

theorem walkRecord_eq_ok {r : Record} {next : Cursor} (h : walkRecord fb cursor = .ok (r, next)) :
    readRecord cursor.rest = .ok (r, next.rest) ∧ next = cursor.advance r.size := by
  rw [walkRecord_eq] at h
  cases hread : readRecord cursor.rest with
  | error shortage =>
    rw [hread] at h
    cases h
  | ok pair =>
    obtain ⟨r, rest⟩ := pair
    rw [hread] at h
    cases h
    obtain ⟨high, low, hrest, -, -⟩ := eq_of_readRecord hread
    have hdrop : (cursor.advance r.size).rest = rest := by
      rw [Cursor.rest_advance, hrest, Record.size, recordHeaderSize, Nat.add_comm]
      exact List.drop_left
    rw [hdrop]
    exact ⟨rfl, rfl⟩

theorem walkRecord_eq_error {fault : MessageFault} (h : walkRecord fb cursor = .error fault) :
    ∃ shortage, readRecord cursor.rest = .error shortage ∧
      fault = shortage.fault cursor.position := by
  rw [walkRecord_eq] at h
  cases hread : readRecord cursor.rest with
  | ok read =>
    rw [hread] at h
    cases h
  | error shortage =>
    rw [hread] at h
    cases h
    exact ⟨shortage, rfl, rfl⟩

theorem remaining_lt_of_walkRecord {r : Record} {next : Cursor}
    (h : walkRecord fb cursor = .ok (r, next)) : next.remaining < cursor.remaining := by
  rw [← Cursor.length_rest, ← Cursor.length_rest]
  exact length_lt_of_readRecord (walkRecord_eq_ok fb h).1

/-- Reads records up to the marker of the group; `records` have been read before. -/
def walkRecords (fb : Fallbacks) (cursor : Cursor) (records : List Record) :
    Except MessageFault (FrameMetadata × Nat) :=
  match _h : walkRecord fb cursor with
  | .error fault => .error fault
  | .ok (r, next) =>
    if r.isMarker then
      match attributes? records with
      | some metadata => .ok (metadata, next.position)
      | none => .error (.incompleteMetadata (missing records) cursor.position)
    else walkRecords fb next (records ++ [r])
termination_by cursor.remaining
decreasing_by exact remaining_lt_of_walkRecord fb _h

def walkGroup (fb : Fallbacks) (block : Octets) (start : Nat) :
    Except MessageFault (FrameMetadata × Nat) := do
  let cursor ← (Cursor.ofPosition block start).mapError fb.group
  walkRecords fb cursor []

theorem totalSize_append (records more : List Record) :
    totalSize (records ++ more) = totalSize records + totalSize more := by
  simp [totalSize]

theorem size_of_marker {bytes rest : Octets} {r : Record} (h : readRecord bytes = .ok (r, rest))
    (hr : r.tag = 0) : r.size = recordHeaderSize := by
  obtain ⟨high, low, -, -, hvalue⟩ := eq_of_readRecord h
  rw [hr] at hvalue
  rw [Record.size, hvalue]
  rfl

/-- Reading on from a cursor is a scan of the octets in front of it. -/
theorem walkRecords_eq {start : Nat} {records : List Record}
    (hplace : cursor.position = start + totalSize records) :
    walkRecords fb cursor records =
      conclude start (records ++ (scan cursor.rest).1) (scan cursor.rest).2 := by
  fun_induction walkRecords fb cursor records with
  | case1 cursor records fault hwalk =>
    obtain ⟨shortage, hread, rfl⟩ := walkRecord_eq_error fb hwalk
    rw [scan_of_shortage hread, List.append_nil, hplace]
    rfl
  | case2 cursor records r next hwalk hmarker metadata hattributes =>
    obtain ⟨hread, hnext⟩ := walkRecord_eq_ok fb hwalk
    have hr := (isMarker_iff r).mp hmarker
    have hstop : next.position = cursor.position + recordHeaderSize := by
      rw [hnext, ← size_of_marker hread hr]
      rfl
    rw [scan_of_marker hread hr, List.append_nil, conclude, ← hplace, hstop]
    simp only [hattributes]
  | case3 cursor records r next hwalk hmarker hattributes =>
    obtain ⟨hread, -⟩ := walkRecord_eq_ok fb hwalk
    have hr := (isMarker_iff r).mp hmarker
    rw [scan_of_marker hread hr, List.append_nil, conclude, ← hplace]
    simp only [hattributes]
  | case4 cursor records r next hwalk hmarker ih =>
    obtain ⟨hread, hnext⟩ := walkRecord_eq_ok fb hwalk
    have hposition : next.position = start + totalSize (records ++ [r]) := by
      rw [hnext, totalSize_append, ← Nat.add_assoc, ← hplace]
      rfl
    rw [ih hposition, scan_of_record hread (mt (isMarker_iff r).mpr hmarker), List.append_assoc]
    rfl

theorem stop_le_of_decodeGroup {block : Octets} {start stop : Nat} {metadata : FrameMetadata}
    (h : (decodeGroup block start).value = .ok (metadata, stop)) : stop ≤ block.length := by
  obtain ⟨records, group, rest, hgroup, hdrop, -, hstop⟩ := decodeGroup_eq_ok.mp h
  exact (spells_window_iff.mpr ⟨group, rest, hgroup, hdrop, hstop⟩).2.1

/-- A group that begins inside its block, or at its end, is decoded. -/
theorem walkGroup_eq {block : Octets} {start : Nat} (h : start ≤ block.length) :
    walkGroup fb block start = (decodeGroup block start).value := by
  have hposition : Cursor.ofPosition block start = .ok ⟨block, start⟩ := Cursor.seek_eq_ok h
  rw [walkGroup, hposition]
  exact walkRecords_eq fb rfl

/-- With the program's own answers the walk decodes at every offset, past the end too. -/
theorem walkGroup_own (block : Octets) (start : Nat) :
    walkGroup {} block start = (decodeGroup block start).value := by
  by_cases h : start ≤ block.length
  · exact walkGroup_eq {} h
  · have hposition : Cursor.ofPosition block start = .error ⟨start, 0, block.length⟩ := if_neg h
    have hscan : scan [] = ([], .cut (.header 0)) := scan_of_shortage rfl
    simp only [walkGroup, hposition, decodeGroup, List.drop_eq_nil_of_le (Nat.le_of_not_le h), hscan]
    rfl

end Metadata

end EnsembleTransport
