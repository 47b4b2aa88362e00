import EnsembleTransport.Proofs.Diagnosis.Accepted
import EnsembleTransport.Proofs.Walk.Message

/-!
# Frames read through a cursor

A frame has a fixed size. Its synchronisation word, its counter and as many stream descriptors as a
seven-bit number can ask for all lie inside it, so of the reads on the way to the timestamp only the
last one, of the timestamp itself, is ever refused.
-/

namespace EnsembleTransport

open Layout

theorem readField_eq_mapError {α : Type} (field : String) (read : Except BoundsFault α) :
    readField field read = read.mapError fun fault => fault.inField field := by
  cases read <;> rfl

theorem Cursor.exists_readOctet {c : Cursor} (h : c.position < c.buffer.length) :
    ∃ b, c.readOctet = .ok (b, c.advance 1) :=
  ⟨_, readOctet_eq_ok (List.getElem?_eq_getElem h)⟩

namespace FrameSync

def walk (fb : Fallbacks) (frame : Octets) : Except MessageFault FrameSync := do
  let (errorOctet, cursor) ← (Cursor.start frame).readOctet.mapError (fb.field "ERR")
  let (word, _) ← (cursor.take 3).mapError (fb.field "FSYNC")
  return ⟨errorOctet, .ofOctets word⟩

/-- With the program's own answers the walk is the reading of any octets. -/
theorem walk_own (frame : Octets) : walk {} frame = ofFrame frame := by
  simp only [walk, ofFrame, readField_eq_mapError]

/-- Octets that are too few show the answer. -/
example (fb : Fallbacks) : FrameSync.walk fb [0xFF, 0x07] = .error (fb.field "FSYNC" ⟨1, 3, 2⟩) :=
  rfl

theorem walk_eq (fb : Fallbacks) {frame : Octets} (h : 4 ≤ frame.length) :
    walk fb frame = ofFrame frame := by
  obtain ⟨errorOctet, hoctet⟩ :=
    (Cursor.start frame).exists_readOctet (by simp only [Cursor.start]; omega)
  have hword : ((Cursor.start frame).advance 1).take 3 = .ok (Octets.window frame 1 3, ⟨frame, 4⟩) :=
    Cursor.take_eq_ok h
  rw [← walk_own]
  simp only [walk, hoctet, hword, Fallible.mapError_ok, Fallible.ok_bind]

end FrameSync

namespace Timestamp

def walkStreams (fb : Fallbacks) :
    Nat → Cursor → Except MessageFault (List StreamDescriptor × Cursor)
  | 0, cursor => .ok ([], cursor)
  | count + 1, cursor => do
    let (entry, cursor) ← (cursor.take streamEntrySize).mapError (fb.field "STC")
    let (streams, cursor) ← walkStreams fb count cursor
    return (.ofOctets entry :: streams, cursor)

/-- Everything in front of a timestamp and the timestamp, read in order. -/
def walk (fb : Fallbacks) (frame : Octets) (dlfc : UInt16) : Except MessageFault Timestamp := do
  let cursor ← (Cursor.ofPosition frame fctOffset).mapError (fb.field "FCT")
  let (fct, cursor) ← cursor.readOctet.mapError (fb.field "FCT")
  let (ficfNst, cursor) ← cursor.readOctet.mapError (fb.field "FICF/NST")
  let (fpMid, cursor) ← cursor.readOctet.mapError (fb.field "MID")
  let nst := ficfNst.toNat % 128
  let ficWords := ficWordsOfMode (fpMid.toNat / 8 % 4)
  if ficfNst.toNat < 128 then .error (.missingFic fct.toNat) else
  let cursor ← (cursor.seek streamsOffset).mapError (fb.field "STC")
  let (streams, cursor) ← walkStreams fb nst cursor
  let (mnsc, _) ← (cursor.take 2).mapError (fb.field "MNSC")
  let dataLength := (streams.map StreamDescriptor.dataLength).sum
  let offset := offsetOf nst ficWords dataLength
  let raw ← readField "TIST" (readRaw frame offset)
  return {
    fct, expectedFct := expectedFctOf dlfc, ficPresent := true, nst, ficWords
    mnsc := UInt16.ofNat (Octets.big mnsc), streams, dataLength, offset, raw }

theorem walkStreams_own (count : Nat) (cursor : Cursor) :
    walkStreams {} count cursor = readStreams count cursor := by
  induction count generalizing cursor with
  | zero => rfl
  | succ count ih => simp only [walkStreams, readStreams, readField_eq_mapError, ih]

theorem walk_own (frame : Octets) (dlfc : UInt16) : walk {} frame dlfc = ofFrame frame dlfc := by
  simp only [walk, ofFrame, readFct, readField_eq_mapError, walkStreams_own, bind_assoc]

theorem exists_walkStreams {count : Nat} {cursor : Cursor}
    (h : cursor.position + 4 * count ≤ cursor.buffer.length) :
    ∃ streams, ∀ fb, walkStreams fb count cursor = .ok (streams, cursor.advance (4 * count)) := by
  induction count generalizing cursor with
  | zero => exact ⟨[], fun fb => rfl⟩
  | succ count ih =>
    have hentry : cursor.take streamEntrySize =
        .ok (Octets.window cursor.buffer cursor.position 4, cursor.advance 4) :=
      Cursor.take_eq_ok (by simp only [streamEntrySize]; omega)
    have hothers : (cursor.advance 4).position + 4 * count ≤ (cursor.advance 4).buffer.length := by
      simp only [Cursor.advance]
      omega
    have hend : (cursor.advance 4).advance (4 * count) = cursor.advance (4 * (count + 1)) := by
      simp only [Cursor.advance, Nat.mul_succ, Nat.add_assoc, Nat.add_comm]
    obtain ⟨streams, hstreams⟩ := ih hothers
    refine ⟨.ofOctets (Octets.window cursor.buffer cursor.position 4) :: streams, fun fb => ?_⟩
    rw [walkStreams, hentry]
    simp only [Fallible.mapError_ok, Fallible.ok_bind, hstreams, hend]
    rfl

/-- What a frame of full size comes to under any answers: it is without a channel, or all depends on
the read of its timestamp. -/
theorem walk_of_long {frame : Octets} (h : frameSize ≤ frame.length) (dlfc : UInt16) :
    (∃ fct, ∀ fb, walk fb frame dlfc = .error (.missingFic fct)) ∨
    ∃ layout : Timestamp, ∀ fb, walk fb frame dlfc =
      (readField "TIST" (readRaw frame layout.offset)).map fun raw => { layout with raw } := by
  rw [frameSize] at h
  have hposition : Cursor.ofPosition frame fctOffset = .ok ⟨frame, 4⟩ :=
    Cursor.seek_eq_ok (by simp only [Cursor.start, fctOffset]; omega)
  have hoctet (place : Nat) (hplace : place < 8) :
      ∃ b, (⟨frame, place⟩ : Cursor).readOctet = .ok (b, ⟨frame, place + 1⟩) :=
    Cursor.exists_readOctet (by simp only; omega)
  obtain ⟨fct, hfct⟩ := hoctet 4 (by decide)
  obtain ⟨ficfNst, hnst⟩ := hoctet 5 (by decide)
  obtain ⟨fpMid, hmid⟩ := hoctet 6 (by decide)
  by_cases habsent : ficfNst.toNat < 128
  · refine .inl ⟨fct.toNat, fun fb => ?_⟩
    simp only [walk, hposition, hfct, hnst, hmid, Fallible.mapError_ok, Fallible.ok_bind, habsent,
      if_true]
  · have hseek : (⟨frame, 7⟩ : Cursor).seek streamsOffset = .ok ⟨frame, 8⟩ :=
      Cursor.seek_eq_ok (by simp only [streamsOffset]; omega)
    generalize hcount : ficfNst.toNat % 128 = count at *
    have hroom : 8 + 4 * count + 2 ≤ frame.length := by omega
    obtain ⟨streams, hstreams⟩ : ∃ streams, ∀ fb, walkStreams fb count ⟨frame, 8⟩ =
        .ok (streams, ⟨frame, 8 + 4 * count⟩) :=
      exists_walkStreams (Nat.le_of_add_right_le hroom)
    have hmnsc : (⟨frame, 8 + 4 * count⟩ : Cursor).take 2 =
        .ok (Octets.window frame (8 + 4 * count) 2, ⟨frame, 8 + 4 * count + 2⟩) :=
      Cursor.take_eq_ok hroom
    refine .inr ⟨{
      fct, expectedFct := expectedFctOf dlfc, ficPresent := true, nst := count
      ficWords := ficWordsOfMode (fpMid.toNat / 8 % 4)
      mnsc := UInt16.ofNat (Octets.big (Octets.window frame (8 + 4 * count) 2)), streams
      dataLength := (streams.map StreamDescriptor.dataLength).sum
      offset := offsetOf count (ficWordsOfMode (fpMid.toNat / 8 % 4))
        (streams.map StreamDescriptor.dataLength).sum
      raw := 0 }, fun fb => ?_⟩
    simp only [walk, hposition, hfct, hnst, hmid, Fallible.mapError_ok, Fallible.ok_bind, habsent,
      if_false, hseek, hcount, hstreams, hmnsc]
    cases readField "TIST" (readRaw frame _) <;> rfl

theorem walk_eq (fb : Fallbacks) {frame : Octets} (h : frameSize ≤ frame.length) (dlfc : UInt16) :
    walk fb frame dlfc = ofFrame frame dlfc := by
  rw [← walk_own]
  obtain ⟨fct, hwalk⟩ | ⟨layout, hwalk⟩ := walk_of_long h dlfc
  · rw [hwalk, hwalk]
  · rw [hwalk, hwalk]

/-- A frame of full size is without a timestamp for one of two reasons. -/
theorem fault_of_long {frame : Octets} {dlfc : UInt16} {fault : MessageFault}
    (h : frameSize ≤ frame.length) (hfault : ofFrame frame dlfc = .error fault) :
    (∃ fct, fault = .missingFic fct) ∨
      ∃ refusal : BoundsFault, fault = refusal.inField "TIST" := by
  rw [← walk_own] at hfault
  obtain ⟨fct, hwalk⟩ | ⟨layout, hwalk⟩ := walk_of_long h dlfc
  · rw [hwalk] at hfault
    cases hfault
    exact .inl ⟨fct, rfl⟩
  · rw [hwalk] at hfault
    cases hraw : readRaw frame layout.offset with
    | ok raw =>
      rw [hraw] at hfault
      cases hfault
    | error refusal =>
      rw [hraw] at hfault
      cases hfault
      exact .inr ⟨refusal, rfl⟩

end Timestamp

end EnsembleTransport
