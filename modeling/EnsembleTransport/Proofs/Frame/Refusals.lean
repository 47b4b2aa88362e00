import EnsembleTransport.Proofs.Frame.Layout
import EnsembleTransport.Proofs.Walk.Message

/-!
# Octets without a timestamp

Octets of any number may be looked at for a timestamp. What is missing first is the answer: the frame
counter, the octets behind it, the fast information channel, a stream descriptor, the channel word or
the timestamp itself. Where each of them stands is told from the octets alone, and a timestamp is found
exactly when nothing is missing.
-/

namespace EnsembleTransport

namespace Octets

theorem window_four {bytes : Octets} {offset : Nat} (h : offset + 4 ≤ bytes.length) :
    window bytes offset 4 = [octet bytes offset, octet bytes (offset + 1), octet bytes (offset + 2),
      octet bytes (offset + 3)] := by
  apply List.ext_getElem?
  intro i
  rw [window, List.getElem?_take, List.getElem?_drop]
  rcases i with _ | _ | _ | _ | i
  · exact getElem?_eq_octet (by omega)
  · exact getElem?_eq_octet (by omega)
  · exact getElem?_eq_octet (by omega)
  · exact getElem?_eq_octet (by omega)
  · rw [if_neg (by omega)]
    rfl

end Octets

namespace Cursor

theorem readOctet_eq_error {c : Cursor} (h : c.buffer.length ≤ c.position) :
    c.readOctet = .error ⟨c.position, 1, c.buffer.length⟩ := by
  rw [readOctet, take_eq_error (Nat.lt_succ_of_le h)]
  rfl

theorem readOctet_at {buffer : Octets} {position : Nat} (h : position < buffer.length) :
    (⟨buffer, position⟩ : Cursor).readOctet =
      .ok (Octets.octet buffer position, ⟨buffer, position + 1⟩) :=
  readOctet_eq_ok (Octets.getElem?_eq_octet h)

end Cursor

namespace Timestamp

/-- How many stream descriptors are announced. -/
def announcedStreams (frame : Octets) : Nat := (Octets.octet frame 5).toNat % 128

/-- The length of stream `i` as its descriptor has it: two bits of the third octet and all of the
fourth. -/
def announcedLength (frame : Octets) (i : Nat) : Nat :=
  (Octets.octet frame (8 + 4 * i + 2)).toNat % 4 * 256 + (Octets.octet frame (8 + 4 * i + 3)).toNat

def announcedLengths (frame : Octets) : List Nat :=
  (List.range (announcedStreams frame)).map (announcedLength frame)

def announcedPlace (frame : Octets) : Nat :=
  16 + 4 * announcedStreams frame +
    4 * (if (Octets.octet frame 6).toNat / 8 % 4 = 3 then 32 else 24) +
    8 * (announcedLengths frame).sum

/-- Nothing is missing on the way to the timestamp. -/
structure Complete (frame : Octets) : Prop where
  long : 7 ≤ frame.length
  ficPresent : 128 ≤ (Octets.octet frame 5).toNat
  streams_le : 8 + 4 * announcedStreams frame ≤ frame.length
  place_le : announcedPlace frame + 4 ≤ frame.length

/-- The first thing that is missing on the way to the timestamp. -/
inductive Missing (frame : Octets) : MessageFault → Prop
  | fct (h : frame.length < 5) : Missing frame
      (.fieldOutOfBounds "FCT" 4 (if frame.length < 4 then 0 else 1) frame.length)
  | nst (h : frame.length = 5) : Missing frame (.fieldOutOfBounds "FICF/NST" 5 1 frame.length)
  | mode (h : frame.length = 6) : Missing frame (.fieldOutOfBounds "MID" 6 1 frame.length)
  | fic (hlong : 7 ≤ frame.length) (h : (Octets.octet frame 5).toNat < 128) :
      Missing frame (.missingFic (Octets.octet frame 4).toNat)
  | streams (hficPresent : 128 ≤ (Octets.octet frame 5).toNat) (h : frame.length = 7) :
      Missing frame (.fieldOutOfBounds "STC" 8 0 frame.length)
  | stream {i : Nat} (hlong : 8 + 4 * i ≤ frame.length)
      (hficPresent : 128 ≤ (Octets.octet frame 5).toNat) (hi : i < announcedStreams frame)
      (h : frame.length < 8 + 4 * (i + 1)) :
      Missing frame (.fieldOutOfBounds "STC" (8 + 4 * i) 4 frame.length)
  | channelWord (hficPresent : 128 ≤ (Octets.octet frame 5).toNat)
      (hstreams : 8 + 4 * announcedStreams frame ≤ frame.length)
      (h : frame.length < 8 + 4 * announcedStreams frame + 2) :
      Missing frame (.fieldOutOfBounds "MNSC" (8 + 4 * announcedStreams frame) 2 frame.length)
  | timestamp (hficPresent : 128 ≤ (Octets.octet frame 5).toNat)
      (hword : 8 + 4 * announcedStreams frame + 2 ≤ frame.length)
      (h : frame.length < announcedPlace frame + 4) :
      Missing frame (.fieldOutOfBounds "TIST" (announcedPlace frame)
        (if frame.length < announcedPlace frame then 0 else 4) frame.length)

variable {frame : Octets}

/-- Either nothing is missing, or something is missing first, in the order in which the walk comes
by. -/
theorem complete_or_missing (frame : Octets) :
    Complete frame ∨ ∃ fault, Missing frame fault := by
  by_cases hfct : frame.length < 5
  · exact .inr ⟨_, .fct hfct⟩
  by_cases hnst : frame.length = 5
  · exact .inr ⟨_, .nst hnst⟩
  by_cases hmode : frame.length = 6
  · exact .inr ⟨_, .mode hmode⟩
  have hlong : 7 ≤ frame.length := by omega
  by_cases hfic : (Octets.octet frame 5).toNat < 128
  · exact .inr ⟨_, .fic hlong hfic⟩
  have hficPresent : 128 ≤ (Octets.octet frame 5).toNat := Nat.le_of_not_lt hfic
  by_cases hseven : frame.length = 7
  · exact .inr ⟨_, .streams hficPresent hseven⟩
  by_cases hstreams : 8 + 4 * announcedStreams frame ≤ frame.length
  · by_cases hword : frame.length < 8 + 4 * announcedStreams frame + 2
    · exact .inr ⟨_, .channelWord hficPresent hstreams hword⟩
    by_cases hplace : frame.length < announcedPlace frame + 4
    · exact .inr ⟨_, .timestamp hficPresent (Nat.le_of_not_lt hword) hplace⟩
    · exact .inl ⟨hlong, hficPresent, hstreams, Nat.le_of_not_lt hplace⟩
  · exact .inr ⟨_, .stream (i := (frame.length - 8) / 4) (by omega) hficPresent (by omega)
      (by omega)⟩

def descriptorAt (frame : Octets) (i : Nat) : StreamDescriptor :=
  .ofOctets (Octets.window frame (8 + 4 * i) 4)

theorem streamLength_descriptorAt {i : Nat} (h : 8 + 4 * (i + 1) ≤ frame.length) :
    (descriptorAt frame i).streamLength.toNat = announcedLength frame i := by
  have hinside : 8 + 4 * i + 4 ≤ frame.length := by omega
  have hword := Octets.window_four hinside
  rw [descriptorAt, hword, announcedLength, StreamDescriptor.ofOctets, StreamDescriptor.ofWord,
    BitVec.extractLsb'_toNat, BitVec.toNat_ofNat]
  simp only [Octets.big, List.reverse_cons, List.reverse_nil, List.nil_append, List.cons_append,
    Octets.little_cons, Octets.little_nil, Nat.shiftRight_zero]
  have hlast := (Octets.octet frame (8 + 4 * i + 3)).toNat_lt
  omega

theorem readStreams_at {i count : Nat} (h : 8 + 4 * (i + count) ≤ frame.length) :
    readStreams count ⟨frame, 8 + 4 * i⟩ =
      .ok ((List.range' i count).map (descriptorAt frame), ⟨frame, 8 + 4 * (i + count)⟩) := by
  induction count generalizing i with
  | zero => rfl
  | succ count ih =>
    have hentry : (⟨frame, 8 + 4 * i⟩ : Cursor).take streamEntrySize =
        .ok (Octets.window frame (8 + 4 * i) 4, ⟨frame, 8 + 4 * (i + 1)⟩) :=
      Cursor.take_eq_ok (by simp only [streamEntrySize]; omega)
    have hrest := ih (i := i + 1) (by omega)
    rw [readStreams, hentry]
    simp only [readField, Fallible.ok_bind, hrest, List.range'_succ, List.map_cons]
    rw [Nat.add_assoc, Nat.add_comm 1 count]
    rfl

theorem readStreams_refused {i count place : Nat} (hle : i ≤ place) (hlt : place < i + count)
    (hinside : 8 + 4 * place ≤ frame.length) (houtside : frame.length < 8 + 4 * (place + 1)) :
    readStreams count ⟨frame, 8 + 4 * i⟩ =
      .error (.fieldOutOfBounds "STC" (8 + 4 * place) 4 frame.length) := by
  induction count generalizing i with
  | zero => omega
  | succ count ih =>
    rw [readStreams]
    by_cases hplace : i = place
    · have hentry : (⟨frame, 8 + 4 * place⟩ : Cursor).take streamEntrySize =
          .error ⟨8 + 4 * place, 4, frame.length⟩ :=
        Cursor.take_eq_error (by simp only [streamEntrySize]; omega)
      rw [hplace, hentry]
      rfl
    · have hentry : (⟨frame, 8 + 4 * i⟩ : Cursor).take streamEntrySize =
          .ok (Octets.window frame (8 + 4 * i) 4, ⟨frame, 8 + 4 * (i + 1)⟩) :=
        Cursor.take_eq_ok (by simp only [streamEntrySize]; omega)
      rw [hentry]
      simp only [readField, Fallible.ok_bind, ih (i := i + 1) (by omega) (by omega)]
      rfl

def descriptors (frame : Octets) : List StreamDescriptor :=
  (List.range (announcedStreams frame)).map (descriptorAt frame)

theorem lengths_descriptors (h : 8 + 4 * announcedStreams frame ≤ frame.length) :
    ((descriptors frame).map fun stream => stream.streamLength.toNat) = announcedLengths frame := by
  rw [descriptors, List.map_map, announcedLengths]
  apply List.map_congr_left
  intro i hi
  have := List.mem_range.mp hi
  exact streamLength_descriptorAt (by omega)

theorem dataLength_descriptors (h : 8 + 4 * announcedStreams frame ≤ frame.length) :
    ((descriptors frame).map StreamDescriptor.dataLength).sum =
      8 * (announcedLengths frame).sum := by
  rw [dataLength_streams, lengths_descriptors h]

theorem offsetOf_descriptors (h : 8 + 4 * announcedStreams frame ≤ frame.length) :
    offsetOf (announcedStreams frame) (ficWordsOfMode ((Octets.octet frame 6).toNat / 8 % 4))
      ((descriptors frame).map StreamDescriptor.dataLength).sum = announcedPlace frame := by
  have hcount : (descriptors frame).length = announcedStreams frame := by simp [descriptors]
  have hplace := offsetOf_eq_place ((Octets.octet frame 6).toNat / 8 % 4) (descriptors frame)
  rw [hcount, ← dataLength_streams] at hplace
  rw [hplace, place, hcount, lengths_descriptors h, announcedPlace]

theorem toNat_word {word : Octets} (h : word.length = 4) :
    (UInt32.ofNat (Octets.big word)).toNat = Octets.big word := by
  have hlt := Octets.big_lt word
  rw [h] at hlt
  exact UInt32.toNat_ofNat_of_lt' hlt

/-- A counter matches when it is the count the message announces. -/
theorem expectedFctOf_eq_iff {fct : UInt8} {dlfc : UInt16} :
    (fct == expectedFctOf dlfc) = true ↔ fct.toNat = dlfc.toNat % 250 := by
  have hcount : (expectedFctOf dlfc).toNat = dlfc.toNat % 250 :=
    UInt8.toNat_ofNat_of_lt' (Nat.lt_trans (Nat.mod_lt _ (by decide)) (by decide))
  rw [beq_iff_eq, ← UInt8.toNat_inj, hcount]

theorem readRaw_at {offset : Nat} (h : offset + 4 ≤ frame.length) :
    readRaw frame offset = .ok (UInt32.ofNat (Octets.big (Octets.window frame offset 4))) := by
  have hseek : Cursor.ofPosition frame offset = .ok ⟨frame, offset⟩ :=
    Cursor.seek_eq_ok (Nat.le_of_add_right_le h)
  have htake : (⟨frame, offset⟩ : Cursor).take 4 =
      .ok (Octets.window frame offset 4, ⟨frame, offset + 4⟩) := Cursor.take_eq_ok h
  rw [readRaw, hseek, Fallible.ok_bind, htake]
  rfl

/-- Behind the end of the octets no position is taken, and at most three octets are left in front of
it. -/
theorem readRaw_refused {offset : Nat} (h : frame.length < offset + 4) : readRaw frame offset =
    .error ⟨offset, if frame.length < offset then 0 else 4, frame.length⟩ := by
  rw [readRaw, Cursor.ofPosition]
  by_cases hposition : frame.length < offset
  · rw [Cursor.seek_eq_error (c := .start frame) hposition, if_pos hposition]
    rfl
  · have hseek : (Cursor.start frame).seek offset = .ok ⟨frame, offset⟩ :=
      Cursor.seek_eq_ok (Nat.le_of_not_lt hposition)
    have htake : (⟨frame, offset⟩ : Cursor).take 4 = .error ⟨offset, 4, frame.length⟩ :=
      Cursor.take_eq_error h
    rw [hseek, Fallible.ok_bind, htake, if_neg hposition]
    rfl

def body (frame : Octets) (dlfc : UInt16) : Except MessageFault Timestamp := do
  let cursor ← readField "STC" ((⟨frame, 7⟩ : Cursor).seek streamsOffset)
  let (streams, cursor) ← readStreams (announcedStreams frame) cursor
  let (mnsc, _) ← readField "MNSC" (cursor.take 2)
  let dataLength := (streams.map StreamDescriptor.dataLength).sum
  let ficWords := ficWordsOfMode ((Octets.octet frame 6).toNat / 8 % 4)
  let offset := offsetOf (announcedStreams frame) ficWords dataLength
  let raw ← readField "TIST" (readRaw frame offset)
  return {
    fct := Octets.octet frame 4, expectedFct := expectedFctOf dlfc, ficPresent := true
    nst := announcedStreams frame, ficWords, mnsc := UInt16.ofNat (Octets.big mnsc), streams
    dataLength, offset, raw }

theorem readFct_at (h : 4 < frame.length) :
    readFct frame = .ok (Octets.octet frame 4, ⟨frame, 5⟩) := by
  have hposition : Cursor.ofPosition frame fctOffset = .ok ⟨frame, 4⟩ := Cursor.seek_eq_ok (Nat.le_of_lt h)
  rw [readFct, hposition]
  simp only [readField, Fallible.ok_bind, Cursor.readOctet_at h]

theorem ofFrame_of_long (h : 7 ≤ frame.length) (dlfc : UInt16) : ofFrame frame dlfc =
    if (Octets.octet frame 5).toNat < 128 then .error (.missingFic (Octets.octet frame 4).toNat)
    else body frame dlfc := by
  have hnst : (⟨frame, 5⟩ : Cursor).readOctet = .ok (Octets.octet frame 5, ⟨frame, 6⟩) :=
    Cursor.readOctet_at (by omega)
  have hmode : (⟨frame, 6⟩ : Cursor).readOctet = .ok (Octets.octet frame 6, ⟨frame, 7⟩) :=
    Cursor.readOctet_at h
  simp only [ofFrame, readFct_at (by omega : 4 < frame.length), readField, hnst, hmode,
    Fallible.ok_bind]
  rfl

theorem ofFrame_of_present (hlong : 7 ≤ frame.length)
    (hficPresent : 128 ≤ (Octets.octet frame 5).toNat) (dlfc : UInt16) :
    ofFrame frame dlfc = body frame dlfc := by
  rw [ofFrame_of_long hlong, if_neg (Nat.not_lt.mpr hficPresent)]

theorem seek_streams (hlong : 8 ≤ frame.length) :
    (⟨frame, 7⟩ : Cursor).seek streamsOffset = .ok ⟨frame, 8⟩ := Cursor.seek_eq_ok hlong

theorem readStreams_announced (h : 8 + 4 * announcedStreams frame ≤ frame.length) :
    readStreams (announcedStreams frame) ⟨frame, 8⟩ =
      .ok (descriptors frame, ⟨frame, 8 + 4 * announcedStreams frame⟩) := by
  have hfits : 8 + 4 * (0 + announcedStreams frame) ≤ frame.length := by omega
  have hread := readStreams_at hfits
  rwa [Nat.zero_add, ← List.range_eq_range'] at hread

/-- Behind the descriptors only the channel word and the timestamp are left to be read. -/
theorem body_of_streams (h : 8 + 4 * announcedStreams frame ≤ frame.length) (dlfc : UInt16) :
    body frame dlfc = do
      let (mnsc, _) ← readField "MNSC"
        ((⟨frame, 8 + 4 * announcedStreams frame⟩ : Cursor).take 2)
      let raw ← readField "TIST" (readRaw frame (announcedPlace frame))
      return {
        fct := Octets.octet frame 4, expectedFct := expectedFctOf dlfc, ficPresent := true
        nst := announcedStreams frame
        ficWords := ficWordsOfMode ((Octets.octet frame 6).toNat / 8 % 4)
        mnsc := UInt16.ofNat (Octets.big mnsc), streams := descriptors frame
        dataLength := ((descriptors frame).map StreamDescriptor.dataLength).sum
        offset := announcedPlace frame, raw } := by
  rw [body, seek_streams (Nat.le_of_add_right_le h)]
  simp only [readField, Fallible.ok_bind, readStreams_announced h, offsetOf_descriptors h]

theorem take_channelWord (h : 8 + 4 * announcedStreams frame + 2 ≤ frame.length) :
    (⟨frame, 8 + 4 * announcedStreams frame⟩ : Cursor).take 2 =
      .ok (Octets.window frame (8 + 4 * announcedStreams frame) 2,
        ⟨frame, 8 + 4 * announcedStreams frame + 2⟩) := Cursor.take_eq_ok h

theorem ofFrame_of_short (h : frame.length < 7) {fault : MessageFault} (hfault : Missing frame fault)
    (dlfc : UInt16) : ofFrame frame dlfc = .error fault := by
  cases hfault with
  | fct hshort =>
    by_cases hposition : frame.length < 4
    · have hrefused : Cursor.ofPosition frame fctOffset = .error ⟨4, 0, frame.length⟩ :=
        Cursor.seek_eq_error hposition
      rw [ofFrame, readFct, hrefused, if_pos hposition]
      rfl
    · have hseek : Cursor.ofPosition frame fctOffset = .ok ⟨frame, 4⟩ :=
        Cursor.seek_eq_ok (Nat.le_of_not_lt hposition)
      have hrefused : (⟨frame, 4⟩ : Cursor).readOctet = .error ⟨4, 1, frame.length⟩ :=
        Cursor.readOctet_eq_error (Nat.le_of_lt_succ hshort)
      rw [ofFrame, readFct, hseek, if_neg hposition]
      simp only [readField, Fallible.ok_bind, hrefused]
      rfl
  | nst hlength =>
    have hrefused : (⟨frame, 5⟩ : Cursor).readOctet = .error ⟨5, 1, frame.length⟩ :=
      Cursor.readOctet_eq_error (Nat.le_of_eq hlength)
    rw [ofFrame, readFct_at (by omega), Fallible.ok_bind]
    simp only [hrefused]
    rfl
  | mode hlength =>
    have hnst : (⟨frame, 5⟩ : Cursor).readOctet =
        .ok (Octets.octet frame 5, ⟨frame, 6⟩) := Cursor.readOctet_at (by omega)
    have hrefused : (⟨frame, 6⟩ : Cursor).readOctet = .error ⟨6, 1, frame.length⟩ :=
      Cursor.readOctet_eq_error (Nat.le_of_eq hlength)
    rw [ofFrame, readFct_at (by omega), Fallible.ok_bind]
    simp only [readField, Fallible.ok_bind, hnst, hrefused]
    rfl
  | _ => omega

theorem ofFrame_of_missing {fault : MessageFault} (h : Missing frame fault) (dlfc : UInt16) :
    ofFrame frame dlfc = .error fault := by
  by_cases hshort : frame.length < 7
  · exact ofFrame_of_short hshort h dlfc
  have hlong : 7 ≤ frame.length := Nat.le_of_not_lt hshort
  cases h with
  | fct | nst | mode => omega
  | fic _ hfic => rw [ofFrame_of_long hlong, if_pos hfic]
  | streams hficPresent hseven =>
    have hrefused : (⟨frame, 7⟩ : Cursor).seek streamsOffset = .error ⟨8, 0, frame.length⟩ :=
      Cursor.seek_eq_error (by simp only [streamsOffset]; omega)
    rw [ofFrame_of_present hlong hficPresent, body, hrefused]
    rfl
  | stream hinside hficPresent hplace houtside =>
    have hrefused := readStreams_refused (Nat.zero_le _)
      (Nat.lt_of_lt_of_eq hplace (Nat.zero_add _).symm) hinside houtside
    rw [ofFrame_of_present hlong hficPresent, body, seek_streams (Nat.le_of_add_right_le hinside)]
    simp only [readField, Fallible.ok_bind]
    rw [hrefused]
    rfl
  | channelWord hficPresent hstreams hword =>
    have hrefused : (⟨frame, 8 + 4 * announcedStreams frame⟩ : Cursor).take 2 =
        .error ⟨8 + 4 * announcedStreams frame, 2, frame.length⟩ := Cursor.take_eq_error hword
    rw [ofFrame_of_present hlong hficPresent, body_of_streams hstreams, hrefused]
    rfl
  | timestamp hficPresent hword hplace =>
    have hstreams : 8 + 4 * announcedStreams frame ≤ frame.length := Nat.le_of_add_right_le hword
    rw [ofFrame_of_present hlong hficPresent, body_of_streams hstreams, take_channelWord hword]
    simp only [readField, Fallible.ok_bind, readRaw_refused hplace]
    rfl

theorem ofFrame_of_complete (h : Complete frame) (dlfc : UInt16) : ofFrame frame dlfc = .ok {
    fct := Octets.octet frame 4, expectedFct := expectedFctOf dlfc, ficPresent := true
    nst := announcedStreams frame
    ficWords := ficWordsOfMode ((Octets.octet frame 6).toNat / 8 % 4)
    mnsc := UInt16.ofNat
      (Octets.big (Octets.window frame (8 + 4 * announcedStreams frame) 2))
    streams := descriptors frame
    dataLength := ((descriptors frame).map StreamDescriptor.dataLength).sum
    offset := announcedPlace frame
    raw := UInt32.ofNat (Octets.big (Octets.window frame (announcedPlace frame) 4)) } := by
  have hplace := h.place_le
  have hword : 8 + 4 * announcedStreams frame + 2 ≤ frame.length := by
    rw [announcedPlace] at hplace
    omega
  rw [ofFrame_of_present h.long h.ficPresent, body_of_streams h.streams_le, take_channelWord hword]
  simp only [readField, Fallible.ok_bind, readRaw_at hplace]
  rfl

/-- The walk to the timestamp is decided by the octets: it ends at the timestamp exactly when nothing is
missing, and otherwise with the first thing that is. Offset, word and lengths of the timestamp are those
the octets announce, and its counter matches when octet 4 is the count of the message within its
cycle. -/
theorem ofFrame_decides (frame : Octets) (dlfc : UInt16) :
    ((∃ timestamp, ofFrame frame dlfc = .ok timestamp) ↔ Complete frame) ∧
    (∀ fault, ofFrame frame dlfc = .error fault ↔ Missing frame fault) ∧
    ∀ timestamp, ofFrame frame dlfc = .ok timestamp →
      timestamp.offset = announcedPlace frame ∧
      timestamp.raw.toNat = Octets.big (Octets.window frame (announcedPlace frame) 4) ∧
      timestamp.dataLength = 8 * (announcedLengths frame).sum ∧
      (timestamp.fctMatches = true ↔ (Octets.octet frame 4).toNat = dlfc.toNat % 250) := by
  rcases complete_or_missing frame with hcomplete | ⟨found, hmissing⟩
  · have hread := ofFrame_of_complete hcomplete dlfc
    refine ⟨⟨fun _ => hcomplete, fun _ => ⟨_, hread⟩⟩, fun fault => ⟨?_, ?_⟩, ?_⟩
    · intro hfault
      cases hread.symm.trans hfault
    · intro hmissing
      cases hread.symm.trans (ofFrame_of_missing hmissing dlfc)
    · intro timestamp htimestamp
      cases hread.symm.trans htimestamp
      exact ⟨rfl, toNat_word (Octets.length_window_of_le hcomplete.place_le), dataLength_descriptors
        hcomplete.streams_le, expectedFctOf_eq_iff⟩
  · have hread := ofFrame_of_missing hmissing dlfc
    refine ⟨⟨?_, ?_⟩, fun fault => ⟨?_, ?_⟩, ?_⟩
    · rintro ⟨timestamp, htimestamp⟩
      cases hread.symm.trans htimestamp
    · intro hcomplete
      cases hread.symm.trans (ofFrame_of_complete hcomplete dlfc)
    · intro hfault
      cases hread.symm.trans hfault
      exact hmissing
    · intro hfault
      exact ofFrame_of_missing hfault dlfc
    · intro timestamp htimestamp
      cases hread.symm.trans htimestamp

end Timestamp

end EnsembleTransport
