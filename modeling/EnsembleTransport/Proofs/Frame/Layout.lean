import EnsembleTransport.Proofs.Message.RoundTrip
import EnsembleTransport.Timestamp

/-!
# The layout in front of a timestamp

A frame that has its counter, its stream descriptors, its channel word and its timestamp at the
places where they belong is walked to the timestamp. What stands between and behind these places is
never looked at, so a payload tells the same with filler behind it.
-/

namespace EnsembleTransport

open Layout

namespace StreamDescriptor

theorem ofOctets_toOctets (stream : StreamDescriptor) : ofOctets stream.toOctets = stream := by
  have hword : stream.toWord.toNat % 256 ^ 4 = stream.toWord.toNat :=
    Nat.mod_eq_of_lt stream.toWord.isLt
  rw [ofOctets, toOctets, Octets.big_ofBig, hword, BitVec.ofNat_toNat, BitVec.setWidth_eq,
    ofWord_toWord]

theorem length_toOctets (stream : StreamDescriptor) : stream.toOctets.length = 4 :=
  Octets.length_ofBig 4 _

theorem length_flatMap_toOctets (streams : List StreamDescriptor) :
    (streams.flatMap toOctets).length = 4 * streams.length := by
  induction streams with
  | nil => rfl
  | cons stream streams ih =>
    rw [List.flatMap_cons, List.length_append, length_toOctets, ih, List.length_cons]
    omega

end StreamDescriptor

namespace Timestamp

theorem readStreams_eq_ok {cursor : Cursor} {streams : List StreamDescriptor}
    (h : Octets.window cursor.buffer cursor.position (4 * streams.length) =
      streams.flatMap StreamDescriptor.toOctets) :
    readStreams streams.length cursor = .ok (streams, cursor.advance (4 * streams.length)) := by
  induction streams generalizing cursor with
  | nil => rfl
  | cons stream streams ih =>
    have hsize : 4 * (stream :: streams).length =
        stream.toOctets.length + (streams.flatMap StreamDescriptor.toOctets).length := by
      rw [StreamDescriptor.length_toOctets, StreamDescriptor.length_flatMap_toOctets,
        List.length_cons]
      omega
    rw [hsize, List.flatMap_cons] at h
    obtain ⟨hfirst, hothers⟩ := Octets.window_eq_append h
    rw [StreamDescriptor.length_toOctets] at hfirst hothers
    rw [StreamDescriptor.length_flatMap_toOctets] at hothers
    have hfits : cursor.position + 4 ≤ cursor.buffer.length := by
      have hlength := congrArg List.length hfirst
      rw [Octets.length_window, StreamDescriptor.length_toOctets] at hlength
      omega
    have hentry : cursor.take streamEntrySize = .ok (stream.toOctets, cursor.advance 4) := by
      rw [← hfirst]
      exact Cursor.take_eq_ok hfits
    have hrest : readStreams streams.length (cursor.advance 4) =
        .ok (streams, (cursor.advance 4).advance (4 * streams.length)) := ih hothers
    have hposition : (cursor.advance 4).advance (4 * streams.length) =
        cursor.advance (4 * (stream :: streams).length) := by
      simp only [Cursor.advance, List.length_cons, Nat.mul_succ, Nat.add_assoc, Nat.add_comm]
    rw [List.length_cons, readStreams, hentry]
    simp only [readField, Fallible.ok_bind, hrest, hposition, StreamDescriptor.ofOctets_toOctets]
    rfl

/-- Offset of the timestamp behind the descriptors, the fast information channel of a mode and the
data of the streams. -/
def place (mode : Nat) (streams : List StreamDescriptor) : Nat :=
  16 + 4 * streams.length + 4 * (if mode = 3 then 32 else 24) +
    8 * (streams.map fun stream => stream.streamLength.toNat).sum

theorem le_place (mode : Nat) (streams : List StreamDescriptor) :
    8 + 4 * streams.length + 2 ≤ place mode streams := by
  rw [place]
  omega

/-- The frame has all these at the places where they belong, and room for the timestamp. -/
structure Carries (frame : Octets) (fct : UInt8) (mode : Fin 4) (streams : List StreamDescriptor)
    (mnsc : UInt16) (raw : UInt32) : Prop where
  length_streams_le : streams.length ≤ 127
  fct_at : frame[4]? = some fct
  nst_at : frame[5]? = some (.ofNat (0x80 + streams.length))
  mode_at : ∃ octet, frame[6]? = some octet ∧ octet.toNat / 8 % 4 = mode.val
  streams_at : Octets.window frame 8 (4 * streams.length) =
    streams.flatMap StreamDescriptor.toOctets
  mnsc_at : Octets.window frame (8 + 4 * streams.length) 2 = Octets.ofBig 2 mnsc.toNat
  raw_at : Octets.window frame (place mode streams) 4 = Octets.ofBig 4 raw.toNat
  place_le : place mode streams + 4 ≤ frame.length

def told (fct : UInt8) (mode : Fin 4) (streams : List StreamDescriptor) (mnsc : UInt16)
    (raw : UInt32) (dlfc : UInt16) : Timestamp where
  fct
  expectedFct := expectedFctOf dlfc
  ficPresent := true
  nst := streams.length
  ficWords := if (mode : Nat) = 3 then 32 else 24
  mnsc
  streams
  dataLength := 8 * (streams.map fun stream => stream.streamLength.toNat).sum
  offset := place mode streams
  raw

theorem dataLength_streams (streams : List StreamDescriptor) :
    (streams.map StreamDescriptor.dataLength).sum =
      8 * (streams.map fun stream => stream.streamLength.toNat).sum := by
  induction streams with
  | nil => rfl
  | cons stream streams ih =>
    simp only [List.map_cons, List.sum_cons, ih, StreamDescriptor.dataLength]
    omega

theorem offsetOf_eq_place (mode : Nat) (streams : List StreamDescriptor) :
    offsetOf streams.length (ficWordsOfMode mode)
      (8 * (streams.map fun stream => stream.streamLength.toNat).sum) = place mode streams := by
  simp only [offsetOf, ficWordsOfMode, place, streamsOffset, streamEntrySize, endOfHeaderSize,
    endOfFrameSize]
  omega

theorem readRaw_eq_ok {frame : Octets} {offset : Nat} {raw : UInt32}
    (h : Octets.window frame offset 4 = Octets.ofBig 4 raw.toNat)
    (hfits : offset + 4 ≤ frame.length) : readRaw frame offset = .ok raw := by
  have hseek : Cursor.ofPosition frame offset = .ok ⟨frame, offset⟩ :=
    Cursor.seek_eq_ok (Nat.le_of_add_right_le hfits)
  have htake : (⟨frame, offset⟩ : Cursor).take 4 =
      .ok (Octets.ofBig 4 raw.toNat, ⟨frame, offset + 4⟩) := by
    rw [← h]
    exact Cursor.take_eq_ok hfits
  have hword : raw.toNat % 256 ^ 4 = raw.toNat := Nat.mod_eq_of_lt raw.toNat_lt
  simp only [readRaw, hseek, htake, Fallible.ok_bind, Octets.big_ofBig, hword, UInt32.ofNat_toNat]
  rfl

variable {frame : Octets} {fct : UInt8} {mode : Fin 4} {streams : List StreamDescriptor}
  {mnsc : UInt16} {raw : UInt32}

/-- A frame is walked over what it carries. -/
theorem Carries.ofFrame_eq_ok (h : Carries frame fct mode streams mnsc raw) (dlfc : UInt16) :
    ofFrame frame dlfc = .ok (told fct mode streams mnsc raw dlfc) := by
  have hplace := h.place_le
  have hbehind := le_place mode streams
  obtain ⟨modeOctet, hmodeOctet, hmode⟩ := h.mode_at
  have hcount : (UInt8.ofNat (0x80 + streams.length)).toNat = 0x80 + streams.length := by
    have := h.length_streams_le
    rw [UInt8.toNat_ofNat']
    omega
  have hposition : Cursor.ofPosition frame fctOffset = .ok ⟨frame, 4⟩ :=
    Cursor.seek_eq_ok (by simp only [Cursor.start, fctOffset]; omega)
  have hfct : (⟨frame, 4⟩ : Cursor).readOctet = .ok (fct, ⟨frame, 5⟩) :=
    Cursor.readOctet_eq_ok h.fct_at
  have hnst : (⟨frame, 5⟩ : Cursor).readOctet = .ok (.ofNat (0x80 + streams.length), ⟨frame, 6⟩) :=
    Cursor.readOctet_eq_ok h.nst_at
  have hmid : (⟨frame, 6⟩ : Cursor).readOctet = .ok (modeOctet, ⟨frame, 7⟩) :=
    Cursor.readOctet_eq_ok hmodeOctet
  have hseek : (⟨frame, 7⟩ : Cursor).seek streamsOffset = .ok ⟨frame, 8⟩ :=
    Cursor.seek_eq_ok (by simp only [streamsOffset]; omega)
  have hstreams : readStreams streams.length ⟨frame, 8⟩ =
      .ok (streams, ⟨frame, 8 + 4 * streams.length⟩) := readStreams_eq_ok h.streams_at
  have hmnsc : (⟨frame, 8 + 4 * streams.length⟩ : Cursor).take 2 =
      .ok (Octets.ofBig 2 mnsc.toNat, ⟨frame, 8 + 4 * streams.length + 2⟩) := by
    rw [← h.mnsc_at]
    exact Cursor.take_eq_ok (by simp only; omega)
  have hraw : readRaw frame (place mode streams) = .ok raw := readRaw_eq_ok h.raw_at hplace
  have hpresent : ¬ 128 + streams.length < 128 := by omega
  have hstreamCount : (128 + streams.length) % 128 = streams.length := by
    have := h.length_streams_le
    omega
  have hword : mnsc.toNat % 256 ^ 2 = mnsc.toNat := Nat.mod_eq_of_lt mnsc.toNat_lt
  simp only [ofFrame, readFct, readField, hposition, hfct, hnst, hmid, Fallible.ok_bind, hcount,
    hpresent, if_false, hseek, hstreamCount, hstreams, hmnsc, hmode, offsetOf_eq_place, hraw,
    Octets.big_ofBig, hword, UInt16.ofNat_toNat, dataLength_streams]
  rfl

theorem Carries.append (h : Carries frame fct mode streams mnsc raw) (rest : Octets) :
    Carries (frame ++ rest) fct mode streams mnsc raw := by
  have hplace := h.place_le
  have hbehind := le_place mode streams
  obtain ⟨modeOctet, hmodeOctet, hmode⟩ := h.mode_at
  exact {
    length_streams_le := h.length_streams_le
    fct_at := by rw [List.getElem?_append_left (by omega), h.fct_at]
    nst_at := by rw [List.getElem?_append_left (by omega), h.nst_at]
    mode_at := ⟨modeOctet, by rw [List.getElem?_append_left (by omega), hmodeOctet], hmode⟩
    streams_at := by rw [Octets.window_append_left (by omega), h.streams_at]
    mnsc_at := by rw [Octets.window_append_left (by omega), h.mnsc_at]
    raw_at := by rw [Octets.window_append_left hplace, h.raw_at]
    place_le := by
      rw [List.length_append]
      omega }

/-- A payload that carries a timestamp is sent as any of the four frames of a message, next to any
other payloads. After any history, the frame tells what the payload alone tells. -/
theorem ofFrame_of_reassembled {payload : Octets}
    (hcarries : Carries payload fct mode streams mnsc raw) (r : Reassembler)
    {payloads : List Octets} (trailer : Octets) (hcount : payloads.length = 4)
    (hfits : ∀ other ∈ payloads, other.length ≤ 6144) {i : Nat} (hi : payloads[i]? = some payload)
    (dlfc : UInt16) :
    ∃ frame, (r.reassemble (Envelope.encode payloads trailer)).2.frames.frame? i = some frame ∧
      ofFrame frame dlfc = .ok (told fct mode streams mnsc raw dlfc) ∧
      ofFrame payload dlfc = .ok (told fct mode streams mnsc raw dlfc) := by
  have hsplit := SplitMessage.ofMessage_encode trailer hcount hfits
  obtain ⟨_, hframes⟩ := r.reassemble_of_parts hsplit
  refine ⟨FrameSet.pad payload, ?_, (hcarries.append _).ofFrame_eq_ok dlfc,
    hcarries.ofFrame_eq_ok dlfc⟩
  rw [hframes.frame?_eq, hi]
  rfl

/-- A payload of 160 octets with one stream and a long fast information channel. -/
theorem ofFrame_of_reassembled_long_fic :
    let stream : StreamDescriptor := ⟨7, 0x120, 3, 1⟩
    let payload := [0xFF, 0x07, 0x3A, 0xB6, 123, 0x81, 0x18, 0xE0] ++ stream.toOctets ++
      [0xAB, 0xCD] ++ List.replicate 142 0x55 ++ [0, 0x40, 0, 0]
    ∃ frame, ((({} : Reassembler).reassemble
        (Envelope.encode [[], payload, [1, 2], []] [9])).2.frames.frame? 1) = some frame ∧
      ofFrame frame 4623 = .ok (told 123 3 [stream] 0xABCD 0x400000 4623) ∧
      (told 123 3 [stream] 0xABCD 0x400000 4623).offset = 156 := by
  intro stream payload
  have hcarries : Carries payload 123 3 [stream] 0xABCD 0x400000 := {
    length_streams_le := by decide
    fct_at := rfl
    nst_at := rfl
    mode_at := ⟨0x18, rfl, rfl⟩
    streams_at := by decide
    mnsc_at := by decide
    raw_at := by decide +kernel
    place_le := by decide +kernel }
  have hfits : ∀ other ∈ [[], payload, [1, 2], []], other.length ≤ 6144 := by decide +kernel
  have hplace : [[], payload, [1, 2], []][1]? = some payload := rfl
  obtain ⟨frame, hframe, htold, -⟩ :=
    ofFrame_of_reassembled hcarries {} [9] rfl hfits hplace 4623
  exact ⟨frame, hframe, htold, rfl⟩

end Timestamp

end EnsembleTransport
