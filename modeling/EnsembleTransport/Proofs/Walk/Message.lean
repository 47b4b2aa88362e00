import EnsembleTransport.FrameSync
import EnsembleTransport.Metadata.Tag
import EnsembleTransport.Proofs.Message.Acceptance
import EnsembleTransport.Proofs.Message.Windows

/-!
# Messages read through a cursor

A decoder that reads through a cursor has an answer ready for every read that may be refused. With
these answers left open, a walk takes a message apart read by read. It comes to the same parts, or
to the same fault, under any answers: the size of a message is looked at before its header is read.
-/

namespace EnsembleTransport

open Layout

/-- The answers to reads that are refused. Those of the program itself are the defaults. -/
structure Fallbacks where
  /-- A field that is not all there. -/
  field (name : String) (fault : BoundsFault) : MessageFault := fault.inField name
  /-- Payloads that begin past the end of the message. -/
  payloads (fault : BoundsFault) : MessageFault := .shortMessage headerSize fault.available
  /-- A group that begins past the end of its block. -/
  group (fault : BoundsFault) : MessageFault :=
    .truncatedMetadata none fault.offset Metadata.recordHeaderSize 0
  /-- A frame without a synchronisation to look at: what its entry shows and what it counts. -/
  sync (fault : MessageFault) : Option FrameSync × Nat := (none, 1)

namespace Fallible

variable {ε ε' α : Type}

@[simp] theorem mapError_ok (f : ε → ε') (a : α) : (.ok a : Except ε α).mapError f = .ok a := rfl

@[simp] theorem mapError_error (f : ε → ε') (e : ε) :
    (.error e : Except ε α).mapError f = .error (f e) := rfl

end Fallible

namespace Envelope

def readLengths (fb : Fallbacks) :
    (count index : Nat) → Cursor → Except MessageFault (List Nat)
  | 0, _, _ => .ok []
  | count + 1, index, cursor => do
    let (length, cursor) ← (cursor.read .i16Little).mapError (fb.field "buflen")
    if 0 ≤ length ∧ length ≤ frameSize then
      let lengths ← readLengths fb count (index + 1) cursor
      return length.toNat :: lengths
    else .error (.invalidSubframeLength index length frameSize)

def walk (fb : Fallbacks) (message : Octets) : Except MessageFault Envelope :=
  if message.length < headerSize then .error (.shortMessage headerSize message.length) else do
    let (version, cursor) ←
      ((Cursor.start (message.take headerSize)).read .u32Little).mapError (fb.field "version")
    if version.toNat ≠ envelopeVersion then
      .error (.unsupportedVersion version.toNat envelopeVersion)
    else
      let lengths ← readLengths fb framesPerMessage 0 cursor
      return ⟨version.toNat, lengths⟩

variable (fb : Fallbacks) {message : Octets}

/-- A word of the header is read from the front of the message as from the message. -/
theorem read_header (hmessage : headerSize ≤ message.length) {offset : Nat} {word : Word}
    (h : offset + word.size ≤ headerSize) :
    (⟨message.take headerSize, offset⟩ : Cursor).read word =
      .ok (word.value (Octets.window message offset word.size),
        ⟨message.take headerSize, offset + word.size⟩) := by
  have hlength : (message.take headerSize).length = headerSize := by
    rw [List.length_take]
    omega
  have hwindow : Octets.window (message.take headerSize ++ message.drop headerSize) offset
      word.size = Octets.window (message.take headerSize) offset word.size :=
    Octets.window_append_left (by omega)
  rw [List.take_append_drop] at hwindow
  rw [Cursor.read_eq_ok (by simp only; omega), hwindow]
  rfl

theorem readLengths_eq (hmessage : headerSize ≤ message.length) {count index : Nat}
    (h : index + count ≤ framesPerMessage) :
    readLengths fb count index ⟨message.take headerSize, 4 + 2 * index⟩ =
      (List.range' index count).mapM (checkLength message) := by
  induction count generalizing index with
  | zero => rfl
  | succ count ih =>
    have hread : (⟨message.take headerSize, 4 + 2 * index⟩ : Cursor).read .i16Little =
        .ok (declaredLength message index, ⟨message.take headerSize, 4 + 2 * (index + 1)⟩) :=
      read_header hmessage (by simp only [Word.size, headerSize]; omega)
    rw [readLengths, hread, List.range'_succ, List.mapM_cons, ← ih (by omega)]
    simp only [Fallible.mapError_ok, Fallible.ok_bind, checkLength]
    split
    · rfl
    · rfl

/-- Every field of a header is there once the message is as long as a header. -/
theorem walk_eq : walk fb message = parse message := by
  unfold walk parse
  split
  · rfl
  · rename_i hshort
    have hmessage : headerSize ≤ message.length := Nat.le_of_not_lt hshort
    have hversion : (Cursor.start (message.take headerSize)).read .u32Little =
        .ok (declaredVersion message, ⟨message.take headerSize, 4⟩) :=
      read_header hmessage (by decide)
    have hlengths : readLengths fb framesPerMessage 0 ⟨message.take headerSize, 4⟩ =
        (List.range framesPerMessage).mapM (checkLength message) := by
      rw [List.range_eq_range']
      exact readLengths_eq fb hmessage (by decide)
    simp only [hversion, Fallible.mapError_ok, Fallible.ok_bind, Int.toNat_natCast, hlengths]

end Envelope

namespace SplitMessage

def takePayloads : (index : Nat) → Cursor → List Nat → Except MessageFault (List Octets × Cursor)
  | _, cursor, [] => .ok ([], cursor)
  | index, cursor, length :: lengths => do
    let (payload, next) ← (cursor.take length).mapError fun _ =>
      .payloadOverrun index cursor.position length cursor.buffer.length
    let (payloads, last) ← takePayloads (index + 1) next lengths
    return (payload :: payloads, last)

def walk (fb : Fallbacks) (message : Octets) : Except MessageFault SplitMessage := do
  let envelope ← Envelope.walk fb message
  let cursor ← (Cursor.ofPosition message headerSize).mapError fb.payloads
  let (payloads, cursor) ← takePayloads 0 cursor envelope.lengths
  return ⟨envelope, payloads, cursor.rest⟩

/-- Payloads are taken as a message is cut; the cursor is left in front of the trailer. -/
theorem takePayloads_eq (message : Octets) (index offset : Nat) (lengths : List Nat) :
    takePayloads index ⟨message, offset⟩ lengths =
      (cut message index offset lengths).map fun (payloads, _) =>
        (payloads, ⟨message, offset + lengths.sum⟩) := by
  induction lengths generalizing index offset with
  | nil => rfl
  | cons length lengths ih =>
    rw [takePayloads, cut]
    split
    · rename_i hfits
      have htake : (⟨message, offset⟩ : Cursor).take length =
          .ok (Octets.window message offset length, ⟨message, offset + length⟩) :=
        Cursor.take_eq_ok hfits
      rw [htake]
      simp only [Fallible.mapError_ok, Fallible.ok_bind, ih, List.sum_cons, Nat.add_assoc]
      cases cut message (index + 1) (offset + length) lengths <;> rfl
    · rename_i hover
      rw [Cursor.take_eq_error (Nat.lt_of_not_le hover)]
      rfl

/-- An accepted header lies inside the message, so the payloads begin there. -/
theorem walk_eq (fb : Fallbacks) (message : Octets) : walk fb message = ofMessage message := by
  rw [walk, ofMessage, Envelope.walk_eq]
  cases hparse : Envelope.parse message with
  | error fault => rfl
  | ok envelope =>
    have hcomplete := (Envelope.announces_of_parse hparse).complete
    have hposition : Cursor.ofPosition message headerSize = .ok ⟨message, headerSize⟩ :=
      Cursor.seek_eq_ok hcomplete
    simp only [Fallible.ok_bind, hposition, Fallible.mapError_ok, takePayloads_eq]
    cases hcut : cut message 0 headerSize envelope.lengths with
    | error fault => rfl
    | ok pair =>
      obtain ⟨-, -, hrest⟩ := (cut_eq_ok_iff hcomplete).mp hcut
      simp only [Except.map, Fallible.ok_bind, Cursor.rest, ← hrest]

end SplitMessage

end EnsembleTransport
