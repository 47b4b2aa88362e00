import Mathlib.Algebra.Group.Nat.Defs
import EnsembleTransport.Proofs.Octets.Operations

/-!
# Cursors with positions of 64 bits

Positions and counts of octets have 64 bits. A sum that does not fit, a difference below zero and a
part of a buffer that is not inside it end everything. Over a buffer whose size has 64 bits none of
them comes up, and a cursor answers as if its positions were numbers without end.
-/

namespace EnsembleTransport

/-- The sum of two numbers, where it has 64 bits again. -/
def sum64? (a b : BitVec 64) : Option (BitVec 64) :=
  if a.uaddOverflow b then none else some (a + b)

def difference64? (a b : BitVec 64) : Option (BitVec 64) :=
  if a.usubOverflow b then none else some (a - b)

theorem sum64?_eq_some {a b : BitVec 64} (h : a.toNat + b.toNat < 2 ^ 64) :
    ∃ s, sum64? a b = some s ∧ s.toNat = a.toNat + b.toNat := by
  have hfits : a.uaddOverflow b = false := by
    rw [BitVec.uaddOverflow, decide_eq_false_iff_not]
    omega
  refine ⟨a + b, by rw [sum64?, hfits]; rfl, ?_⟩
  rw [BitVec.toNat_add, Nat.mod_eq_of_lt h]

theorem sum64?_eq_none {a b : BitVec 64} (h : 2 ^ 64 ≤ a.toNat + b.toNat) : sum64? a b = none := by
  have hover : a.uaddOverflow b = true := by
    rw [BitVec.uaddOverflow, decide_eq_true_eq]
    exact h
  rw [sum64?, hover]
  rfl

namespace Octets

/-- The octets between two offsets that are in order and inside the buffer. -/
def between? (buffer : Octets) (start stop : BitVec 64) : Option Octets :=
  if start.toNat ≤ stop.toNat ∧ stop.toNat ≤ buffer.length then
    some (window buffer start.toNat (stop.toNat - start.toNat))
  else none

end Octets

structure Cursor64 where
  buffer : Octets
  position : BitVec 64
deriving DecidableEq, Repr

namespace Cursor64

/-- Work on a cursor. A refusal keeps what the work has done to the cursor so far; nothing is kept
where a number or an offset goes out of range. -/
abbrev Work := ExceptT BoundsFault (StateT Cursor64 Option)

def Work.on {α : Type} (work : Work α) (c : Cursor64) : Option (Except BoundsFault α × Cursor64) :=
  (ExceptT.run work).run c

def checkBounds (buffer : Octets) (offset size : BitVec 64) : Work Unit :=
  let refusal : BoundsFault := ⟨offset.toNat, size.toNat, buffer.length⟩
  match sum64? offset size with
  | some stop => if stop.toNat ≤ buffer.length then pure () else throw refusal
  | none => throw refusal

/-- The end is added up a second time once it has been checked. -/
def slice (buffer : Octets) (offset size : BitVec 64) : Work Octets := do
  checkBounds buffer offset size
  let stop ← sum64? offset size
  buffer.between? offset stop

def seek (position : BitVec 64) : Work Unit := do
  let c ← get
  if c.buffer.length < position.toNat then throw ⟨position.toNat, 0, c.buffer.length⟩
  set { c with position }

def take (n : BitVec 64) : Work Octets := do
  let c ← get
  let bytes ← slice c.buffer c.position n
  let position ← sum64? c.position n
  set { c with position }
  return bytes

def skip (n : BitVec 64) : Work Unit := do
  let _ ← take n

def read (word : Word) : Work Int := do
  let bytes ← take (BitVec.ofNat 64 word.size)
  word.spelled? bytes

def rest : Work Octets := do
  let c ← get
  c.buffer.between? c.position (BitVec.ofNat 64 c.buffer.length)

def remaining? (c : Cursor64) : Option (BitVec 64) :=
  difference64? (BitVec.ofNat 64 c.buffer.length) c.position

/-- A cursor at a position of the same buffer. The one in use is kept until the new one is there. -/
def ofPosition (position : BitVec 64) : Work Unit := do
  let c ← get
  let (result, next) ← (seek position).on ⟨c.buffer, 0⟩
  match result with
  | .ok () => set next
  | .error fault => throw fault

def work : Cursor.Operation → Work Cursor.Reply
  | .ofPosition position => do
    ofPosition position
    return .moved
  | .seek position => do
    seek position
    return .moved
  | .take n => do return .octets (← take n)
  | .skip n => do
    skip n
    return .moved
  | .read word => do return .number (← read word)
  | .rest => do return .octets (← rest)

def operate (c : Cursor64) (operation : Cursor.Operation) : Option (Cursor.Reply × Cursor64) :=
  ((work operation).on c).map fun
    | (.ok reply, next) => (reply, next)
    | (.error fault, next) => (.refused fault, next)

def operateAll (c : Cursor64) : List Cursor.Operation → Option (List Cursor.Reply × Cursor64)
  | [] => some ([], c)
  | operation :: operations => do
    let (reply, next) ← c.operate operation
    let (replies, last) ← next.operateAll operations
    return (reply :: replies, last)

section Work

variable {α β : Type}

theorem on_bind (work : Work α) (f : α → Work β) (c : Cursor64) :
    (work >>= f).on c = (work.on c).bind fun
      | (.ok a, next) => (f a).on next
      | (.error fault, next) => some (.error fault, next) := by
  simp only [Work.on, ExceptT.run_bind, StateT.run_bind, Option.bind_eq_bind]
  congr 1
  funext ⟨result, next⟩
  cases result <;> rfl

theorem on_get (c : Cursor64) : (get : Work Cursor64).on c = some (.ok c, c) := rfl

theorem on_set (next c : Cursor64) : (set next : Work PUnit).on c = some (.ok ⟨⟩, next) := rfl

theorem on_some (a : α) (c : Cursor64) : (liftM (some a) : Work α).on c = some (.ok a, c) := rfl

end Work

section Refinement

variable {buffer : Octets} {c : Cursor}

theorem on_checkBounds (hbuffer : buffer.length < 2 ^ 64) (offset size : BitVec 64) (c : Cursor64) :
    (checkBounds buffer offset size).on c =
      some (Octets.checkBounds buffer offset.toNat size.toNat, c) := by
  rw [checkBounds, Octets.checkBounds]
  by_cases hsum : offset.toNat + size.toNat < 2 ^ 64
  · obtain ⟨stop, hstop, hvalue⟩ := sum64?_eq_some hsum
    simp only [hstop, hvalue]
    split
    · rfl
    · rfl
  · rw [sum64?_eq_none (Nat.le_of_not_lt hsum), if_neg (by omega)]
    rfl

theorem between?_eq_window {start stop : BitVec 64} {size : Nat}
    (hstop : stop.toNat = start.toNat + size) (hfits : stop.toNat ≤ buffer.length) :
    buffer.between? start stop = some (Octets.window buffer start.toNat size) := by
  rw [Octets.between?, if_pos ⟨by omega, hfits⟩, hstop, Nat.add_sub_cancel_left]

theorem on_slice (hbuffer : buffer.length < 2 ^ 64) (offset size : BitVec 64) (c : Cursor64) :
    (slice buffer offset size).on c = some (Octets.slice buffer offset.toNat size.toNat, c) := by
  rw [slice, on_bind, on_checkBounds hbuffer, Octets.checkBounds, Octets.slice]
  split
  · rename_i hfits
    obtain ⟨stop, hstop, hvalue⟩ := sum64?_eq_some (a := offset) (b := size) (by omega)
    have hwindow := between?_eq_window hvalue (hvalue ▸ hfits)
    simp only [Option.bind_some, on_bind, hstop, hwindow, on_some]
  · rfl

theorem toNat_ofNat_of_lt {n : Nat} (h : n < 2 ^ 64) : (BitVec.ofNat 64 n).toNat = n := by
  rw [BitVec.toNat_ofNat, Nat.mod_eq_of_lt h]

def ofCursor (c : Cursor) : Cursor64 := ⟨c.buffer, BitVec.ofNat 64 c.position⟩

theorem buffer_ofCursor (c : Cursor) : (ofCursor c).buffer = c.buffer := rfl

theorem ofCursor_mk {buffer : Octets} {position : BitVec 64} {n : Nat} (h : position.toNat = n) :
    ofCursor ⟨buffer, n⟩ = ⟨buffer, position⟩ := by
  rw [ofCursor, ← h, BitVec.ofNat_toNat, BitVec.setWidth_eq]

/-- What work comes to that is told of a cursor with numbers without end. -/
def told {α : Type} (c : Cursor) :
    Except BoundsFault (α × Cursor) → Except BoundsFault α × Cursor64
  | .ok (a, next) => (.ok a, ofCursor next)
  | .error fault => (.error fault, ofCursor c)

theorem on_seek (c : Cursor) (position : BitVec 64) :
    (seek position).on (ofCursor c) =
      some (told c ((c.seek position.toNat).map fun next => ((), next))) := by
  rw [seek, on_bind, on_get]
  by_cases hfits : position.toNat ≤ c.buffer.length
  · have hnot : ¬ (ofCursor c).buffer.length < position.toNat := Nat.not_lt.mpr hfits
    rw [Cursor.seek_eq_ok hfits, Except.map, told, ofCursor_mk rfl]
    simp only [Option.bind_some, if_neg hnot]
    rfl
  · have hover : c.buffer.length < position.toNat := Nat.lt_of_not_le hfits
    have hover' : (ofCursor c).buffer.length < position.toNat := hover
    rw [Cursor.seek_eq_error hover]
    simp only [Option.bind_some, if_pos hover']
    rfl

section

variable (hbuffer : c.buffer.length < 2 ^ 64) (hin : c.position ≤ c.buffer.length)

include hbuffer hin

theorem toNat_position : (ofCursor c).position.toNat = c.position := by
  exact toNat_ofNat_of_lt (by omega)

theorem on_take (n : BitVec 64) : (take n).on (ofCursor c) = some (told c (c.take n.toNat)) := by
  have hposition := toNat_position hbuffer hin
  have hslice : (slice (ofCursor c).buffer (ofCursor c).position n).on (ofCursor c) =
      some (Octets.slice c.buffer c.position n.toNat, ofCursor c) := by
    rw [← hposition]
    exact on_slice hbuffer _ n _
  rw [take, on_bind, on_get]
  by_cases hfits : c.position + n.toNat ≤ c.buffer.length
  · obtain ⟨stop, hstop, hvalue⟩ : ∃ stop, sum64? (ofCursor c).position n = some stop ∧
        stop.toNat = c.position + n.toNat := by
      rw [← hposition]
      exact sum64?_eq_some (by omega)
    rw [Octets.slice_eq_ok_iff.mpr ⟨hfits, rfl⟩] at hslice
    rw [Cursor.take_eq_ok hfits, told, Cursor.advance, ofCursor_mk hvalue]
    simp only [on_bind, Option.bind_some, hslice, hstop, on_some, on_set]
    rfl
  · have hover : c.buffer.length < c.position + n.toNat := Nat.lt_of_not_le hfits
    rw [Octets.slice_eq_error_iff.mpr ⟨hover, rfl⟩] at hslice
    rw [Cursor.take_eq_error hover]
    simp only [on_bind, Option.bind_some, hslice]
    rfl

/-- As many octets are taken as a word has, so none of them is missing when it is read. -/
theorem on_read (word : Word) : (read word).on (ofCursor c) = some (told c (c.read word)) := by
  have hsize : (BitVec.ofNat 64 word.size).toNat = word.size := by cases word <;> rfl
  have htake := on_take hbuffer hin (BitVec.ofNat 64 word.size)
  rw [hsize] at htake
  rw [read, on_bind, htake]
  by_cases hfits : c.position + word.size ≤ c.buffer.length
  · rw [Cursor.take_eq_ok hfits, Cursor.read_eq_ok hfits]
    simp only [told, Option.bind_some, Word.spelled?_eq_some (Octets.length_window_of_le hfits),
      on_some]
  · rw [Cursor.read, Cursor.take_eq_error (Nat.lt_of_not_le hfits)]
    rfl

theorem between?_eq_rest :
    c.buffer.between? (ofCursor c).position (BitVec.ofNat 64 c.buffer.length) = some c.rest := by
  have hposition := toNat_position hbuffer hin
  have hlength : (BitVec.ofNat 64 c.buffer.length).toNat = c.buffer.length :=
    toNat_ofNat_of_lt hbuffer
  have hstop : (BitVec.ofNat 64 c.buffer.length).toNat =
      (ofCursor c).position.toNat + c.remaining := by
    rw [hlength, hposition, Cursor.remaining]
    omega
  have hwindow : Octets.window c.buffer c.position c.remaining = c.rest :=
    List.take_of_length_le (Nat.le_of_eq (Cursor.length_rest c))
  rw [between?_eq_window hstop (Nat.le_of_eq hlength), hposition, hwindow]

theorem remaining?_ofCursor : (ofCursor c).remaining? = some (BitVec.ofNat 64 c.remaining) := by
  have hnot : (BitVec.ofNat 64 c.buffer.length).usubOverflow (ofCursor c).position = false := by
    rw [BitVec.usubOverflow, toNat_position hbuffer hin, toNat_ofNat_of_lt hbuffer,
      decide_eq_false_iff_not]
    omega
  rw [remaining?, buffer_ofCursor, difference64?, hnot, ofCursor,
    BitVec.ofNat_sub_ofNat_of_le _ _ (by omega) hin]
  rfl

/-- A cursor of 64 bits answers every operation as one without end does. -/
theorem operate_ofCursor (operation : Cursor.Operation) :
    (ofCursor c).operate operation =
      some ((c.operate operation).1, ofCursor (c.operate operation).2) := by
  cases operation with
  | ofPosition position =>
    have hopened := on_seek (.start c.buffer) position
    have hstart : ofCursor (.start c.buffer) = ⟨(ofCursor c).buffer, 0⟩ := rfl
    rw [hstart] at hopened
    simp only [operate, work, ofPosition, on_bind, on_get, Option.bind_some, hopened, on_some,
      Cursor.operate, Cursor.ofPosition]
    cases (Cursor.start c.buffer).seek position.toNat <;> rfl
  | seek position =>
    simp only [operate, work, on_bind, on_seek, Option.bind_some, Cursor.operate, Cursor.perform]
    cases c.seek position.toNat <;> rfl
  | take n =>
    simp only [operate, work, on_bind, on_take hbuffer hin, Option.bind_some, Cursor.operate,
      Cursor.perform]
    cases c.take n.toNat <;> rfl
  | skip n =>
    simp only [operate, work, skip, on_bind, on_take hbuffer hin, Option.bind_some,
      Cursor.operate, Cursor.perform, Cursor.skip]
    cases c.take n.toNat <;> rfl
  | read word =>
    simp only [operate, work, on_bind, on_read hbuffer hin, Option.bind_some, Cursor.operate,
      Cursor.perform]
    cases c.read word <;> rfl
  | rest =>
    simp only [operate, work, rest, on_bind, on_get, Option.bind_some, buffer_ofCursor,
      between?_eq_rest hbuffer hin, on_some]
    rfl

theorem operateAll_ofCursor (operations : List Cursor.Operation) :
    (ofCursor c).operateAll operations =
      some ((c.operateAll operations).1, ofCursor (c.operateAll operations).2) := by
  induction operations generalizing c with
  | nil => rfl
  | cons operation operations ih =>
    have houtcome := Cursor.outcome_operate c operation
    have hnext := houtcome.inside hin
    rw [operateAll, operate_ofCursor hbuffer hin]
    rw [← houtcome.buffer_eq] at hnext hbuffer
    simp only [Option.bind_eq_bind, Option.bind_some, ih hbuffer hnext]
    rfl

end

/-- Whatever is done with a cursor, it is inside its buffer and no number or offset goes out of
range. An operation succeeds, or it asks for octets past the end and the cursor stays. From where a
cursor is placed, what it delivers and what is left then are the buffer from there on. -/
theorem operations_inside_buffer {buffer : Octets} (hbuffer : buffer.length < 2 ^ 64)
    (operations : List Cursor.Operation) :
    ∃ (replies : List Cursor.Reply) (c : Cursor),
      (⟨buffer, 0⟩ : Cursor64).operateAll operations = some (replies, ofCursor c) ∧
      c.buffer = buffer ∧ c.position ≤ buffer.length ∧
      (ofCursor c).position.toNat = c.position ∧
      (ofCursor c).remaining? = some (BitVec.ofNat 64 (buffer.length - c.position)) ∧
      rest.on (ofCursor c) = some (.ok (buffer.drop c.position), ofCursor c) ∧
      (∀ operation, ∃ reply next,
        (ofCursor c).operate operation = some (reply, ofCursor next) ∧
        Cursor.Outcome c operation reply next) ∧
      (∀ placing position segment, placing.target? = some position → position ≤ buffer.length →
        (∀ operation ∈ segment, ∀ target, operation.target? = some target →
          buffer.length < target) →
        ∃ (delivered : List Cursor.Reply) (last : Cursor) (chunks : List Octets),
          (ofCursor c).operateAll (placing :: segment) =
            some (.moved :: delivered, ofCursor last) ∧
          buffer.drop position = chunks.flatten ++ last.rest ∧
          Cursor.Deliveries last.rest segment delivered chunks) := by
  have hstart : (Cursor.start buffer).position ≤ (Cursor.start buffer).buffer.length :=
    Nat.zero_le _
  have hrun := operateAll_ofCursor hbuffer hstart operations
  obtain ⟨hsame, hin⟩ := Cursor.inside_operateAll hstart operations
  generalize (Cursor.start buffer).operateAll operations = outcome at hrun hsame hin
  obtain ⟨replies, c⟩ := outcome
  obtain rfl : c.buffer = buffer := hsame
  refine ⟨replies, c, hrun, rfl, hin, toNat_position hbuffer hin, remaining?_ofCursor hbuffer hin,
    ?_, ?_, ?_⟩
  · simp only [rest, on_bind, on_get, Option.bind_some, buffer_ofCursor,
      between?_eq_rest hbuffer hin, on_some, Cursor.rest]
  · exact fun operation => ⟨_, _, operate_ofCursor hbuffer hin operation,
      Cursor.outcome_operate c operation⟩
  · intro placing position segment htarget hfits hstay
    have hplaced := Cursor.operate_of_target htarget hfits
    obtain ⟨chunks, hwhole, hdeliveries⟩ :=
      Cursor.exists_deliveries (c := ⟨c.buffer, position⟩) hstay
    refine ⟨_, _, chunks, ?_, hwhole, hdeliveries⟩
    rw [operateAll_ofCursor hbuffer hin, Cursor.operateAll, hplaced]

/-- Five octets: a number, a request for more octets than can ever be there, a place further on and
a number of the other byte order. -/
theorem operations_inside_five_octets :
    ([0x12, 0x34, 0x56, 0xFE, 0xFF] : Octets).length < 2 ^ 64 ∧
      ∃ c : Cursor,
        (⟨[0x12, 0x34, 0x56, 0xFE, 0xFF], 0⟩ : Cursor64).operateAll
            [.read .u16Big, .take (-1)] =
          some ([.number 0x1234, .refused ⟨2, 2 ^ 64 - 1, 5⟩], ofCursor c) ∧
        c.position ≤ 5 ∧
        ∃ (delivered : List Cursor.Reply) (last : Cursor) (chunks : List Octets),
          (ofCursor c).operateAll [.seek 3, .read .i16Little, .read .u8] =
            some (.moved :: delivered, ofCursor last) ∧
          [0xFE, 0xFF] = chunks.flatten ++ last.rest ∧
          Cursor.Deliveries last.rest [.read .i16Little, .read .u8] delivered chunks := by
  have hbuffer : ([0x12, 0x34, 0x56, 0xFE, 0xFF] : Octets).length < 2 ^ 64 := by decide
  obtain ⟨replies, c, hrun, _, hin, _, _, _, _, hdelivers⟩ :=
    operations_inside_buffer hbuffer [.read .u16Big, .take (-1)]
  have hvalue : (⟨[0x12, 0x34, 0x56, 0xFE, 0xFF], 0⟩ : Cursor64).operateAll
      [.read .u16Big, .take (-1)] =
        some ([.number 0x1234, .refused ⟨2, 2 ^ 64 - 1, 5⟩],
          ⟨[0x12, 0x34, 0x56, 0xFE, 0xFF], 2⟩) := by decide
  obtain ⟨hreplies, -⟩ := Prod.mk.inj (Option.some.inj (hvalue.symm.trans hrun))
  have hstay : ∀ operation ∈ [Cursor.Operation.read .i16Little, .read .u8], ∀ target,
      operation.target? = some target →
        ([0x12, 0x34, 0x56, 0xFE, 0xFF] : Octets).length < target := by
    simp [Cursor.Operation.target?]
  exact ⟨hbuffer, c, by rw [hrun, hreplies], hin,
    hdelivers (.seek 3) 3 [.read .i16Little, .read .u8] rfl (by decide) hstay⟩

end Refinement

end Cursor64

end EnsembleTransport
