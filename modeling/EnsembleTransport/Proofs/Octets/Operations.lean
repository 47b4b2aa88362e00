import EnsembleTransport.Proofs.Message.Windows
import EnsembleTransport.Proofs.Octets.Spelling

/-!
# Operations of a cursor

An operation on a cursor ends in one of three ways: it places the cursor, it delivers the next octets,
or it is refused and the cursor stays. What operations deliver one after the other, together with
what is left, is the buffer from the place of the cursor on.
-/

namespace EnsembleTransport

namespace Cursor

inductive Operation where
  /-- Begins anew at a position of the same buffer. -/
  | ofPosition (position : BitVec 64)
  | seek (position : BitVec 64)
  | take (n : BitVec 64)
  | skip (n : BitVec 64)
  | read (word : Word)
  | rest
deriving DecidableEq, Repr

namespace Operation

/-- Where the operation places a cursor, if it does that. -/
def target? : Operation → Option Nat
  | ofPosition position | seek position => some position.toNat
  | take _ | skip _ | read _ | rest => none

def size : Operation → Nat
  | ofPosition _ | seek _ | rest => 0
  | take n | skip n => n.toNat
  | read word => word.size

/-- Where the operation leaves a cursor that was at a position. -/
def stop (operation : Operation) (position : Nat) : Nat :=
  operation.target?.getD position + operation.size

end Operation

def operate (c : Cursor) : Operation → Reply × Cursor
  | .ofPosition position =>
    match ofPosition c.buffer position.toNat with
    | .ok next => (.moved, next)
    | .error fault => (.refused fault, c)
  | .seek position => c.perform (.seek position.toNat)
  | .take n => c.perform (.take n.toNat)
  | .skip n => c.perform (.skip n.toNat)
  | .read word => c.perform (.read word)
  | .rest => c.perform .rest

def operateAll (c : Cursor) : List Operation → List Reply × Cursor
  | [] => ([], c)
  | operation :: operations =>
    let next := (c.operate operation).2
    ((c.operate operation).1 :: (next.operateAll operations).1, (next.operateAll operations).2)

/-- The reply with which an operation delivers a chunk of octets in front of others. -/
inductive Delivers (behind : Octets) : Operation → Octets → Reply → Prop
  | take {n : BitVec 64} {chunk : Octets} (size : chunk.length = n.toNat) :
    Delivers behind (.take n) chunk (.octets chunk)
  | skip {n : BitVec 64} {chunk : Octets} (size : chunk.length = n.toNat) :
    Delivers behind (.skip n) chunk .moved
  | read {word : Word} {chunk : Octets} {n : Int} (spelled : word.spelled? chunk = some n) :
    Delivers behind (.read word) chunk (.number n)
  | rest : Delivers behind .rest [] (.octets behind)

/-- How an operation ends: with a reply and a cursor. -/
inductive Outcome (c : Cursor) (operation : Operation) : Reply → Cursor → Prop
  | placed {position : Nat} (target : operation.target? = some position)
    (fits : position ≤ c.buffer.length) : Outcome c operation .moved ⟨c.buffer, position⟩
  | delivered {chunk behind : Octets} {reply : Reply} (whole : c.rest = chunk ++ behind)
    (delivers : Delivers behind operation chunk reply) :
    Outcome c operation reply ⟨c.buffer, c.position + chunk.length⟩
  | refused {fault : BoundsFault} (available_eq : fault.available = c.buffer.length)
    (lack : fault.available < fault.offset + fault.need)
    (unfit : c.buffer.length < operation.stop c.position) : Outcome c operation (.refused fault) c

variable {c : Cursor}

theorem outcome_of_seek {operation : Operation} {position : Nat}
    (htarget : operation.target? = some position) (hsize : operation.size = 0)
    (hoperate : c.operate operation = match c.seek position with
      | .ok next => (.moved, next)
      | .error fault => (.refused fault, c)) :
    Outcome c operation (c.operate operation).1 (c.operate operation).2 := by
  rw [hoperate]
  by_cases hfits : position ≤ c.buffer.length
  · rw [seek_eq_ok hfits]
    exact .placed htarget hfits
  · have hover : c.buffer.length < position := Nat.lt_of_not_le hfits
    rw [seek_eq_error hover]
    exact .refused rfl hover (by rwa [Operation.stop, htarget, hsize])

theorem outcome_of_take {operation : Operation} {f : Octets → Reply}
    (htarget : operation.target? = none)
    (hdelivers : ∀ {chunk behind : Octets}, chunk.length = operation.size →
      Delivers behind operation chunk (f chunk))
    (hoperate : c.operate operation = match c.take operation.size with
      | .ok (bytes, next) => (f bytes, next)
      | .error fault => (.refused fault, c)) :
    Outcome c operation (c.operate operation).1 (c.operate operation).2 := by
  rw [hoperate]
  by_cases hfits : c.position + operation.size ≤ c.buffer.length
  · have hlength := Octets.length_window_of_le hfits
    have hwhole : c.rest = Octets.window c.buffer c.position operation.size ++
        c.buffer.drop (c.position + operation.size) := by
      rw [Octets.window, rest, ← List.drop_drop, List.take_append_drop]
    have houtcome := Outcome.delivered hwhole (hdelivers hlength)
    rw [hlength] at houtcome
    rwa [take_eq_ok hfits]
  · have hover : c.buffer.length < c.position + operation.size := Nat.lt_of_not_le hfits
    rw [take_eq_error hover]
    exact .refused rfl hover (by rwa [Operation.stop, htarget])

theorem outcome_operate (c : Cursor) (operation : Operation) :
    Outcome c operation (c.operate operation).1 (c.operate operation).2 := by
  cases operation with
  | ofPosition position => exact outcome_of_seek rfl rfl rfl
  | seek position => exact outcome_of_seek rfl rfl rfl
  | take n => exact outcome_of_take rfl .take rfl
  | skip n =>
    refine outcome_of_take (f := fun _ => .moved) rfl .skip ?_
    simp only [operate, perform, Cursor.skip, Operation.size]
    cases c.take n.toNat <;> rfl
  | read word =>
    refine outcome_of_take rfl (fun h => .read (Word.spelled?_eq_some h)) ?_
    simp only [operate, perform, Cursor.read, Operation.size]
    cases c.take word.size <;> rfl
  | rest => exact .delivered rfl .rest

theorem operate_of_target {operation : Operation} {position : Nat}
    (htarget : operation.target? = some position) (hfits : position ≤ c.buffer.length) :
    c.operate operation = (.moved, ⟨c.buffer, position⟩) := by
  cases operation with
  | ofPosition n =>
    obtain rfl : n.toNat = position := Option.some.inj htarget
    have hstart : (start c.buffer).seek n.toNat = .ok ⟨c.buffer, n.toNat⟩ := seek_eq_ok hfits
    rw [operate, ofPosition, hstart]
  | seek n =>
    obtain rfl : n.toNat = position := Option.some.inj htarget
    rw [operate, perform, seek_eq_ok hfits]
  | take n | skip n | read word | rest => cases htarget

section Runs

variable {operation : Operation} {reply : Reply} {next : Cursor}

theorem Outcome.buffer_eq (h : Outcome c operation reply next) : next.buffer = c.buffer := by
  cases h <;> rfl

theorem Outcome.inside (h : Outcome c operation reply next) (hc : c.position ≤ c.buffer.length) :
    next.position ≤ c.buffer.length := by
  cases h with
  | placed target fits => exact fits
  | delivered whole delivers =>
    have hlength := congrArg List.length whole
    rw [rest, List.length_drop, List.length_append] at hlength
    simp only
    omega
  | refused available_eq lack unfit => exact hc

theorem inside_operateAll (hc : c.position ≤ c.buffer.length) (operations : List Operation) :
    (c.operateAll operations).2.buffer = c.buffer ∧
      (c.operateAll operations).2.position ≤ c.buffer.length := by
  induction operations generalizing c with
  | nil => exact ⟨rfl, hc⟩
  | cons operation operations ih =>
    have houtcome := outcome_operate c operation
    have hnext := houtcome.inside hc
    rw [← houtcome.buffer_eq] at hnext ⊢
    exact ih hnext

/-- The replies with which operations deliver chunks one after the other, in front of what is left.
Those that are refused deliver nothing. -/
inductive Deliveries (behind : Octets) : List Operation → List Reply → List Octets → Prop
  | done : Deliveries behind [] [] []
  | delivered {operation : Operation} {operations : List Operation} {reply : Reply}
    {replies : List Reply} {chunk : Octets} {chunks : List Octets}
    (delivers : Delivers (chunks.flatten ++ behind) operation chunk reply)
    (others : Deliveries behind operations replies chunks) :
    Deliveries behind (operation :: operations) (reply :: replies) (chunk :: chunks)
  | refused {operation : Operation} {operations : List Operation} {fault : BoundsFault}
    {replies : List Reply} {chunks : List Octets}
    (others : Deliveries behind operations replies chunks) :
    Deliveries behind (operation :: operations) (.refused fault :: replies) chunks

/-- Operations that do not place a cursor deliver what is in front of it, piece by piece. -/
theorem exists_deliveries {operations : List Operation}
    (hstay : ∀ operation ∈ operations, ∀ position, operation.target? = some position →
      c.buffer.length < position) :
    ∃ chunks : List Octets, c.rest = chunks.flatten ++ (c.operateAll operations).2.rest ∧
      Deliveries (c.operateAll operations).2.rest operations (c.operateAll operations).1 chunks := by
  induction operations generalizing c with
  | nil => exact ⟨[], rfl, .done⟩
  | cons operation operations ih =>
    obtain ⟨hfirst, hothers⟩ := List.forall_mem_cons.mp hstay
    have houtcome := outcome_operate c operation
    rw [operateAll]
    generalize c.operate operation = answer at houtcome
    obtain ⟨reply, next⟩ := answer
    cases houtcome with
    | placed target fits => exact absurd (hfirst _ target) (Nat.not_lt.mpr fits)
    | @delivered chunk behind reply whole delivers =>
      have hbehind : (⟨c.buffer, c.position + chunk.length⟩ : Cursor).rest = behind := by
        have hadvance := rest_advance c chunk.length
        rwa [whole, List.drop_left] at hadvance
      obtain ⟨chunks, hwhole, hdeliveries⟩ := ih (c := ⟨c.buffer, c.position + chunk.length⟩) hothers
      rw [hbehind] at hwhole
      refine ⟨chunk :: chunks, ?_, .delivered (hwhole ▸ delivers) hdeliveries⟩
      rw [whole, List.flatten_cons, List.append_assoc, ← hwhole]
    | refused available_eq lack unfit =>
      obtain ⟨chunks, hwhole, hdeliveries⟩ := ih hothers
      exact ⟨chunks, hwhole, .refused hdeliveries⟩

end Runs

end Cursor

end EnsembleTransport
