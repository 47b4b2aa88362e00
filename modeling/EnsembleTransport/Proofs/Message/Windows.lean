import EnsembleTransport.FrameSet

/-!
# Windows on octet strings

A string made of pieces of one size is read back piece by piece through windows, and the windows
of a string side by side are the string again. The four frames of a frame set are such windows.
-/

namespace EnsembleTransport

open Layout

namespace Octets

theorem length_window (bytes : Octets) (offset size : Nat) :
    (window bytes offset size).length = min size (bytes.length - offset) := by
  simp [window]

theorem length_window_of_le {bytes : Octets} {offset size : Nat}
    (h : offset + size ≤ bytes.length) : (window bytes offset size).length = size := by
  rw [length_window]
  omega

theorem window_drop (bytes : Octets) (n offset size : Nat) :
    window (bytes.drop n) offset size = window bytes (n + offset) size := by
  simp [window]

theorem window_append_left {front rest : Octets} {offset size : Nat}
    (h : offset + size ≤ front.length) :
    window (front ++ rest) offset size = window front offset size := by
  rw [window, window, List.drop_append_of_le_length (by omega),
    List.take_append_of_le_length (by rw [List.length_drop]; omega)]

theorem window_append_right {front rest : Octets} {offset size : Nat}
    (h : front.length ≤ offset) :
    window (front ++ rest) offset size = window rest (offset - front.length) size := by
  obtain ⟨n, rfl⟩ := Nat.exists_eq_add_of_le h
  rw [← window_drop, List.drop_left, Nat.add_sub_cancel_left]

theorem window_window {bytes : Octets} {offset size inner width : Nat} (h : inner + width ≤ size) :
    window (window bytes offset size) inner width = window bytes (offset + inner) width := by
  simp only [window, List.drop_take, List.take_take, List.drop_drop]
  rw [Nat.min_eq_left (by omega)]

theorem window_add (bytes : Octets) (offset m n : Nat) :
    window bytes offset (m + n) = window bytes offset m ++ window bytes (offset + m) n := by
  rw [window, window, window, List.take_add, List.drop_drop]

theorem getElem?_eq_octet {bytes : Octets} {i : Nat} (h : i < bytes.length) :
    bytes[i]? = some (octet bytes i) := by
  simp [octet, List.getElem?_eq_getElem h]

/-- Octets past the end count as zeros. -/
theorem little_window_succ (bytes : Octets) (offset size : Nat) :
    little (window bytes offset (size + 1)) =
      (octet bytes offset).toNat + 256 * little (window bytes (offset + 1) size) := by
  by_cases h : offset < bytes.length
  · have hoctet : bytes[offset] = octet bytes offset :=
      Option.some.inj ((List.getElem?_eq_getElem h).symm.trans (getElem?_eq_octet h))
    rw [window, List.drop_eq_getElem_cons h, List.take_succ_cons, little_cons, hoctet, window]
  · have hend : bytes.length ≤ offset := Nat.le_of_not_lt h
    have hoctet : octet bytes offset = 0 := by
      rw [octet, List.getD_eq_getElem?_getD, List.getElem?_eq_none hend, Option.getD_none]
    rw [window, window, List.drop_of_length_le hend, List.drop_of_length_le (by omega), hoctet,
      List.take_nil, List.take_nil]
    rfl

theorem window_eq_append {bytes front rest : Octets} {offset : Nat}
    (h : window bytes offset (front.length + rest.length) = front ++ rest) :
    window bytes offset front.length = front ∧
      window bytes (offset + front.length) rest.length = rest := by
  have hlength := congrArg List.length h
  rw [length_window, List.length_append] at hlength
  rw [window_add] at h
  refine List.append_inj h ?_
  rw [length_window]
  omega

theorem take_append_window (bytes : Octets) (offset size : Nat) :
    bytes.take offset ++ window bytes offset size = bytes.take (offset + size) := by
  rw [window, ← List.take_add]

/-- Window `i` on pieces of one size is piece `i`. -/
theorem window_flatten {pieces : List Octets} {size : Nat}
    (hsize : ∀ piece ∈ pieces, piece.length = size) {i : Nat} (hi : i < pieces.length) :
    window pieces.flatten (i * size) size = pieces[i] := by
  induction pieces generalizing i with
  | nil => exact absurd hi (Nat.not_lt_zero i)
  | cons piece pieces ih =>
    have hpiece : piece.length = size := hsize piece List.mem_cons_self
    cases i with
    | zero => simp [window, ← hpiece]
    | succ i =>
      have hrest := ih (fun p hp => hsize p (List.mem_cons_of_mem _ hp))
        (Nat.lt_of_succ_lt_succ hi)
      have hdrop : (piece :: pieces).flatten.drop size = pieces.flatten := by
        rw [List.flatten_cons, ← hpiece, List.drop_left]
      rw [Nat.succ_mul, Nat.add_comm, ← window_drop, hdrop, hrest, List.getElem_cons_succ]

theorem flatten_windows {bytes : Octets} {count size : Nat} (h : bytes.length = count * size) :
    ((List.range count).map fun i => window bytes (i * size) size).flatten = bytes := by
  induction count generalizing bytes with
  | zero =>
    rw [Nat.zero_mul] at h
    simp [List.length_eq_zero_iff.mp h]
  | succ count ih =>
    rw [Nat.succ_mul] at h
    have hlength : (bytes.drop size).length = count * size := by
      rw [List.length_drop]
      omega
    have hrest := ih hlength
    have hshift : (fun i => window bytes ((i + 1) * size) size) =
        fun i => window (bytes.drop size) (i * size) size := by
      funext i
      rw [window_drop, Nat.succ_mul, Nat.add_comm]
    rw [List.range_succ_eq_map, List.map_cons, List.map_map, List.flatten_cons]
    change window bytes (0 * size) size ++
      ((List.range count).map fun i => window bytes ((i + 1) * size) size).flatten = bytes
    rw [hshift, hrest, Nat.zero_mul]
    exact List.take_append_drop size bytes

end Octets

namespace FrameSet

theorem frameCount_eq (frames : FrameSet) : frames.frameCount = framesPerMessage := by
  rw [frameCount, frames.length_bytes]
  exact Nat.mul_div_cancel _ (by decide)

@[simp] theorem length_frameList (frames : FrameSet) :
    frames.frameList.length = framesPerMessage := by
  simp [frameList, frameCount_eq]

theorem flatten_frameList (frames : FrameSet) : frames.frameList.flatten = frames.bytes := by
  rw [frameList, frameCount_eq]
  exact Octets.flatten_windows frames.length_bytes

theorem mapIdx_payloadLength (frames : FrameSet) :
    (frames.frameList.mapIdx fun index _ => frames.payloadLength index) =
      frames.payloadLengths := by
  apply List.ext_getElem
  · rw [List.length_mapIdx, length_frameList, frames.length_payloadLengths]
  · intro i _ hi
    rw [List.getElem_mapIdx, payloadLength, List.getD_eq_getElem?_getD,
      List.getElem?_eq_getElem hi, Option.getD_some]

theorem frame?_eq_getElem? (frames : FrameSet) (i : Nat) :
    frames.frame? i = frames.frameList[i]? := by
  have hbound : (i + 1) * frameSize ≤ frames.bytes.length ↔ i < framesPerMessage := by
    rw [frames.length_bytes, Nat.mul_le_mul_right_iff (by decide), Nat.succ_le_iff]
  by_cases hi : i < framesPerMessage
  · simp [frame?, frameList, hbound, hi, frameCount_eq]
  · simp [frame?, frameList, hbound, hi, frameCount_eq]

/-- A frame set whose buffer is four pieces of the size of a frame has these pieces as frames. -/
theorem frameList_of_flatten {frames : FrameSet} {pieces : List Octets}
    (hbytes : frames.bytes = pieces.flatten) (hcount : pieces.length = framesPerMessage)
    (hsize : ∀ piece ∈ pieces, piece.length = frameSize) : frames.frameList = pieces := by
  apply List.ext_getElem
  · rw [length_frameList, hcount]
  · intro i _ hi
    simp only [frameList, List.getElem_map, List.getElem_range, hbytes]
    exact Octets.window_flatten hsize hi

end FrameSet

end EnsembleTransport
