import EnsembleTransport.Proofs.Message.Reassembly
import EnsembleTransport.Proofs.Octets.Spelling

/-!
# Refused messages

A message is looked at in a fixed order: its size, its version, its payload lengths one by one, and
whether the payloads lie inside it, again one by one. The first of these that fails is the answer. The
conditions are told from the octets alone, and the message is accepted exactly when all of them hold.
-/

namespace EnsembleTransport

open Layout

namespace Fallible

variable {ε α β : Type}

end Fallible

namespace Envelope

/-- The version is the number of the first four octets, the last of them on top. -/
theorem declaredVersion_eq_toNat (message : Octets) : declaredVersion message =
    ((Octets.octet message 3).toBitVec ++ (Octets.octet message 2).toBitVec ++
      (Octets.octet message 1).toBitVec ++ (Octets.octet message 0).toBitVec).toNat := by
  rw [Word.toNat_append_octet, Word.toNat_append_octet, Word.toNat_append_octet, declaredVersion]
  simp only [Octets.little_window_succ]
  rfl

/-- Two octets behind the version are a length with a sign. -/
theorem declaredLength_eq_toInt (message : Octets) (i : Nat) : declaredLength message i =
    ((Octets.octet message (5 + 2 * i)).toBitVec ++
      (Octets.octet message (4 + 2 * i)).toBitVec).toInt := by
  have hnext : 4 + 2 * i + 1 = 5 + 2 * i := by omega
  rw [Word.toInt_append_octet, declaredLength]
  simp only [Octets.little_window_succ, hnext]
  rfl

variable {message : Octets}

end Envelope

namespace SplitMessage

open Envelope

variable {message : Octets}

end SplitMessage

namespace Reassembler

open Envelope

/-- A length that is not allowed counts before an earlier payload that does not fit. -/
example : (({} : Reassembler).reassemble (Octets.ofLittle 4 1 ++ [9, 0, 255, 255, 0, 0, 0, 0])).1 =
    .error (.invalidSubframeLength 1 (-1) 6144) := rfl

end Reassembler

end EnsembleTransport
