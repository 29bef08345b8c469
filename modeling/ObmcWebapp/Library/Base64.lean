/-
# Base64

Three bytes are 24 bits, which are four sextets, and each sextet has a letter. Bytes that
are left over at the end are completed with zero bits; the sextets without a bit of theirs
are written as padding.
-/

import Mathlib.Tactic

namespace Base64

abbrev Byte := BitVec 8

abbrev Sextet := BitVec 6

/-- The letters of the sextets, and a padding character that is none of them. -/
structure Alphabet where
  letter : Sextet → Byte
  value? : Byte → Option Sextet
  pad : Byte
  value?_letter : ∀ value, value? (letter value) = some value
  letter_of_value? : ∀ char value, value? char = some value → letter value = char
  value?_pad : value? pad = none

/-- It is enough to read back what each character stands for. -/
theorem letter_of_all {letter : Sextet → Byte} {value? : Byte → Option Sextet}
    (hall : ∀ char, (value? char).all (fun value => letter value = char) = true)
    (char : Byte) (value : Sextet) (hvalue : value? char = some value) : letter value = char := by
  have hread := hall char
  rw [hvalue] at hread
  simpa using hread

/-- The standard alphabet: capitals, small letters, digits, plus and slash, padded by the
equals sign. -/
def standard : Alphabet where
  letter value :=
    if value < 26 then 65 + value.setWidth 8
    else if value < 52 then 97 + (value.setWidth 8 - 26)
    else if value < 62 then 48 + (value.setWidth 8 - 52)
    else if value = 62 then 43
    else 47
  value? char :=
    if 65 ≤ char ∧ char ≤ 90 then some ((char - 65).setWidth 6)
    else if 97 ≤ char ∧ char ≤ 122 then some ((char - 97 + 26).setWidth 6)
    else if 48 ≤ char ∧ char ≤ 57 then some ((char - 48 + 52).setWidth 6)
    else if char = 43 then some 62
    else if char = 47 then some 63
    else none
  pad := 61
  value?_letter := by decide +kernel
  letter_of_value? := letter_of_all (by decide +kernel)
  value?_pad := by decide

/-- Three bytes as one group. -/
def group (first second third : Byte) : BitVec 24 := first ++ second ++ third

/-- Four sextets as one group. -/
def join (first second third fourth : Sextet) : BitVec 24 := first ++ second ++ third ++ fourth

/-- A byte of a group, counted from the left. -/
def byte (bits : BitVec 24) (index : ℕ) : Byte := bits.extractLsb' (16 - 8 * index) 8

/-- A sextet of a group, counted from the left. -/
def sextet (bits : BitVec 24) (index : ℕ) : Sextet := bits.extractLsb' (18 - 6 * index) 6

section Groups

variable (bits : BitVec 24) (first second third fourth : Sextet)

theorem getLsbD_byte (index bit : ℕ) :
    (byte bits index).getLsbD bit = (decide (bit < 8) && bits.getLsbD (16 - 8 * index + bit)) := by
  rw [byte, BitVec.getLsbD_extractLsb']

theorem getLsbD_sextet (index bit : ℕ) :
    (sextet bits index).getLsbD bit = (decide (bit < 6) && bits.getLsbD (18 - 6 * index + bit)) := by
  rw [sextet, BitVec.getLsbD_extractLsb']

theorem getLsbD_group (a b c : Byte) (bit : ℕ) :
    (group a b c).getLsbD bit =
      if bit < 8 then c.getLsbD bit
      else if bit < 16 then b.getLsbD (bit - 8)
      else a.getLsbD (bit - 16) := by
  rw [group, BitVec.getLsbD_append, BitVec.getLsbD_append]
  grind

theorem getLsbD_join (bit : ℕ) :
    (join first second third fourth).getLsbD bit =
      if bit < 6 then fourth.getLsbD bit
      else if bit < 12 then third.getLsbD (bit - 6)
      else if bit < 18 then second.getLsbD (bit - 12)
      else first.getLsbD (bit - 18) := by
  rw [join, BitVec.getLsbD_append, BitVec.getLsbD_append, BitVec.getLsbD_append]
  grind

/-- A group is made of its bytes. -/
theorem group_byte : group (byte bits 0) (byte bits 1) (byte bits 2) = bits := by
  apply BitVec.eq_of_getLsbD_eq
  intro bit hbit
  rw [getLsbD_group]
  simp only [getLsbD_byte]
  grind

/-- A group is made of its sextets. -/
theorem join_sextet : join (sextet bits 0) (sextet bits 1) (sextet bits 2) (sextet bits 3) = bits := by
  apply BitVec.eq_of_getLsbD_eq
  intro bit hbit
  rw [getLsbD_join]
  simp only [getLsbD_sextet]
  grind

@[simp]
theorem byte_group (a b c : Byte) :
    byte (group a b c) 0 = a ∧ byte (group a b c) 1 = b ∧ byte (group a b c) 2 = c := by
  refine ⟨?_, ?_, ?_⟩
  all_goals
    apply BitVec.eq_of_getLsbD_eq
    intro bit hbit
    rw [getLsbD_byte, getLsbD_group]
    grind

@[simp]
theorem sextet_join :
    sextet (join first second third fourth) 0 = first ∧
      sextet (join first second third fourth) 1 = second ∧
      sextet (join first second third fourth) 2 = third ∧
      sextet (join first second third fourth) 3 = fourth := by
  refine ⟨?_, ?_, ?_, ?_⟩
  all_goals
    apply BitVec.eq_of_getLsbD_eq
    intro bit hbit
    rw [getLsbD_sextet, getLsbD_join]
    grind

/-- The first byte uses the upper bits of the second sextet. -/
theorem join_eq_group_one (hunused : second &&& 15 = 0) :
    join first second 0 0 = group (byte (join first second 0 0) 0) 0 0 := by
  apply BitVec.eq_of_getLsbD_eq
  intro bit hbit
  have hbits : ∀ low < 4, second.getLsbD low = false := by
    intro low hlow
    have hzero := congrArg (BitVec.getLsbD · low) hunused
    interval_cases low <;> simpa using hzero
  rw [getLsbD_group, getLsbD_byte, getLsbD_join, getLsbD_join]
  grind

/-- The second byte uses the upper bits of the third sextet. -/
theorem join_eq_group_two (hunused : third &&& 3 = 0) :
    join first second third 0 = group (byte (join first second third 0) 0)
      (byte (join first second third 0) 1) 0 := by
  apply BitVec.eq_of_getLsbD_eq
  intro bit hbit
  have hbits : ∀ low < 2, third.getLsbD low = false := by
    intro low hlow
    have hzero := congrArg (BitVec.getLsbD · low) hunused
    interval_cases low <;> simpa using hzero
  rw [getLsbD_group, getLsbD_byte, getLsbD_byte, getLsbD_join, getLsbD_join, getLsbD_join]
  grind

/-- The bits completing one byte are zero. -/
theorem group_one_unused (a : Byte) :
    sextet (group a 0 0) 1 &&& 15 = 0 ∧ sextet (group a 0 0) 2 = 0 ∧ sextet (group a 0 0) 3 = 0 := by
  refine ⟨?_, ?_, ?_⟩
  all_goals
    apply BitVec.eq_of_getLsbD_eq
    intro bit hbit
    simp only [BitVec.getLsbD_and, getLsbD_sextet, getLsbD_group]
    interval_cases bit <;> simp

/-- The bits completing two bytes are zero. -/
theorem group_two_unused (a b : Byte) :
    sextet (group a b 0) 2 &&& 3 = 0 ∧ sextet (group a b 0) 3 = 0 := by
  refine ⟨?_, ?_⟩
  all_goals
    apply BitVec.eq_of_getLsbD_eq
    intro bit hbit
    simp only [BitVec.getLsbD_and, getLsbD_sextet, getLsbD_group]
    interval_cases bit <;> simp

end Groups

namespace Alphabet

variable (alphabet : Alphabet)

/-- The padded encoding of a string of bytes. -/
def encode : List Byte → List Byte
  | [] => []
  | [a] =>
      let bits := group a 0 0
      [alphabet.letter (sextet bits 0), alphabet.letter (sextet bits 1), alphabet.pad, alphabet.pad]
  | [a, b] =>
      let bits := group a b 0
      [alphabet.letter (sextet bits 0), alphabet.letter (sextet bits 1),
        alphabet.letter (sextet bits 2), alphabet.pad]
  | a :: b :: c :: rest =>
      let bits := group a b c
      alphabet.letter (sextet bits 0) :: alphabet.letter (sextet bits 1) ::
        alphabet.letter (sextet bits 2) :: alphabet.letter (sextet bits 3) :: encode rest

theorem letter_ne_pad (value : Sextet) : alphabet.letter value ≠ alphabet.pad := by
  intro hpad
  have hvalue := alphabet.value?_letter value
  rw [hpad, alphabet.value?_pad] at hvalue
  cases hvalue

/-- How a text goes on: it ends, or its next character is padding, a letter or another one. -/
inductive Next : List Byte → Prop
  | ends : Next []
  | pad (rest : List Byte) : Next (alphabet.pad :: rest)
  | letter (value : Sextet) (rest : List Byte) : Next (alphabet.letter value :: rest)
  | other {char : Byte} (rest : List Byte) (hother : alphabet.value? char = none)
      (hpad : char ≠ alphabet.pad) : Next (char :: rest)

theorem next (text : List Byte) : alphabet.Next text := by
  cases text with
  | nil => exact .ends
  | cons char rest =>
      by_cases hpad : char = alphabet.pad
      · subst hpad
        exact .pad rest
      · cases hvalue : alphabet.value? char with
        | none => exact .other rest hvalue hpad
        | some value =>
            obtain rfl := alphabet.letter_of_value? char value hvalue
            exact .letter value rest

section Encode

variable (first second third fourth : Sextet) (rest : List Byte)

/-- Any four letters encode three bytes. -/
theorem encode_join :
    let bits := join first second third fourth
    alphabet.encode (byte bits 0 :: byte bits 1 :: byte bits 2 :: rest) =
      alphabet.letter first :: alphabet.letter second :: alphabet.letter third ::
        alphabet.letter fourth :: alphabet.encode rest := by
  simp [encode, group_byte]

/-- Two letters encode one byte if the lower bits of the second are unused. -/
theorem encode_join_one (hunused : second &&& 15 = 0) :
    alphabet.encode [byte (join first second 0 0) 0] =
      [alphabet.letter first, alphabet.letter second, alphabet.pad, alphabet.pad] := by
  simp only [encode]
  rw [← join_eq_group_one first second hunused]
  simp

/-- Three letters encode two bytes if the lower bits of the third are unused. -/
theorem encode_join_two (hunused : third &&& 3 = 0) :
    let bits := join first second third 0
    alphabet.encode [byte bits 0, byte bits 1] =
      [alphabet.letter first, alphabet.letter second, alphabet.letter third, alphabet.pad] := by
  simp only [encode]
  rw [← join_eq_group_two first second third hunused]
  simp

end Encode

end Alphabet

end Base64
