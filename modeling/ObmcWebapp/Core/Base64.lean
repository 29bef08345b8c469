/-
# Decoding base64

`base64Decode` reads the text in groups of four characters. It returns early at a
character outside the alphabet and at the first padding character, where it checks that
the sextet before leaves no bit unused. It does not look at what follows the padding, and
a text may end after any two or more characters of a group.

Characters are bytes; whether the platform's `char` is signed shows only where one is
promoted to `int`.
-/

import ObmcWebapp.Library.Base64
import ObmcWebapp.Library.Fallible

namespace ObmcWebapp.Core

open Base64

inductive CharSign
  | signed
  | unsigned
  deriving DecidableEq, Repr

/-- A `char` promoted to `int`. -/
def CharSign.promote (sign : CharSign) (char : Byte) : BitVec 32 :=
  match sign with
  | .signed => char.signExtend 32
  | .unsigned => char.setWidth 32

/-- `static_cast<char>` of an `int`. -/
def toChar (value : BitVec 32) : Byte := value.setWidth 8

/-- `static_cast<char>(-1)`. -/
def nop : Byte := -1

set_option maxRecDepth 2000 in
def decodingData : Vector Byte 256 := #v[
  nop, nop, nop, nop, nop, nop, nop, nop, nop, nop, nop, nop, nop, nop,
  nop, nop, nop, nop, nop, nop, nop, nop, nop, nop, nop, nop, nop, nop,
  nop, nop, nop, nop, nop, nop, nop, nop, nop, nop, nop, nop, nop, nop,
  nop, 62,  nop, nop, nop, 63,  52,  53,  54,  55,  56,  57,  58,  59,
  60,  61,  nop, nop, nop, nop, nop, nop, nop, 0,   1,   2,   3,   4,
  5,   6,   7,   8,   9,   10,  11,  12,  13,  14,  15,  16,  17,  18,
  19,  20,  21,  22,  23,  24,  25,  nop, nop, nop, nop, nop, nop, 26,
  27,  28,  29,  30,  31,  32,  33,  34,  35,  36,  37,  38,  39,  40,
  41,  42,  43,  44,  45,  46,  47,  48,  49,  50,  51,  nop, nop, nop,
  nop, nop, nop, nop, nop, nop, nop, nop, nop, nop, nop, nop, nop, nop,
  nop, nop, nop, nop, nop, nop, nop, nop, nop, nop, nop, nop, nop, nop,
  nop, nop, nop, nop, nop, nop, nop, nop, nop, nop, nop, nop, nop, nop,
  nop, nop, nop, nop, nop, nop, nop, nop, nop, nop, nop, nop, nop, nop,
  nop, nop, nop, nop, nop, nop, nop, nop, nop, nop, nop, nop, nop, nop,
  nop, nop, nop, nop, nop, nop, nop, nop, nop, nop, nop, nop, nop, nop,
  nop, nop, nop, nop, nop, nop, nop, nop, nop, nop, nop, nop, nop, nop,
  nop, nop, nop, nop, nop, nop, nop, nop, nop, nop, nop, nop, nop, nop,
  nop, nop, nop, nop, nop, nop, nop, nop, nop, nop, nop, nop, nop, nop,
  nop, nop, nop, nop]

def getCodeValue (char : Byte) : Byte := decodingData.get char.toFin

/-- A computation on the output; an early return is thrown with the value it returns. -/
abbrev Decoding := EStateM Bool (List Byte)

/-- `output += char`. -/
def append (char : Byte) : Decoding PUnit := modify fun output => output ++ [char]

/-- The code of a character; one outside the alphabet ends the decoding. -/
def readCode (char : Byte) : Decoding Byte := do
  let code := getCodeValue char
  if code = nop then throw false
  return code

section Decode

variable (sign : CharSign)

/-- The bytes a group puts out. -/
def firstChar (base64code0 base64code1 : Byte) : Byte :=
  toChar ((sign.promote base64code0 <<< 2) |||
    ((sign.promote base64code1).sshiftRight 4 &&& 0x3))

def secondChar (base64code1 base64code2 : Byte) : Byte :=
  toChar (((sign.promote base64code1 <<< 4) &&& 0xf0) |||
    ((sign.promote base64code2).sshiftRight 2 &&& 0x0f))

def thirdChar (base64code2 base64code3 : Byte) : Byte :=
  toChar (((sign.promote base64code2 <<< 6) &&& 0xc0) ||| sign.promote base64code3)

/-- A character after the second of a group. Padding ends the decoding; the last code must
then leave no bit of the mask unused. At the end of the text there is no character and the
code is 0. -/
def decodeNext (input : List Byte) (i : ℕ) (mask : BitVec 32) (combine : Byte → Byte → Byte)
    (last : Byte) : Decoding Byte := do
  if i < input.length then
    let c := input.getD i 0
    if c = standard.pad then
      throw (decide (sign.promote last &&& mask = 0))
    let code ← readCode c
    append (combine last code)
    return code
  else return 0

/-- The body of the loop. It moves the index on three times. -/
def decodeGroup (input : List Byte) (i : ℕ) : Decoding PUnit := do
  let base64code0 ← readCode (input.getD i 0)
  if ¬ i + 1 < input.length then throw false
  let base64code1 ← readCode (input.getD (i + 1) 0)
  append (firstChar sign base64code0 base64code1)
  let base64code2 ← decodeNext sign input (i + 2) 0x0f (secondChar sign) base64code1
  let _base64code3 ← decodeNext sign input (i + 3) 0x03 (thirdChar sign) base64code2
  return

/-- The loop, from an index on. -/
def decodeFrom (input : List Byte) (i : ℕ) : Decoding PUnit :=
  if i < input.length then do
    decodeGroup sign input i
    decodeFrom input (i + 4)
  else pure ⟨⟩
termination_by input.length - i

/-- What a decoding returns and the output it leaves; a loop that runs to the end returns
true. -/
def returned : EStateM.Result Bool (List Byte) PUnit → Bool × List Byte
  | .ok _ output => (true, output)
  | .error value output => (value, output)

/-- `base64Decode`: what it returns and the output it leaves. -/
def base64Decode (input output : List Byte) : Bool × List Byte :=
  returned ((do
    set ([] : List Byte)
    decodeFrom sign input 0 : Decoding PUnit) output)

end Decode

/-- The code of a sextet. -/
def code (value : Sextet) : Byte := value.setWidth 8

theorem decodingData_eq : decodingData.toList = (List.range 256).map fun index =>
    ((standard.value? (BitVec.ofNat 8 index)).map code).getD nop := by
  decide +kernel

theorem getCodeValue_eq (char : Byte) :
    getCodeValue char = ((standard.value? char).map code).getD nop := by
  have hentry : decodingData.toList[char.toNat]? = some (decodingData.get char.toFin) := by
    simp [Vector.get]
  have hvalue : decodingData.toList[char.toNat]? =
      some (((standard.value? char).map code).getD nop) := by
    rw [decodingData_eq]
    simp [char.isLt]
  rw [getCodeValue]
  exact Option.some.inj (hentry.symm.trans hvalue)

theorem code_ne_nop : ∀ value, code value ≠ nop := by
  decide +kernel

theorem readCode_letter (value : Sextet) (output : List Byte) :
    readCode (standard.letter value) output = .ok (code value) output := by
  have hcode : getCodeValue (standard.letter value) = code value := by
    rw [getCodeValue_eq, standard.value?_letter]
    rfl
  simp [readCode, hcode, code_ne_nop]

theorem readCode_other {char : Byte} (hchar : standard.value? char = none) (output : List Byte) :
    readCode char output = .error false output := by
  have hcode : getCodeValue char = nop := by
    rw [getCodeValue_eq, hchar]
    rfl
  unfold readCode
  rw [hcode]
  rfl

section Bits

variable (sign : CharSign) (first second third fourth : Sextet)

/-- Codes are small: their promotion does not depend on the sign of `char`. -/
@[simp]
theorem promote_code (value : Sextet) : sign.promote (code value) = value.setWidth 32 := by
  have hwiden : (code value).setWidth 32 = value.setWidth 32 := by
    apply BitVec.eq_of_getLsbD_eq
    intro bit hbit
    simp only [code, BitVec.getLsbD_setWidth]
    grind
  cases sign with
  | signed =>
      have hmsb : (code value).msb = false := by
        rw [BitVec.msb_eq_getLsbD_last, code, BitVec.getLsbD_setWidth]
        simp
      rw [CharSign.promote, BitVec.signExtend_eq_setWidth_of_msb_false hmsb, hwiden]
  | unsigned => exact hwiden

theorem firstChar_eq :
    firstChar sign (code first) (code second) = byte (join first second third fourth) 0 := by
  apply BitVec.eq_of_getLsbD_eq
  intro bit hbit
  simp only [firstChar, toChar, promote_code, getLsbD_byte, getLsbD_join]
  interval_cases bit <;> simp [BitVec.getElem_sshiftRight]

theorem secondChar_eq :
    secondChar sign (code second) (code third) = byte (join first second third fourth) 1 := by
  apply BitVec.eq_of_getLsbD_eq
  intro bit hbit
  simp only [secondChar, toChar, promote_code, getLsbD_byte, getLsbD_join]
  interval_cases bit <;> simp [BitVec.getElem_sshiftRight]

theorem thirdChar_eq :
    thirdChar sign (code third) (code fourth) = byte (join first second third fourth) 2 := by
  apply BitVec.eq_of_getLsbD_eq
  intro bit hbit
  simp only [thirdChar, toChar, promote_code, getLsbD_byte, getLsbD_join]
  interval_cases bit <;> simp

/-- The test for unused bits, on the promoted code. -/
theorem promote_and_eq_zero_iff (value : Sextet) (mask : Sextet) :
    sign.promote (code value) &&& mask.setWidth 32 = 0 ↔ value &&& mask = 0 := by
  rw [promote_code, ← BitVec.setWidth_and]
  constructor
  · intro hzero
    have hback := congrArg (BitVec.setWidth 6) hzero
    simpa using hback
  · intro hzero
    rw [hzero]
    rfl

end Bits

section Group

variable (sign : CharSign) {input : List Byte} {i : ℕ} {mask : BitVec 32}
  {combine : Byte → Byte → Byte} (output : List Byte)

theorem decodeNext_end (hend : input[i]? = none) (last : Byte) :
    decodeNext sign input i mask combine last output = .ok 0 output := by
  have hlength : ¬ i < input.length := by simpa using hend
  rw [decodeNext, if_neg hlength]
  rfl

theorem decodeNext_pad (hpad : input[i]? = some standard.pad) (value unused : Sextet) :
    decodeNext sign input i (unused.setWidth 32) combine (code value) output =
      .error (decide (value &&& unused = 0)) output := by
  obtain ⟨hlength, -⟩ := List.getElem?_eq_some_iff.mp hpad
  rw [decodeNext, if_pos hlength]
  simp only [List.getD_eq_getElem?_getD, hpad, Option.getD_some, if_true]
  rw [← decide_eq_decide.mpr (promote_and_eq_zero_iff sign value unused)]
  rfl

theorem decodeNext_letter {value : Sextet} (hletter : input[i]? = some (standard.letter value))
    (last : Byte) :
    decodeNext sign input i mask combine last output =
      .ok (code value) (output ++ [combine last (code value)]) := by
  obtain ⟨hlength, -⟩ := List.getElem?_eq_some_iff.mp hletter
  rw [decodeNext, if_pos hlength]
  simp only [List.getD_eq_getElem?_getD, hletter, Option.getD_some, standard.letter_ne_pad,
    if_false]
  exact Fallible.bind_ok (readCode_letter value output)

theorem decodeNext_other {char : Byte} (hchar : input[i]? = some char)
    (hother : standard.value? char = none) (hpad : char ≠ standard.pad) (last : Byte) :
    decodeNext sign input i mask combine last output = .error false output := by
  obtain ⟨hlength, -⟩ := List.getElem?_eq_some_iff.mp hchar
  rw [decodeNext, if_pos hlength]
  simp only [List.getD_eq_getElem?_getD, hchar, Option.getD_some, hpad, if_false]
  exact Fallible.bind_error (readCode_other hother output)

/-- A group that starts with two letters puts out a byte and goes on. -/
theorem decodeGroup_letters (first second : Sextet) (rest : List Byte) :
    decodeGroup sign (standard.letter first :: standard.letter second :: rest) 0 output =
      (do
        let base64code2 ← decodeNext sign (standard.letter first :: standard.letter second :: rest)
          2 0x0f (secondChar sign) (code second)
        let _base64code3 ← decodeNext sign (standard.letter first :: standard.letter second :: rest)
          3 0x03 (thirdChar sign) base64code2
        return : Decoding PUnit) (output ++ [firstChar sign (code first) (code second)]) := by
  have hlength : 0 + 1 < (standard.letter first :: standard.letter second :: rest).length := by simp
  simp only [decodeGroup, hlength, not_true_eq_false, if_false, List.getD_cons_zero,
    List.getD_cons_succ]
  rw [Fallible.bind_ok (readCode_letter first output)]
  exact Fallible.bind_ok (readCode_letter second output)

/-- A text that does not start with two letters is refused. -/
theorem decodeGroup_other {text : List Byte}
    (hletters : ∀ first second rest,
      text ≠ standard.letter first :: standard.letter second :: rest) :
    decodeGroup sign text 0 output = .error false output := by
  cases standard.next text with
  | ends => exact Fallible.bind_error (readCode_other (by decide) output)
  | pad rest => exact Fallible.bind_error (readCode_other standard.value?_pad output)
  | other rest hother => exact Fallible.bind_error (readCode_other hother output)
  | letter first rest =>
      refine (Fallible.bind_ok (readCode_letter first output)).trans ?_
      cases standard.next rest with
      | ends => rfl
      | pad rest => exact Fallible.bind_error (readCode_other standard.value?_pad output)
      | other rest hother => exact Fallible.bind_error (readCode_other hother output)
      | letter second rest => exact absurd rfl (hletters first second rest)

section Letters

variable (first second third fourth : Sextet) (rest : List Byte)

theorem decodeGroup_endTwo :
    decodeGroup sign [standard.letter first, standard.letter second] 0 output =
      .ok ⟨⟩ (output ++ [byte (join first second 0 0) 0]) := by
  rw [decodeGroup_letters, firstChar_eq sign first second 0 0,
    Fallible.bind_ok (decodeNext_end sign _ rfl _), Fallible.bind_ok (decodeNext_end sign _ rfl _)]
  rfl

theorem decodeGroup_padTwo :
    decodeGroup sign (standard.letter first :: standard.letter second :: standard.pad :: rest) 0
        output =
      .error (decide (second &&& 15 = 0)) (output ++ [byte (join first second 0 0) 0]) := by
  rw [decodeGroup_letters, firstChar_eq sign first second 0 0]
  exact Fallible.bind_error (decodeNext_pad sign _ rfl second 15)

theorem decodeGroup_otherTwo {char : Byte} (hother : standard.value? char = none)
    (hpad : char ≠ standard.pad) :
    decodeGroup sign (standard.letter first :: standard.letter second :: char :: rest) 0 output =
      .error false (output ++ [byte (join first second 0 0) 0]) := by
  rw [decodeGroup_letters, firstChar_eq sign first second 0 0,
    Fallible.bind_error (decodeNext_other sign _ rfl hother hpad _)]

/-- A group that starts with three letters puts out two bytes and goes on. -/
theorem decodeGroup_three :
    decodeGroup sign (standard.letter first :: standard.letter second :: standard.letter third ::
        rest) 0 output =
      (do
        let _base64code3 ← decodeNext sign (standard.letter first :: standard.letter second ::
          standard.letter third :: rest) 3 0x03 (thirdChar sign) (code third)
        return : Decoding PUnit)
        (output ++ [byte (join first second third fourth) 0, byte (join first second third fourth) 1]) := by
  rw [decodeGroup_letters, firstChar_eq sign first second third fourth,
    Fallible.bind_ok (decodeNext_letter sign _ rfl _), secondChar_eq sign first second third fourth,
    List.append_assoc]
  rfl

theorem decodeGroup_endThree :
    decodeGroup sign [standard.letter first, standard.letter second, standard.letter third] 0
        output =
      .ok ⟨⟩ (output ++ [byte (join first second third 0) 0, byte (join first second third 0) 1]) := by
  rw [decodeGroup_three sign output first second third 0, Fallible.bind_ok (decodeNext_end sign _ rfl _)]
  rfl

theorem decodeGroup_padThree :
    decodeGroup sign (standard.letter first :: standard.letter second :: standard.letter third ::
        standard.pad :: rest) 0 output =
      .error (decide (third &&& 3 = 0))
        (output ++ [byte (join first second third 0) 0, byte (join first second third 0) 1]) := by
  rw [decodeGroup_three sign output first second third 0]
  exact Fallible.bind_error (decodeNext_pad sign _ rfl third 3)

theorem decodeGroup_otherThree {char : Byte} (hother : standard.value? char = none)
    (hpad : char ≠ standard.pad) :
    decodeGroup sign (standard.letter first :: standard.letter second :: standard.letter third ::
        char :: rest) 0 output =
      .error false
        (output ++ [byte (join first second third 0) 0, byte (join first second third 0) 1]) := by
  rw [decodeGroup_three sign output first second third 0,
    Fallible.bind_error (decodeNext_other sign _ rfl hother hpad _)]

theorem decodeGroup_four :
    decodeGroup sign (standard.letter first :: standard.letter second :: standard.letter third ::
        standard.letter fourth :: rest) 0 output =
      .ok ⟨⟩ (output ++ [byte (join first second third fourth) 0,
        byte (join first second third fourth) 1, byte (join first second third fourth) 2]) := by
  rw [decodeGroup_three sign output first second third fourth,
    Fallible.bind_ok (decodeNext_letter sign _ rfl _), thirdChar_eq sign first second third fourth,
    List.append_assoc]
  rfl

end Letters

end Group

/-- The texts `base64Decode` accepts, with what it puts out. -/
inductive Reads : List Byte → List Byte → Prop
  | nil : Reads [] []
  /-- The text ends after two letters. -/
  | endTwo (first second : Sextet) :
      Reads [standard.letter first, standard.letter second] [byte (join first second 0 0) 0]
  /-- The text ends after three letters. -/
  | endThree (first second third : Sextet) :
      Reads [standard.letter first, standard.letter second, standard.letter third]
        [byte (join first second third 0) 0, byte (join first second third 0) 1]
  /-- Padding after two letters; the rest of the text is not looked at. -/
  | padTwo (first second : Sextet) (rest : List Byte) (hunused : second &&& 15 = 0) :
      Reads (standard.letter first :: standard.letter second :: standard.pad :: rest)
        [byte (join first second 0 0) 0]
  /-- Padding after three letters; the rest of the text is not looked at. -/
  | padThree (first second third : Sextet) (rest : List Byte) (hunused : third &&& 3 = 0) :
      Reads (standard.letter first :: standard.letter second :: standard.letter third ::
          standard.pad :: rest)
        [byte (join first second third 0) 0, byte (join first second third 0) 1]
  | group (first second third fourth : Sextet) {rest decoded : List Byte}
      (hrest : Reads rest decoded) :
      Reads (standard.letter first :: standard.letter second :: standard.letter third ::
          standard.letter fourth :: rest)
        (byte (join first second third fourth) 0 :: byte (join first second third fourth) 1 ::
          byte (join first second third fourth) 2 :: decoded)

section Loop

variable (sign : CharSign)

/-- The loop from an index on is the loop over the rest of the text. -/
theorem decodeFrom_drop (input : List Byte) (skipped i : ℕ) :
    decodeFrom sign input (skipped + i) = decodeFrom sign (input.drop skipped) i := by
  have hread : ∀ index, (input.drop skipped).getD index 0 = input.getD (skipped + index) 0 := by
    intro index
    rw [List.getD_eq_getElem?_getD, List.getD_eq_getElem?_getD, List.getElem?_drop]
  have hin : ∀ index, index < (input.drop skipped).length ↔ skipped + index < input.length := by
    intro index
    rw [List.length_drop]
    omega
  have hgroup : ∀ i, decodeGroup sign (input.drop skipped) i =
      decodeGroup sign input (skipped + i) := by
    intro i
    simp only [decodeGroup, decodeNext, hread, hin, Nat.add_assoc]
  induction i using decodeFrom.induct (input.drop skipped) with
  | case1 i hi ih =>
      rw [decodeFrom.eq_1 sign input, decodeFrom.eq_1 sign (input.drop skipped), if_pos hi,
        if_pos ((hin i).mp hi), hgroup, ← ih, Nat.add_assoc]
  | case2 i hi =>
      rw [decodeFrom.eq_1 sign input, decodeFrom.eq_1 sign (input.drop skipped), if_neg hi,
        if_neg fun hin' => hi ((hin i).mpr hin')]

variable {sign} {text output next : List Byte}

theorem decodeFrom_of_ok (htext : text ≠ [])
    (hgroup : decodeGroup sign text 0 output = .ok ⟨⟩ next) :
    decodeFrom sign text 0 output = decodeFrom sign (text.drop 4) 0 next := by
  rw [decodeFrom, if_pos (List.length_pos_of_ne_nil htext), Fallible.bind_ok hgroup,
    ← decodeFrom_drop sign text 4 0]

theorem decodeFrom_of_error (htext : text ≠ []) {value : Bool}
    (hgroup : decodeGroup sign text 0 output = .error value next) :
    decodeFrom sign text 0 output = .error value next := by
  rw [decodeFrom, if_pos (List.length_pos_of_ne_nil htext), Fallible.bind_error hgroup]

/-- A text that is read is accepted, with the bytes it is read as. -/
theorem returned_of_reads {decoded : List Byte} (hreads : Reads text decoded) (output : List Byte) :
    returned (decodeFrom sign text 0 output) = (true, output ++ decoded) := by
  induction hreads generalizing output with
  | nil =>
      rw [decodeFrom, List.append_nil]
      rfl
  | endTwo first second =>
      rw [decodeFrom_of_ok (List.cons_ne_nil _ _) (decodeGroup_endTwo sign output first second),
        decodeFrom]
      rfl
  | endThree first second third =>
      rw [decodeFrom_of_ok (List.cons_ne_nil _ _)
        (decodeGroup_endThree sign output first second third), decodeFrom]
      rfl
  | padTwo first second rest hunused =>
      rw [decodeFrom_of_error (List.cons_ne_nil _ _)
        (decodeGroup_padTwo sign output first second rest), decide_eq_true hunused]
      rfl
  | padThree first second third rest hunused =>
      rw [decodeFrom_of_error (List.cons_ne_nil _ _)
        (decodeGroup_padThree sign output first second third rest), decide_eq_true hunused]
      rfl
  | @group first second third fourth rest decoded hrest ih =>
      have hskip := decodeFrom_of_ok (List.cons_ne_nil _ _)
        (decodeGroup_four sign output first second third fourth rest)
      rw [hskip, List.drop_succ_cons, List.drop_succ_cons, List.drop_succ_cons,
        List.drop_succ_cons, List.drop_zero, ih, List.append_assoc]
      rfl

/-- A text that is accepted is read as the bytes put out. -/
theorem reads_of_returned {after : List Byte}
    (haccepted : returned (decodeFrom sign text 0 output) = (true, after)) :
    ∃ decoded, Reads text decoded ∧ after = output ++ decoded := by
  induction hlength : text.length using Nat.strong_induction_on generalizing text output with
  | _ length ih =>
  subst hlength
  by_cases htext : text = []
  · subst htext
    rw [decodeFrom] at haccepted
    cases haccepted
    exact ⟨[], .nil, (List.append_nil _).symm⟩
  by_cases hletters : ∃ first second rest,
      text = standard.letter first :: standard.letter second :: rest
  · obtain ⟨first, second, rest, rfl⟩ := hletters
    cases standard.next rest with
    | ends =>
        rw [decodeFrom_of_ok htext (decodeGroup_endTwo sign output first second), decodeFrom]
          at haccepted
        cases haccepted
        exact ⟨_, .endTwo first second, rfl⟩
    | pad rest =>
        rw [decodeFrom_of_error htext (decodeGroup_padTwo sign output first second rest)] at haccepted
        obtain ⟨hunused, rfl⟩ := Prod.mk.inj haccepted
        exact ⟨_, .padTwo first second rest (of_decide_eq_true hunused), rfl⟩
    | other rest hother hpad =>
        rw [decodeFrom_of_error htext
          (decodeGroup_otherTwo sign output first second rest hother hpad)] at haccepted
        cases haccepted
    | letter third rest =>
        cases standard.next rest with
        | ends =>
            rw [decodeFrom_of_ok htext (decodeGroup_endThree sign output first second third),
              decodeFrom] at haccepted
            cases haccepted
            exact ⟨_, .endThree first second third, rfl⟩
        | pad rest =>
            rw [decodeFrom_of_error htext
              (decodeGroup_padThree sign output first second third rest)] at haccepted
            obtain ⟨hunused, rfl⟩ := Prod.mk.inj haccepted
            exact ⟨_, .padThree first second third rest (of_decide_eq_true hunused), rfl⟩
        | other rest hother hpad =>
            rw [decodeFrom_of_error htext
              (decodeGroup_otherThree sign output first second third rest hother hpad)] at haccepted
            cases haccepted
        | letter fourth rest =>
            rw [decodeFrom_of_ok htext
              (decodeGroup_four sign output first second third fourth rest)] at haccepted
            have hshorter : rest.length < (standard.letter first :: standard.letter second ::
                standard.letter third :: standard.letter fourth :: rest).length := by
              simp only [List.length_cons]
              omega
            obtain ⟨decoded, hreads, rfl⟩ := ih rest.length hshorter haccepted rfl
            exact ⟨_, .group first second third fourth hreads, List.append_assoc _ _ _⟩
  · have hother := decodeGroup_other sign output fun first second rest heq =>
      hletters ⟨first, second, rest, heq⟩
    rw [decodeFrom_of_error htext hother] at haccepted
    cases haccepted

end Loop

/-- What `base64Decode` accepts, and what it then puts out. -/
theorem base64Decode_eq_true_iff {sign : CharSign} {input output decoded : List Byte} :
    base64Decode sign input output = (true, decoded) ↔ Reads input decoded := by
  constructor
  · intro haccepted
    have hreturned : returned (decodeFrom sign input 0 []) = (true, decoded) := haccepted
    obtain ⟨read, hreads, rfl⟩ := reads_of_returned hreturned
    exact hreads
  · exact fun hreads => returned_of_reads hreads []

/-! ## Encodings -/

theorem reads_encode (decoded : List Byte) : Reads (standard.encode decoded) decoded := by
  induction decoded using Alphabet.encode.induct with
  | case1 => exact .nil
  | case2 a =>
      obtain ⟨hunused, hthird, hfourth⟩ := group_one_unused a
      have hgroup := join_sextet (group a 0 0)
      rw [hthird, hfourth] at hgroup
      have hreads := Reads.padTwo (sextet (group a 0 0) 0) _ [standard.pad] hunused
      rw [hgroup, (byte_group a 0 0).1] at hreads
      exact hreads
  | case3 a b =>
      obtain ⟨hunused, hfourth⟩ := group_two_unused a b
      have hgroup := join_sextet (group a b 0)
      rw [hfourth] at hgroup
      have hreads := Reads.padThree (sextet (group a b 0) 0) (sextet (group a b 0) 1) _ [] hunused
      rw [hgroup, (byte_group a b 0).1, (byte_group a b 0).2.1] at hreads
      exact hreads
  | case4 a b c rest ih =>
      have hreads := Reads.group (sextet (group a b c) 0) (sextet (group a b c) 1)
        (sextet (group a b c) 2) (sextet (group a b c) 3) ih
      rw [join_sextet, (byte_group a b c).1, (byte_group a b c).2.1, (byte_group a b c).2.2] at hreads
      exact hreads

/-- An encoding decodes to the bytes it encodes, whatever the output held. -/
theorem base64Decode_encode (sign : CharSign) (decoded output : List Byte) :
    base64Decode sign (standard.encode decoded) output = (true, decoded) :=
  base64Decode_eq_true_iff.mpr (reads_encode decoded)

/-- Groups of four letters and an ending that is not checked: two or three letters that end
the text, or that are padded and leave no bit unused, but with something else after the
first padding character than what completes the group. -/
inductive Overlooked : List Byte → Prop
  | endTwo (first second : Sextet) :
      Overlooked [standard.letter first, standard.letter second]
  | endThree (first second third : Sextet) :
      Overlooked [standard.letter first, standard.letter second, standard.letter third]
  | padTwo (first second : Sextet) {rest : List Byte} (hunused : second &&& 15 = 0)
      (hrest : rest ≠ [standard.pad]) :
      Overlooked (standard.letter first :: standard.letter second :: standard.pad :: rest)
  | padThree (first second third : Sextet) {rest : List Byte} (hunused : third &&& 3 = 0)
      (hrest : rest ≠ []) :
      Overlooked (standard.letter first :: standard.letter second :: standard.letter third ::
        standard.pad :: rest)
  | group (first second third fourth : Sextet) {rest : List Byte} (hrest : Overlooked rest) :
      Overlooked (standard.letter first :: standard.letter second :: standard.letter third ::
        standard.letter fourth :: rest)

/-- What is read is an encoding or ends in a way that is not checked. -/
theorem Reads.encode_or_overlooked {input decoded : List Byte} (hreads : Reads input decoded) :
    input = standard.encode decoded ∨ Overlooked input := by
  induction hreads with
  | nil => exact .inl rfl
  | endTwo first second => exact .inr (.endTwo first second)
  | endThree first second third => exact .inr (.endThree first second third)
  | padTwo first second rest hunused =>
      by_cases hrest : rest = [standard.pad]
      · subst hrest
        exact .inl (standard.encode_join_one first second hunused).symm
      · exact .inr (.padTwo first second hunused hrest)
  | padThree first second third rest hunused =>
      by_cases hrest : rest = []
      · subst hrest
        exact .inl (standard.encode_join_two first second third hunused).symm
      · exact .inr (.padThree first second third hunused hrest)
  | @group first second third fourth rest decoded hrest ih =>
      rcases ih with hencode | hoverlooked
      · have hjoin := standard.encode_join first second third fourth decoded
        rw [← hencode] at hjoin
        exact .inl hjoin.symm
      · exact .inr (.group first second third fourth hoverlooked)

/-- Every text with such an ending is read. -/
theorem Overlooked.reads {input : List Byte} (hoverlooked : Overlooked input) :
    ∃ decoded, Reads input decoded := by
  induction hoverlooked with
  | endTwo first second => exact ⟨_, .endTwo first second⟩
  | endThree first second third => exact ⟨_, .endThree first second third⟩
  | padTwo first second hunused => exact ⟨_, .padTwo first second _ hunused⟩
  | padThree first second third hunused => exact ⟨_, .padThree first second third _ hunused⟩
  | group first second third fourth hrest ih =>
      obtain ⟨decoded, hreads⟩ := ih
      exact ⟨_, .group first second third fourth hreads⟩

/-- No text with such an ending is an encoding. -/
theorem Overlooked.ne_encode {input : List Byte} (hoverlooked : Overlooked input)
    (decoded : List Byte) : input ≠ standard.encode decoded := by
  have hletter : ∀ value, standard.pad ≠ standard.letter value := fun value =>
    (standard.letter_ne_pad value).symm
  induction hoverlooked generalizing decoded with
  | endTwo first second => cases decoded using Alphabet.encode.induct <;> simp [Alphabet.encode]
  | endThree first second third =>
      cases decoded using Alphabet.encode.induct <;> simp [Alphabet.encode]
  | padTwo first second hunused hrest =>
      cases decoded using Alphabet.encode.induct <;> simp [Alphabet.encode, hletter, hrest]
  | padThree first second third hunused hrest =>
      cases decoded using Alphabet.encode.induct <;>
        simp [Alphabet.encode, hletter, hrest, standard.letter_ne_pad]
  | group first second third fourth hrest ih =>
      cases decoded using Alphabet.encode.induct <;>
        simp [Alphabet.encode, standard.letter_ne_pad, ih]

/-- If the text is accepted, it is the encoding of what is put out. -/
def AcceptsOnlyEncoding (sign : CharSign) (input output : List Byte) : Prop :=
  ∀ decoded, base64Decode sign input output = (true, decoded) → input = standard.encode decoded

/-- A text is accepted only as an encoding exactly when its ending is not overlooked. Of two
such texts only one decodes to given bytes. -/
theorem acceptsOnlyEncoding_iff (sign : CharSign) (input output : List Byte) :
    (AcceptsOnlyEncoding sign input output ↔ ¬ Overlooked input) ∧
      (¬ Overlooked input → ∀ other held decoded, ¬ Overlooked other →
        base64Decode sign input output = (true, decoded) →
        base64Decode sign other held = (true, decoded) → input = other) := by
  have hencode : ∀ {text held decoded}, ¬ Overlooked text →
      base64Decode sign text held = (true, decoded) → text = standard.encode decoded := by
    intro text held decoded hnot haccepted
    have hreads := base64Decode_eq_true_iff.mp haccepted
    exact hreads.encode_or_overlooked.resolve_right hnot
  constructor
  · constructor
    · intro honly hoverlooked
      obtain ⟨decoded, hreads⟩ := hoverlooked.reads
      exact hoverlooked.ne_encode decoded (honly decoded (base64Decode_eq_true_iff.mpr hreads))
    · exact fun hnot decoded haccepted => hencode hnot haccepted
  · intro hnot other held decoded hother haccepted haccepted'
    rw [hencode hnot haccepted, hencode hother haccepted']

/-- Two letters that leave bits unused are accepted where the text ends, though the same
two letters are refused with their padding. -/
theorem unpadded_bits_accepted :
    base64Decode .signed [0x51, 0x52, 0x3d, 0x3d] [] = (false, [0x41]) ∧
      ¬ AcceptsOnlyEncoding .signed [0x51, 0x52] [] := by
  constructor
  · decide +kernel
  · intro honly
    have hreads : Reads [0x51, 0x52] [0x41] := .endTwo 16 17
    have hencode := honly [0x41] (base64Decode_eq_true_iff.mpr hreads)
    revert hencode
    decide

end ObmcWebapp.Core
