/-
# Formats that read back what they write

A format writes values as lists of tokens and reads one value from the front of such a
list. Its law: reading finds the value that was written and leaves what was written
after it. Formats compose, one after another, one deciding the next, a sequence up to a
mark, and each composition carries the law of its parts.
-/

import Mathlib.Data.List.Basic
import Mathlib.Tactic

universe u v w

/-- A format of values over tokens. -/
structure Wire (τ : Type u) (α : Type v) where
  /-- The values that may be written. -/
  Writable : α → Prop
  write : α → List τ
  read : List τ → Option (α × List τ)
  read_write : ∀ {value : α} (rest : List τ), Writable value →
    read (write value ++ rest) = some (value, rest)

namespace Wire

variable {τ : Type u} {α : Type v} {β : Type w}

/-- Exactly the given tokens. -/
def mark [DecidableEq τ] (tokens : List τ) : Wire τ Unit where
  Writable _ := True
  write _ := tokens
  read input := if tokens <+: input then some ((), input.drop tokens.length) else none
  read_write rest _ := by simp

/-- A text and, after it, a token the text is free of and the tokens that go with it. -/
def upTo [DecidableEq τ] (stop : τ) (more : List τ) : Wire τ (List τ) where
  Writable text := stop ∉ text
  write text := text ++ stop :: more
  read input :=
    ((mark (stop :: more)).read (input.dropWhile (· ≠ stop))).map fun result =>
      (input.takeWhile (· ≠ stop), result.2)
  read_write {text} rest hfree := by
    have hbefore : ∀ token ∈ text, decide (token ≠ stop) = true := by
      intro token hmem
      exact decide_eq_true fun heq => hfree (heq ▸ hmem)
    have htake : ((text ++ stop :: more) ++ rest).takeWhile (fun token => decide (token ≠ stop)) =
        text := by
      rw [List.append_assoc, List.takeWhile_append_of_pos hbefore]
      simp
    have hdrop : ((text ++ stop :: more) ++ rest).dropWhile (fun token => decide (token ≠ stop)) =
        (stop :: more) ++ rest := by
      rw [List.append_assoc, List.dropWhile_append_of_pos hbefore]
      simp
    have hmark : (mark (stop :: more)).read ((mark (stop :: more)).write () ++ rest) =
        some ((), rest) := (mark (stop :: more)).read_write rest trivial
    rw [htake, hdrop]
    exact congrArg (Option.map _) hmark

/-- A given number of tokens. -/
def exactly (count : ℕ) : Wire τ (List τ) where
  Writable text := text.length = count
  write text := text
  read input :=
    if count ≤ input.length then some (input.take count, input.drop count) else none
  read_write {text} rest hcount := by
    subst hcount
    simp

/-- One value after another. -/
def pair (first : Wire τ α) (second : Wire τ β) : Wire τ (α × β) where
  Writable value := first.Writable value.1 ∧ second.Writable value.2
  write value := first.write value.1 ++ second.write value.2
  read input := (first.read input).bind fun left =>
    (second.read left.2).map fun right => ((left.1, right.1), right.2)
  read_write {value} rest hvalue := by
    rw [List.append_assoc, first.read_write _ hvalue.1]
    simp [second.read_write rest hvalue.2]

/-- A value with a key: the key is written first and decides the format of the value. -/
def keyed {κ : Type w} (head : Wire τ κ) (key : α → κ) (tail : κ → Wire τ α) : Wire τ α where
  Writable value := head.Writable (key value) ∧ (tail (key value)).Writable value
  write value := head.write (key value) ++ (tail (key value)).write value
  read input := (head.read input).bind fun found => (tail found.1).read found.2
  read_write {value} rest hvalue := by
    rw [List.append_assoc, head.read_write _ hvalue.1]
    simp [(tail (key value)).read_write rest hvalue.2]

/-- Valid values, written as values of another format. -/
def encoded (format : Wire τ α) (Valid : β → Prop) (encode : β → α) (decode : α → Option β)
    (hdecode : ∀ value, Valid value → decode (encode value) = some value) : Wire τ β where
  Writable value := Valid value ∧ format.Writable (encode value)
  write value := format.write (encode value)
  read input := (format.read input).bind fun found =>
    (decode found.1).map fun value => (value, found.2)
  read_write {value} rest hvalue := by
    rw [format.read_write rest hvalue.2]
    simp [hdecode value hvalue.1]

section Sequences

variable (item : Wire τ α) (stop : Wire τ Unit)

/-- Read values until the mark, within a number of rounds. -/
def readUntil : ℕ → List τ → Option (List α × List τ)
  | 0, _ => none
  | rounds + 1, input =>
      match stop.read input with
      | some (_, rest) => some ([], rest)
      | none =>
          (item.read input).bind fun first =>
            (readUntil rounds first.2).map fun later => (first.1 :: later.1, later.2)

/-- What is written for the value has a token and does not begin with the mark. -/
def Apart (value : α) : Prop :=
  item.write value ≠ [] ∧ ∀ rest, stop.read (item.write value ++ rest) = none

/-- Each written value has a token, so that the tokens outnumber the values. -/
theorem length_le_flatMap {values : List α} (hvalues : ∀ value ∈ values, item.write value ≠ []) :
    values.length ≤ (values.flatMap item.write).length := by
  induction values with
  | nil => exact Nat.zero_le _
  | cons value values ih =>
      have hfirst := List.length_pos_of_ne_nil (hvalues value (List.mem_cons_self ..))
      have hrest := ih fun other hmem => hvalues other (List.mem_cons_of_mem _ hmem)
      rw [List.flatMap_cons, List.length_append, List.length_cons]
      omega

theorem readUntil_write {values : List α}
    (hvalues : ∀ value ∈ values, item.Writable value ∧ item.Apart stop value)
    (hstop : stop.Writable ()) (rest : List τ) {rounds : ℕ} (hrounds : values.length < rounds) :
    readUntil item stop rounds (values.flatMap item.write ++ (stop.write () ++ rest)) =
      some (values, rest) := by
  induction values generalizing rounds with
  | nil =>
      cases rounds with
      | zero => exact absurd hrounds (Nat.not_lt_zero _)
      | succ rounds => simp [readUntil, stop.read_write rest hstop]
  | cons value values ih =>
      cases rounds with
      | zero => exact absurd hrounds (Nat.not_lt_zero _)
      | succ rounds =>
          obtain ⟨hwritable, -, happart⟩ := hvalues value (List.mem_cons_self ..)
          have hlater := ih (fun other hmem => hvalues other (List.mem_cons_of_mem _ hmem))
            (Nat.lt_of_succ_lt_succ hrounds)
          rw [List.flatMap_cons, List.append_assoc, readUntil, happart,
            item.read_write _ hwritable]
          simp [hlater]

/-- Values one after another up to a mark that none of them begins with. -/
def listUpTo : Wire τ (List α) where
  Writable values :=
    (∀ value ∈ values, item.Writable value ∧ item.Apart stop value) ∧ stop.Writable ()
  write values := values.flatMap item.write ++ stop.write ()
  read input := readUntil item stop (input.length + 1) input
  read_write {values} rest hwritable := by
    have hlength := item.length_le_flatMap fun value hmem => (hwritable.1 value hmem).2.1
    rw [List.append_assoc]
    apply readUntil_write item stop hwritable.1 hwritable.2 rest
    simp only [List.length_append]
    omega

end Sequences

end Wire
