import Mathlib.Data.List.Basic

/-!
# UTF-8

Bytes are read one by one.  What is read is a character, or nothing for the
longest start of a character that is not one.  Reading strictly fails if there
is such a start; otherwise a replacement character stands in its place.
-/

namespace Utf8

/-- A character that is not complete: the bytes that it owes, the range of the
next one, and its bits. -/
structure Pending where
  owed : Nat
  low : Nat
  high : Nat
  bits : Nat

/-- What the first byte of a character says of it. -/
inductive Lead where
  | char (char : Char)
  | owes (pending : Pending)
  | bad

def lead (byte : Nat) : Lead :=
  if byte ≤ 0x7f then .char (Char.ofNat byte)
  else if 0xc2 ≤ byte ∧ byte ≤ 0xdf then .owes ⟨1, 0x80, 0xbf, byte - 0xc0⟩
  else if byte = 0xe0 then .owes ⟨2, 0xa0, 0xbf, 0⟩
  else if byte = 0xed then .owes ⟨2, 0x80, 0x9f, 0xd⟩
  else if 0xe1 ≤ byte ∧ byte ≤ 0xef then .owes ⟨2, 0x80, 0xbf, byte - 0xe0⟩
  else if byte = 0xf0 then .owes ⟨3, 0x90, 0xbf, 0⟩
  else if 0xf1 ≤ byte ∧ byte ≤ 0xf3 then .owes ⟨3, 0x80, 0xbf, byte - 0xf0⟩
  else if byte = 0xf4 then .owes ⟨3, 0x80, 0x8f, 4⟩
  else .bad

/-- What is read of the bytes, the first character of which is pending. -/
def readFrom : Option Pending → List UInt8 → List (Option Char)
  | none, [] => []
  | some _, [] => [none]
  | none, byte :: bytes =>
      match lead byte.toNat with
      | .char char => some char :: readFrom none bytes
      | .owes pending => readFrom (some pending) bytes
      | .bad => none :: readFrom none bytes
  | some pending, byte :: bytes =>
      if pending.low ≤ byte.toNat ∧ byte.toNat ≤ pending.high then
        let bits := pending.bits * 64 + (byte.toNat - 0x80)
        if pending.owed = 1 then
          some (Char.ofNat bits) :: readFrom none bytes
        else readFrom (some ⟨pending.owed - 1, 0x80, 0xbf, bits⟩) bytes
      else
        -- the byte may be the first of another character
        match lead byte.toNat with
        | .char char => none :: some char :: readFrom none bytes
        | .owes pending => none :: readFrom (some pending) bytes
        | .bad => none :: none :: readFrom none bytes

def read (bytes : List UInt8) : List (Option Char) := readFrom none bytes

/-- `bytes.decode("utf-8")` -/
def decode (bytes : List UInt8) : Option (List Char) := (read bytes).mapM id

/-- `bytes.decode("utf-8", errors="replace")` -/
def decodeReplace (bytes : List UInt8) : List Char :=
  (read bytes).map fun char => char.getD (Char.ofNat 0xfffd)

theorem decode_cons {byte : UInt8} {char : Char}
    (isLead : lead byte.toNat = .char char) (bytes : List UInt8) :
    decode (byte :: bytes) = (decode bytes).map (char :: ·) := by
  rw [decode, read, readFrom, isLead, List.mapM_cons]
  change (some char).bind _ = _
  rw [Option.bind_some, decode, read]
  cases (readFrom none bytes).mapM id <;> rfl

theorem decode_replicate_append {byte : UInt8} {char : Char}
    (isLead : lead byte.toNat = .char char) {bytes : List UInt8}
    {text : List Char} (decoded : decode bytes = some text) (count : Nat) :
    decode (List.replicate count byte ++ bytes) =
      some (List.replicate count char ++ text) := by
  induction count with
  | zero => exact decoded
  | succ count induction =>
      rw [List.replicate_succ, List.cons_append, decode_cons isLead, induction,
        List.replicate_succ, List.cons_append, Option.map_some]

/-- Nothing is replaced in what can be read strictly. -/
theorem decodeReplace_eq {bytes : List UInt8} {text : List Char}
    (decoded : decode bytes = some text) : decodeReplace bytes = text := by
  rw [decode] at decoded
  rw [decodeReplace]
  generalize read bytes = chars at decoded
  induction chars generalizing text with
  | nil =>
      cases decoded
      rfl
  | cons char chars induction =>
      rw [List.mapM_cons] at decoded
      obtain ⟨first, isFirst, rest⟩ := Option.bind_eq_some_iff.mp decoded
      obtain ⟨others, isRest, same⟩ := Option.bind_eq_some_iff.mp rest
      cases same
      rw [List.map_cons, induction isRest]
      cases (show char = some first from isFirst)
      rfl

theorem readFrom_pending (pending : Pending) (bytes : List UInt8) :
    readFrom (some pending) bytes ≠ [] := by
  induction bytes generalizing pending with
  | nil => nofun
  | cons byte bytes induction =>
      rw [readFrom]
      split
      · dsimp only
        split
        · nofun
        · exact induction _
      · split <;> nofun

/-- Something is read of any bytes. -/
theorem decodeReplace_eq_nil {bytes : List UInt8} :
    decodeReplace bytes = [] ↔ bytes = [] := by
  rw [decodeReplace, List.map_eq_nil_iff, read]
  cases bytes with
  | nil => exact iff_of_true rfl rfl
  | cons byte bytes =>
      refine iff_of_false ?_ (List.cons_ne_nil _ _)
      rw [readFrom]
      split
      · nofun
      · exact readFrom_pending _ _
      · nofun

end Utf8
