import PageTemplates.Text.Utf8

/-!
Percent-encoding of one path segment: every byte outside the unreserved set is written as a percent
sign and two hexadecimal digits.  Reading leaves a percent sign alone that no two digits follow.  Main
statement: what was written reads back.
-/

namespace PageTemplates.Percent

open Utf8 (Bytes)

/-- The characters that stand for themselves in a segment. -/
def isUnreserved (c : Char) : Bool :=
  c.isAlphanum || c == '-' || c == '.' || c == '_' || c == '~'

def encodeByte (b : UInt8) : Text :=
  if isUnreserved (Char.ofNat b.toNat) then [Char.ofNat b.toNat]
  else ['%', (Nat.digitChar (b.toNat / 16)).toUpper, (Nat.digitChar (b.toNat % 16)).toUpper]

def encode (t : Text) : Text :=
  (Utf8.encode t).flatMap encodeByte

/-- The value of a hexadecimal digit of either case. -/
def hexValue? (c : Char) : Option Nat :=
  if '0' ≤ c ∧ c ≤ '9' then some (c.toNat - '0'.toNat)
  else if 'a' ≤ c ∧ c ≤ 'f' then some (c.toNat - 'a'.toNat + 10)
  else if 'A' ≤ c ∧ c ≤ 'F' then some (c.toNat - 'A'.toNat + 10)
  else none

/-- The bytes that a segment stands for. -/
def decodeBytes : Text → Bytes
  | [] => []
  | '%' :: high :: low :: rest =>
    match hexValue? high, hexValue? low with
    | some h, some l => UInt8.ofNat (16 * h + l) :: decodeBytes rest
    | _, _ => Utf8.encodePoint '%'.toNat ++ decodeBytes (high :: low :: rest)
  | c :: rest => Utf8.encodePoint c.toNat ++ decodeBytes rest

/-- The text that a segment stands for; none when its bytes are no text. -/
def decode (segment : Text) : Option Text :=
  (Utf8.decode (decodeBytes segment)).toOption

private theorem all_bytes {p : UInt8 → Prop} (h : ∀ n : Fin 256, p (UInt8.ofNat n)) (b : UInt8) : p b := by
  have := h ⟨b.toNat, UInt8.toNat_lt b⟩
  simpa using this

/-- Reading takes exactly one byte off the front of what was written. -/
theorem decodeBytes_encodeByte (b : UInt8) (rest : Text) :
    decodeBytes (encodeByte b ++ rest) = b :: decodeBytes rest := by
  by_cases h : isUnreserved (Char.ofNat b.toNat) = true
  · have hone : Utf8.encodePoint (Char.ofNat b.toNat).toNat = [b] ∧ Char.ofNat b.toNat ≠ '%' := by
      revert h
      exact all_bytes (p := fun b => isUnreserved (Char.ofNat b.toNat) = true →
        Utf8.encodePoint (Char.ofNat b.toNat).toNat = [b] ∧ Char.ofNat b.toNat ≠ '%')
        (by decide +kernel) b
    simp only [encodeByte, h, if_true, List.singleton_append]
    rw [decodeBytes]
    · simp [hone.1]
    · intro _ _ _ he; exact absurd he hone.2
  · have hhex : hexValue? (Nat.digitChar (b.toNat / 16)).toUpper = some (b.toNat / 16) ∧
        hexValue? (Nat.digitChar (b.toNat % 16)).toUpper = some (b.toNat % 16) :=
      all_bytes (p := fun b => hexValue? (Nat.digitChar (b.toNat / 16)).toUpper = some (b.toNat / 16) ∧
        hexValue? (Nat.digitChar (b.toNat % 16)).toUpper = some (b.toNat % 16))
        (by decide +kernel) b
    simp only [encodeByte, h, Bool.false_eq_true, if_false, List.cons_append, List.nil_append]
    rw [decodeBytes]
    simp only [hhex.1, hhex.2]
    congr 1
    rw [Nat.div_add_mod, UInt8.ofNat_toNat]

theorem decodeBytes_flatMap (bytes : Bytes) : decodeBytes (bytes.flatMap encodeByte) = bytes := by
  induction bytes with
  | nil => rfl
  | cons b rest ih => rw [List.flatMap_cons, decodeBytes_encodeByte, ih]

/-- What was written reads back. -/
theorem decode_encode (t : Text) : decode (encode t) = some t := by
  simp [decode, encode, decodeBytes_flatMap, Utf8.decode_encode, Except.toOption]

end PageTemplates.Percent
