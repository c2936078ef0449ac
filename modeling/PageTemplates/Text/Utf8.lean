import PageTemplates.Text.Basic

/-!
Text as UTF-8 bytes and back.  Reading says where the first byte sits that begins no character, and
how many bytes are wrong there.  Main statement: what was written reads back.
-/

namespace PageTemplates.Utf8

abbrev Bytes := List UInt8

/-- The bytes of the character with code point `n`. -/
def encodePoint (n : Nat) : Bytes :=
  if n < 0x80 then [UInt8.ofNat n]
  else if n < 0x800 then [UInt8.ofNat (0xC0 + n / 64), UInt8.ofNat (0x80 + n % 64)]
  else if n < 0x10000 then
    [UInt8.ofNat (0xE0 + n / 4096), UInt8.ofNat (0x80 + n / 64 % 64), UInt8.ofNat (0x80 + n % 64)]
  else
    [UInt8.ofNat (0xF0 + n / 262144), UInt8.ofNat (0x80 + n / 4096 % 64),
      UInt8.ofNat (0x80 + n / 64 % 64), UInt8.ofNat (0x80 + n % 64)]

def encode (t : Text) : Bytes :=
  t.flatMap fun c => encodePoint c.toNat

@[simp] theorem encode_nil : encode [] = [] := rfl

@[simp] theorem encode_append (s t : Text) : encode (s ++ t) = encode s ++ encode t :=
  List.flatMap_append

/-- The first place where bytes are no text. -/
structure Fault where
  /-- The number of bytes before it. -/
  index : Nat
  /-- How many bytes are wrong there; `none` when the bytes end inside a character. -/
  length : Option Nat
deriving Repr, DecidableEq

def Fault.message (fault : Fault) : String :=
  match fault.length with
  | some n => s!"invalid utf-8 sequence of {n} bytes from index {fault.index}"
  | none => s!"incomplete utf-8 byte sequence from index {fault.index}"

/-- A character of which some bytes are read. -/
structure Pending where
  /-- The number of bytes before the character. -/
  start : Nat
  /-- How many of its bytes are read. -/
  read : Nat
  /-- How many follow after the next one. -/
  after : Nat
  /-- The least value of the next byte. -/
  low : Nat
  /-- The greatest value of the next byte. -/
  high : Nat
  /-- The code point as far as it is read. -/
  code : Nat

/-- The character that begins with byte `n` at index `i`, when it has more bytes.  Forms longer than
needed, surrogates and numbers beyond the last code point show in the bounds of the second byte. -/
def Pending.ofLead? (i n : Nat) : Option Pending :=
  if n < 0xC2 then none
  else if n < 0xE0 then some ⟨i, 1, 0, 0x80, 0xBF, n - 0xC0⟩
  else if n < 0xF0 then
    some ⟨i, 1, 1, if n = 0xE0 then 0xA0 else 0x80, if n = 0xED then 0x9F else 0xBF, n - 0xE0⟩
  else if n < 0xF5 then
    some ⟨i, 1, 2, if n = 0xF0 then 0x90 else 0x80, if n = 0xF4 then 0x8F else 0xBF, n - 0xF0⟩
  else none

/-- The text whose bytes follow the first `i` bytes, when the character `pending` is being read. -/
def decodeAt (i : Nat) (pending : Option Pending) : Bytes → Except Fault Text
  | [] =>
    match pending with
    | none => .ok []
    | some p => .error ⟨p.start, none⟩
  | b :: rest =>
    match pending with
    | none =>
      if b.toNat < 0x80 then (Char.ofNat b.toNat :: ·) <$> decodeAt (i + 1) none rest
      else match Pending.ofLead? i b.toNat with
        | none => .error ⟨i, some 1⟩
        | some p => decodeAt (i + 1) (some p) rest
    | some p =>
      if p.low ≤ b.toNat ∧ b.toNat ≤ p.high then
        match p.after with
        | 0 => (Char.ofNat (p.code * 64 + (b.toNat - 0x80)) :: ·) <$> decodeAt (i + 1) none rest
        | after + 1 =>
          decodeAt (i + 1)
            (some ⟨p.start, p.read + 1, after, 0x80, 0xBF, p.code * 64 + (b.toNat - 0x80)⟩) rest
      else .error ⟨p.start, some p.read⟩

/-- The text of some bytes, or the first place where they are none. -/
def decode (bytes : Bytes) : Except Fault Text :=
  decodeAt 0 none bytes

private theorem toNat_ofNat_byte {n : Nat} (h : n < 256) : (UInt8.ofNat n).toNat = n := by
  simp [Nat.mod_eq_of_lt h]

/-- The code points of characters leave out the surrogates. -/
private theorem point_bounds (c : Char) :
    c.toNat < 0xD800 ∨ (0xDFFF < c.toNat ∧ c.toNat < 0x110000) :=
  c.valid

private theorem decodeAt_single {n : Nat} (i : Nat) (rest : Bytes) (h : n < 0x80) :
    decodeAt i none (UInt8.ofNat n :: rest) = (Char.ofNat n :: ·) <$> decodeAt (i + 1) none rest := by
  simp only [decodeAt, toNat_ofNat_byte (show n < 256 by omega), if_pos h]

/-- The first byte of a longer character opens it. -/
private theorem decodeAt_lead {n i : Nat} {p : Pending} (rest : Bytes) (h : 0x80 ≤ n) (hn : n < 256)
    (hp : Pending.ofLead? i n = some p) :
    decodeAt i none (UInt8.ofNat n :: rest) = decodeAt (i + 1) (some p) rest := by
  simp only [decodeAt, toNat_ofNat_byte hn, if_neg (show ¬ n < 0x80 by omega), hp]

/-- A byte between the first and the last adds six bits. -/
private theorem decodeAt_inner {n i start read after low high code : Nat} (rest : Bytes) (hn : n < 64)
    (h : low ≤ 0x80 + n ∧ 0x80 + n ≤ high) :
    decodeAt i (some ⟨start, read, after + 1, low, high, code⟩) (UInt8.ofNat (0x80 + n) :: rest) =
      decodeAt (i + 1) (some ⟨start, read + 1, after, 0x80, 0xBF, code * 64 + n⟩) rest := by
  simp only [decodeAt, toNat_ofNat_byte (show 0x80 + n < 256 by omega), if_pos h,
    Nat.add_sub_cancel_left]

private theorem decodeAt_last {n i start read low high code : Nat} (rest : Bytes) (hn : n < 64)
    (h : low ≤ 0x80 + n ∧ 0x80 + n ≤ high) :
    decodeAt i (some ⟨start, read, 0, low, high, code⟩) (UInt8.ofNat (0x80 + n) :: rest) =
      (Char.ofNat (code * 64 + n) :: ·) <$> decodeAt (i + 1) none rest := by
  simp only [decodeAt, toNat_ofNat_byte (show 0x80 + n < 256 by omega), if_pos h,
    Nat.add_sub_cancel_left]

/-- Reading takes exactly one character off the front of what was written. -/
theorem decodeAt_encodePoint (i : Nat) (c : Char) (rest : Bytes) :
    decodeAt i none (encodePoint c.toNat ++ rest) =
      (c :: ·) <$> decodeAt (i + (encodePoint c.toNat).length) none rest := by
  have hc := point_bounds c
  have hback : Char.ofNat c.toNat = c := Char.ofNat_toNat c
  generalize c.toNat = n at *
  unfold encodePoint
  split
  · next h => simp [decodeAt_single i rest h, hback]
  · split
    · simp only [List.cons_append, List.nil_append, List.length_cons, List.length_nil]
      rw [decodeAt_lead (p := ⟨i, 1, 0, 0x80, 0xBF, n / 64⟩) _ (by omega) (by omega)
          (by grind [Pending.ofLead?]), decodeAt_last _ (by omega) (by omega),
        show n / 64 * 64 + n % 64 = n by omega, hback]
    · split
      · simp only [List.cons_append, List.nil_append, List.length_cons, List.length_nil]
        rw [decodeAt_lead (p := ⟨i, 1, 1, if n / 4096 = 0 then 0xA0 else 0x80,
              if n / 4096 = 13 then 0x9F else 0xBF, n / 4096⟩) _ (by omega) (by omega)
            (by grind [Pending.ofLead?]),
          decodeAt_inner _ (by omega) (by split <;> split <;> omega),
          decodeAt_last _ (by omega) (by omega),
          show (n / 4096 * 64 + n / 64 % 64) * 64 + n % 64 = n by omega, hback]
      · simp only [List.cons_append, List.nil_append, List.length_cons, List.length_nil]
        rw [decodeAt_lead (p := ⟨i, 1, 2, if n / 262144 = 0 then 0x90 else 0x80,
              if n / 262144 = 4 then 0x8F else 0xBF, n / 262144⟩) _ (by omega) (by omega)
            (by grind [Pending.ofLead?]),
          decodeAt_inner _ (by omega) (by split <;> split <;> omega),
          decodeAt_inner _ (by omega) (by omega), decodeAt_last _ (by omega) (by omega),
          show ((n / 262144 * 64 + n / 4096 % 64) * 64 + n / 64 % 64) * 64 + n % 64 = n by omega,
          hback]

theorem decodeAt_encode (i : Nat) (t : Text) : decodeAt i none (encode t) = .ok t := by
  induction t generalizing i with
  | nil => rfl
  | cons c rest ih =>
    rw [show encode (c :: rest) = encodePoint c.toNat ++ encode rest from rfl, decodeAt_encodePoint,
      ih]
    rfl

/-- What was written reads back. -/
theorem decode_encode (t : Text) : decode (encode t) = .ok t :=
  decodeAt_encode 0 t

example : encode "é".toList = [0xC3, 0xA9] := by decide
example : decode [0x61, 0xE2, 0x82] = .error ⟨1, none⟩ := by rfl
example : decode [0xFF] = .error ⟨0, some 1⟩ := by rfl

end PageTemplates.Utf8
