/-!
Text as a list of characters, and the few cuts that the library makes in it: at every occurrence of
one character, at the first occurrence of a mark, and at either end.  A text is a list, so each cut is
a recursion on the data and says by itself what it keeps.
-/

namespace PageTemplates

/-- Text: its characters, first to last. -/
abbrev Text := List Char

namespace Text

/-- The pieces between the occurrences of `sep`; there is always one more piece than there are
separators. -/
def pieces (sep : Char) : Text → List Text
  | [] => [[]]
  | c :: rest =>
    if c = sep then [] :: pieces sep rest
    else match pieces sep rest with
      | [] => [[c]]
      | piece :: others => (c :: piece) :: others

/-- The pieces written one after the other with `sep` between them. -/
def joined (sep : Text) : List Text → Text
  | [] => []
  | [piece] => piece
  | piece :: next :: others => piece ++ sep ++ joined sep (next :: others)

theorem pieces_ne_nil (sep : Char) (t : Text) : pieces sep t ≠ [] := by
  cases t with
  | nil => simp [pieces]
  | cons c rest =>
    by_cases h : c = sep
    · simp [pieces, h]
    · cases hp : pieces sep rest <;> simp [pieces, h, hp]

/-- Cutting loses nothing: the pieces with the separator between them are the text. -/
theorem joined_pieces (sep : Char) (t : Text) : joined [sep] (pieces sep t) = t := by
  induction t with
  | nil => rfl
  | cons c rest ih =>
    by_cases h : c = sep
    · cases hp : pieces sep rest with
      | nil => exact absurd hp (pieces_ne_nil sep rest)
      | cons p ps => rw [hp] at ih; simp [pieces, h, hp, joined, ih]
    · cases hp : pieces sep rest with
      | nil => exact absurd hp (pieces_ne_nil sep rest)
      | cons p ps =>
        cases ps with
        | nil => simp_all [pieces, joined]
        | cons q qs => simp_all [pieces, joined]

/-- The parts before and after the first occurrence of `mark`, if there is one. -/
def cut (mark : Text) : Text → Option (Text × Text)
  | [] => if mark.isEmpty then some ([], []) else none
  | c :: rest =>
    if mark.isPrefixOf (c :: rest) then some ([], (c :: rest).drop mark.length)
    else (cut mark rest).map fun (before, after) => (c :: before, after)

/-- A cut loses nothing but the mark it was made at. -/
theorem eq_of_cut {mark t before after : Text} (h : cut mark t = some (before, after)) :
    t = before ++ mark ++ after := by
  induction t generalizing before after with
  | nil =>
    cases mark with
    | nil => simp [cut] at h; simp [h]
    | cons m ms => simp [cut] at h
  | cons c rest ih =>
    by_cases hp : mark.isPrefixOf (c :: rest) = true
    · simp only [cut, hp, if_true, Option.some.injEq, Prod.mk.injEq] at h
      obtain ⟨rfl, rfl⟩ := h
      obtain ⟨tail, htail⟩ := List.isPrefixOf_iff_prefix.1 hp
      simp [← htail]
    · simp only [cut, hp, Bool.false_eq_true, if_false, Option.map_eq_some_iff, Prod.exists,
        Prod.mk.injEq] at h
      obtain ⟨b, a, hcut, rfl, rfl⟩ := h
      simp [ih hcut]

theorem length_after_cut {mark t before after : Text} (h : cut mark t = some (before, after)) :
    before.length + mark.length + after.length = t.length := by
  rw [eq_of_cut h]; simp [Nat.add_assoc]

/-- The text without the characters of the class at its end. -/
def dropEndWhile (p : Char → Bool) (t : Text) : Text :=
  (t.reverse.dropWhile p).reverse

/-- The text without the characters of the class at either end. -/
def dropBothWhile (p : Char → Bool) (t : Text) : Text :=
  dropEndWhile p (t.dropWhile p)

/-- The number of line ends in the text. -/
def lineEnds (t : Text) : Nat :=
  t.countP (· == '\n')

/-- A natural number in decimal digits, without leading zeros. -/
def ofNat (n : Nat) : Text :=
  Nat.toDigits 10 n

/-- An integer in decimal digits, with a minus sign when it is negative. -/
def ofInt (n : Int) : Text :=
  if n < 0 then '-' :: ofNat n.natAbs else ofNat n.natAbs

end Text

example : Text.pieces '/' "a//b".toList = ["a".toList, [], "b".toList] := by decide
example : Text.cut "*/".toList "a*/b".toList = some ("a".toList, "b".toList) := by decide

end PageTemplates
