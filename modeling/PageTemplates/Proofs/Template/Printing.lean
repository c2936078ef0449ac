import PageTemplates.Proofs.Number.Reading
import PageTemplates.Proofs.Template.Written
import PageTemplates.Proofs.Text.Pieces

/-!
Expressions written out.  Paths are written with dots, texts in double quotes, and a call with
its arguments after its name, in parentheses where it is an argument itself.  Whatever an
expression is made of, an action with this text inside is read as the output of the expression.
-/

namespace PageTemplates

open Template (inQuotes)

/-! ## What can be written -/

/-- A value as it is written in an action, where it can be. -/
def Value.written : Value → Text
  | .null => "null".toList
  | .bool b => if b then "true".toList else "false".toList
  | .number (.whole n) => Text.ofInt n
  | .text t => inQuotes t
  | .number (.float _) | .list _ | .object _ => []

/-- Whether a value can be written in an action: null, a truth value, an integer of 64 bits with a
sign, or a text. -/
def Value.Writable : Value → Prop
  | .null | .bool _ | .text _ => True
  | .number (.whole n) => -Numeral.int64End ≤ n ∧ n < Numeral.int64End
  | .number (.float _) | .list _ | .object _ => False

namespace Template

/-- A key of a path: it is not empty, and all its characters but the dot stand for themselves. -/
def IsKey (key : Text) : Prop :=
  key ≠ [] ∧ ∀ c ∈ key, Plain c ∧ c ≠ '.'

/-- A name of a function: letters, digits and underscores, the first one no digit, and none of the
literals. -/
def IsName (name : Text) : Prop :=
  (∃ c rest, name = c :: rest ∧ c.isDigit = false) ∧
    (name.all fun c => Text.isAlphanumeric c || c == '_') = true ∧
    name ∉ ["true".toList, "false".toList, "null".toList, "nil".toList]

/-- A path as it is written. -/
def dotted (path : List Text) : Text :=
  '.' :: Text.joined ['.'] path

namespace Expr

def isCall : Expr → Bool
  | call _ _ _ => true
  | field _ | root _ | literal _ => false

mutual
/-- An expression as it is written in an action. -/
def written : Expr → Text
  | field path => dotted path
  | root path => '$' :: (if path = [] then [] else dotted path)
  | literal value => value.written
  | call name args _ => name ++ writtenArgs args
termination_by structural e => e

/-- Arguments as they are written, each after a blank and a call in parentheses. -/
def writtenArgs : List Expr → Text
  | [] => []
  | e :: rest =>
    ' ' :: (if e.isCall then '(' :: (e.written ++ [')']) else e.written) ++ writtenArgs rest
termination_by structural args => args
end

mutual
/-- The words of an expression. -/
def row : Expr → List Word
  | field path => [.field path]
  | root path => [.root path]
  | literal value => [.literal value]
  | call name args _ => .name name :: rowOfArgs args
termination_by structural e => e

def rowOfArgs : List Expr → List Word
  | [] => []
  | e :: rest =>
    (if e.isCall then .leftParen :: (e.row ++ [.rightParen]) else e.row) ++ rowOfArgs rest
termination_by structural args => args
end

mutual
/-- The expression with all its calls on one line. -/
def onLine (line : Nat) : Expr → Expr
  | field path => field path
  | root path => root path
  | literal value => literal value
  | call name args _ => call name (allOnLine line args) line
termination_by structural e => e

def allOnLine (line : Nat) : List Expr → List Expr
  | [] => []
  | e :: rest => e.onLine line :: allOnLine line rest
termination_by structural args => args
end

mutual
/-- Whether an expression can be written: its keys and names and values can be, and the functions that
it calls are known. -/
def Writable (known : Text → Bool) : Expr → Prop
  | field path | root path => ∀ key ∈ path, IsKey key
  | literal value => value.Writable
  | call name args _ => IsName name ∧ known name = true ∧ AllWritable known args
termination_by structural e => e

def AllWritable (known : Text → Bool) : List Expr → Prop
  | [] => True
  | e :: rest => e.Writable known ∧ AllWritable known rest
termination_by structural args => args
end

end Expr

/-! ## Single words -/

theorem plain_of_isAlphanumeric {c : Char} (hc : Text.isAlphanumeric c = true) : Plain c := by
  refine ⟨Text.isBlank_of_isAlphanumeric hc, ?_⟩
  refine ⟨?_, ?_, ?_, ?_, ?_⟩ <;> rintro rfl <;> exact absurd hc (by decide)

theorem plain_of_isDigit {c : Char} (hc : c.isDigit = true) : Plain c := by
  apply plain_of_isAlphanumeric
  apply Text.isAlphanumeric_of_isAlphanum
  rw [Char.isAlphanum, hc, Bool.or_true]

theorem plain_dotted {path : List Text} (hpath : ∀ key ∈ path, IsKey key) :
    ∀ c ∈ dotted path, Plain c := by
  refine List.forall_mem_cons.mpr ⟨by decide, fun c hc => ?_⟩
  rcases Text.mem_joined hc with hdot | ⟨key, hkey, hc⟩
  · rw [List.mem_singleton.mp hdot]
    decide
  · exact ((hpath key hkey).2 c hc).1

theorem keys_dotted {path : List Text} (hpath : ∀ key ∈ path, IsKey key) :
    keys (dotted path) = .ok path := by
  cases path with
  | nil => rfl
  | cons key rest =>
      have hfree : ∀ part ∈ key :: rest, '.' ∉ part :=
        fun part hpart hdot => ((hpath part hpart).2 '.' hdot).2 rfl
      have hpieces : Text.pieces '.' (Text.joined ['.'] (key :: rest)) = key :: rest :=
        Text.pieces_joined (List.cons_ne_nil key rest) hfree
      have hany : (key :: rest).any (·.isEmpty) = false := by
        rw [List.any_eq_false]
        intro key hkey
        simpa using (hpath key hkey).1
      rw [dotted]
      cases hjoined : Text.joined ['.'] (key :: rest) with
      | nil =>
          -- Only a single empty key is written as nothing.
          rw [hjoined] at hpieces
          obtain ⟨rfl, -⟩ := List.cons.inj hpieces
          exact absurd rfl (hpath [] List.mem_cons_self).1
      | cons c others =>
          rw [keys, ← hjoined, hpieces, hany]
          · rfl
          · exact nofun

theorem written_field {path : List Text} (hpath : ∀ key ∈ path, IsKey key) :
    Written (dotted path) [.field path] := by
  refine written_word (plain_dotted hpath) ⟨'.', _, rfl, by decide⟩ ?_
  have hkeys := keys_dotted hpath
  rw [dotted] at hkeys ⊢
  rw [classify, hkeys]
  rfl

theorem written_root {path : List Text} (hpath : ∀ key ∈ path, IsKey key) :
    Written ('$' :: (if path = [] then [] else dotted path)) [.root path] := by
  refine written_word (List.forall_mem_cons.mpr ⟨by decide, fun c hc => ?_⟩)
    ⟨'$', _, rfl, by decide⟩ ?_
  · split at hc
    · cases hc
    · exact plain_dotted hpath c hc
  · rw [classify]
    split
    · next hnil =>
      rw [hnil]
      rfl
    · rw [keys_dotted hpath]
      rfl

theorem IsName.exists_first {name : Text} (hname : IsName name) :
    ∃ c rest, name = c :: rest ∧ c.isDigit = false ∧ c ∉ ['$', '.', '-', '/'] := by
  obtain ⟨⟨c, rest, rfl, hdigit⟩, hall, -⟩ := hname
  refine ⟨c, rest, rfl, hdigit, fun hc => ?_⟩
  have hother : ['$', '.', '-', '/'].all (fun c => !(Text.isAlphanumeric c || c == '_')) = true := by
    decide
  have hnot := List.all_eq_true.mp hother c hc
  rw [List.all_eq_true.mp hall c List.mem_cons_self] at hnot
  cases hnot

theorem classify_name {name : Text} (hname : IsName name) : classify name = .ok (.name name) := by
  obtain ⟨c, rest, rfl, hdigit, hfirst⟩ := hname.exists_first
  obtain ⟨-, hall, hliterals⟩ := hname
  simp only [List.mem_cons, List.not_mem_nil, or_false, not_or] at hfirst hliterals
  obtain ⟨hroot, hfield, hdash, -⟩ := hfirst
  obtain ⟨htrue, hfalse, hnull, hnil⟩ := hliterals
  have hnumeric : looksNumeric (c :: rest) = false := by
    rw [looksNumeric, List.dropWhile_cons_of_neg (by simpa using hdash)]
    exact hdigit
  unfold classify
  split
  · next heq => exact absurd (List.cons.inj heq).1 hroot
  · next heq => exact absurd (List.cons.inj heq).1 hfield
  · rw [if_neg htrue, if_neg hfalse, if_neg (not_or.mpr ⟨hnull, hnil⟩), hnumeric,
      if_neg Bool.false_ne_true, if_pos hall]

theorem written_name {name : Text} (hname : IsName name) : Written name [.name name] := by
  refine written_word (fun c hc => ?_) ?_ (classify_name hname)
  · rcases Bool.or_eq_true_iff.mp (List.all_eq_true.mp hname.2.1 c hc) with hc | hc
    · exact plain_of_isAlphanumeric hc
    · rw [beq_iff_eq.mp hc]
      decide
  · obtain ⟨c, rest, rfl, -, hfirst⟩ := hname.exists_first
    simp only [List.mem_cons, List.not_mem_nil, or_false, not_or] at hfirst
    exact ⟨c, rest, List.dropWhile_cons_of_neg (by simpa using hfirst.2.2.1), hfirst.2.2.2⟩

theorem classify_numeric {word : Text} (hword : looksNumeric word = true) :
    classify word = (numeral word).map .literal := by
  have hne : ∀ other, looksNumeric other = false → word ≠ other := by
    rintro other hother rfl
    rw [hother] at hword
    cases hword
  unfold classify
  split
  · cases hword
  · cases hword
  · rw [if_neg (hne _ (by decide)), if_neg (hne _ (by decide)),
      if_neg (not_or.mpr ⟨hne _ (by decide), hne _ (by decide)⟩), if_pos hword]

theorem looksNumeric_ofInt (n : Int) : looksNumeric (Text.ofInt n) = true := by
  obtain ⟨c, rest, hdigits, hc⟩ := Text.exists_digit_ofNat n.natAbs
  rw [looksNumeric, Text.dropWhile_ofInt, hdigits]
  exact hc

/-- The digits of an integer are one word, whatever the numeral that they are stands for. -/
theorem written_numeral {n : Int} {v : Value} (hv : numeral (Text.ofInt n) = .ok v) :
    Written (Text.ofInt n) [.literal v] := by
  obtain ⟨c, rest, hdigits, hc⟩ := Text.exists_digit_ofNat n.natAbs
  refine written_word (fun c hc => ?_) ⟨c, rest, (Text.dropWhile_ofInt n).trans hdigits, ?_⟩ ?_
  · rcases Text.mem_ofInt hc with rfl | hdigit
    · decide
    · exact plain_of_isDigit hdigit
  · rintro rfl
    cases hc
  · rw [classify_numeric (looksNumeric_ofInt n), hv]
    rfl

theorem numeral_ofInt {n : Int} (hlow : -Numeral.int64End ≤ n) (hhigh : n < Numeral.int64End) :
    numeral (Text.ofInt n) = .ok (.int n) := by
  rw [numeral, Numeral.int64?_ofInt hlow hhigh]

theorem written_ofInt {n : Int} (hlow : -Numeral.int64End ≤ n) (hhigh : n < Numeral.int64End) :
    Written (Text.ofInt n) [.literal (.int n)] :=
  written_numeral (numeral_ofInt hlow hhigh)

theorem written_value {value : Value} (hvalue : value.Writable) :
    Written value.written [.literal value] := by
  cases value with
  | null => exact written_word (forall_plain (by decide)) ⟨'n', _, rfl, by decide⟩ rfl
  | bool b =>
      cases b with
      | true => exact written_word (forall_plain (by decide)) ⟨'t', _, rfl, by decide⟩ rfl
      | false => exact written_word (forall_plain (by decide)) ⟨'f', _, rfl, by decide⟩ rfl
  | number n =>
      cases n with
      | whole n => exact written_ofInt hvalue.1 hvalue.2
      | float x => cases hvalue
  | text t => exact written_inQuotes t
  | list items => cases hvalue
  | object fields => cases hvalue

/-! ## Whole expressions -/

variable {known : Text → Bool} {line : Nat}

namespace Expr

mutual
theorem written_written : ∀ e : Expr, e.Writable known → Written e.written e.row
  | field _, hpath => written_field hpath
  | root _, hpath => written_root hpath
  | literal _, hvalue => written_value hvalue
  | call _ args _, ⟨hname, _, hargs⟩ => written_writtenArgs args hargs (written_name hname)
termination_by structural e => e

/-- Arguments can be written after anything that can be. -/
theorem written_writtenArgs : ∀ args : List Expr, AllWritable known args →
    ∀ {t : Text} {row : List Word}, Written t row →
      Written (t ++ writtenArgs args) (row ++ rowOfArgs args)
  | [], _, t, row, ht => by
      rw [writtenArgs, rowOfArgs, List.append_nil, List.append_nil]
      exact ht
  | e :: rest, ⟨he, hrest⟩, t, row, ht => by
      have harg : Written (if e.isCall then '(' :: (e.written ++ [')']) else e.written)
          (if e.isCall then .leftParen :: (e.row ++ [.rightParen]) else e.row) := by
        split
        · exact (written_written e he).parens
        · exact written_written e he
      have hall := written_writtenArgs rest hrest (ht.append harg)
      rw [writtenArgs, rowOfArgs]
      simpa using hall
termination_by structural args => args
end

theorem forall₂_argumentOf (es : List Expr) :
    List.Forall₂ (ArgumentOf known line) (es.map .expr) es := by
  induction es with
  | nil => exact .nil
  | cons e rest ih => exact .cons (.value e) ih

mutual
theorem commandOf_row : ∀ e : Expr, e.Writable known →
    CommandOf known line e.row (e.onLine line)
  | field path, _ => ⟨_, .field path .nil, .value _⟩
  | root path, _ => ⟨_, .root path .nil, .value _⟩
  | literal value, _ => ⟨_, .literal value .nil, .value _⟩
  | call name args _, ⟨_, hknown, hargs⟩ =>
      ⟨_, .name name (operandsOf_rowOfArgs args hargs), .call hknown (forall₂_argumentOf _)⟩
termination_by structural e => e

theorem operandsOf_rowOfArgs : ∀ args : List Expr, AllWritable known args →
    OperandsOf known line (rowOfArgs args) ((allOnLine line args).map .expr)
  | [], _ => .nil
  | e :: rest, ⟨he, hrest⟩ => by
      have hmore := operandsOf_rowOfArgs rest hrest
      obtain ⟨operands, hoperands, hcommand⟩ := commandOf_row e he
      rw [rowOfArgs, allOnLine, List.map_cons]
      cases e with
      | field path => exact .field path hmore
      | root path => exact .root path hmore
      | literal value => exact .literal value hmore
      | call name args line' =>
          have hparens := OperandsOf.parens hoperands hcommand hmore
          simpa [isCall] using hparens
termination_by structural args => args
end

/-- An action with an expression written out inside is read as the output of this expression, where its
outermost call is none of a keyword. -/
theorem parse_written {e : Expr} (he : e.Writable known)
    (hkeyword : ∀ name args line, e = .call name args line → Keyword.ofWord? name = none) :
    parse known (openMark ++ ' ' :: (e.written ++ ' ' :: closeMark)) =
      .ok ⟨[.output (e.onLine 1)], []⟩ := by
  apply (written_written e he).parse_eq
  refine .output ?_ (commandOf_row e he)
  intro keyword rest hrow
  cases e with
  | field path => cases hrow
  | root path => cases hrow
  | literal value => cases hrow
  | call name args line =>
      rw [row] at hrow
      have hname := Word.name.inj (List.cons.inj hrow).1
      have hnone := hkeyword name args line rfl
      rw [Keyword.ofWord?_eq_some_iff.mpr hname] at hnone
      cases hnone

/-- A call with paths, another call, a text full of marks and a number as arguments. -/
theorem parse_written_nested :
    let text := "\x7d\x7d \x7b\x7b /* \" \\ \n".toList
    let e : Expr := .call "f".toList [.field ["a".toList, "b".toList],
      .call "g_1".toList [.root []] 7, .literal (.text text), .literal (.int (-5))] 3
    let known : Text → Bool := (["f".toList, "g_1".toList].contains ·)
    e.Writable known ∧ (∀ name args line, e = .call name args line → Keyword.ofWord? name = none) ∧
      e.written = "f .a.b (g_1 $) \"\x7d\x7d \x7b\x7b /* \\\" \\\\ \n\" -5".toList ∧
      parse known (openMark ++ ' ' :: (e.written ++ ' ' :: closeMark)) =
        .ok ⟨[.output (e.onLine 1)], []⟩ := by
  intro text e known
  have hf : IsName "f".toList := ⟨⟨_, _, rfl, by decide⟩, by decide, by decide⟩
  have hg : IsName "g_1".toList := ⟨⟨_, _, rfl, by decide⟩, by decide, by decide⟩
  have hkey : ∀ c, Plain c ∧ c ≠ '.' → IsKey [c] := fun c hc =>
    ⟨List.cons_ne_nil c [], List.forall_mem_singleton.mpr hc⟩
  have hkeys : ∀ key ∈ ["a".toList, "b".toList], IsKey key :=
    List.forall_mem_cons.mpr
      ⟨hkey 'a' (by decide), List.forall_mem_singleton.mpr (hkey 'b' (by decide))⟩
  have hnumber : -Numeral.int64End ≤ -5 ∧ -5 < Numeral.int64End := by decide
  have he : e.Writable known :=
    ⟨hf, by decide, hkeys, ⟨hg, by decide, nofun, trivial⟩, trivial, hnumber, trivial⟩
  have hkeyword : ∀ name args line, e = .call name args line → Keyword.ofWord? name = none := by
    intro name args line he
    obtain ⟨rfl, -, -⟩ := Expr.call.inj he
    decide
  exact ⟨he, hkeyword, by decide, parse_written he hkeyword⟩

end Expr
end Template
end PageTemplates
