import PageTemplates.Proofs.Template.Entities
import PageTemplates.Proofs.Template.Printing
import PageTemplates.Proofs.Value.Equality
import PageTemplates.Template.Namespace

/-!
Integers written in a template.  Data hold the integers of 64 bits, with a sign and without one, and a page
shows all of them in their digits.  A numeral stands for an integer only when it fits 64 bits with a sign; a
greater one stands for the nearest floating-point number, which no page shows as an integer.
-/

namespace PageTemplates

/-! ## The text of numbers -/

/-- Whether numbers are written with a character. -/
def Numeric (c : Char) : Prop :=
  c.isDigit = true ∨ c ∈ ['-', '+', '.', 'e']

instance (c : Char) : Decidable (Numeric c) :=
  inferInstanceAs (Decidable (_ ∨ _))

theorem numeric_of_mem_ofNat {n : Nat} : ∀ c ∈ Text.ofNat n, Numeric c :=
  fun _ hc => .inl (Text.isDigit_of_mem_ofNat hc)

theorem numeric_of_mem_ofInt {n : Int} : ∀ c ∈ Text.ofInt n, Numeric c := by
  intro c hc
  rcases Text.mem_ofInt hc with rfl | hdigit
  · decide
  · exact .inl hdigit

namespace Binary64

theorem numeric_of_mem_write {layout : Layout} (hmark : ∀ c ∈ layout.wholeMark, Numeric c)
    (d : Decimal) : ∀ c ∈ layout.write d, Numeric c := by
  have hdigits : ∀ c ∈ Text.ofNat d.digits, Numeric c := numeric_of_mem_ofNat
  have hzeros : ∀ k, ∀ c ∈ List.replicate k '0', Numeric c := by
    intro k c hc
    rw [List.eq_of_mem_replicate hc]
    decide
  have hpoint : Numeric '.' := by decide
  unfold Layout.write
  dsimp only
  split
  · split
    · exact List.forall_mem_append.mpr
        ⟨List.forall_mem_append.mpr ⟨hdigits, hzeros _⟩, hmark⟩
    · split
      · exact List.forall_mem_append.mpr ⟨fun c hc => hdigits c (List.mem_of_mem_take hc),
          List.forall_mem_cons.mpr ⟨hpoint, fun c hc => hdigits c (List.mem_of_mem_drop hc)⟩⟩
      · exact List.forall_mem_append.mpr ⟨List.forall_mem_cons.mpr
          ⟨by decide, List.forall_mem_cons.mpr ⟨hpoint, hzeros _⟩⟩, hdigits⟩
  · refine List.forall_mem_append.mpr ⟨List.forall_mem_append.mpr
      ⟨?_, List.forall_mem_cons.mpr ⟨by decide, ?_⟩⟩, numeric_of_mem_ofInt⟩
    · split
      · exact hdigits
      · exact hdigits
      · next first others hsplit =>
        rw [hsplit, List.forall_mem_cons] at hdigits
        exact List.forall_mem_cons.mpr
          ⟨hdigits.1, List.forall_mem_cons.mpr ⟨hpoint, hdigits.2⟩⟩
    · split
      · exact List.forall_mem_singleton.mpr (by decide)
      · exact List.forall_mem_nil _

/-- Where whole numbers have a point too, a point or an exponent is in every number. -/
theorem point_or_exponent_mem_write {layout : Layout} (hmark : '.' ∈ layout.wholeMark)
    (d : Decimal) : '.' ∈ layout.write d ∨ 'e' ∈ layout.write d := by
  unfold Layout.write
  dsimp only
  split
  · left
    split
    · exact List.mem_append_right _ hmark
    · split
      · exact List.mem_append_right _ List.mem_cons_self
      · exact List.mem_append_left _ (List.mem_cons_of_mem _ List.mem_cons_self)
  · exact .inr (List.mem_append_left _ (List.mem_append_right _ List.mem_cons_self))

/-- No floating-point number looks like an integer on a page. -/
theorem text_ne_ofInt (x : Binary64) (n : Int) : x.text Number.floatLayout ≠ Text.ofInt n := by
  intro h
  have hwritten : ∀ c ∈ Number.floatLayout.write (x.shortest Number.floatLayout.tie),
      c = '-' ∨ c.isDigit = true := by
    intro c hc
    have hmem : c ∈ x.text Number.floatLayout := List.mem_append_right _ hc
    rw [h] at hmem
    exact Text.mem_ofInt hmem
  have hmark : '.' ∈ Number.floatLayout.wholeMark := by decide
  rcases point_or_exponent_mem_write hmark (x.shortest Number.floatLayout.tie) with
    hpoint | hexponent
  · exact absurd (hwritten '.' hpoint) (by decide)
  · exact absurd (hwritten 'e' hexponent) (by decide)

end Binary64

namespace Number

theorem numeric_of_mem_text (n : Number) : ∀ c ∈ n.text, Numeric c := by
  cases n with
  | whole n => exact numeric_of_mem_ofInt
  | float x =>
      have hmark : ∀ c ∈ floatLayout.wholeMark, Numeric c :=
        List.forall_mem_cons.mpr ⟨by decide, List.forall_mem_singleton.mpr (by decide)⟩
      refine List.forall_mem_append.mpr ⟨?_, Binary64.numeric_of_mem_write hmark _⟩
      split
      · exact List.forall_mem_singleton.mpr (by decide)
      · exact List.forall_mem_nil _

end Number

namespace Template

theorem escape_eq_self {t : Text} (ht : ∀ c ∈ t, escapeChar c = [c]) : escape t = t := by
  induction t with
  | nil => rfl
  | cons c rest ih =>
      obtain ⟨hc, hrest⟩ := List.forall_mem_cons.mp ht
      calc escape (c :: rest) = escapeChar c ++ escape rest := escape_cons c rest
        _ = c :: rest := by rw [hc, ih hrest, List.singleton_append]

theorem escapeChar_of_numeric {c : Char} (hc : Numeric c) : escapeChar c = [c] := by
  have hnone : ∀ entity ∈ entities, ¬ Numeric entity.char := by decide
  apply escapeChar_of_no_entity
  rintro ⟨entity, hentity, rfl⟩
  exact hnone entity hentity hc

/-- A number is written without escaping. -/
theorem Result.written_number (n : Number) : (plain (.number n)).written = n.text :=
  escape_eq_self fun c hc => escapeChar_of_numeric (n.numeric_of_mem_text c hc)

/-! ## What numerals stand for -/

/-- A numeral too great for 64 bits with a sign, but not for 64 bits without one, stands for the nearest
floating-point number. -/
theorem exists_numeral_ofInt {n : Int} (hlow : Numeral.int64End ≤ n)
    (hn : (Number.whole n).InRange) :
    ∃ x, numeral (Text.ofInt n) = .ok (.number (.float x)) ∧ x.IsNearest (Number.whole n).units := by
  obtain ⟨x, hx, hnearest⟩ := Number.exists_nearest hn
  refine ⟨x, ?_, hnearest⟩
  have hnonneg : 0 ≤ n := Int.le_trans (by decide : (0 : Int) ≤ Numeral.int64End) hlow
  lift n to Nat using hnonneg
  have hsize : n < Binary64.pow10 20 := by
    have hend : 2 * Numeral.int64End < (Binary64.pow10 20 : Nat) := by decide
    exact Int.ofNat_lt.mp (Int.lt_trans hn.2 hend)
  have hdigits : Text.ofInt n = Text.ofNat n := if_neg (Int.not_lt.mpr (Int.natCast_nonneg n))
  have hdecimal : Numeral.decimal? (Text.ofInt n) = some x := by
    rw [hdigits, Numeral.decimal?_ofNat, Binary64.ofDecimal?_zero_power hsize]
    exact hx
  rw [numeral, Numeral.int64?_ofInt_of_le hlow, hdecimal]

/-! ## Pages of one action -/

variable (ns : Namespace) (data : Value)

theorem Namespace.render_output {e : Expr} {v : Result}
    (hv : e.eval ⟨ns.funcs, data⟩ data = .ok v) :
    (ns.add ⟨[.output e], []⟩).render data = .ok (Utf8.encode v.written) := by
  have hrun : (ns.add ⟨[.output e], []⟩).execute Output.buffer data #[] =
      .done ((#[] : Output.Buffer) ++ Utf8.encode v.written) := by
    have hmain : (ns.add ⟨[.output e], []⟩).main = some [.output e] := rfl
    have hfuncs : (ns.add ⟨[.output e], []⟩).funcs = ns.funcs := rfl
    rw [execute, hmain, hfuncs]
    simp only [runBody, runNodes, Node.run, hv, Outcome.withValue]
    rfl
  rw [render, hrun]
  simp [Outcome.done]

variable {ns data}

/-- A source with one action, the words of a command, gives a page that shows the value of the
command. -/
theorem Written.exists_page {t : Text} {row : List Word} (ht : Written t row) {e : Expr}
    (haction : ActionOf ns.funcs.knows 1 row (.whole (.output e))) {v : Result}
    (hv : e.eval ⟨ns.funcs, data⟩ data = .ok v) :
    ∃ page, ns.parse (openMark ++ ' ' :: (t ++ ' ' :: closeMark)) = .ok page ∧
      page.render data = .ok (Utf8.encode v.written) := by
  refine ⟨ns.add ⟨[.output e], []⟩, ?_, ns.render_output data hv⟩
  rw [Namespace.parse, ht.parse_eq haction]
  rfl

variable (ns data)

theorem exists_page_numeral {n : Int} {m : Number} (hm : numeral (Text.ofInt n) = .ok (.number m)) :
    ∃ page, ns.parse (openMark ++ ' ' :: (Text.ofInt n ++ ' ' :: closeMark)) = .ok page ∧
      page.render data = .ok (Utf8.encode m.text) := by
  have hcommand : CommandOf ns.funcs.knows 1 [.literal (.number m)] (.literal (.number m)) :=
    ⟨_, .literal _ .nil, .value _⟩
  rw [← Result.written_number m]
  refine (written_numeral hm).exists_page (.output (fun keyword rest hrow => ?_) hcommand) rfl
  cases hrow

theorem exists_page_field {path : List Text} (hpath : ∀ key ∈ path, IsKey key) {m : Number}
    (hm : data.lookup path = .number m) :
    ∃ page, ns.parse (openMark ++ ' ' :: (dotted path ++ ' ' :: closeMark)) = .ok page ∧
      page.render data = .ok (Utf8.encode m.text) := by
  have hcommand : CommandOf ns.funcs.knows 1 [.field path] (.field path) :=
    ⟨_, .field path .nil, .value _⟩
  have hv : (Expr.field path).eval ⟨ns.funcs, data⟩ data = .ok (.plain (.number m)) := by
    rw [Expr.eval, hm]
  rw [← Result.written_number m]
  refine (written_field hpath).exists_page (.output (fun keyword rest hrow => ?_) hcommand) hv
  cases hrow

/-- An integer that data can hold, written in a template, gives a page that shows its digits exactly when
it has 64 bits with a sign; a greater one gives a page that shows the nearest floating-point number.  The
page of a field with this integer shows its digits in any case. -/
theorem Namespace.render_numeral {n : Int} (hn : (Number.whole n).InRange) :
    ∃ page shown, ns.parse (openMark ++ ' ' :: (Text.ofInt n ++ ' ' :: closeMark)) = .ok page ∧
      page.render data = .ok (Utf8.encode shown) ∧
      (shown = Text.ofInt n ↔ n < Numeral.int64End) ∧
      (Numeral.int64End ≤ n →
        ∃ x : Binary64, x.IsNearest (Number.whole n).units ∧ shown = x.text Number.floatLayout) ∧
      ∀ path, (∀ key ∈ path, IsKey key) → data.lookup path = .int n →
        ∃ ofField, ns.parse (openMark ++ ' ' :: (dotted path ++ ' ' :: closeMark)) = .ok ofField ∧
          ofField.render data = .ok (Utf8.encode (Text.ofInt n)) := by
  have hfield : ∀ path, (∀ key ∈ path, IsKey key) → data.lookup path = .int n →
      ∃ ofField, ns.parse (openMark ++ ' ' :: (dotted path ++ ' ' :: closeMark)) = .ok ofField ∧
        ofField.render data = .ok (Utf8.encode (Text.ofInt n)) :=
    fun _ hpath hdata => exists_page_field ns data hpath hdata
  rcases Int.lt_or_le n Numeral.int64End with hhigh | hlow
  · obtain ⟨page, hparse, hrender⟩ := exists_page_numeral ns data (numeral_ofInt hn.1 hhigh)
    exact ⟨page, Text.ofInt n, hparse, hrender, iff_of_true rfl hhigh,
      fun hlow => absurd hhigh (Int.not_lt.mpr hlow), hfield⟩
  · obtain ⟨x, hnumeral, hnearest⟩ := exists_numeral_ofInt hlow hn
    obtain ⟨page, hparse, hrender⟩ := exists_page_numeral ns data hnumeral
    exact ⟨page, x.text Number.floatLayout, hparse, hrender,
      iff_of_false (x.text_ne_ofInt n) (Int.not_lt.mpr hlow), fun _ => ⟨x, hnearest, rfl⟩, hfield⟩

/-- The greatest integer without a sign: its digits in the template show another number than the field
that holds it. -/
theorem Namespace.render_numeral_greatest :
    let n : Int := 18446744073709551615
    let data : Value := .object [("n".toList, .int n)]
    let ns := Namespace.empty Table.empty
    (Number.whole n).InRange ∧ (∀ key ∈ ["n".toList], IsKey key) ∧ data.lookup ["n".toList] = .int n ∧
      ∃ page shown, ns.parse (openMark ++ ' ' :: (Text.ofInt n ++ ' ' :: closeMark)) = .ok page ∧
        page.render data = .ok (Utf8.encode shown) ∧ shown ≠ Text.ofInt n ∧
        (∃ x : Binary64, x.IsNearest (Number.whole n).units ∧ shown = x.text Number.floatLayout) ∧
        ∃ ofField, ns.parse (openMark ++ ' ' :: (dotted ["n".toList] ++ ' ' :: closeMark)) =
            .ok ofField ∧
          ofField.render data = .ok (Utf8.encode (Text.ofInt n)) := by
  intro n data ns
  have hn : (Number.whole n).InRange := ⟨by decide, by decide⟩
  have hlow : Numeral.int64End ≤ n := by decide
  have hkeys : ∀ key ∈ ["n".toList], IsKey key :=
    List.forall_mem_singleton.mpr ⟨List.cons_ne_nil 'n' [], List.forall_mem_singleton.mpr (by decide)⟩
  have hdata : data.lookup ["n".toList] = .int n := rfl
  obtain ⟨page, shown, hparse, hrender, hshown, hnearest, hfield⟩ := ns.render_numeral data hn
  exact ⟨hn, hkeys, hdata, page, shown, hparse, hrender,
    fun h => absurd (hshown.mp h) (Int.not_lt.mpr hlow), hnearest hlow, hfield _ hkeys hdata⟩

/-- The least integer without room for a sign is shown as a floating-point number where it is written in
the template, and in its digits where it is the data. -/
theorem Namespace.render_numeral_changed :
    let n : Int := 9223372036854775808
    let digits := "9223372036854775808".toList
    let ns := Namespace.empty Table.empty
    (Number.whole n).InRange ∧ Text.ofInt n = digits ∧
      (∃ page, ns.parse "\x7b\x7b 9223372036854775808 \x7d\x7d".toList = .ok page ∧
        page.render (.int n) = .ok (Utf8.encode "9.223372036854776e+18".toList) ∧
        page.render (.int n) ≠ .ok (Utf8.encode digits)) ∧
      ∃ ofData, ns.parse "\x7b\x7b . \x7d\x7d".toList = .ok ofData ∧
        ofData.render (.int n) = .ok (Utf8.encode digits) := by
  intro n digits ns
  let x : Binary64 := ⟨false, Binary64.fullBits, 11, by decide⟩
  have hdigits : Text.ofInt n = digits := by decide +kernel
  have hdecimal : Numeral.decimal? (Text.ofInt n) = some x := by decide +kernel
  have hnumeral : numeral (Text.ofInt n) = .ok (.number (.float x)) := by
    rw [numeral, Numeral.int64?_ofInt_of_le (by decide), hdecimal]
  have hshown : (Number.float x).text = "9.223372036854776e+18".toList := by decide +kernel
  have hbytes : Utf8.encode "9.223372036854776e+18".toList ≠ Utf8.encode digits := by decide +kernel
  have hkeys : ∀ key ∈ ([] : List Text), IsKey key := List.forall_mem_nil _
  have hroot : (Value.int n).lookup [] = .number (.whole n) := rfl
  obtain ⟨page, hparse, hrender⟩ := exists_page_numeral ns (.int n) hnumeral
  obtain ⟨ofData, hparseData, hrenderData⟩ := exists_page_field ns (.int n) hkeys hroot
  have hwhole : (Number.whole n).text = digits := hdigits
  rw [hdigits] at hparse
  rw [hshown] at hrender
  rw [hwhole] at hrenderData
  refine ⟨⟨by decide, by decide⟩, hdigits, ⟨page, hparse, hrender, ?_⟩, ofData, hparseData, hrenderData⟩
  rw [hrender]
  exact fun h => hbytes (Except.ok.inj h)

end Template
end PageTemplates
