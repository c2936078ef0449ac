import Mathlib.Data.List.Forall2
import PageTemplates.Proofs.Number.Nearest
import PageTemplates.Template.Function

/-!
Which values templates take for equal.  Numbers are compared by the values they stand for; inside lists
and objects also by kind, and by themselves only after rounding to floating point.
-/

namespace PageTemplates

namespace Number

/-- The value of a number, counted in the units of floating-point numbers. -/
def units : Number → Int
  | whole n => n * Binary64.perOne
  | float x => x.units

def isWhole : Number → Bool
  | whole _ => true
  | float _ => false

def SameValue (m n : Number) : Prop :=
  m.units = n.units

/-- Whether two numbers are both integers or both floating-point numbers. -/
def SameKind (m n : Number) : Prop :=
  m.isWhole = n.isWhole

def Identical (m n : Number) : Prop :=
  m.SameValue n ∧ m.SameKind n

/-- Whether a number is one that data can hold: an integer has 64 bits, with a sign or without. -/
def InRange : Number → Prop
  | whole n => -Numeral.int64End ≤ n ∧ n < 2 * Numeral.int64End
  | float _ => True

/-- Whether a number has the value of a floating-point number. -/
def IsExact (n : Number) : Prop :=
  ∃ x : Binary64, x.units = n.units

/-- Whether a number is a floating-point number or an integer of at most 53 bits. -/
def IsShort : Number → Prop
  | whole n => n.natAbs < 2 * Binary64.fullBits
  | float _ => True

/-- Whether one floating-point number is the nearest to both. -/
def ShareNearest (m n : Number) : Prop :=
  ∃ x : Binary64, x.IsNearest m.units ∧ x.IsNearest n.units

theorem units_whole_inj {m n : Int} (h : (whole m).units = (whole n).units) : m = n :=
  Int.eq_of_mul_eq_mul_right (Int.natCast_ne_zero.mpr (Nat.ne_of_gt (Binary64.pow2_pos _))) h

theorem same_iff {m n : Number} : m.same n = true ↔ m.Identical n := by
  cases m with
  | whole m =>
    cases n with
    | whole n =>
      simp only [same, beq_iff_eq, Identical, SameValue, SameKind, isWhole, and_true]
      exact ⟨fun h => h ▸ rfl, units_whole_inj⟩
    | float y => simp [same, Identical, SameKind, isWhole]
  | float x =>
    cases n with
    | whole n => simp [same, Identical, SameKind, isWhole]
    | float y => simp [same, Identical, SameValue, SameKind, isWhole, units, Binary64.sameValue_iff]

theorem exists_nearest {n : Number} (hn : n.InRange) :
    ∃ x, n.nearest? = some x ∧ x.IsNearest n.units := by
  cases n with
  | whole n =>
    have hsize : n.natAbs < 2 ^ 65 := by
      obtain ⟨hlow, hhigh⟩ := hn
      unfold Numeral.int64End at hlow hhigh
      omega
    refine Binary64.exists_ofInt?_isNearest ?_
    by_cases hzero : n.natAbs = 0
    · rw [hzero]
      decide
    · have := (Nat.log2_lt hzero).mpr hsize
      omega
  | float x => exact ⟨x, rfl, .self x⟩

theorem sameNearest_iff {m n : Number} (hm : m.InRange) (hn : n.InRange) :
    m.sameNearest n = true ↔ m.ShareNearest n := by
  obtain ⟨x, hx, hxm⟩ := exists_nearest hm
  obtain ⟨y, hy, hyn⟩ := exists_nearest hn
  simp only [sameNearest, hx, hy]
  rw [Binary64.sameValue_iff]
  constructor
  · intro h
    exact ⟨x, hxm, hyn.congr h.symm⟩
  · rintro ⟨z, hzm, hzn⟩
    rw [hxm.units_eq hzm, hyn.units_eq hzn]

theorem SameValue.shareNearest {m n : Number} (hm : m.InRange) (h : m.SameValue n) :
    m.ShareNearest n := by
  obtain ⟨x, -, hxm⟩ := exists_nearest hm
  exact ⟨x, hxm, h ▸ hxm⟩

/-- A floating-point number that is the nearest to a value of one is that one. -/
theorem IsExact.units_eq {n : Number} (hn : n.IsExact) {x : Binary64} (hx : x.IsNearest n.units) :
    x.units = n.units := by
  obtain ⟨y, hy⟩ := hn
  rw [← hy]
  exact hx.units_eq (hy ▸ .self y)

theorem ShareNearest.sameValue {m n : Number} (hm : m.IsExact) (hn : n.IsExact)
    (h : m.ShareNearest n) : m.SameValue n := by
  obtain ⟨x, hxm, hxn⟩ := h
  exact (hm.units_eq hxm).symm.trans (hn.units_eq hxn)

theorem IsShort.isExact {n : Number} (hn : n.IsShort) : n.IsExact := by
  cases n with
  | whole n => exact Binary64.exists_units_eq hn
  | float x => exact ⟨x, rfl⟩

end Number

namespace Value

/-- Whether two values are the same but for their numbers, and the numbers at every place are related.
The fields of an object stand in the order of their names, so that fields of one name have one place. -/
inductive Alike (r : Number → Number → Prop) : Value → Value → Prop where
  | null : Alike r .null .null
  | bool (b : Bool) : Alike r (.bool b) (.bool b)
  | number {m n : Number} (h : r m n) : Alike r (.number m) (.number n)
  | text (t : Text) : Alike r (.text t) (.text t)
  | list {items others : List Value} (h : List.Forall₂ (Alike r) items others) :
      Alike r (.list items) (.list others)
  | object {fields others : List (Text × Value)} (hnames : fields.map (·.1) = others.map (·.1))
      (h : List.Forall₂ (Alike r) (fields.map (·.2)) (others.map (·.2))) :
      Alike r (.object fields) (.object others)

theorem alike_number_iff {r : Number → Number → Prop} {m n : Number} :
    (number m).Alike r (number n) ↔ r m n :=
  ⟨fun h => by cases h; assumption, .number⟩

theorem Alike.mono {r s : Number → Number → Prop} (hrs : ∀ m n, r m n → s m n) {v w : Value}
    (h : v.Alike r w) : v.Alike s w :=
  @Alike.rec r (fun v w _ => v.Alike s w) (fun vs ws _ => List.Forall₂ (Alike s) vs ws)
    .null .bool (fun hmn => .number (hrs _ _ hmn)) .text (fun _ => .list) (fun hnames _ => .object hnames)
    .nil (fun _ _ => .cons) v w h

theorem Alike.and {r s : Number → Number → Prop} {v w : Value} (h : v.Alike r w) :
    v.Alike s w → v.Alike (fun m n => r m n ∧ s m n) w := by
  refine @Alike.rec r (fun v w _ => v.Alike s w → v.Alike (fun m n => r m n ∧ s m n) w)
    (fun vs ws _ => List.Forall₂ (Alike s) vs ws →
      List.Forall₂ (Alike fun m n => r m n ∧ s m n) vs ws) ?_ ?_ ?_ ?_ ?_ ?_ ?_ ?_ v w h
  · exact fun _ => .null
  · exact fun b _ => .bool b
  · rintro m n hr ⟨⟩
    exact .number ⟨hr, ‹_›⟩
  · exact fun t _ => .text t
  · rintro items others - ih ⟨⟩
    exact .list (ih ‹_›)
  · rintro fields others hnames - ih ⟨⟩
    exact .object hnames (ih ‹_›)
  · exact fun _ => .nil
  · rintro v w vs ws - - ihhead ihtail ⟨⟩
    exact .cons (ihhead ‹_›) (ihtail ‹_›)

theorem alike_identical_iff {v w : Value} :
    v.Alike Number.Identical w ↔ v.Alike Number.SameValue w ∧ v.Alike Number.SameKind w :=
  ⟨fun h => ⟨h.mono fun _ _ => And.left, h.mono fun _ _ => And.right⟩, fun h => h.1.and h.2⟩

mutual
theorem same_iff : ∀ v w : Value, v.same w = true ↔ v.Alike Number.Identical w
  | .null, w => by
    cases w with
    | null => exact iff_of_true rfl .null
    | _ => exact iff_of_false (by simp [same]) nofun
  | .bool a, w => by
    cases w with
    | bool b =>
      simp only [same, beq_iff_eq]
      exact ⟨fun h => h ▸ .bool a, fun h => by cases h; rfl⟩
    | _ => exact iff_of_false (by simp [same]) nofun
  | .number m, w => by
    cases w with
    | number n => rw [same, Number.same_iff, alike_number_iff]
    | _ => exact iff_of_false (by simp [same]) nofun
  | .text s, w => by
    cases w with
    | text t =>
      simp only [same, beq_iff_eq]
      exact ⟨fun h => h ▸ .text s, fun h => by cases h; rfl⟩
    | _ => exact iff_of_false (by simp [same]) nofun
  | .list items, w => by
    cases w with
    | list others =>
      simp only [same, sameItems_iff items others]
      exact ⟨.list, fun h => by cases h; assumption⟩
    | _ => exact iff_of_false (by simp [same]) nofun
  | .object fields, w => by
    cases w with
    | object others =>
      simp only [same, sameFields_iff fields others]
      exact ⟨fun h => .object h.1 h.2, fun h => by cases h; constructor <;> assumption⟩
    | _ => exact iff_of_false (by simp [same]) nofun

theorem sameItems_iff : ∀ items others : List Value,
    sameItems items others = true ↔ List.Forall₂ (Alike Number.Identical) items others
  | [], [] => by simp [sameItems]
  | [], _ :: _ => by simp [sameItems]
  | _ :: _, [] => by simp [sameItems]
  | item :: rest, other :: others => by
    simp [sameItems, same_iff item other, sameItems_iff rest others]

theorem sameFields_iff : ∀ fields others : List (Text × Value),
    sameFields fields others = true ↔ fields.map (·.1) = others.map (·.1) ∧
      List.Forall₂ (Alike Number.Identical) (fields.map (·.2)) (others.map (·.2))
  | [], [] => by simp [sameFields]
  | [], _ :: _ => by simp [sameFields]
  | _ :: _, [] => by simp [sameFields]
  | (name, value) :: rest, (name', value') :: others => by
    simp [sameFields, same_iff value value', sameFields_iff rest others, and_assoc, and_left_comm]
end

/-- When a template takes two values for equal: two numbers by themselves when one floating-point number
is the nearest to both, and other values when they are the same in all but the kinds of their numbers,
and in these as well. -/
def TakenForEqual : Value → Value → Prop
  | number m, number n => m.ShareNearest n
  | v, w => v.Alike Number.SameValue w ∧ v.Alike Number.SameKind w

/-- When the values alone decide whether a template takes two values for equal: two different numbers
have no nearest floating-point number in common, and values that differ in nothing else have numbers of
the same kinds. -/
def ToldByValue : Value → Value → Prop
  | number m, number n => m.ShareNearest n → m.SameValue n
  | v, w => v.Alike Number.SameValue w → v.Alike Number.SameKind w

theorem equal_iff {v w : Value} (hv : ∀ n, v = number n → n.InRange)
    (hw : ∀ n, w = number n → n.InRange) : v.equal w = true ↔ v.TakenForEqual w := by
  by_cases hnumbers : ∃ m n, v = number m ∧ w = number n
  · obtain ⟨m, n, rfl, rfl⟩ := hnumbers
    exact Number.sameNearest_iff (hv m rfl) (hw n rfl)
  · have hother : v.equal w = v.same w := by
      unfold equal
      split
      · exact absurd ⟨_, _, rfl, rfl⟩ hnumbers
      · rfl
    have htaken : v.TakenForEqual w ↔ v.Alike Number.Identical w := by
      unfold TakenForEqual
      split
      · exact absurd ⟨_, _, rfl, rfl⟩ hnumbers
      · exact alike_identical_iff.symm
    rw [hother, same_iff, htaken]

theorem takenForEqual_iff_alike {v w : Value} (hv : ∀ n, v = number n → n.InRange) :
    (v.TakenForEqual w ↔ v.Alike Number.SameValue w) ↔ v.ToldByValue w := by
  unfold TakenForEqual ToldByValue
  split
  · next m n =>
    rw [alike_number_iff]
    exact ⟨Iff.mp, fun h => ⟨h, Number.SameValue.shareNearest (hv m rfl)⟩⟩
  · exact ⟨fun h hvalue => (h.mpr hvalue).2, fun h => ⟨And.left, fun hvalue => ⟨hvalue, h hvalue⟩⟩⟩

theorem toldByValue_of_isShort {m n : Number} (hm : m.IsShort) (hn : n.IsShort) :
    (number m).ToldByValue (number n) :=
  fun h => h.sameValue hm.isExact hn.isExact

end Value

namespace Template.Builtin

/-- The answer of `eq` is always a truth value.  It is whether the values are the same exactly when these
are told by value, as floating-point numbers and integers of at most 53 bits are. -/
theorem eq_agrees_iff {v w : Value} (hv : ∀ n, v = .number n → n.InRange)
    (hw : ∀ n, w = .number n → n.InRange) :
    ∃ same, eq [v, w] = .ok (.bool same) ∧ (same = true ↔ v.TakenForEqual w) ∧
      ((same = true ↔ v.Alike Number.SameValue w) ↔ v.ToldByValue w) ∧
      ∀ m n, v = .number m → w = .number n → m.IsShort → n.IsShort → v.ToldByValue w := by
  refine ⟨v.equal w, rfl, Value.equal_iff hv hw, ?_, ?_⟩
  · rw [Value.equal_iff hv hw, Value.takenForEqual_iff_alike hv]
  · rintro m n rfl rfl hm hn
    exact Value.toldByValue_of_isShort hm hn

/-- An integer of 54 bits and the floating-point number of 53 bits below it: the answer is that they are
equal, so that one number is the nearest to both, and the values alone do not tell. -/
theorem eq_agrees_iff_past_53_bits :
    let n : Number := .whole 9007199254740993
    let below : Number := .float ⟨false, Binary64.fullBits, 1, by decide⟩
    n.InRange ∧ below.InRange ∧ eq [.number n, .number below] = .ok (.bool true) ∧
      n.ShareNearest below ∧ ¬ (Value.number n).ToldByValue (.number below) := by
  intro n below
  have hequal : (Value.number n).equal (.number below) = true := by decide +kernel
  have hanswer : eq [.number n, .number below] = .ok (.bool true) :=
    congrArg (Except.ok ∘ Value.bool) hequal
  have hrange : n.InRange := ⟨by decide, by decide⟩
  have hbelow : below.InRange := trivial
  obtain ⟨same, hsame, htaken, hagree, -⟩ := eq_agrees_iff (v := .number n) (w := .number below)
    (fun _ hn => Value.number.inj hn ▸ hrange) (fun _ hn => Value.number.inj hn ▸ hbelow)
  rw [hanswer] at hsame
  obtain rfl : true = same := by
    cases hsame
    rfl
  refine ⟨hrange, hbelow, hanswer, htaken.mp rfl, fun htold => ?_⟩
  have hvalue : n.units = below.units := Value.alike_number_iff.mp ((hagree.mpr htold).mp rfl)
  exact absurd hvalue (by decide +kernel)

/-- Two different integers that are taken for equal, and two lists with one value that are not. -/
theorem eq_not_by_value :
    let one : Binary64 := ⟨false, Binary64.fullBits, -52, by decide⟩
    (eq [.int 9007199254740993, .int 9007199254740992] = .ok (.bool true) ∧
        ¬ (Value.int 9007199254740993).Alike Number.SameValue (.int 9007199254740992)) ∧
      eq [.list [.int 1], .list [.number (.float one)]] = .ok (.bool false) ∧
        (Value.list [.int 1]).Alike Number.SameValue (.list [.number (.float one)]) := by
  intro one
  have hints : (Value.int 9007199254740993).equal (.int 9007199254740992) = true := by decide +kernel
  have hlists : (Value.list [.int 1]).equal (.list [.number (.float one)]) = false := rfl
  refine ⟨⟨congrArg (Except.ok ∘ Value.bool) hints, fun h => ?_⟩,
    congrArg (Except.ok ∘ Value.bool) hlists, .list (.cons (.number ?_) .nil)⟩
  · exact absurd (Number.units_whole_inj (Value.alike_number_iff.mp h)) (by decide)
  · have hone : (Number.whole 1).units = (Number.float one).units := by decide +kernel
    exact hone

end Template.Builtin
end PageTemplates
