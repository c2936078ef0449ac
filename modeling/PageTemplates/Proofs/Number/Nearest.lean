import PageTemplates.Number.Binary64

/-!
The floating-point number nearest to an integer.  Values are integers here: every floating-point number
is a whole number of units, the least positive one of them, so that distances need no fractions.
-/

namespace PageTemplates.Binary64

theorem pow2_pos (n : Nat) : 0 < pow2 n :=
  Nat.two_pow_pos n

theorem pow2_add (m n : Nat) : pow2 (m + n) = pow2 m * pow2 n :=
  Nat.pow_add 2 m n

theorem pow2_succ (n : Nat) : pow2 (n + 1) = 2 * pow2 n := by
  rw [Nat.add_comm, pow2_add]
  rfl

theorem pow2_le {m n : Nat} (h : m ≤ n) : pow2 m ≤ pow2 n :=
  Nat.pow_le_pow_right (by decide) h

theorem fullBits_eq : fullBits = pow2 52 := by decide

/-! ## Values in units -/

/-- How many units make one. -/
def perOne : Nat := pow2 1074

/-- The unit of the significand, as a power of two of units. -/
def place (x : Binary64) : Nat :=
  (x.exponent + 1074).toNat

def magnitude (x : Binary64) : Nat :=
  x.significand * pow2 x.place

/-- The value of a number in units. -/
def units (x : Binary64) : Int :=
  if x.negative then -(x.magnitude : Int) else x.magnitude

/-- The number with the other sign. -/
def opposite (x : Binary64) : Binary64 :=
  { x with negative := !x.negative }

@[simp]
theorem units_opposite (x : Binary64) : x.opposite.units = -x.units := by
  have hmag : x.opposite.magnitude = x.magnitude := rfl
  have hsign : x.opposite.negative = !x.negative := rfl
  cases hx : x.negative <;> simp [units, hmag, hsign, hx]

@[simp]
theorem opposite_opposite (x : Binary64) : x.opposite.opposite = x := by
  simp [opposite]

@[simp]
theorem units_zero : (zero false).units = 0 := by
  simp [units, magnitude, zero]

theorem significand_lt (x : Binary64) : x.significand < 2 * fullBits :=
  x.canonical.1

theorem fullBits_le_or_place (x : Binary64) : fullBits ≤ x.significand ∨ x.place = 0 := by
  refine x.canonical.2.2.2.imp_right fun hexp => ?_
  rw [place, hexp]
  rfl

theorem exponent_eq (x : Binary64) : x.exponent = (x.place : Int) - 1074 := by
  have hlow := x.canonical.2.1
  unfold place
  omega

theorem natAbs_units (x : Binary64) : x.units.natAbs = x.magnitude := by
  unfold units
  split <;> omega

/-- A number with a greater unit is beyond all significands of the smaller one. -/
theorem le_magnitude_of_place_lt {x y : Binary64} (h : x.place < y.place) :
    2 * fullBits * pow2 x.place ≤ y.magnitude := by
  have hfull : fullBits ≤ y.significand := y.fullBits_le_or_place.resolve_right (by omega)
  calc 2 * fullBits * pow2 x.place
      = fullBits * pow2 (x.place + 1) := by rw [pow2_succ, Nat.mul_comm 2, Nat.mul_assoc]
    _ ≤ y.significand * pow2 y.place := Nat.mul_le_mul hfull (pow2_le h)

theorem mul_pow2_lt {m n : Nat} (h : m < n) (k : Nat) : m * pow2 k < n * pow2 k :=
  Nat.mul_lt_mul_of_pos_right h (pow2_pos k)

theorem magnitude_lt_of_place_lt {x y : Binary64} (h : x.place < y.place) :
    x.magnitude < y.magnitude :=
  Nat.lt_of_lt_of_le (mul_pow2_lt x.significand_lt x.place) (le_magnitude_of_place_lt h)

/-- The canonical form is the only one. -/
theorem parts_eq_of_magnitude_eq {x y : Binary64} (h : x.magnitude = y.magnitude) :
    x.significand = y.significand ∧ x.place = y.place := by
  have hplace : x.place = y.place := by
    rcases Nat.lt_trichotomy x.place y.place with hlt | heq | hlt
    · exact absurd h (Nat.ne_of_lt (magnitude_lt_of_place_lt hlt))
    · exact heq
    · exact absurd h.symm (Nat.ne_of_lt (magnitude_lt_of_place_lt hlt))
  refine ⟨Nat.eq_of_mul_eq_mul_right (pow2_pos x.place) ?_, hplace⟩
  rw [magnitude, magnitude, ← hplace] at h
  exact h

theorem isZero_iff {x : Binary64} : x.isZero = true ↔ x.magnitude = 0 := by
  have hunit : pow2 x.place ≠ 0 := Nat.ne_of_gt (pow2_pos x.place)
  simp only [isZero, magnitude, beq_iff_eq, Nat.mul_eq_zero, hunit, or_false]

theorem sameValue_iff {x y : Binary64} : x.sameValue y = true ↔ x.units = y.units := by
  have hsame : x.sameValue y = true ↔ (x.magnitude = 0 ∧ y.magnitude = 0) ∨
      (x.negative = y.negative ∧ x.significand = y.significand ∧ x.exponent = y.exponent) := by
    simp only [sameValue, Bool.or_eq_true, Bool.and_eq_true, isZero_iff, beq_iff_eq, and_assoc]
  rw [hsame]
  constructor
  · rintro (⟨hx, hy⟩ | ⟨hsign, hsig, hexp⟩)
    · simp [units, hx, hy]
    · simp [units, magnitude, place, hsign, hsig, hexp]
  · intro h
    have hmag : x.magnitude = y.magnitude := by
      rw [← natAbs_units, ← natAbs_units, h]
    by_cases hzero : x.magnitude = 0
    · exact .inl ⟨hzero, hmag ▸ hzero⟩
    · obtain ⟨hsig, hplace⟩ := parts_eq_of_magnitude_eq hmag
      refine .inr ⟨?_, hsig, by rw [exponent_eq, exponent_eq, hplace]⟩
      unfold units at h
      rw [hmag] at h hzero
      cases hx : x.negative <;> cases hy : y.negative <;> simp [hx, hy] at h <;> first | rfl | omega

/-! ## The nearest number -/

/-- A number is the nearest to a count of units: none is nearer, and if another value is equally near,
the significand of this one is even. -/
structure IsNearest (x : Binary64) (u : Int) : Prop where
  nearest (y : Binary64) : (u - x.units).natAbs ≤ (u - y.units).natAbs
  even (y : Binary64) : (u - x.units).natAbs = (u - y.units).natAbs →
    y.units = x.units ∨ x.significand % 2 = 0

namespace IsNearest

variable {x y : Binary64} {u : Int}

theorem self (x : Binary64) : x.IsNearest x.units where
  nearest y := by omega
  even y h := .inl (by omega)

theorem opposite (h : x.IsNearest u) : x.opposite.IsNearest (-u) where
  nearest y := by
    have := h.nearest y.opposite
    rw [units_opposite] at this ⊢
    omega
  even y hy := by
    have := h.even y.opposite
    rw [units_opposite] at this hy ⊢
    exact (this (by omega)).imp_left fun heq => by omega

theorem congr (h : x.IsNearest u) (hxy : x.units = y.units) : y.IsNearest u where
  nearest z := hxy ▸ h.nearest z
  even z hz := by
    have hmag : x.magnitude = y.magnitude := by rw [← natAbs_units, ← natAbs_units, hxy]
    rw [← hxy] at hz ⊢
    rw [← (parts_eq_of_magnitude_eq hmag).1]
    exact h.even z hz

end IsNearest

/-- Between two numbers of even significand, neither of them negative, there is another number. -/
theorem exists_between_of_nonneg {x y : Binary64} (hx : x.significand % 2 = 0)
    (hy : y.significand % 2 = 0) (hnonneg : 0 ≤ x.units) (hlt : x.units < y.units) :
    ∃ z : Binary64, x.units < z.units ∧ z.units < y.units := by
  have hxmag := x.natAbs_units
  have hymag := y.natAbs_units
  -- the significand after an even one still has at most 53 bits
  have hlast : x.significand + 1 < 2 * fullBits := by
    have := x.significand_lt
    omega
  let z : Binary64 := ⟨false, x.significand + 1, x.exponent, hlast, x.canonical.2.1, x.canonical.2.2.1,
    x.canonical.2.2.2.imp_left (Nat.le_trans · (Nat.le_succ _))⟩
  have hz : z.units = ((x.significand + 1) * pow2 x.place : Nat) := rfl
  have hxz : x.magnitude < (x.significand + 1) * pow2 x.place := mul_pow2_lt (Nat.lt_succ_self _) _
  have hzy : (x.significand + 1) * pow2 x.place < y.magnitude := by
    rcases Nat.lt_trichotomy x.place y.place with hplace | hplace | hplace
    · exact Nat.lt_of_lt_of_le (mul_pow2_lt hlast _) (le_magnitude_of_place_lt hplace)
    · have hsig : x.significand < y.significand := by
        refine Nat.lt_of_mul_lt_mul_right (a := pow2 x.place) ?_
        have : x.magnitude < y.magnitude := by omega
        rwa [magnitude, magnitude, ← hplace] at this
      rw [magnitude, ← hplace]
      exact mul_pow2_lt (by omega) _
    · have := magnitude_lt_of_place_lt hplace
      omega
  exact ⟨z, by omega, by omega⟩

theorem exists_between {x y : Binary64} (hx : x.significand % 2 = 0) (hy : y.significand % 2 = 0)
    (hlt : x.units < y.units) : ∃ z : Binary64, x.units < z.units ∧ z.units < y.units := by
  by_cases hxsign : 0 ≤ x.units
  · exact exists_between_of_nonneg hx hy hxsign hlt
  · by_cases hysign : y.units ≤ 0
    · obtain ⟨z, hyz, hzx⟩ := exists_between_of_nonneg (x := y.opposite) (y := x.opposite) hy hx
        (by rw [units_opposite]; omega) (by rw [units_opposite, units_opposite]; omega)
      rw [units_opposite] at hyz hzx
      exact ⟨z.opposite, by rw [units_opposite]; omega, by rw [units_opposite]; omega⟩
    · exact ⟨zero false, by rw [units_zero]; omega, by rw [units_zero]; omega⟩

/-- There is one nearest value. -/
theorem IsNearest.units_eq {x y : Binary64} {u : Int} (hx : x.IsNearest u) (hy : y.IsNearest u) :
    x.units = y.units := by
  refine Decidable.byContradiction fun hne => ?_
  have hxy := hx.nearest y
  have hyx := hy.nearest x
  have hxeven := (hx.even y (by omega)).resolve_left (Ne.symm hne)
  have hyeven := (hy.even x (by omega)).resolve_left hne
  -- a number between the two would be nearer to `u` than both
  rcases Int.lt_or_gt_of_ne hne with hlt | hlt
  · obtain ⟨z, hxz, hzy⟩ := exists_between hxeven hyeven hlt
    have := hx.nearest z
    omega
  · obtain ⟨z, hyz, hzx⟩ := exists_between hyeven hxeven hlt
    have := hx.nearest z
    omega

/-! ## Rounding to an integer -/

/-- What rounding of `num / den` to an integer, of two to the even one, gives. -/
structure IsHalfEven (num den q : Nat) : Prop where
  le : 2 * (q * den) ≤ 2 * num + den
  ge : 2 * num ≤ 2 * (q * den) + den
  even : 2 * (q * den) = 2 * num + den ∨ 2 * num = 2 * (q * den) + den → q % 2 = 0

theorem isHalfEven_roundHalfEven (num : Nat) {den : Nat} (hden : 0 < den) :
    IsHalfEven num den (roundHalfEven num den) := by
  have hdiv : num / den * den + num % den = num := Nat.div_add_mod' num den
  have hrest := Nat.mod_lt num hden
  have hsucc : (num / den + 1) * den = num / den * den + den := Nat.succ_mul _ _
  unfold roundHalfEven
  dsimp only
  split
  · constructor <;> omega
  · split
    · constructor <;> omega
    · split <;> constructor <;> omega

/-- Rounding depends on the ratio alone. -/
theorem IsHalfEven.mul_right {num den q : Nat} (h : IsHalfEven num den q) {c : Nat} (hc : 0 < c) :
    IsHalfEven (num * c) (den * c) q := by
  have hpoint : 2 * (q * (den * c)) = 2 * (q * den) * c := by simp only [Nat.mul_assoc]
  have habove : 2 * (num * c) + den * c = (2 * num + den) * c := by
    rw [Nat.add_mul, Nat.mul_assoc]
  have hbelow : 2 * (q * (den * c)) + den * c = (2 * (q * den) + den) * c := by
    rw [Nat.add_mul, hpoint]
  have hnum : 2 * (num * c) = 2 * num * c := (Nat.mul_assoc ..).symm
  constructor
  · rw [hpoint, habove]
    exact Nat.mul_le_mul_right c h.le
  · rw [hnum, hbelow]
    exact Nat.mul_le_mul_right c h.ge
  · rw [habove, hbelow, hpoint, hnum]
    rintro (heq | heq)
    · exact h.even (.inl (Nat.eq_of_mul_eq_mul_right hc heq))
    · exact h.even (.inr (Nat.eq_of_mul_eq_mul_right hc heq))

theorem mul_add_le_mul {m n : Nat} (h : m < n) (den : Nat) : m * den + den ≤ n * den := by
  rw [← Nat.succ_mul]
  exact Nat.mul_le_mul_right den h

theorem IsHalfEven.le_of_mul_le {num den q : Nat} (h : IsHalfEven num den q) {m : Nat}
    (hden : 0 < den) (hm : m * den ≤ num) : m ≤ q := by
  refine Nat.le_of_not_lt fun hlt => ?_
  have := mul_add_le_mul hlt den
  have := h.ge
  omega

theorem IsHalfEven.le_of_le_mul {num den q : Nat} (h : IsHalfEven num den q) {m : Nat}
    (hden : 0 < den) (hm : num ≤ m * den) : q ≤ m := by
  refine Nat.le_of_not_lt fun hlt => ?_
  have := mul_add_le_mul hlt den
  have := h.le
  omega

/-- No multiple of the denominator is nearer than the rounded one, and another one that is equally near
makes it even. -/
theorem IsHalfEven.nearest {num den q : Nat} (h : IsHalfEven num den q) (k : Nat) :
    ((num : Int) - (q * den : Nat)).natAbs ≤ ((num : Int) - (k * den : Nat)).natAbs ∧
      (((num : Int) - (q * den : Nat)).natAbs = ((num : Int) - (k * den : Nat)).natAbs →
        k = q ∨ q % 2 = 0) := by
  obtain ⟨hle, hge, heven⟩ := h
  rcases Nat.lt_trichotomy k q with hk | rfl | hk
  · have := mul_add_le_mul hk den
    exact ⟨by omega, fun _ => .inr (heven (by omega))⟩
  · exact ⟨Nat.le_refl _, fun _ => .inl rfl⟩
  · have := mul_add_le_mul hk den
    exact ⟨by omega, fun _ => .inr (heven (by omega))⟩

/-! ## Rounding to a number -/

/-- Beyond `fullBits` times a power of two there are only multiples of that power. -/
theorem units_on_grid (y : Binary64) (p : Nat) :
    (∃ k : Nat, y.units = (k * pow2 p : Nat)) ∨ y.units < (fullBits * pow2 p : Nat) := by
  have hpos : 0 < fullBits * pow2 p := Nat.mul_pos (by decide) (pow2_pos p)
  have hmag := y.natAbs_units
  by_cases hsign : y.units ≤ 0
  · exact .inr (by omega)
  · have hy : y.units = y.magnitude := by omega
    rw [hy]
    rcases Nat.lt_or_ge y.place p with hplace | hplace
    · refine .inr (Int.ofNat_lt.mpr ?_)
      calc y.magnitude
          < 2 * fullBits * pow2 y.place := mul_pow2_lt y.significand_lt _
        _ = fullBits * pow2 (y.place + 1) := by rw [pow2_succ, Nat.mul_comm 2, Nat.mul_assoc]
        _ ≤ fullBits * pow2 p := Nat.mul_le_mul_left _ (pow2_le hplace)
    · refine .inl ⟨y.significand * pow2 (y.place - p), ?_⟩
      rw [Nat.mul_assoc, ← pow2_add, Nat.sub_add_cancel hplace]
      rfl

/-- A rounded multiple of a power of two is the nearest number, when the value is far enough out for the
power. -/
theorem isNearest_of_isHalfEven {x : Binary64} {u p q : Nat} (hround : IsHalfEven u (pow2 p) q)
    (hfar : fullBits * pow2 p ≤ u) (hx : x.units = (q * pow2 p : Nat))
    (heven : q % 2 = 0 → x.significand % 2 = 0) : x.IsNearest u := by
  -- a number that is no multiple is behind `fullBits` multiples, which are not beyond the value
  have hfull := hround.nearest fullBits
  constructor
  · intro y
    rw [hx]
    rcases y.units_on_grid p with ⟨k, hk⟩ | hk
    · rw [hk]
      exact (hround.nearest k).1
    · omega
  · intro y
    rw [hx]
    rcases y.units_on_grid p with ⟨k, hk⟩ | hk
    · rw [hk]
      intro hdist
      exact ((hround.nearest k).2 hdist).imp (fun heq => by rw [heq]) heven
    · omega

/-- Scaled so that the leading bit is the 53rd before the point. -/
theorem scale_log2 (num : Nat) :
    scale num 1 (num.log2 - 52 : Int) = (num * pow2 (52 - num.log2), pow2 (num.log2 - 52)) := by
  unfold scale
  split
  · next hexp =>
    have hup : 52 - num.log2 = 0 := by omega
    have hdown : ((num.log2 : Int) - 52).toNat = num.log2 - 52 := by omega
    rw [hup, hdown, Nat.one_mul]
    exact congrArg (·, _) (Nat.mul_one num).symm
  · next hexp =>
    have hup : (-((num.log2 : Int) - 52)).toNat = 52 - num.log2 := by omega
    have hdown : num.log2 - 52 = 0 := by omega
    rw [hup, hdown]
    rfl

theorem fullBits_mul_le_scaled {num : Nat} (hnum : num ≠ 0) :
    fullBits * pow2 (num.log2 - 52) ≤ num * pow2 (52 - num.log2) := by
  have hbits : 52 + (num.log2 - 52) = num.log2 + (52 - num.log2) := by omega
  have hle : pow2 num.log2 ≤ num := Nat.log2_self_le hnum
  rw [fullBits_eq, ← pow2_add, hbits, pow2_add]
  exact Nat.mul_le_mul_right _ hle

theorem scaled_lt_fullBits_mul {num : Nat} :
    num * pow2 (52 - num.log2) < 2 * fullBits * pow2 (num.log2 - 52) := by
  have hbits : 53 + (num.log2 - 52) = num.log2 + 1 + (52 - num.log2) := by omega
  have hlt : num < pow2 (num.log2 + 1) := Nat.lt_log2_self
  rw [fullBits_eq, ← pow2_succ, ← pow2_add, hbits, pow2_add]
  exact mul_pow2_lt hlt _

theorem exponentOf_one {num : Nat} (hnum : num ≠ 0) : exponentOf num 1 = (num.log2 : Int) - 52 := by
  have hguess : (num.log2 : Int) - (Nat.log2 1 : Nat) - 52 = (num.log2 : Int) - 52 := by
    rw [show Nat.log2 1 = 0 by decide]
    omega
  have hfull : ¬ num * pow2 (52 - num.log2) < pow2 (num.log2 - 52) * fullBits := by
    rw [Nat.mul_comm (pow2 _)]
    exact Nat.not_lt.mpr (fullBits_mul_le_scaled hnum)
  unfold exponentOf
  simp only [hguess, scale_log2, if_neg hfull]
  omega

theorem ofRatio?_of_scale (negative : Bool) {num den scaled unit : Nat} {exponent : Int}
    (hnum : num ≠ 0) (hexp : exponentOf num den = exponent)
    (hscale : scale num den exponent = (scaled, unit)) :
    ofRatio? negative num den =
      if roundHalfEven scaled unit = 2 * fullBits then ofParts? negative fullBits (exponent + 1)
      else ofParts? negative (roundHalfEven scaled unit) exponent := by
  unfold ofRatio?
  rw [if_neg hnum, hexp]
  -- not `dsimp`: the pair has to stay one term until it is known
  conv => lhs; zeta
  rw [hscale]

theorem ofParts?_of_fullBits_le (negative : Bool) {significand : Nat} {exponent : Int}
    (hle : fullBits ≤ significand) (hlt : significand < 2 * fullBits) (hlow : -1074 ≤ exponent)
    (hhigh : exponent ≤ 971) :
    ∃ x, ofParts? negative significand exponent = some x ∧ x.negative = negative ∧
      x.significand = significand ∧ x.exponent = exponent :=
  ⟨⟨negative, significand, exponent, hlt, hlow, hhigh, .inl hle⟩, dif_pos _, rfl, rfl, rfl⟩

/-- An integer of at most 1023 bits is rounded to a multiple of the power of two that leaves it 53
bits. -/
theorem ofInt?_eq_some {n : Int} (hn : n ≠ 0) (hbits : n.natAbs.log2 < 1023) :
    ∃ x q, ofInt? n = some x ∧ x.negative = decide (n < 0) ∧
      IsHalfEven (n.natAbs * pow2 (52 - n.natAbs.log2)) (pow2 (n.natAbs.log2 - 52)) q ∧
      x.magnitude = q * pow2 (n.natAbs.log2 + 1022) ∧ (q % 2 = 0 → x.significand % 2 = 0) := by
  generalize hnum : n.natAbs = num at hbits
  have hnum0 : num ≠ 0 := by omega
  have hround := isHalfEven_roundHalfEven (num * pow2 (52 - num.log2)) (pow2_pos (num.log2 - 52))
  generalize hq : roundHalfEven (num * pow2 (52 - num.log2)) (pow2 (num.log2 - 52)) = q at hround
  have hlow : fullBits ≤ q := hround.le_of_mul_le (pow2_pos _) (fullBits_mul_le_scaled hnum0)
  have hhigh : q ≤ 2 * fullBits :=
    hround.le_of_le_mul (pow2_pos _) (Nat.le_of_lt scaled_lt_fullBits_mul)
  rw [ofInt?, hnum, ofRatio?_of_scale _ hnum0 (exponentOf_one hnum0) (scale_log2 num), hq]
  split
  · next hcarry =>
    -- all bits were set and the rounding carried: one bit more, and the significand is even
    obtain ⟨x, hx, hsign, hsig, hexp⟩ := ofParts?_of_fullBits_le (decide (n < 0))
      (Nat.le_refl fullBits) (by decide) (show -1074 ≤ (num.log2 : Int) - 52 + 1 by omega) (by omega)
    have hplace : x.place = num.log2 + 1022 + 1 := by
      unfold place
      omega
    refine ⟨x, q, hx, hsign, hround, ?_, fun _ => by rw [hsig]; rfl⟩
    rw [magnitude, hsig, hplace, pow2_succ, hcarry, Nat.mul_comm 2 fullBits, Nat.mul_assoc]
  · next hcarry =>
    obtain ⟨x, hx, hsign, hsig, hexp⟩ := ofParts?_of_fullBits_le (decide (n < 0)) hlow
      (by omega) (show -1074 ≤ (num.log2 : Int) - 52 by omega) (by omega)
    have hplace : x.place = num.log2 + 1022 := by
      unfold place
      omega
    refine ⟨x, q, hx, hsign, hround, ?_, fun heven => by rw [hsig]; exact heven⟩
    rw [magnitude, hsig, hplace]

/-- An integer of at most 1023 bits has a nearest number, and that is what it is rounded to. -/
theorem exists_ofInt?_isNearest {n : Int} (hbits : n.natAbs.log2 < 1023) :
    ∃ x, ofInt? n = some x ∧ x.IsNearest (n * perOne) := by
  by_cases hn : n = 0
  · refine ⟨zero false, by rw [hn]; rfl, ?_⟩
    rw [hn, Int.zero_mul]
    exact units_zero ▸ IsNearest.self (zero false)
  obtain ⟨x, q, hx, hsign, hround, hmag, heven⟩ := ofInt?_eq_some hn hbits
  refine ⟨x, hx, ?_⟩
  generalize hnum : n.natAbs = num at hround hmag
  -- the same rounding, in units
  have hup : pow2 (52 - num.log2) * pow2 (1074 - (52 - num.log2)) = perOne := by
    rw [← pow2_add, perOne]
    exact congrArg pow2 (by omega)
  have hdown : pow2 (num.log2 - 52) * pow2 (1074 - (52 - num.log2)) = pow2 (num.log2 + 1022) := by
    rw [← pow2_add]
    exact congrArg pow2 (by omega)
  have hscaled := hround.mul_right (pow2_pos (1074 - (52 - num.log2)))
  have hfar := Nat.mul_le_mul_right (pow2 (1074 - (52 - num.log2)))
    (fullBits_mul_le_scaled (show num ≠ 0 by omega))
  rw [Nat.mul_assoc, hup, hdown] at hscaled
  rw [Nat.mul_assoc, Nat.mul_assoc, hup, hdown] at hfar
  by_cases hneg : n < 0
  · have hvalue : n * perOne = -((num * perOne : Nat) : Int) := by
      rw [Int.natCast_mul, ← Int.neg_mul, show n = -(num : Int) by omega]
    have hunits : x.opposite.units = (q * pow2 (num.log2 + 1022) : Nat) := by
      rw [units_opposite, units, hsign, decide_eq_true hneg, ← hmag]
      exact Int.neg_neg _
    have hopposite := (isNearest_of_isHalfEven hscaled hfar hunits heven).opposite
    rwa [opposite_opposite, ← hvalue] at hopposite
  · have hvalue : n * perOne = ((num * perOne : Nat) : Int) := by
      rw [Int.natCast_mul, show n = (num : Int) by omega]
    have hunits : x.units = (q * pow2 (num.log2 + 1022) : Nat) := by
      rw [units, hsign, decide_eq_false hneg, ← hmag]
      rfl
    rw [hvalue]
    exact isNearest_of_isHalfEven hscaled hfar hunits heven

theorem units_eq_of_magnitude_eq {x : Binary64} {n : Int} {k : Nat}
    (hsign : x.negative = decide (n < 0)) (hmag : x.magnitude = n.natAbs * k) : x.units = n * k := by
  rw [units, hsign, hmag, Int.natCast_mul, ← Int.neg_mul]
  by_cases hneg : n < 0
  · rw [decide_eq_true hneg, if_pos rfl, show -(n.natAbs : Int) = n by omega]
  · rw [decide_eq_false hneg, if_neg Bool.false_ne_true, show (n.natAbs : Int) = n by omega]

/-- Every integer of at most 53 bits is the value of a number. -/
theorem exists_units_eq {n : Int} (hn : n.natAbs < 2 * fullBits) :
    ∃ x : Binary64, x.units = n * perOne := by
  by_cases hzero : n = 0
  · exact ⟨zero false, by rw [hzero, Int.zero_mul, units_zero]⟩
  have hbits : n.natAbs.log2 < 53 := (Nat.log2_lt (Int.natAbs_ne_zero.mpr hzero)).mpr hn
  obtain ⟨x, q, -, hsign, hround, hmag, -⟩ := ofInt?_eq_some hzero (by omega)
  refine ⟨x, units_eq_of_magnitude_eq hsign ?_⟩
  -- the unit is one, so that nothing is rounded off
  have hunit : pow2 (n.natAbs.log2 - 52) = 1 := by
    rw [show n.natAbs.log2 - 52 = 0 by omega]
    rfl
  have hexact : q = n.natAbs * pow2 (52 - n.natAbs.log2) := by
    have hle := hround.le
    have hge := hround.ge
    rw [hunit, Nat.mul_one] at hle hge
    omega
  rw [hmag, hexact, Nat.mul_assoc, ← pow2_add, perOne]
  exact congrArg (_ * pow2 ·) (by omega)

end PageTemplates.Binary64
