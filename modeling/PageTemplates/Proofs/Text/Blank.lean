import PageTemplates.Text.Alphanumeric
import PageTemplates.Text.Blank

/-!
Blank characters are neither letters nor digits.
-/

namespace PageTemplates.Text

/-- The characters of some ranges, one by one. -/
def Ranges.chars (ranges : Ranges) : List Char :=
  ranges.flatMap fun (first, last) => (List.range' first (last + 1 - first)).map Char.ofNat

theorem Ranges.mem_chars_of_contains {ranges : Ranges} {c : Char}
    (hc : ranges.contains c = true) : c ∈ ranges.chars := by
  obtain ⟨⟨first, last⟩, hrange, hbounds⟩ := List.any_eq_true.mp hc
  rw [Bool.and_eq_true, decide_eq_true_eq, decide_eq_true_eq] at hbounds
  refine List.mem_flatMap.mpr ⟨(first, last), hrange, List.mem_map.mpr ⟨c.toNat, ?_, ?_⟩⟩
  · rw [List.mem_range'_1]
    omega
  · exact Char.ofNat_toNat c

theorem isBlank_of_isAlphanumeric {c : Char} (hc : isAlphanumeric c = true) :
    isBlank c = false := by
  have hblanks : blanks.chars.all (fun c => !isAlphanumeric c) = true := by decide +kernel
  rw [Bool.eq_false_iff]
  intro hblank
  have hnot := List.all_eq_true.mp hblanks c (Ranges.mem_chars_of_contains hblank)
  rw [hc] at hnot
  cases hnot

end PageTemplates.Text
