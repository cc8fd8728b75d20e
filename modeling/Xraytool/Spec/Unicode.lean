import Mathlib.Data.List.Basic

/-! Spaces and the two cases of a letter, as in Go's `unicode` package. ASCII letters come first, as there. -/

namespace Xraytool

/-- From the first to the last space of each range. -/
def spaces : List (Nat × Nat) :=
  [(0x09, 0x0d), (0x20, 0x20), (0x85, 0x85), (0xa0, 0xa0), (0x1680, 0x1680), (0x2000, 0x200a), (0x2028, 0x2029),
   (0x202f, 0x202f), (0x205f, 0x205f), (0x3000, 0x3000)]

def isSpace (c : Char) : Bool := spaces.any fun (first, last) => first ≤ c.toNat && c.toNat ≤ last

/-- Every other code point from `first` to `last` (with `stride` 2) has its other case at the same place from `image`. -/
structure CaseRange where
  first : Nat
  last : Nat
  image : Nat
  stride : Nat

def CaseRange.find (r : CaseRange) (n : Nat) : Option Nat :=
  if r.first ≤ n ∧ n ≤ r.last ∧ (n - r.first) % r.stride = 0 then some (r.image + (n - r.first)) else none

/-- The first capital letter, and how many there are; each small letter follows its capital. -/
def alternating : List (Nat × Nat) :=
  [(256, 24), (306, 3), (313, 8), (330, 23), (377, 3), (386, 2), (391, 1), (395, 1), (401, 1), (408, 1), (416, 3),
   (423, 1), (428, 1), (431, 1), (435, 2), (440, 1), (444, 1), (461, 8), (478, 9), (500, 1), (504, 20), (546, 9),
   (571, 1), (577, 1), (582, 5), (880, 2), (886, 1), (984, 12), (1015, 1), (1018, 1), (1120, 17), (1162, 27), (1217, 7),
   (1232, 48), (7680, 75), (7840, 48), (8579, 1), (11360, 1), (11367, 3), (11378, 1), (11381, 1), (11392, 50),
   (11499, 2), (11506, 1), (42560, 23), (42624, 14), (42786, 7), (42802, 31), (42873, 2), (42878, 5), (42891, 1),
   (42896, 2), (42902, 10), (42932, 8), (42951, 2), (42960, 1), (42966, 2), (42997, 1)]

/-- The first capital letter, how many there are, and the first small one. -/
def shifted : List (Nat × Nat × Nat) :=
  [(192, 23, 224), (216, 7, 248), (376, 1, 255), (385, 1, 595), (390, 1, 596), (393, 2, 598), (398, 1, 477),
   (399, 1, 601), (400, 1, 603), (403, 1, 608), (404, 1, 611), (406, 1, 617), (407, 1, 616), (412, 1, 623),
   (413, 1, 626), (415, 1, 629), (422, 1, 640), (425, 1, 643), (430, 1, 648), (433, 2, 650), (439, 1, 658),
   (452, 1, 454), (455, 1, 457), (458, 1, 460), (497, 1, 499), (502, 1, 405), (503, 1, 447), (544, 1, 414),
   (570, 1, 11365), (573, 1, 410), (574, 1, 11366), (579, 1, 384), (580, 1, 649), (581, 1, 652), (895, 1, 1011),
   (902, 1, 940), (904, 3, 941), (908, 1, 972), (910, 2, 973), (913, 17, 945), (931, 9, 963), (975, 1, 983),
   (1017, 1, 1010), (1021, 3, 891), (1024, 16, 1104), (1040, 32, 1072), (1216, 1, 1231), (1329, 38, 1377),
   (4256, 38, 11520), (4295, 1, 11559), (4301, 1, 11565), (5024, 80, 43888), (5104, 6, 5112), (7312, 43, 4304),
   (7357, 3, 4349), (7944, 8, 7936), (7960, 6, 7952), (7976, 8, 7968), (7992, 8, 7984), (8008, 6, 8000),
   (8025, 1, 8017), (8027, 1, 8019), (8029, 1, 8021), (8031, 1, 8023), (8040, 8, 8032), (8072, 8, 8064),
   (8088, 8, 8080), (8104, 8, 8096), (8120, 2, 8112), (8122, 2, 8048), (8124, 1, 8115), (8136, 4, 8050),
   (8140, 1, 8131), (8152, 2, 8144), (8154, 2, 8054), (8168, 2, 8160), (8170, 2, 8058), (8172, 1, 8165),
   (8184, 2, 8056), (8186, 2, 8060), (8188, 1, 8179), (8498, 1, 8526), (8544, 16, 8560), (9398, 26, 9424),
   (11264, 48, 11312), (11362, 1, 619), (11363, 1, 7549), (11364, 1, 637), (11373, 1, 593), (11374, 1, 625),
   (11375, 1, 592), (11376, 1, 594), (11390, 2, 575), (42877, 1, 7545), (42893, 1, 613), (42922, 1, 614),
   (42923, 1, 604), (42924, 1, 609), (42925, 1, 620), (42926, 1, 618), (42928, 1, 670), (42929, 1, 647),
   (42930, 1, 669), (42931, 1, 43859), (42948, 1, 42900), (42949, 1, 642), (42950, 1, 7566), (65313, 26, 65345),
   (66560, 40, 66600), (66736, 36, 66776), (66928, 11, 66967), (66940, 15, 66979), (66956, 7, 66995), (66964, 2, 67003),
   (68736, 51, 68800), (71840, 32, 71872), (93760, 32, 93792), (125184, 34, 125218)]

def lowerRanges : List CaseRange :=
  alternating.map (fun (first, count) => ⟨first, first + 2 * (count - 1), first + 1, 2⟩) ++
    shifted.map (fun (first, count, image) => ⟨first, first + count - 1, image, 1⟩) ++
    -- letters that are not the capital of the small letter they have
    [(304, 105), (453, 454), (456, 457), (459, 460), (498, 499), (1012, 952), (7838, 223), (8486, 969), (8490, 107),
      (8491, 229)].map fun (n, image) => ⟨n, n, image, 1⟩

def upperRanges : List CaseRange :=
  alternating.map (fun (first, count) => ⟨first + 1, first + 2 * count - 1, first, 2⟩) ++
    shifted.map (fun (first, count, image) => ⟨image, image + count - 1, first, 1⟩) ++
    [(181, 924), (305, 73), (383, 83), (453, 452), (456, 455), (459, 458), (498, 497), (837, 921), (962, 931),
      (976, 914), (977, 920), (981, 934), (982, 928), (1008, 922), (1009, 929), (1013, 917), (7296, 1042), (7297, 1044),
      (7298, 1054), (7299, 1057), (7300, 1058), (7301, 1058), (7302, 1066), (7303, 1122), (7304, 42570), (7835, 7776),
      (8126, 921)].map fun (n, image) => ⟨n, n, image, 1⟩

def mapRune (ascii : Char → Char) (ranges : List CaseRange) (c : Char) : Char :=
  if c.toNat < 128 then ascii c else match ranges.findSome? (·.find c.toNat) with
    | some n => Char.ofNat n
    | none => c

def upperRune : Char → Char := mapRune Char.toUpper upperRanges

def lowerRune : Char → Char := mapRune Char.toLower lowerRanges

/-- One letter for all that `unicode.SimpleFold` leads to; the capital i with a dot and the small one without are
alone. -/
def foldRune (c : Char) : Char := if c.toNat = 304 ∨ c.toNat = 305 then c else lowerRune (upperRune c)

example : foldRune '\u212a' = foldRune 'k' ∧ foldRune '\u0434' = foldRune '\u0414' := by decide +kernel

variable {c : Char} {n m : Nat} {r : CaseRange}

theorem isSpace_eq_false {lo hi : Nat} (h : lo ≤ c.toNat) (h' : c.toNat ≤ hi)
    (hap : (spaces.all fun (first, last) => decide (hi < first ∨ last < lo)) = true) : isSpace c = false := by
  refine List.any_eq_false.2 fun r hr hin => ?_
  have hout := of_decide_eq_true (List.all_eq_true.1 hap r hr)
  simp only [Bool.and_eq_true, decide_eq_true_eq] at hin
  omega

namespace CaseRange

theorem find_eq_some (h : r.find n = some m) :
    r.first ≤ n ∧ n ≤ r.last ∧ (n - r.first) % r.stride = 0 ∧ m = r.image + (n - r.first) := by
  unfold find at h
  split_ifs at h with hin
  cases h
  exact ⟨hin.1, hin.2.1, hin.2.2, rfl⟩

/-- No space is in the range or in its image, which is of code points. -/
def isClean (r : CaseRange) : Bool :=
  (spaces.all fun (first, last) => decide (r.last < first ∨ last < r.first)) &&
    (spaces.all fun (first, last) => decide (r.image + (r.last - r.first) < first ∨ last < r.image)) &&
    decide (r.image + (r.last - r.first) < 0xd800 ∨ 0xdfff < r.image ∧ r.image + (r.last - r.first) < 0x110000)

/-- The image of the first range is not in the second, and has no ASCII capital. -/
def isApart (r r' : CaseRange) : Bool :=
  (Nat.blt (r.image + (r.last - r.first)) r'.first || Nat.blt r'.last r.image ||
    r.stride == 2 && r'.stride == 2 && r.image % 2 != r'.first % 2) && Nat.blt 90 r.image

end CaseRange

theorem clean_ranges : (lowerRanges ++ upperRanges).all CaseRange.isClean = true := by decide +kernel

theorem apart_lowerRanges : (lowerRanges.all fun r => lowerRanges.all r.isApart) = true := by decide +kernel

theorem toNat_image (hr : r ∈ lowerRanges ++ upperRanges) (h : r.find n = some m) : (Char.ofNat m).toNat = m := by
  obtain ⟨hlo, hhi, -, rfl⟩ := CaseRange.find_eq_some h
  have hcl := List.all_eq_true.1 clean_ranges r hr
  simp only [CaseRange.isClean, Bool.and_eq_true, decide_eq_true_eq] at hcl
  have hval : (r.image + (n - r.first)).isValidChar := by
    have := hcl.2
    unfold Nat.isValidChar
    omega
  rw [Char.ofNat, dif_pos hval]
  rfl

theorem isSpace_mapRune {ascii : Char → Char} {ranges : List CaseRange} (hra : ranges ⊆ lowerRanges ++ upperRanges)
    (has : ∀ n < 128, isSpace (ascii (.ofNat n)) = isSpace (.ofNat n)) (c : Char) :
    isSpace (mapRune ascii ranges c) = isSpace c := by
  unfold mapRune
  split_ifs with hc
  · have := has c.toNat hc
    rwa [Char.ofNat_toNat] at this
  split
  · next m hm =>
    obtain ⟨r, hr, hf⟩ := List.exists_of_findSome?_eq_some hm
    have hval := toNat_image (hra hr) hf
    obtain ⟨hlo, hhi, -, rfl⟩ := CaseRange.find_eq_some hf
    have hcl := List.all_eq_true.1 clean_ranges r (hra hr)
    simp only [CaseRange.isClean, Bool.and_eq_true] at hcl
    rw [isSpace_eq_false hlo hhi hcl.1.1, isSpace_eq_false (by omega) (by omega) hcl.1.2]
  · rfl

theorem isSpace_upperRune : ∀ c, isSpace (upperRune c) = isSpace c :=
  isSpace_mapRune (List.subset_append_right _ _) (by decide)

theorem isSpace_lowerRune : ∀ c, isSpace (lowerRune c) = isSpace c :=
  isSpace_mapRune (List.subset_append_left _ _) (by decide)

theorem lowerRune_idem (c : Char) : lowerRune (lowerRune c) = lowerRune c := by
  by_cases hc : c.toNat < 128
  · have has : ∀ n < 128, lowerRune (lowerRune (.ofNat n)) = lowerRune (.ofNat n) := by decide
    have := has c.toNat hc
    rwa [Char.ofNat_toNat] at this
  rcases hm : lowerRanges.findSome? (·.find c.toNat) with - | m
  · have hst : lowerRune c = c := by rw [lowerRune, mapRune, if_neg hc, hm]
    rw [hst, hst]
  have hlow : lowerRune c = .ofNat m := by rw [lowerRune, mapRune, if_neg hc, hm]
  obtain ⟨r, hr, hf⟩ := List.exists_of_findSome?_eq_some hm
  have hval := toNat_image (List.mem_append_left _ hr) hf
  have hap (r' : CaseRange) (hr' : r' ∈ lowerRanges) : r.isApart r' = true :=
    List.all_eq_true.1 (List.all_eq_true.1 apart_lowerRanges r hr) r' hr'
  obtain ⟨hlo, hhi, hst, hmeq⟩ := CaseRange.find_eq_some hf
  rw [hlow]
  by_cases hm128 : m < 128
  · have has : ∀ n < 128, 90 < n → lowerRune (.ofNat n) = .ofNat n := by decide
    have h90 := hap r hr
    simp only [CaseRange.isApart, Bool.and_eq_true, Nat.blt_eq] at h90
    exact has m hm128 (by omega)
  have hno : lowerRanges.findSome? (·.find m) = none := by
    refine List.findSome?_eq_none_iff.2 fun r' hr' => Option.eq_none_iff_forall_ne_some.2 fun k hk => ?_
    obtain ⟨hlo', hhi', hst', -⟩ := CaseRange.find_eq_some hk
    have hapr := hap r' hr'
    simp only [CaseRange.isApart, Bool.and_eq_true, Bool.or_eq_true, Nat.blt_eq, beq_iff_eq, bne_iff_ne] at hapr
    rcases hapr.1 with (h | h) | ⟨⟨h, h'⟩, hpar⟩
    · omega
    · omega
    · rw [h] at hst
      rw [h'] at hst'
      omega
  rw [lowerRune, mapRune, hval, if_neg hm128, hno]

end Xraytool
