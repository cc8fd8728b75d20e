import Xraytool.Spec.Models

/-! The calendar of `addDate`: a date read from a day number is that day again, and months added to a date never lead
back in time. -/

namespace Xraytool.Time

/-- The day `s` of the four-year span `k` of the century `c`, and its year. -/
theorem year_of_span {c k s : Int} (hc : 0 ≤ c ∧ c ≤ 3) (hk : 0 ≤ k ∧ k ≤ 24) (hs : 0 ≤ s ∧ s ≤ 1460) :
    ∃ q, 0 ≤ q ∧ q ≤ 3 ∧ 0 ≤ s - 365 * q ∧ s - 365 * q ≤ 365 ∧
      (36524 * c + 1461 * k + s - (36524 * c + 1461 * k + s) / 1460 + c) / 365 = 100 * c + 4 * k + q := by
  obtain ⟨carry, hca⟩ : ∃ carry, carry = (24 * c + k + s) / 1460 := ⟨_, rfl⟩
  have hsp : (36524 * c + 1461 * k + s) / 1460 = 25 * c + k + carry := by omega
  refine ⟨(s - carry) / 365, ?_, ?_, ?_, ?_, ?_⟩
  all_goals omega

theorem yearOfEra_bounds {doe yoe : Int} (hlow : 0 ≤ doe) (hhi : doe < 146097)
    (hyoe : yoe = (doe - doe / 1460 + doe / 36524 - doe / 146096) / 365) :
    0 ≤ yoe ∧ yoe < 400 ∧ 0 ≤ doe - (365 * yoe + yoe / 4 - yoe / 100) ∧ doe - (365 * yoe + yoe / 4 - yoe / 100) ≤ 365 := by
  by_cases hla : doe = 146096
  · subst hla
    subst hyoe
    decide
  -- centuries, and in them spans of four years
  obtain ⟨c, hc⟩ : ∃ c, c = doe / 36524 := ⟨_, rfl⟩
  obtain ⟨k, hk⟩ : ∃ k, k = (doe - 36524 * c) / 1461 := ⟨_, rfl⟩
  obtain ⟨s, hs⟩ : ∃ s, s = doe - 36524 * c - 1461 * k := ⟨_, rfl⟩
  obtain ⟨q, hq, hq', hday, hday', hye⟩ := year_of_span (c := c) (k := k) (s := s) (by omega) (by omega) (by omega)
  have hdoe : 36524 * c + 1461 * k + s = doe := by omega
  have hera : doe / 146096 = 0 := by omega
  rw [hdoe] at hye
  rw [hera, ← hc, Int.sub_zero, hye] at hyoe
  have hc' : 0 ≤ c ∧ c ≤ 3 := by omega
  have hk' : 0 ≤ k ∧ k ≤ 24 := by omega
  have hfo : yoe / 4 = 25 * c + k := by rw [hyoe]; omega
  have hhun : yoe / 100 = c := by rw [hyoe]; omega
  rw [hfo, hhun]
  clear hye hera hc hk hs
  omega

/-- A day number by era, year of the era, day of the year and month, with years that start in March. -/
theorem civilOfDays_eq {days : Int} : ∃ era yoe doy mp : Int, 0 ≤ yoe ∧ yoe < 400 ∧ 0 ≤ doy ∧ doy ≤ 365 ∧
    mp = (5 * doy + 2) / 153 ∧ days = era * 146097 + (yoe * 365 + yoe / 4 - yoe / 100 + doy) - 719468 ∧
    civilOfDays days = ⟨yoe + era * 400 + (if (if mp < 10 then mp + 3 else mp - 9) ≤ 2 then 1 else 0),
      if mp < 10 then mp + 3 else mp - 9, doy - (153 * mp + 2) / 5 + 1⟩ := by
  obtain ⟨era, hera⟩ : ∃ era, era = (days + 719468) / 146097 := ⟨_, rfl⟩
  obtain ⟨doe, hdoe⟩ : ∃ doe, doe = days + 719468 - era * 146097 := ⟨_, rfl⟩
  obtain ⟨yoe, hyoe⟩ : ∃ yoe, yoe = (doe - doe / 1460 + doe / 36524 - doe / 146096) / 365 := ⟨_, rfl⟩
  obtain ⟨hye, hye', hday, hday'⟩ := yearOfEra_bounds (by omega) (by omega) hyoe
  refine ⟨era, yoe, doe - (365 * yoe + yoe / 4 - yoe / 100), _, hye, hye', hday, hday', rfl, ?_, ?_⟩
  · clear hyoe
    omega
  · rw [hyoe, hdoe, hera]
    rfl

theorem daysOfCivil_civilOfDays (days : Int) :
    daysOfCivil (civilOfDays days).year (civilOfDays days).month (civilOfDays days).day = days := by
  obtain ⟨era, yoe, doy, mp, hyoe, hyoe', hdoy, hdoy', hmp, hda, hci⟩ := civilOfDays_eq
  have hye : (yoe + era * 400) / 400 = era := by omega
  have hre : yoe + era * 400 - era * 400 = yoe := by omega
  rw [hci]
  unfold daysOfCivil
  by_cases hmo : mp < 10
  · have hmp' : mp + 3 - 3 = mp := by omega
    simp only [if_pos hmo, if_neg (show ¬ mp + 3 ≤ 2 by omega), if_pos (show mp + 3 > 2 by omega), Int.add_zero,
      hye, hre, hmp']
    omega
  · have hmp' : mp - 9 + 9 = mp := by omega
    have hyea : yoe + era * 400 + 1 - 1 = yoe + era * 400 := by omega
    simp only [if_neg hmo, if_pos (show mp - 9 ≤ 2 by omega), if_neg (show ¬ mp - 9 > 2 by omega), hyea, hye, hre, hmp']
    omega

theorem month_civilOfDays (days : Int) : 1 ≤ (civilOfDays days).month ∧ (civilOfDays days).month ≤ 12 := by
  obtain ⟨era, yoe, doy, mp, -, -, hdoy, hdoy', hmp, -, hci⟩ := civilOfDays_eq
  rw [hci]
  dsimp only
  split_ifs <;> omega

def daysBefore (y : Int) : Int := 365 * y + y / 4 - y / 100 + y / 400

theorem daysOfCivil_eq {year month d : Int} : daysOfCivil year month d =
    daysBefore (if month ≤ 2 then year - 1 else year) +
      ((153 * (if month > 2 then month - 3 else month + 9) + 2) / 5 + d - 1) - 719468 := by
  unfold daysOfCivil daysBefore
  generalize (if month ≤ 2 then year - 1 else year) = y
  dsimp only
  have hfo : (y - y / 400 * 400) / 4 = y / 4 - 100 * (y / 400) := by omega
  have hhun : (y - y / 400 * 400) / 100 = y / 100 - 4 * (y / 400) := by omega
  rw [hfo, hhun]
  omega

theorem daysBefore_succ (y : Int) : daysBefore y + 365 ≤ daysBefore (y + 1) := by
  unfold daysBefore
  omega

theorem daysOfCivil_nextMonth (n d : Int) :
    daysOfCivil (n / 12) (n % 12 + 1) d ≤ daysOfCivil ((n + 1) / 12) ((n + 1) % 12 + 1) d := by
  have hye := daysBefore_succ (n / 12 - 1)
  rw [Int.sub_add_cancel] at hye
  rw [daysOfCivil_eq, daysOfCivil_eq]
  by_cases hdec : n % 12 = 11
  · -- the March-based year stays the same
    have hne : (n + 1) / 12 = n / 12 + 1 := by omega
    have hmo : (n + 1) % 12 = 0 := by omega
    rw [hne, hmo, hdec, if_neg (by decide), if_pos (by decide), if_pos (by decide), if_neg (by decide),
      Int.add_sub_cancel]
    omega
  · have hne : (n + 1) / 12 = n / 12 := by omega
    have hmo : (n + 1) % 12 = n % 12 + 1 := by omega
    rw [hne, hmo]
    split_ifs <;> omega

theorem daysOfCivil_laterMonth (n d : Int) (months : Nat) :
    daysOfCivil (n / 12) (n % 12 + 1) d ≤ daysOfCivil ((n + months) / 12) ((n + months) % 12 + 1) d := by
  induction months with
  | zero => simp
  | succ months ih =>
    have hne := daysOfCivil_nextMonth (n + months) d
    rw [Int.natCast_succ, ← Int.add_assoc]
    exact Int.le_trans ih hne

theorem le_addDate (t : Time) {months : Int} (hmon : 0 ≤ months) : t ≤ addDate t 0 months 0 := by
  obtain ⟨k, rfl⟩ := Int.eq_ofNat_of_zero_le hmon
  obtain ⟨hlow, hhi⟩ := month_civilOfDays (t / day)
  have hday : 0 ≤ day := by decide
  have hla := daysOfCivil_laterMonth (12 * (civil t).year + ((civil t).month - 1)) (civil t).day k
  have hda : t / day ≤ daysOfCivil ((civil t).year + 0 + ((civil t).month - 1 + k) / 12)
      (((civil t).month - 1 + k) % 12 + 1) ((civil t).day + 0) := by
    have hba : daysOfCivil (civil t).year (civil t).month (civil t).day = t / day := daysOfCivil_civilOfDays (t / day)
    unfold civil at *
    rw [show (12 * (civilOfDays (t / day)).year + ((civilOfDays (t / day)).month - 1)) / 12 =
        (civilOfDays (t / day)).year by omega,
      show (12 * (civilOfDays (t / day)).year + ((civilOfDays (t / day)).month - 1)) % 12 + 1 =
        (civilOfDays (t / day)).month by omega, hba] at hla
    refine Int.le_trans hla (Int.le_of_eq ?_)
    congr 1 <;> omega
  calc t = t / day * day + t % day := by rw [Int.mul_comm]; exact (Int.mul_ediv_add_emod t day).symm
    _ ≤ addDate t 0 k 0 := Int.add_le_add_right (Int.mul_le_mul_of_nonneg_right hda hday) _

end Xraytool.Time
