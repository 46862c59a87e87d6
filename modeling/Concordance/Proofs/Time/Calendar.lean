import Concordance.Time.Calendar

namespace Concordance

theorem daysBeforeMonth_succ (year : Int) {month : Nat} (h : 0 < month) :
    daysBeforeMonth year (month + 1) = daysBeforeMonth year month + daysInMonth year month := by
  obtain ⟨m, rfl⟩ := Nat.exists_eq_add_one.2 h
  simp [daysBeforeMonth, List.range_succ]

theorem daysInMonth_le (year : Int) (month : Nat) : daysInMonth year month ≤ 31 := by
  unfold daysInMonth
  split
  · split <;> decide
  · split <;> decide

theorem daysBeforeMonth_le (year : Int) {month : Nat} (h : 0 < month) :
    daysBeforeMonth year month + 31 ≤ 31 * month := by
  obtain ⟨m, rfl⟩ := Nat.exists_eq_add_one.2 h
  induction m with
  | zero => exact Nat.le_refl 31
  | succ m ih =>
    have hpos : 0 < m + 1 := Nat.succ_pos m
    have hm := ih hpos
    have hd := daysInMonth_le year (m + 1)
    rw [daysBeforeMonth_succ year hpos]
    omega

theorem daysBeforeMonth_thirteen (year : Int) :
    daysBeforeMonth year 13 = if isLeapYear year then 366 else 365 := by
  cases h : isLeapYear year <;> simp [daysBeforeMonth, daysInMonth, List.range_succ, h]

theorem daysBeforeYear_succ (year : Int) :
    daysBeforeYear (year + 1) = daysBeforeYear year + daysBeforeMonth year 13 := by
  have hl : isLeapYear year = true ↔ year % 4 = 0 ∧ (year % 100 ≠ 0 ∨ year % 400 = 0) := by
    simp [isLeapYear]
  rw [daysBeforeMonth_thirteen]
  simp only [daysBeforeYear]
  split
  next h =>
    have h := hl.1 h
    omega
  next h =>
    have h := mt hl.2 h
    omega

namespace Date

def next (d : Date) : Date :=
  if d.day < daysInMonth d.year d.month then { d with day := d.day + 1 }
  else if d.month < 12 then ⟨d.year, d.month + 1, 1⟩
  else ⟨d.year + 1, 1, 1⟩

variable {d : Date}

theorem isValid_iff : d.isValid = true ↔ (firstYear ≤ d.year ∧ d.year ≤ lastYear) ∧
    (1 ≤ d.month ∧ d.month ≤ 12) ∧ 1 ≤ d.day ∧ d.day ≤ daysInMonth d.year d.month := by
  simp [isValid, and_assoc]

theorem isValid_next (h : d.isValid = true) (hlast : d ≠ ⟨lastYear, 12, 31⟩) :
    d.next.isValid = true := by
  obtain ⟨year, month, day⟩ := d
  obtain ⟨⟨hfirst, hyear⟩, ⟨hlow, hhigh⟩, hday, hlen⟩ := isValid_iff.1 h
  rw [isValid_iff, next]
  simp only at hfirst hyear hlow hhigh hday hlen ⊢
  split
  · simp only
    omega
  next hend =>
    split
    · have hpos := daysInMonth_pos year (month + 1)
      simp only
      omega
    next hlate =>
      have hpos := daysInMonth_pos (year + 1) 1
      have hlong : daysInMonth year 12 = 31 := rfl
      have hmonth : month = 12 := by omega
      subst hmonth
      have hday : day = 31 := by omega
      subst hday
      have hbefore : year ≠ lastYear := fun hy => hlast (by rw [hy])
      simp only
      omega

theorem dayNumber_next (h : d.isValid = true) : d.next.dayNumber = d.dayNumber + 1 := by
  obtain ⟨-, ⟨hfirst, hlast⟩, -, hday⟩ := isValid_iff.1 h
  unfold next
  split
  · simp only [dayNumber]
    omega
  next hend =>
    have hday : d.day = daysInMonth d.year d.month := by omega
    split
    next =>
      simp only [dayNumber, daysBeforeMonth_succ d.year hfirst]
      omega
    next hlate =>
      have hmonth : d.month = 12 := by omega
      have hyear := daysBeforeMonth_succ d.year hfirst
      rw [hmonth] at hyear hday
      simp only [dayNumber, daysBeforeYear_succ, hyear, hmonth, hday]
      show _ + (daysBeforeMonth (d.year + 1) 1 : Int) + _ - _ - _ = _
      rw [show daysBeforeMonth (d.year + 1) 1 = 0 from rfl]
      omega

example : (Date.mk 1970 1 1).dayNumber = 0 := by decide

theorem dayNumber_bounds (h : d.isValid = true) (hlow : 0 ≤ d.year) (hhigh : d.year ≤ 9999) :
    -719528 ≤ d.dayNumber ∧ d.dayNumber < 2932907 := by
  obtain ⟨-, ⟨hfirst, hlast⟩, hday, hlen⟩ := isValid_iff.1 h
  have hd := daysInMonth_le d.year d.month
  have hm := daysBeforeMonth_le d.year hfirst
  simp only [dayNumber, daysBeforeYear]
  omega

end Date

end Concordance
