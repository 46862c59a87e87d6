import Concordance.Proofs.Time.Parts
import Concordance.Proofs.Time.Calendar
import Concordance.Proofs.Time.Seconds

/-!
The notations of one instant.  A moment is written with its offset or without one, as a date alone
or as a number of seconds; though the notations are tried in turn, each is read as what it means.
-/

namespace Concordance

open Timestamp

/-- A date and a time of day that four digits of a year and nine digits of a second can write. -/
structure Moment where
  date : Date
  hour : Nat
  minute : Nat
  second : Nat
  fraction : List Char
  date_valid : date.isValid = true
  year_nonneg : 0 ≤ date.year
  year_le : date.year ≤ 9999
  hour_lt : hour < 24
  minute_lt : minute < 60
  second_lt : second < 60
  fraction_digits : ∀ c ∈ fraction, c.isDigit = true
  fraction_length : fraction.length ≤ 9

inductive Zone where
  | missing
  | utc
  | ahead (offset : Offset)
  deriving DecidableEq, Repr

namespace Zone

def chars : Zone → List Char
  | missing => []
  | utc => ['Z']
  | ahead o => o.chars

def shown? : Zone → Option Int
  | missing => none
  | utc => some 0
  | ahead o => some o.seconds

def seconds (zone : Zone) : Int := zone.shown?.getD 0

variable (zone : Zone)

theorem chars_not_blank : ∀ c ∈ zone.chars, isBlank c = false := by
  cases zone with
  | missing => simp [chars]
  | utc => exact List.forall_mem_singleton.2 (by decide)
  | ahead o => exact o.chars_not_blank

theorem offset?_chars : offset? zone.chars = zone.shown?.map (·, []) := by
  cases zone with
  | missing => rfl
  | utc => rfl
  | ahead o => exact o.offset?_chars

theorem head?_chars : ∀ c ∈ zone.chars.head?, c.isDigit = false ∧ c ≠ '.' := by
  intro c hc
  cases zone with
  | missing => cases hc
  | utc =>
    cases hc
    decide
  | ahead o =>
    cases hc
    rcases o.sign_cases with h | h <;> rw [h] <;> decide

end Zone

def Instant.before (t : Instant) (seconds : Int) : Instant := ⟨t.seconds - seconds, t.nanos⟩

@[simp] theorem Instant.before_zero (t : Instant) : t.before 0 = t := by
  simp [before]

namespace Moment

variable (m : Moment)

def seconds : Int := m.date.dayNumber * 86400 + m.hour * 3600 + m.minute * 60 + m.second

def instant : Instant := ⟨m.seconds, fractionNanos m.fraction⟩

def midnight : Moment :=
  { m with
    hour := 0, minute := 0, second := 0, fraction := [], hour_lt := by decide,
    minute_lt := by decide, second_lt := by decide, fraction_digits := by simp,
    fraction_length := by decide }

def dateChars : List Char :=
  padded 4 m.date.year.toNat ++ '-' :: (padded 2 m.date.month ++ '-' :: padded 2 m.date.day)

def timeChars : List Char :=
  padded 2 m.hour ++ ':' :: (padded 2 m.minute ++ ':' :: (padded 2 m.second ++
    fractionChars m.fraction))

def dateText : String := String.ofList m.dateChars

def text (mark : Char) (zone : Zone) : String :=
  String.ofList (m.dateChars ++ mark :: (m.timeChars ++ zone.chars))

theorem year_toNat : (m.date.year.toNat : Int) = m.date.year := Int.toNat_of_nonneg m.year_nonneg

theorem year_lt : m.date.year.toNat < 10 ^ 4 := by
  have hyear := m.year_le
  omega

theorem month_lt : m.date.month < 10 ^ 2 := by
  obtain ⟨-, ⟨-, hmonth⟩, -⟩ := Date.isValid_iff.1 m.date_valid
  omega

theorem day_lt : m.date.day < 10 ^ 2 := by
  obtain ⟨-, -, -, hday⟩ := Date.isValid_iff.1 m.date_valid
  have hlen := daysInMonth_le m.date.year m.date.month
  omega

theorem hour_digits : m.hour < 10 ^ 2 := Nat.lt_trans m.hour_lt (by decide)

theorem minute_digits : m.minute < 10 ^ 2 := Nat.lt_trans m.minute_lt (by decide)

theorem second_digits : m.second < 10 ^ 2 := Nat.lt_trans m.second_lt (by decide)

def clock : Clock := ⟨m.date, m.hour, m.minute, m.second, fractionNanos m.fraction⟩

theorem instant?_clock (offset : Int) :
    m.clock.instant? offset = some (m.instant.before offset) := by
  have hvalid : m.clock.isValid = true := by
    have hsecond : m.second ≤ 60 := Nat.le_of_lt m.second_lt
    simp [Clock.isValid, clock, m.date_valid, m.hour_lt, m.minute_lt, hsecond]
  have hleap : (m.clock.second == 60) = false := beq_false_of_ne (Nat.ne_of_lt m.second_lt)
  rw [Clock.instant?, if_pos hvalid, hleap]
  simp only [clock, instant, Instant.before, seconds, Bool.false_eq_true, if_false, Nat.zero_add]
  congr 2
  omega

theorem date?_dateChars (rest : List Char) :
    date? (m.dateChars ++ rest) = some (m.date, rest) := by
  simp [date?, dateChars, List.append_assoc, year?_padded m.year_lt, field?_padded _ m.month_lt,
    field?_padded _ m.day_lt, m.year_toNat]

theorem fraction?_zone (zone : Zone) : fraction? (fractionChars m.fraction ++ zone.chars) =
    some (fractionNanos m.fraction, zone.chars) :=
  fraction?_fractionChars m.fraction_digits m.fraction_length zone.head?_chars

theorem readInstant?_chars {mark : Char} (hmark : mark = 'T' ∨ mark = ' ') (zone : Zone) :
    readInstant? (m.dateChars ++ mark :: (m.timeChars ++ zone.chars)) =
      zone.shown?.map m.instant.before := by
  have hbetween : ∀ cs, between? (mark :: cs) = some cs := by
    rcases hmark with rfl | rfl <;> exact fun _ => rfl
  have hclock : ∀ offset, (Clock.mk ⟨m.date.year.toNat, m.date.month, m.date.day⟩ m.hour m.minute
      m.second (fractionNanos m.fraction)).instant? offset = some (m.instant.before offset) := by
    rw [m.year_toNat]
    exact m.instant?_clock
  simp only [dateChars, timeChars, List.append_assoc, List.cons_append]
  refine (read_bind (digits?_full (by decide) m.year_lt _)).trans ?_
  refine (read_bind (mark?_self ..)).trans ?_
  refine (read_bind (digits?_full (by decide) m.month_lt _)).trans ?_
  refine (read_bind (mark?_self ..)).trans ?_
  refine (read_bind (digits?_full (by decide) m.day_lt _)).trans ?_
  refine (read_bind (hbetween _)).trans ?_
  refine (read_bind (digits?_full (by decide) m.hour_digits _)).trans ?_
  refine (read_bind (mark?_self ..)).trans ?_
  refine (read_bind (digits?_full (by decide) m.minute_digits _)).trans ?_
  refine (read_bind (mark?_self ..)).trans ?_
  refine (read_bind (digits?_full (by decide) m.second_digits _)).trans ?_
  refine (read_bind (m.fraction?_zone zone)).trans ?_
  show (offset? zone.chars >>= _) = _
  rw [zone.offset?_chars]
  cases zone.shown? with
  | none => rfl
  | some offset => exact hclock offset

theorem readClock?_chars {between : List Char → Option (List Char)} {mark : Char}
    (hbetween : between (mark :: m.timeChars) = some m.timeChars) :
    readClock? between (m.dateChars ++ mark :: m.timeChars) = some m.instant := by
  have hfraction := m.fraction?_zone .missing
  rw [show Zone.missing.chars = [] from rfl, List.append_nil] at hfraction
  refine (read_bind (m.date?_dateChars _)).trans ?_
  refine (read_bind hbetween).trans ?_
  refine (read_bind (field?_padded (by decide) m.hour_digits _)).trans ?_
  refine (read_bind (mark?_self ..)).trans ?_
  refine (read_bind (field?_padded (by decide) m.minute_digits _)).trans ?_
  refine (read_bind (mark?_self ..)).trans ?_
  refine (read_bind (field?_padded (by decide) m.second_digits _)).trans ?_
  refine (read_bind hfraction).trans ?_
  exact (m.instant?_clock 0).trans (congrArg some m.instant.before_zero)

theorem readDate?_chars : readDate? m.dateChars = some m.midnight.instant := by
  have hdate := m.date?_dateChars []
  rw [List.append_nil] at hdate
  have hclock : Clock.mk m.date 0 0 0 0 = m.midnight.clock := by
    simp [clock, midnight, fractionNanos, digitsValue]
  refine (read_bind hdate).trans ?_
  show (Clock.mk m.date 0 0 0 0).instant? 0 = _
  rw [hclock, m.midnight.instant?_clock, Instant.before_zero]

theorem readers_dateChars : readInstant? m.dateChars = none ∧
    readClock? (mark? 'T') m.dateChars = none ∧
    readClock? (fun cs => some (cs.dropWhile isBlank)) m.dateChars = none := by
  have hday := digits?_full (by decide) m.day_lt []
  have hdate := m.date?_dateChars []
  rw [List.append_nil] at hday hdate
  refine ⟨?_, (read_bind hdate).trans rfl, (read_bind hdate).trans rfl⟩
  refine (read_bind (digits?_full (by decide) m.year_lt _)).trans ?_
  refine (read_bind (mark?_self ..)).trans ?_
  refine (read_bind (digits?_full (by decide) m.month_lt _)).trans ?_
  refine (read_bind (mark?_self ..)).trans ?_
  exact (read_bind hday).trans rfl

/-- Nothing of a written moment is trimmed: it begins with the year and ends with the second or with
what stands after it. -/
theorem trimBoth_chars (mark : Char) (zone : Zone) :
    trimBoth isBlank (m.dateChars ++ mark :: (m.timeChars ++ zone.chars)) =
      m.dateChars ++ mark :: (m.timeChars ++ zone.chars) := by
  have hback : padded 2 m.second ++ (fractionChars m.fraction ++ zone.chars) ≠ [] ∧
      ∀ c ∈ padded 2 m.second ++ (fractionChars m.fraction ++ zone.chars), isBlank c = false := by
    obtain ⟨hne, hsecond⟩ := (digits_padded 2 m.second).not_blank
    exact ⟨List.append_ne_nil_of_left_ne_nil hne _, List.forall_mem_append.2 ⟨hsecond,
      List.forall_mem_append.2 ⟨fractionChars_not_blank m.fraction_digits, zone.chars_not_blank⟩⟩⟩
  have hsplit : m.dateChars ++ mark :: (m.timeChars ++ zone.chars) = padded 4 m.date.year.toNat ++
      (('-' :: (padded 2 m.date.month ++ '-' :: (padded 2 m.date.day ++ mark ::
        (padded 2 m.hour ++ ':' :: (padded 2 m.minute ++ [':']))))) ++
      (padded 2 m.second ++ (fractionChars m.fraction ++ zone.chars))) := by
    simp [dateChars, timeChars]
  rw [hsplit]
  exact trimBoth_eq_self_of_ends (digits_padded 4 _).not_blank hback

theorem trimBoth_dateChars : trimBoth isBlank m.dateChars = m.dateChars := by
  have hsplit : m.dateChars = padded 4 m.date.year.toNat ++
      (('-' :: (padded 2 m.date.month ++ ['-'])) ++ padded 2 m.date.day) := by
    simp [dateChars]
  rw [hsplit]
  exact trimBoth_eq_self_of_ends (digits_padded 4 _).not_blank (digits_padded 2 _).not_blank

theorem readText?_ofList {cs : List Char} (h : trimBoth isBlank cs = cs) :
    readText? (String.ofList cs) = (readInstant? cs <|> readClock? (mark? 'T') cs <|>
      readClock? (fun cs => some (cs.dropWhile isBlank)) cs <|> readDate? cs) := by
  simp only [readText?, trimBlank, String.toList_ofList, h]

theorem readText?_text {mark : Char} (hmark : mark = 'T' ∨ mark = ' ') (zone : Zone) :
    readText? (m.text mark zone) = some (m.instant.before zone.seconds) := by
  have hfirst := m.readInstant?_chars hmark zone
  rw [text, readText?_ofList (m.trimBoth_chars mark zone), hfirst]
  cases zone with
  | utc => rfl
  | ahead o => rfl
  | missing =>
    have hnone : Zone.missing.shown? = none := rfl
    have hzero : m.instant.before Zone.missing.seconds = m.instant := m.instant.before_zero
    rw [hnone, hzero, show Zone.missing.chars = [] from rfl, List.append_nil]
    rcases hmark with rfl | rfl
    · rw [m.readClock?_chars rfl]
      rfl
    · have hother : readClock? (mark? 'T') (m.dateChars ++ ' ' :: m.timeChars) = none :=
        (read_bind (m.date?_dateChars _)).trans rfl
      have hblank : (' ' :: m.timeChars).dropWhile isBlank = m.timeChars :=
        (digits_padded 2 m.hour).dropWhile_isBlank
      have hread : readClock? (fun cs => some (cs.dropWhile isBlank))
          (m.dateChars ++ ' ' :: m.timeChars) = some m.instant :=
        m.readClock?_chars (congrArg some hblank)
      rw [hother, hread]
      rfl

theorem readText?_dateText : readText? m.dateText = some m.midnight.instant := by
  obtain ⟨hinstant, hmark, hblank⟩ := m.readers_dateChars
  rw [dateText, readText?_ofList m.trimBoth_dateChars, hinstant, hmark, hblank, m.readDate?_chars]
  rfl

theorem seconds_bounds : -62167219200 ≤ m.seconds ∧ m.seconds < 253403164800 := by
  obtain ⟨hlow, hhigh⟩ := Date.dayNumber_bounds m.date_valid m.year_nonneg m.year_le
  have hh := m.hour_lt
  have hm := m.minute_lt
  have hs := m.second_lt
  unfold seconds
  omega

end Moment

theorem Offset.seconds_bounds (o : Offset) : -86400 < o.seconds ∧ o.seconds < 86400 := by
  have hh := o.hours_lt
  have hm := o.minutes_lt
  simp only [seconds]
  split
  · omega
  · omega

theorem Timestamp.readText?_surrounded {before text after : String}
    (hbefore : ∀ c ∈ before.toList, isBlank c = true)
    (hafter : ∀ c ∈ after.toList, isBlank c = true) :
    readText? (before ++ text ++ after) = readText? text := by
  have htrim : trimBlank (before ++ text ++ after) = trimBlank text := by
    simp only [trimBlank, String.toList_append, trimBoth_surrounded hbefore hafter]
  simp only [readText?, htrim]

/-- A moment is read as one instant from all its notations: with either mark, without an offset,
with the letter for none or with one that shifts it, as a date where it is midnight, with blanks
around it, and as whole seconds where it has no fraction. -/
theorem Timestamp.notations_agree (m : Moment) (o : Offset) :
    (∀ mark, mark = 'T' ∨ mark = ' ' →
      read? (.str (m.text mark .missing)) = some m.instant ∧
      read? (.str (m.text mark .utc)) = some m.instant ∧
      read? (.str (m.text mark (.ahead o))) = some (m.instant.before o.seconds) ∧
      read? (.str (m.midnight.text mark .missing)) = some m.midnight.instant) ∧
    read? (.str m.dateText) = some m.midnight.instant ∧
    (∀ before text after : String, (∀ c ∈ before.toList, isBlank c = true) →
      (∀ c ∈ after.toList, isBlank c = true) →
      read? (.str (before ++ text ++ after)) = read? (.str text)) ∧
    (m.instant.nanos = 0 →
      read? (.int m.instant.seconds) = some m.instant ∧
      read? (.int (m.instant.before o.seconds).seconds) = some (m.instant.before o.seconds)) := by
  refine ⟨fun mark hmark => ⟨?_, ?_, ?_, ?_⟩, m.readText?_dateText,
    fun _ _ _ hbefore hafter => readText?_surrounded hbefore hafter, fun hwhole => ⟨?_, ?_⟩⟩
  · rw [← m.instant.before_zero]
    exact m.readText?_text hmark .missing
  · rw [← m.instant.before_zero]
    exact m.readText?_text hmark .utc
  · exact m.readText?_text hmark (.ahead o)
  · rw [← m.midnight.instant.before_zero]
    exact m.midnight.readText?_text hmark .missing
  · obtain ⟨hlow, hhigh⟩ := m.seconds_bounds
    have hread : read? (.int m.seconds) = some ⟨m.seconds, 0⟩ := read?_int (by omega) (by omega)
    rw [← hwhole] at hread
    exact hread
  · obtain ⟨hlow, hhigh⟩ := m.seconds_bounds
    obtain ⟨hbehind, hahead⟩ := o.seconds_bounds
    have hread : read? (.int (m.seconds - o.seconds)) = some ⟨m.seconds - o.seconds, 0⟩ :=
      read?_int (by omega) (by omega)
    rw [← hwhole] at hread
    exact hread

def Moment.yearEnd : Moment where
  date := ⟨1969, 12, 31⟩
  hour := 23
  minute := 30
  second := 0
  fraction := []
  date_valid := by decide
  year_nonneg := by decide
  year_le := by decide
  hour_lt := by decide
  minute_lt := by decide
  second_lt := by decide
  fraction_digits := by simp
  fraction_length := by decide

def Offset.hourBehind : Offset := ⟨true, 1, 0, by decide, by decide⟩

theorem Timestamp.notations_agree_year_end :
    Moment.yearEnd.instant.nanos = 0 ∧
    read? (.str "1969-12-31T23:30:00-01:00") = some ⟨1800, 0⟩ ∧
    read? (.str "\t1969-12-31 23:30:00 ") = some ⟨-1800, 0⟩ ∧
    read? (.str "1969-12-31") = some ⟨-86400, 0⟩ ∧
    read? (.int (-1800)) = some ⟨-1800, 0⟩ ∧ read? (.int 1800) = some ⟨1800, 0⟩ := by
  have hnanos : Moment.yearEnd.instant.nanos = 0 := by decide
  have htext : Moment.yearEnd.text ' ' .missing = "1969-12-31 23:30:00" := by decide
  have hshifted : Moment.yearEnd.text 'T' (.ahead .hourBehind) = "1969-12-31T23:30:00-01:00" := by
    decide
  have hdate : Moment.yearEnd.dateText = "1969-12-31" := by decide
  have hinstant : Moment.yearEnd.instant = ⟨-1800, 0⟩ := by decide
  have hbefore : Moment.yearEnd.instant.before Offset.hourBehind.seconds = ⟨1800, 0⟩ := by decide
  have hmidnight : Moment.yearEnd.midnight.instant = ⟨-86400, 0⟩ := by decide
  obtain ⟨htexts, halone, hblanks, hseconds⟩ := notations_agree .yearEnd .hourBehind
  obtain ⟨hint, hintBefore⟩ := hseconds hnanos
  have hnaive := (htexts ' ' (.inr rfl)).1
  have hahead := (htexts 'T' (.inl rfl)).2.2.1
  have htrimmed := hblanks "\t" "1969-12-31 23:30:00" " " (by simp [isBlank])
    (by simp [isBlank])
  rw [htext, hinstant] at hnaive
  rw [hshifted, hbefore] at hahead
  rw [hdate, hmidnight] at halone
  rw [hinstant] at hint
  rw [hbefore] at hintBefore
  exact ⟨hnanos, hahead, htrimmed.trans hnaive, halone, hint, hintBefore⟩

end Concordance
