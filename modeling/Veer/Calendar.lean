import Mathlib

/-!
# Civil timestamps

Milliseconds since the start of year 0 of the proleptic Gregorian calendar, as texts of the form
`2006-01-02T15:04:05.000Z`. The writer splits a count into the fields of its date; the reader puts
them together again and refuses everything the writer does not write.
-/
namespace Veer.Calendar

/-! ## Days -/

def leapYear (year : Nat) : Bool := year % 4 == 0 && (year % 100 != 0 || year % 400 == 0)

def daysIn (year month : Nat) : Nat :=
  match month with
  | 2 => if leapYear year then 29 else 28
  | 4 | 6 | 9 | 11 => 30
  | _ => 31

def months : List Nat := [1, 2, 3, 4, 5, 6, 7, 8, 9, 10, 11, 12]

/-- Days before a year. -/
def yearStart (year : Nat) : Nat :=
  365 * year + (year + 3) / 4 - (year + 99) / 100 + (year + 399) / 400

/-- Days of a year before a month. -/
def monthStart (year month : Nat) : Nat :=
  ((months.takeWhile (· != month)).map (daysIn year)).sum

theorem yearStart_succ (year : Nat) :
    yearStart (year + 1) = yearStart year + (months.map (daysIn year)).sum := by
  have hsum : (months.map (daysIn year)).sum = if leapYear year then 366 else 365 := by
    cases h : leapYear year <;> simp [months, daysIn, h]
  rw [hsum]
  unfold yearStart leapYear
  by_cases hfour : year % 4 = 0
  · by_cases hhundred : year % 100 = 0
    · by_cases hcycle : year % 400 = 0
      · simp only [hfour, hcycle, beq_self_eq_true, Bool.or_true, Bool.and_self, if_true]
        omega
      · simp [hhundred, hcycle]
        omega
    · simp [hfour, hhundred]
      omega
  · have hhundred : (year + 1 + 99) / 100 = (year + 99) / 100 := by omega
    have hcycle : (year + 1 + 399) / 400 = (year + 399) / 400 := by omega
    have hquarter : (year + 1 + 3) / 4 = (year + 3) / 4 := by omega
    simp only [hhundred, hcycle, hquarter, beq_eq_false_iff_ne.mpr hfour, Bool.false_and,
      Bool.false_eq_true, if_false]
    omega

/-- A year starts within two days of where its mean length puts it. -/
theorem yearStart_bounds (year : Nat) :
    146097 * year < 400 * yearStart year + 400 ∧ 400 * yearStart year < 146097 * year + 700 := by
  unfold yearStart
  omega

/-- The year of a day, guessed from the mean length of a year. -/
def yearOf (day : Nat) : Nat :=
  let guess := day * 400 / 146097
  if day < yearStart guess then guess - 1
  else if yearStart (guess + 1) ≤ day then guess + 1
  else guess

theorem yearOf_spec (day : Nat) :
    yearStart (yearOf day) ≤ day ∧ day < yearStart (yearOf day + 1) := by
  have hguess : 146097 * (day * 400 / 146097) ≤ day * 400 ∧
      day * 400 < 146097 * (day * 400 / 146097 + 1) := by omega
  unfold yearOf
  dsimp only
  generalize day * 400 / 146097 = guess at hguess ⊢
  split_ifs with hbefore hafter
  · have hzero : yearStart 0 = 0 := rfl
    obtain ⟨year, rfl⟩ : ∃ year, guess = year + 1 := by
      refine Nat.exists_eq_succ_of_ne_zero ?_
      rintro rfl
      omega
    have hbounds := yearStart_bounds year
    rw [Nat.add_sub_cancel]
    omega
  · have hbounds := yearStart_bounds (guess + 1 + 1)
    omega
  · omega

/-- The month of a day of a year, and the day in the month. -/
def locate (year : Nat) : List Nat → Nat → Option (Nat × Nat)
  | [], _ => none
  | month :: months, day =>
    if day < daysIn year month then some (month, day + 1)
    else locate year months (day - daysIn year month)

theorem locate_spec {year : Nat} {months : List Nat} (hnodup : months.Nodup) {day : Nat}
    (hday : day < (months.map (daysIn year)).sum) :
    ∃ month number, locate year months day = some (month, number) ∧ month ∈ months ∧ 1 ≤ number ∧
      number ≤ daysIn year month ∧
      ((months.takeWhile (· != month)).map (daysIn year)).sum + number = day + 1 := by
  induction months generalizing day with
  | nil => simp at hday
  | cons first months ih =>
    rw [List.nodup_cons] at hnodup
    rw [List.map_cons, List.sum_cons] at hday
    unfold locate
    split_ifs with hfirst
    · refine ⟨first, day + 1, rfl, List.mem_cons_self, by omega, by omega, ?_⟩
      rw [List.takeWhile_cons_of_neg (by simp)]
      simp
    · have hrest : day - daysIn year first < (months.map (daysIn year)).sum := by omega
      obtain ⟨month, number, hlocate, hmem, hpos, hle, hsum⟩ := ih hnodup.2 hrest
      have hne : first ≠ month := fun h => hnodup.1 (h ▸ hmem)
      refine ⟨month, number, hlocate, List.mem_cons_of_mem _ hmem, hpos, hle, ?_⟩
      rw [List.takeWhile_cons_of_pos (by simpa using hne), List.map_cons, List.sum_cons]
      omega

/-! ## Digits -/

/-- The last `width` digits of a number. -/
def digits : Nat → Nat → List Char
  | 0, _ => []
  | width + 1, value => digits width (value / 10) ++ [Nat.digitChar (value % 10)]

/-- The number that is written in exactly `width` digits, and what follows them. -/
def readDigits : Nat → Nat → List Char → Option (Nat × List Char)
  | 0, value, rest => some (value, rest)
  | width + 1, value, c :: rest =>
    if c.isDigit then readDigits width (value * 10 + (c.toNat - 48)) rest else none
  | _ + 1, _, [] => none

/-- A number in `width` digits and the character after it. -/
def readField (width : Nat) (stop : Char) (text : List Char) : Option (Nat × List Char) :=
  match readDigits width 0 text with
  | some (value, c :: rest) => if c = stop then some (value, rest) else none
  | _ => none

theorem readDigits_append (first second value : Nat) (text : List Char) :
    readDigits (first + second) value text =
      (readDigits first value text).bind fun (value, rest) => readDigits second value rest := by
  induction first generalizing value text with
  | zero => simp [readDigits]
  | succ first ih =>
    rw [Nat.add_right_comm]
    cases text with
    | nil => rfl
    | cons c text =>
      simp only [readDigits]
      split_ifs
      · exact ih _ text
      · rfl

theorem readDigits_digits {width value : Nat} (hvalue : value < 10 ^ width) (start : Nat)
    (rest : List Char) :
    readDigits width start (digits width value ++ rest) =
      some (start * 10 ^ width + value, rest) := by
  induction width generalizing value start rest with
  | zero =>
    have hzero : value = 0 := by simpa using hvalue
    simp [digits, readDigits, hzero]
  | succ width ih =>
    have hdigit : ∀ digit < 10, (Nat.digitChar digit).isDigit = true ∧
        (Nat.digitChar digit).toNat - 48 = digit := by decide
    obtain ⟨hisDigit, hvalueOf⟩ := hdigit (value % 10) (Nat.mod_lt _ (by decide))
    have hhead : value / 10 < 10 ^ width := by
      rw [pow_succ] at hvalue
      omega
    rw [digits, List.append_assoc, readDigits_append width 1, ih hhead]
    simp only [List.singleton_append, Option.bind_some, readDigits, hisDigit, if_true, hvalueOf,
      Option.some.injEq, Prod.mk.injEq, and_true, pow_succ]
    ring_nf
    omega

theorem readField_digits {width value : Nat} (hvalue : value < 10 ^ width) (stop : Char)
    (rest : List Char) :
    readField width stop (digits width value ++ stop :: rest) = some (value, rest) := by
  rw [readField, readDigits_digits hvalue, Nat.zero_mul, Nat.zero_add]
  exact if_pos rfl

theorem readDigits_length {width start result : Nat} {text rest : List Char}
    (h : readDigits width start text = some (result, rest)) :
    text.length = width + rest.length := by
  induction width generalizing start text with
  | zero =>
    simp only [readDigits, Option.some.injEq, Prod.mk.injEq] at h
    rw [h.2, Nat.zero_add]
  | succ width ih =>
    cases text with
    | nil => cases h
    | cons c text =>
      simp only [readDigits] at h
      split_ifs at h
      rw [List.length_cons, ih h, Nat.add_right_comm]

theorem readField_length {width result : Nat} {stop : Char} {text rest : List Char}
    (h : readField width stop text = some (result, rest)) :
    text.length = width + 1 + rest.length := by
  unfold readField at h
  split at h
  next hread =>
    split_ifs at h
    cases h
    rw [readDigits_length hread, List.length_cons, Nat.add_right_comm, Nat.add_assoc]
  next => cases h

/-! ## Texts -/

def dayMilliseconds : Nat := 86400000

/-- A date and the milliseconds of its day. -/
def writeFields (year month number clock : Nat) : List Char :=
  digits 4 year ++ '-' :: (digits 2 month ++ '-' :: (digits 2 number ++ 'T' ::
    (digits 2 (clock / 3600000) ++ ':' :: (digits 2 (clock / 60000 % 60) ++ ':' ::
      (digits 2 (clock / 1000 % 60) ++ '.' :: (digits 3 (clock % 1000) ++ ['Z']))))))

def formatTimestamp (count : Nat) : List Char :=
  let day := count / dayMilliseconds
  let year := yearOf day
  let (month, number) := (locate year months (day - yearStart year)).getD (1, 1)
  writeFields year month number (count % dayMilliseconds)

def parseTimestamp (text : List Char) : Option Nat :=
  (readField 4 '-' text).bind fun (year, text) =>
  (readField 2 '-' text).bind fun (month, text) =>
  (readField 2 'T' text).bind fun (number, text) =>
  (readField 2 ':' text).bind fun (hours, text) =>
  (readField 2 ':' text).bind fun (minutes, text) =>
  (readField 2 '.' text).bind fun (seconds, text) =>
  (readField 3 'Z' text).bind fun (milliseconds, text) =>
    if text = [] ∧ month ∈ months ∧ 1 ≤ number ∧ number ≤ daysIn year month ∧ hours < 24 ∧
        minutes < 60 ∧ seconds < 60 then
      some ((yearStart year + monthStart year month + (number - 1)) * dayMilliseconds +
        hours * 3600000 + minutes * 60000 + seconds * 1000 + milliseconds)
    else none

theorem parseTimestamp_length {text : List Char} {count : Nat}
    (h : parseTimestamp text = some count) : text.length = 24 := by
  unfold parseTimestamp at h
  simp only [Option.bind_eq_some_iff, Prod.exists] at h
  obtain ⟨_, _, h1, _, _, h2, _, _, h3, _, _, h4, _, _, h5, _, _, h6, _, _, h7, hcount⟩ := h
  split_ifs at hcount with hfields
  rw [readField_length h1, readField_length h2, readField_length h3, readField_length h4,
    readField_length h5, readField_length h6, readField_length h7, hfields.1]
  rfl

theorem daysIn_le (year month : Nat) : daysIn year month ≤ 31 := by
  unfold daysIn
  split
  · split_ifs <;> omega
  all_goals omega

theorem parseTimestamp_writeFields {year month number clock : Nat} (hyear : year < 10000)
    (hmonth : month ∈ months) (hpos : 1 ≤ number) (hnumber : number ≤ daysIn year month)
    (hclock : clock < dayMilliseconds) :
    parseTimestamp (writeFields year month number clock) =
      some ((yearStart year + monthStart year month + (number - 1)) * dayMilliseconds + clock) := by
  have hmonths : ∀ m ∈ months, m < 10 ^ 2 := by decide
  have hdays := daysIn_le year month
  unfold dayMilliseconds at hclock
  unfold writeFields parseTimestamp
  rw [readField_digits (by omega), Option.bind_some]
  dsimp only
  rw [readField_digits (hmonths month hmonth), Option.bind_some]
  rw [readField_digits (by omega), Option.bind_some]
  dsimp only
  rw [readField_digits (by omega), Option.bind_some]
  rw [readField_digits (by omega), Option.bind_some]
  rw [readField_digits (by omega), Option.bind_some]
  rw [readField_digits (by omega), Option.bind_some]
  rw [if_pos ⟨rfl, hmonth, hpos, hnumber, by omega, by omega, by omega⟩, Option.some.injEq]
  omega

theorem parseTimestamp_formatTimestamp {count : Nat}
    (h : count < yearStart 10000 * dayMilliseconds) :
    parseTimestamp (formatTimestamp count) = some count := by
  have hday : count / dayMilliseconds < yearStart 10000 := Nat.div_lt_of_lt_mul (by linarith)
  obtain ⟨hstart, hend⟩ := yearOf_spec (count / dayMilliseconds)
  have hyear : yearOf (count / dayMilliseconds) < 10000 := by
    have hbounds := yearStart_bounds (yearOf (count / dayMilliseconds))
    have hlast : yearStart 10000 = 3652425 := rfl
    omega
  rw [yearStart_succ] at hend
  have hrest : count / dayMilliseconds - yearStart (yearOf (count / dayMilliseconds)) <
      (months.map (daysIn (yearOf (count / dayMilliseconds)))).sum := by omega
  obtain ⟨month, number, hlocate, hmonth, hpos, hle, hsum⟩ := locate_spec (by decide) hrest
  have hformat : formatTimestamp count = writeFields (yearOf (count / dayMilliseconds)) month number
      (count % dayMilliseconds) := by
    unfold formatTimestamp
    dsimp only
    rw [hlocate]
    rfl
  have hdate : yearStart (yearOf (count / dayMilliseconds)) +
      monthStart (yearOf (count / dayMilliseconds)) month + (number - 1) =
        count / dayMilliseconds := by
    unfold monthStart
    omega
  rw [hformat, parseTimestamp_writeFields hyear hmonth hpos hle (Nat.mod_lt _ (by decide)), hdate,
    Nat.div_add_mod']

example : formatTimestamp 63119045105678 = "2000-02-29T12:05:05.678Z".toList := by decide +kernel

end Veer.Calendar
