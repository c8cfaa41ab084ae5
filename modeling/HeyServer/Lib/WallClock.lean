import HeyServer.Lib.Decimal

/-!
# Wall clocks and time layouts

A count of seconds as a date and a time of day, and `time.Time.Format` for the layouts that are
made of digits and punctuation. A layout is read from left to right: each position starts one of
the standard chunks or stands for itself.

## Implementation notes

Years are counted from March, so that the leap day is the last day of a year, and 400 years, an
era, always have the same number of days.
-/

namespace HeyServer.Lib
open List

/-- A date and a time of day. -/
structure WallClock where
  year : Nat
  month : Nat
  day : Nat
  hour : Nat
  minute : Nat
  second : Nat
deriving DecidableEq, Repr

namespace WallClock
open Decimal (formatNat parseNat parseNat_formatNat formatNat_numeral)

/-! ## Dates -/

def eraDays : Nat := 146097

/-- The days from March 1 of the year 0 to January 1, 1970. -/
def epochShift : Nat := 719468

/-- The number of days in the first `year` years of an era. -/
def yearDays (year : Nat) : Nat := 365 * year + year / 4 - year / 100

/-- Centuries, then groups of four years, then years. The last century of an era and the last year
of a group are the longer ones. -/
def yearOfEra (dayOfEra : Nat) : Nat :=
  let century := min 3 (dayOfEra / 36524)
  let dayOfCentury := dayOfEra - 36524 * century
  let group := dayOfCentury / 1461
  let year := min 3 ((dayOfCentury - 1461 * group) / 365)
  100 * century + 4 * group + year

/-- The number of days in the first `month` months of a year that starts in March. -/
def monthDays (month : Nat) : Nat := (153 * month + 2) / 5

def monthOfYear (dayOfYear : Nat) : Nat := (5 * dayOfYear + 2) / 153

/-- Year, month and day, `days` after March 1 of the year 0. -/
def dateOf (days : Nat) : Nat × Nat × Nat :=
  let year := yearOfEra (days % eraDays)
  let dayOfYear := days % eraDays - yearDays year
  let month := monthOfYear dayOfYear
  let day := dayOfYear - monthDays month + 1
  if month < 10 then (year + days / eraDays * 400, month + 3, day)
  else (year + days / eraDays * 400 + 1, month - 9, day)

/-- The days from March 1 of the year 0 to a date. -/
def daysOf : Nat × Nat × Nat → Nat
  | (year, month, day) =>
    if month < 3 then daysFrom (year - 1) (month + 9) day else daysFrom year (month - 3) day
where
  daysFrom (year month day : Nat) : Nat :=
    year / 400 * eraDays + yearDays (year % 400) + monthDays month + (day - 1)

variable (date : Nat × Nat × Nat)

/-- A date and the seconds since its midnight. -/
def at_ (time : Nat) : WallClock where
  year := date.1
  month := date.2.1
  day := date.2.2
  hour := time / 3600
  minute := time / 60 % 60
  second := time % 60

variable (seconds : Nat)

/-- The wall clock `seconds` after 1970-01-01 00:00:00. -/
def ofSeconds : WallClock :=
  at_ (dateOf (seconds / 86400 + epochShift)) (seconds % 86400)

/-- The seconds from 1970-01-01 00:00:00 to a wall clock. -/
def toSeconds (w : WallClock) : Nat :=
  (daysOf (w.year, w.month, w.day) - epochShift) * 86400 + w.hour * 3600 + w.minute * 60 + w.second

theorem yearOfEra_spec {dayOfEra : Nat} (h : dayOfEra < eraDays) :
    yearOfEra dayOfEra < 400 ∧ yearDays (yearOfEra dayOfEra) ≤ dayOfEra ∧
      dayOfEra < yearDays (yearOfEra dayOfEra) + 366 := by
  rw [eraDays] at h
  unfold yearDays yearOfEra
  dsimp only
  generalize hcentury : min 3 (dayOfEra / 36524) = century
  generalize hgroup : (dayOfEra - 36524 * century) / 1461 = group
  generalize hyear : min 3 ((dayOfEra - 36524 * century - 1461 * group) / 365) = year
  rw [show (100 * century + 4 * group + year) / 4 = 25 * century + group by omega,
    show (100 * century + 4 * group + year) / 100 = century by omega]
  omega

theorem monthOfYear_spec {dayOfYear : Nat} (h : dayOfYear < 366) :
    monthOfYear dayOfYear < 12 ∧ monthDays (monthOfYear dayOfYear) ≤ dayOfYear ∧
      dayOfYear < monthDays (monthOfYear dayOfYear) + 31 := by
  unfold monthDays monthOfYear
  omega

variable (days : Nat)

/-- The place of a day in its year. -/
theorem dayOfYear_lt : days % eraDays - yearDays (yearOfEra (days % eraDays)) < 366 := by
  obtain ⟨-, -, hend⟩ := yearOfEra_spec (Nat.mod_lt days (by decide : 0 < eraDays))
  omega

theorem daysOf_dateOf : daysOf (dateOf days) = days := by
  obtain ⟨hyear, hstart, -⟩ := yearOfEra_spec (Nat.mod_lt days (by decide : 0 < eraDays))
  obtain ⟨hmonth, hmonthStart, -⟩ := monthOfYear_spec (dayOfYear_lt days)
  have hdays : days / eraDays * eraDays + days % eraDays = days := Nat.div_add_mod' days eraDays
  rw [dateOf]
  generalize days % eraDays = dayOfEra at *
  generalize days / eraDays = era at *
  generalize yearOfEra dayOfEra = year at *
  generalize monthOfYear (dayOfEra - yearDays year) = month at *
  have hera : (year + era * 400) / 400 = era := by omega
  have hrest : (year + era * 400) % 400 = year := by omega
  -- the months after December belong to the next year
  split_ifs with hlate
  · rw [daysOf, if_neg (by omega), daysOf.daysFrom, hera, hrest,
      show month + 3 - 3 = month by omega]
    omega
  · rw [daysOf, if_pos (by omega), Nat.add_sub_cancel, daysOf.daysFrom, hera, hrest,
      show month - 9 + 9 = month by omega]
    omega

theorem toSeconds_at (time : Nat) :
    toSeconds (at_ date time) = (daysOf date - epochShift) * 86400 + time := by
  obtain ⟨year, month, day⟩ := date
  unfold toSeconds at_
  dsimp only
  omega

theorem toSeconds_ofSeconds : toSeconds (ofSeconds seconds) = seconds := by
  rw [ofSeconds, toSeconds_at, daysOf_dateOf, Nat.add_sub_cancel]
  exact Nat.div_add_mod' seconds 86400

theorem ofSeconds_injective : Function.Injective ofSeconds :=
  Function.LeftInverse.injective toSeconds_ofSeconds

theorem dateOf_lt : (dateOf days).2.1 < 100 ∧ (dateOf days).2.2 < 100 := by
  obtain ⟨hmonth, -, hmonthEnd⟩ := monthOfYear_spec (dayOfYear_lt days)
  rw [dateOf]
  split_ifs
  · constructor <;> dsimp only <;> omega
  · constructor <;> dsimp only <;> omega

/-- Every field but the year has at most two digits. -/
structure Short (w : WallClock) : Prop where
  month : w.month < 100
  day : w.day < 100
  hour : w.hour < 100
  minute : w.minute < 100
  second : w.second < 100

theorem short_at {date : Nat × Nat × Nat} {time : Nat} (hdate : date.2.1 < 100 ∧ date.2.2 < 100)
    (htime : time < 86400) : Short (at_ date time) where
  month := hdate.1
  day := hdate.2
  hour := show time / 3600 < 100 by omega
  minute := show time / 60 % 60 < 100 by omega
  second := show time % 60 < 100 by omega

theorem short_ofSeconds : Short (ofSeconds seconds) := by
  exact short_at (dateOf_lt _) (Nat.mod_lt _ (by decide))

example : ofSeconds 1709210096 = ⟨2024, 2, 29, 12, 34, 56⟩ := by decide

end WallClock

/-! ## Layouts -/

/-- An instant as a wall clock shows it. -/
structure Moment where
  wall : WallClock
  nanos : Nat
deriving DecidableEq, Repr

namespace Layout
open Decimal (formatNat parseNat parseNat_formatNat formatNat_numeral)

/-- What a position of a layout stands for. -/
inductive Chunk
  | literal (b : UInt8)
  | longYear | shortYear
  | month | zeroMonth
  | day | zeroDay | zeroYearDay
  | hour | hour12 | zeroHour12
  | minute | zeroMinute
  | second | zeroSecond
  | fraction (mark : UInt8) (digits : Nat)
deriving DecidableEq, Repr

/-- The standard chunks in the order in which they are tried. -/
def standard : List (Bytes × Chunk) :=
  [(ascii "01", .zeroMonth), (ascii "02", .zeroDay), (ascii "03", .zeroHour12),
    (ascii "04", .zeroMinute), (ascii "05", .zeroSecond), (ascii "06", .shortYear),
    (ascii "002", .zeroYearDay), (ascii "15", .hour), (ascii "1", .month),
    (ascii "2006", .longYear), (ascii "2", .day), (ascii "3", .hour12), (ascii "4", .minute),
    (ascii "5", .second)]

/-- The number of zeros of a fraction, if `rest` is one: no other digit may follow them. -/
def fractionDigits (rest : Bytes) : Option Nat :=
  let zeros := (rest.takeWhile (· = 0x30)).length
  if zeros = 0 ∨ ((rest.drop zeros).head?.any Json.isDigit) then none else some zeros

/-- The chunk a layout starts with, and its length. A fraction needs its `.` or `,`. -/
def chunkAt (b : UInt8) (rest : Bytes) : Chunk × Nat :=
  match standard.find? fun entry => entry.1.isPrefixOf (b :: rest) with
  | some (text, chunk) => (chunk, text.length)
  | none =>
    if b = 0x2E ∨ b = 0x2C then
      match fractionDigits rest with
      | some digits => (.fraction b digits, digits + 1)
      | none => (.literal b, 1)
    else (.literal b, 1)

/-- The chunks of a layout after `skip` bytes that belong to the chunk before. -/
def chunksFrom : Nat → Bytes → List Chunk
  | _, [] => []
  | skip + 1, _ :: rest => chunksFrom skip rest
  | 0, b :: rest => (chunkAt b rest).1 :: chunksFrom ((chunkAt b rest).2 - 1) rest

def chunks (layout : Bytes) : List Chunk := chunksFrom 0 layout

variable (width n : Nat)

/-- `appendInt`: a number with leading zeros up to a width. -/
def pad : Bytes :=
  List.replicate (width - (formatNat n).length) 0x30 ++ formatNat n

def twelve (hour : Nat) : Nat := if hour % 12 = 0 then 12 else hour % 12

/-- The day of the year, counted from January 1. -/
def yearDay (w : WallClock) : Nat :=
  WallClock.daysOf (w.year, w.month, w.day) - WallClock.daysOf (w.year, 1, 1) + 1

def Chunk.format (m : Moment) : Chunk → Bytes
  | .literal b => [b]
  | .longYear => pad 4 m.wall.year
  | .shortYear => pad 2 (m.wall.year % 100)
  | .month => formatNat m.wall.month
  | .zeroMonth => pad 2 m.wall.month
  | .day => formatNat m.wall.day
  | .zeroDay => pad 2 m.wall.day
  | .zeroYearDay => pad 3 (yearDay m.wall)
  | .hour => pad 2 m.wall.hour
  | .hour12 => formatNat (twelve m.wall.hour)
  | .zeroHour12 => pad 2 (twelve m.wall.hour)
  | .minute => formatNat m.wall.minute
  | .zeroMinute => pad 2 m.wall.minute
  | .second => formatNat m.wall.second
  | .zeroSecond => pad 2 m.wall.second
  | .fraction mark digits => mark :: (pad 9 m.nanos).take digits

/-- `time.Time.Format` -/
def format (layout : Bytes) (m : Moment) : Bytes := (chunks layout).flatMap (Chunk.format m)

example : format (ascii "15:04:05.000") ⟨⟨2024, 2, 29, 12, 34, 56⟩, 7890000⟩ =
    ascii "12:34:56.007" := by decide

/-! ### Padded numbers -/

theorem pad_digits : (pad width n).all Json.isDigit = true := by
  rw [pad, all_append, (formatNat_numeral n).digits, Bool.and_true, all_replicate]
  split_ifs
  · rfl
  · decide

theorem foldl_step_zeros (count : Nat) :
    (List.replicate count (0x30 : UInt8)).foldl Decimal.step 0 = 0 := by
  induction count with
  | zero => rfl
  | succ count ih => rw [replicate_succ, foldl_cons]; exact ih

theorem pad_value : (pad width n).foldl Decimal.step 0 = n := by
  rw [pad, foldl_append, foldl_step_zeros, (formatNat_numeral n).value]

theorem pad_injective (width : Nat) : Function.Injective (pad width) := by
  intro n n' h
  rw [← pad_value width n, h, pad_value]

theorem pad_two_length : ∀ n < 100, (pad 2 n).length = 2 := by decide

/-! ### Fourteen digits -/

/-- The layout of a date and a time of day without separators. -/
def compact : Bytes := ascii "20060102150405"

variable (m : Moment)

theorem format_compact :
    format compact m = pad 4 m.wall.year ++ (pad 2 m.wall.month ++ (pad 2 m.wall.day ++
      (pad 2 m.wall.hour ++ (pad 2 m.wall.minute ++ pad 2 m.wall.second)))) := by
  have hchunks : chunks compact =
      [.longYear, .zeroMonth, .zeroDay, .hour, .zeroMinute, .zeroSecond] := by decide
  rw [format, hchunks]
  simp only [flatMap_cons, flatMap_nil, append_nil, Chunk.format]

theorem format_compact_digits : (format compact m).all Json.isDigit = true := by
  rw [format_compact]
  simp only [all_append, pad_digits, Bool.and_self]

/-- The two digits at the end of a text, and what stands before them. -/
theorem append_pad_inj {s s' : Bytes} {n n' : Nat} (hn : n < 100) (hn' : n' < 100)
    (h : s ++ pad 2 n = s' ++ pad 2 n') : s = s' ∧ n = n' := by
  have hlength : (pad 2 n).length = (pad 2 n').length := by
    rw [pad_two_length n hn, pad_two_length n' hn']
  obtain ⟨hs, hpad⟩ := append_inj' h hlength
  exact ⟨hs, pad_injective 2 hpad⟩

/-- Fourteen digits tell the wall clock. -/
theorem format_compact_inj {m m' : Moment} (hm : m.wall.Short) (hm' : m'.wall.Short)
    (h : format compact m = format compact m') : m.wall = m'.wall := by
  rw [format_compact, format_compact] at h
  simp only [← append_assoc] at h
  obtain ⟨h, hsecond⟩ := append_pad_inj hm.second hm'.second h
  obtain ⟨h, hminute⟩ := append_pad_inj hm.minute hm'.minute h
  obtain ⟨h, hhour⟩ := append_pad_inj hm.hour hm'.hour h
  obtain ⟨h, hday⟩ := append_pad_inj hm.day hm'.day h
  obtain ⟨h, hmonth⟩ := append_pad_inj hm.month hm'.month h
  have hyear := pad_injective 4 h
  cases hw : m.wall
  cases hw' : m'.wall
  simp_all

/-! ### Zeros -/

/-- Zeros without a `.` or `,` before them are no fraction: they stand for themselves. -/
theorem format_nine_zeros : format (ascii "000000000") m = ascii "000000000" := by
  have hchunks : chunks (ascii "000000000") = replicate 9 (.literal 0x30) := by decide
  rw [format, hchunks]
  rfl

end Layout

end HeyServer.Lib
