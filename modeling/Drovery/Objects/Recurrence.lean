import Drovery.Data.Calendar
import Drovery.Objects.Delivery

namespace Drovery

open Calendar (Date makeDay dateOfDay weekday msPerDay)

-- Milliseconds since the epoch, where dates before the epoch are possible.
abbrev Instant := Int

-- A time zone is given by the number of milliseconds that it is ahead of UTC at each instant.
structure TimeZone where
  offsetMs : Instant → Int

-- A zone that is always `ms` milliseconds ahead of UTC.
def TimeZone.fixed (ms : Int) : TimeZone where
  offsetMs _ := ms

-- A year of two digits stands for one of the last century.
def fullYear (y : Int) : Int :=
  if 0 ≤ y ∧ y ≤ 99 then 1900 + y else y

-- The instant of a date and time in UTC. Every component may lie outside of its range.
def dateUtc (y mo d hh mm ss : Int) : Instant :=
  makeDay (fullYear y) mo d * msPerDay + (hh * 3600000 + mm * 60000 + ss * 1000)

-- Years before the common era are displayed by their number in that era.
def displayYear (y : Int) : Int :=
  if 0 < y then y else 1 - y

-- The calendar date of an instant in a time zone.
def tzCalendarDate (instant : Instant) (tz : TimeZone) : Date :=
  let date := dateOfDay ((instant + tz.offsetMs instant) / msPerDay)
  { date with year := displayYear date.year }

-- The offset of a time zone, as it follows from the date and time that the zone displays. These have
-- a resolution of one second.
def tzOffsetMs (date : Instant) (tz : TimeZone) : Int :=
  let wall   := date + tz.offsetMs date
  let shown  := tzCalendarDate date tz
  let second := wall % msPerDay / 1000
  dateUtc shown.year shown.month shown.day 0 0 second - date

def zonedWallClockToUtc (y mo d hh mm : Int) (tz : TimeZone) : Instant :=
  let asUtc := dateUtc y mo d hh mm 0
  asUtc - tzOffsetMs asUtc tz

inductive RecurrenceFreq
  | daily
  | weekly
  deriving DecidableEq

structure RecurrenceRule where
  freq       : RecurrenceFreq
  -- The weekdays of a weekly rule, where 0 stands for Sunday.
  daysOfWeek : List Int
  timeOfDay  : String
  startDate  : Instant
  endDate    : Option Instant
  deriving DecidableEq

def digit? (c : Char) : Option Nat :=
  if c.isDigit then some (c.toNat - '0'.toNat) else none

-- The hours and minutes of a time of the form `HH:MM`.
def parseTimeOfDay (s : String) : Option (Nat × Nat) :=
  match s.toList with
  | [h₁, h₂, ':', m₁, m₂] => do
    let hh := 10 * (← digit? h₁) + (← digit? h₂)
    let mm := 10 * (← digit? m₁) + (← digit? m₂)
    if hh < 24 ∧ mm < 60 then some (hh, mm) else none
  | _ => none

def dayStartUtc (instant : Instant) (tz : TimeZone) : Instant :=
  let date := tzCalendarDate instant tz
  zonedWallClockToUtc date.year date.month date.day 0 0 tz

def nextDayStartUtc (instant : Instant) (tz : TimeZone) : Instant :=
  let date := tzCalendarDate instant tz
  zonedWallClockToUtc date.year date.month (date.day + 1) 0 0 tz

def maxDayProbe : Nat := 14

namespace RecurrenceRule

def days (rule : RecurrenceRule) : List Int :=
  match rule.freq with
  | .daily  => [0, 1, 2, 3, 4, 5, 6]
  | .weekly => rule.daysOfWeek

-- The instant just before which no occurrence may lie.
def floor (rule : RecurrenceRule) (after : Instant) (tz : TimeZone) : Instant :=
  max after (dayStartUtc rule.startDate tz - 1)

-- Whether an instant lies after the last day of the rule.
def exhausted (rule : RecurrenceRule) (tz : TimeZone) (candidate : Instant) : Bool :=
  rule.endDate.any fun endDate => nextDayStartUtc endDate tz ≤ candidate

-- Tries the days that follow the base date, `n` of them.
def probe (rule : RecurrenceRule) (hh mm : Nat) (floor : Instant) (tz : TimeZone) (base : Date) :
    (n : Nat) → (offset : Nat) → Option Instant
  | 0,     _      => none
  | n + 1, offset =>
    -- The date is that of noon, since this is far from the dates next to it.
    let noon := dateUtc base.year base.month (base.day + offset) 12 0 0 / msPerDay
    if weekday noon ∉ rule.days then
      probe rule hh mm floor tz base n (offset + 1)
    else
      let date := dateOfDay noon
      let candidate := zonedWallClockToUtc date.year date.month date.day hh mm tz
      if candidate ≤ floor then
        probe rule hh mm floor tz base n (offset + 1)
      else
        if rule.exhausted tz candidate then none else some candidate

end RecurrenceRule

-- The first occurrence that lies strictly after the given instant.
def computeNextOccurrence (rule : RecurrenceRule) (after : Instant) (tz : TimeZone) :
    Option Instant :=
  match parseTimeOfDay rule.timeOfDay with
  | none          => none
  | some (hh, mm) =>
    if rule.days = [] then
      none
    else
      let floor := rule.floor after tz
      rule.probe hh mm floor tz (tzCalendarDate floor tz) maxDayProbe 0

section

variable {rule : RecurrenceRule} {tz : TimeZone} {after next : Instant}

theorem RecurrenceRule.floor_lt_probe {hh mm n offset : Nat} {floor : Instant} {base : Date}
    (h : rule.probe hh mm floor tz base n offset = some next) : floor < next := by
  induction n generalizing offset
  case zero => contradiction
  case succ n ih =>
    simp only [probe] at h
    split at h
    case isTrue => exact ih h
    case isFalse =>
      split at h
      case isTrue => exact ih h
      case isFalse hf =>
        split at h
        case isTrue  => contradiction
        case isFalse => exact Option.some.inj h ▸ not_le.mp hf

theorem lt_of_computeNextOccurrence (h : computeNextOccurrence rule after tz = some next) :
    after < next := by
  unfold computeNextOccurrence at h
  split at h
  case h_1 => contradiction
  case h_2 hh mm _ =>
    split at h
    case isTrue  => contradiction
    case isFalse => exact (le_max_left ..).trans_lt <| RecurrenceRule.floor_lt_probe h

end

end Drovery
