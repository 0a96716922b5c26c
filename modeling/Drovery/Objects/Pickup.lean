import Drovery.Data.Decimal
import Drovery.Objects.Recurrence

namespace Drovery

open Calendar (Date dateOfDay msPerDay)
open Decimal (pad value IsNumeral)

-- The numbers of a date of the form `YYYY-MM-DD`.
def isoDate? (cs : List Char) : Option Date :=
  let year  := cs.take 4
  let month := (cs.drop 5).take 2
  let day   := cs.drop 8
  if cs = year ++ '-' :: month ++ '-' :: day ∧ year.length = 4 ∧ month.length = 2 ∧
      day.length = 2 ∧ IsNumeral year ∧ IsNumeral month ∧ IsNumeral day then
    some ⟨value year, value month, value day⟩
  else
    none

-- The date has to remain the same if it is turned into an instant and back.
def isValidPickupDate (v : String) : Bool :=
  (isoDate? v.toList).any fun date =>
    let probe := dateUtc date.year date.month date.day 0 0 0
    dateOfDay (probe / msPerDay) = date

def computeScheduledFor (pickupDate pickupTime : String) (tz : TimeZone) : Option Instant := do
  let date ← isoDate? (pickupDate.toList.take 10)
  let (hh, mm) ← parseTimeOfDay pickupTime
  zonedWallClockToUtc date.year date.month date.day hh mm tz

end Drovery
