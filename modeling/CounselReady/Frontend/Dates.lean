import CounselReady.Api.Events
import CounselReady.Framework.Calendar

/-! # Dates in the Browser

    `middayIso` and `formatOccurred` of the timeline view. A JavaScript `Date` is
    a number of milliseconds since the epoch; the clock of a browser is its fixed
    offset from UTC.
-/

namespace CounselReady

open Framework

def ms_per_hour : Int := 60 * 60 * 1000

def ms_per_day : Int := 24 * ms_per_hour

/-- The offset from UTC, in milliseconds. -/
structure UtcOffset where
  ms : Int
  low : -12 * ms_per_hour ≤ ms
  high : ms ≤ 14 * ms_per_hour

/-- A date on the page. The words and the order are the locale's. -/
inductive RenderedDate where
  | year (year : Int)
  | month (year : Int) (month : Nat)
  | day (date : CalendarDate)
  | exact (date : CalendarDate) (hour minute : Int)
  deriving DecidableEq

/-- `middayIso`: twelve o'clock of the day, by the clock of the browser. -/
def midday_iso (browser : UtcOffset) (day : CalendarDate) : Int :=
  day.day_number * ms_per_day + 12 * ms_per_hour - browser.ms

def local_time (browser : UtcOffset) (when : Int) : Int := when + browser.ms

/-- `getFullYear`, `getMonth` and `getDate` together. -/
def local_date (browser : UtcOffset) (when : Int) : CalendarDate :=
  .of_day (local_time browser when / ms_per_day)

def format_occurred (browser : UtcOffset) (when : Int) : DatePrecision → RenderedDate
  | .year => .year (local_date browser when).year
  | .month => .month (local_date browser when).year (local_date browser when).month
  | .exact =>
      .exact (local_date browser when) (local_time browser when / ms_per_hour % 24)
        (local_time browser when / 60000 % 60)
  | .day => .day (local_date browser when)

/-- The instant on the server, in microseconds. -/
def stored_instant (when : Int) : Int := 1000 * when

/-- `new Date(iso)` of an instant of the server. -/
def date_of_iso (occurred_at : Int) : Int := occurred_at / 1000

/-- The date of an entry, as `Timeline` renders it. -/
def shown_date (browser : UtcOffset) (event : EventResponse) : RenderedDate :=
  format_occurred browser (date_of_iso event.occurred_at) event.date_precision

end CounselReady
