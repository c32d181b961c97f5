import CounselReady.Frontend.Dates

/-! # Dates Across Timezones

    A date is recorded as noon by the clock of the browser that records it, and
    shown by the clock of the browser that reads it. Noon leaves twelve hours to
    either side, so it is the same date exactly when the clocks are less than
    twelve hours apart.
-/

namespace CounselReady

open Framework

/-- What the timeline is to show for a date recorded with some precision. -/
def as_recorded (d : CalendarDate) : DatePrecision → RenderedDate
  | .year => .year d.year
  | .month => .month d.year d.month
  | .day => .day d
  | .exact => .exact d 12 0

/-- However the entry is loaded, the viewer sees the date that was recorded. -/
def DateKept (recorder viewer : UtcOffset) (d : CalendarDate) : Prop :=
  ∀ (loaded : Loaded) (event : CaseEvent),
    event.occurred_at = stored_instant (midday_iso recorder d) → event.date_precision ≠ .exact →
    shown_date viewer (event_response loaded event) = as_recorded d event.date_precision

/-- Noon of the recorder, on the clock of the viewer. -/
theorem local_midday (recorder viewer : UtcOffset) (d : CalendarDate) :
    local_time viewer (midday_iso recorder d) =
      d.day_number * ms_per_day + (12 * ms_per_hour + (viewer.ms - recorder.ms)) := by
  unfold local_time midday_iso
  omega

theorem local_day_iff (recorder viewer : UtcOffset) (d : CalendarDate) :
    local_time viewer (midday_iso recorder d) / ms_per_day = d.day_number ↔
      -12 * ms_per_hour ≤ viewer.ms - recorder.ms ∧
        viewer.ms - recorder.ms < 12 * ms_per_hour := by
  have hhour : ms_per_hour = 3600000 := rfl
  have hday : ms_per_day = 86400000 := rfl
  rw [local_midday, hday, hhour]
  omega

theorem local_date_iff (recorder viewer : UtcOffset) (d : CalendarDate) :
    local_date viewer (midday_iso recorder d) = d ↔
      -12 * ms_per_hour ≤ viewer.ms - recorder.ms ∧
        viewer.ms - recorder.ms < 12 * ms_per_hour := by
  rw [← local_day_iff recorder viewer d]
  unfold local_date
  constructor
  · intro hsame
    exact CalendarDate.of_day_inj (hsame.trans (CalendarDate.of_day_number d).symm)
  · intro hday
    rw [hday]
    exact CalendarDate.of_day_number d

theorem date_of_stored (when : Int) : date_of_iso (stored_instant when) = when := by
  unfold date_of_iso stored_instant
  omega

/-- An entry the account holder typed in. -/
def typed_entry (occurred_at : Int) (precision : DatePrecision) : CaseEvent :=
  ⟨1#128, 0, 2#128, .alleged, .user_asserted, none, some 3#128, occurred_at, precision, "Exchange",
    none, none⟩

/-- **A recorded date is kept** exactly when the clock of the viewer is at most twelve
    hours behind that of the recorder, and less than twelve hours ahead of it. -/
theorem recorded_date_kept_iff (recorder viewer : UtcOffset) (d : CalendarDate) :
    DateKept recorder viewer d ↔
      -12 * ms_per_hour ≤ viewer.ms - recorder.ms ∧
        viewer.ms - recorder.ms < 12 * ms_per_hour := by
  rw [← local_date_iff recorder viewer d]
  constructor
  · -- a day is kept for an entry typed in as that day
    intro hkept
    have hday := hkept ⟨[], [], [], []⟩
      (typed_entry (stored_instant (midday_iso recorder d)) .day) rfl
      (show DatePrecision.day ≠ .exact by decide)
    have hshown : shown_date viewer (event_response ⟨[], [], [], []⟩
        (typed_entry (stored_instant (midday_iso recorder d)) .day)) =
          .day (local_date viewer (midday_iso recorder d)) := by
      show RenderedDate.day (local_date viewer (date_of_iso _)) = _
      rw [typed_entry, event_response, date_of_stored]
    rw [hshown] at hday
    exact RenderedDate.day.inj hday
  · intro hsame loaded event hinstant hprecision
    have hshown : shown_date viewer (event_response loaded event) =
        format_occurred viewer (midday_iso recorder d) event.date_precision := by
      show format_occurred viewer (date_of_iso event.occurred_at) event.date_precision = _
      rw [hinstant, date_of_stored]
    rw [hshown]
    -- a month and a year are cut from the same local day
    cases hp : event.date_precision with
    | exact => exact absurd hp hprecision
    | day =>
      show RenderedDate.day _ = _
      rw [hsame, as_recorded]
    | month =>
      show RenderedDate.month _ _ = _
      rw [hsame, as_recorded]
    | year =>
      show RenderedDate.year _ = _
      rw [hsame, as_recorded]

def los_angeles : UtcOffset := ⟨-8 * ms_per_hour, by decide, by decide⟩

def auckland : UtcOffset := ⟨13 * ms_per_hour, by decide, by decide⟩

/-- New Year's Eve 2026. -/
def new_years_eve : CalendarDate := ⟨2026, 12, 31, by decide, by decide⟩

/-- Recorded in Los Angeles and read in Auckland, New Year's Eve is in January of the
    next year, with every precision. -/
theorem new_years_eve_shifted :
    ¬ DateKept los_angeles auckland new_years_eve ∧
    shown_date auckland (event_response ⟨[], [], [], []⟩
      (typed_entry (stored_instant (midday_iso los_angeles new_years_eve)) .month)) =
        .month 2027 1 ∧
    shown_date auckland (event_response ⟨[], [], [], []⟩
      (typed_entry (stored_instant (midday_iso los_angeles new_years_eve)) .year)) =
        .year 2027 := by
  refine ⟨?_, by decide, by decide⟩
  intro hkept
  have hyear := hkept ⟨[], [], [], []⟩
    (typed_entry (stored_instant (midday_iso los_angeles new_years_eve)) .year) rfl (by decide)
  revert hyear
  decide

end CounselReady
