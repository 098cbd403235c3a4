import Gonitor.Integrity.TaskSync

/-!
# The Time the Agents Are Told

A heartbeat is answered with the time of the server, which the agent later sends back: as `since`
when it asks for tasks, or as the time of an event.  The text has no zone.  It is written with the
wall clock of the server and read as one of UTC, so that the time shifts by the offset of the
server's zone.

## Main Results

- `parse_heartbeatTime`: what is read is the instant, cut to seconds and shifted.
- `roundTrips_iff`: the time comes back exactly on a server in UTC, in years of four digits.
- `shifted_time`: on a server east of it, the time does not.
-/

namespace Gonitor.Integrity

open Gonitor.Model Gonitor.Server Gonitor.Controller Gonitor.Requests AtomicProgram SoftDelete
  CivilTime DateTimeText

/-- The year that the text of the instant `t` shows. -/
def shownYear (offset : Int) (t : Time) : Int :=
  (civil ((t + offset * nanos) / nanos / 86400)).year

/-- The time `t` in the answer to a heartbeat comes back: both requests read it as `t`, cut to
    seconds, no task that has been updated later is left out, and an event gets that time. -/
structure RoundTrips (offset : Int) (t : Time) : Prop where
  since : parseSince (heartbeatTime offset t) = some (serverTime t)
  event : parseEventTime (heartbeatTime offset t) = some (serverTime t)
  complete : ∀ row : Task, t < row.updatedAt →
    updatedAfter (parseSince (heartbeatTime offset t)) row = true
  unshifted : ∀ evt : EventItem, evt.eventTime = parseEventTime (heartbeatTime offset t) →
    evt.time = Pure.pure (serverTime t)

/-! ## What is read -/

theorem serverTime_eq (t : Time) : serverTime t = t / nanos * nanos := by
  have hcut : ∀ x : Int, x - x % nanos = x / nanos * nanos := by
    intro x
    simp only [nanos]
    omega
  exact hcut t

/-- Whole seconds can be taken out of a shift. -/
theorem shifted_eq (offset : Int) (t : Time) :
    (t + offset * nanos) / nanos * nanos = serverTime t + offset * nanos := by
  rw [serverTime_eq, Int.add_mul_ediv_right _ _ (by decide), Int.add_mul]

/-- Both requests read the same: the time, shifted by the offset, if its year has four digits. -/
theorem parse_heartbeatTime (offset : Int) (t : Time) :
    parseEventTime (heartbeatTime offset t) =
      if 0 ≤ shownYear offset t ∧ shownYear offset t ≤ 9999 then
        some (serverTime t + offset * nanos)
      else none := by
  rw [parseEventTime, heartbeatTime, String.toList_ofList, format]
  split
  · rename_i hyear
    rw [parse_formatClock hyear.1 hyear.2, shifted_eq]
  · rename_i hyear
    exact parse_formatClock_eq_none hyear

/-- The text is never empty, so that `since` is looked at. -/
theorem parseSince_heartbeatTime (offset : Int) (t : Time) :
    parseSince (heartbeatTime offset t) = parseEventTime (heartbeatTime offset t) := by
  have hne : heartbeatTime offset t ≠ "" := by
    intro hempty
    have hchars := congrArg String.toList hempty
    simp [heartbeatTime, format, formatClock] at hchars
  rw [parseSince, if_neg hne]
  rfl

/-! ## The round trip -/

/-- A time that is read as it was leaves out nothing that is later. -/
theorem roundTrips_of_event {offset : Int} {t : Time}
    (h : parseEventTime (heartbeatTime offset t) = some (serverTime t)) : RoundTrips offset t where
  since := (parseSince_heartbeatTime offset t).trans h
  event := h
  complete row hrow := by
    rw [parseSince_heartbeatTime, h]
    simp only [updatedAfter, decide_eq_true_eq]
    exact Int.lt_of_le_of_lt (serverTime_le t) hrow
  unshifted evt hevt := by
    rw [EventItem.time, hevt, h]

/-- **The time comes back** if and only if the server is in UTC and the year has four digits. -/
theorem roundTrips_iff (offset : Int) (t : Time) :
    RoundTrips offset t ↔ offset = 0 ∧ 0 ≤ shownYear offset t ∧ shownYear offset t ≤ 9999 := by
  have hparse := parse_heartbeatTime offset t
  have hshift : ∀ x y : Int, x = x + y * nanos → y = 0 := by
    intro x y hxy
    simp only [nanos] at hxy
    omega
  constructor
  · intro h
    rw [h.event] at hparse
    split at hparse
    · rename_i hyear
      exact ⟨hshift _ _ (Option.some.inj hparse), hyear⟩
    · cases hparse
  · rintro ⟨rfl, hyear⟩
    rw [if_pos hyear, Int.zero_mul, Int.add_zero] at hparse
    exact roundTrips_of_event hparse

/-- New Year 2026, 00:00 in UTC. -/
def newYear : Time := 739616 * 86400 * nanos

/-- Eight hours east of UTC the answer to a heartbeat at that time says 08:00, and an event of that
    time is stored eight hours late. -/
theorem shifted_time : ¬ ∀ (offset : Int) (t : Time), RoundTrips offset t := by
  intro hall
  have hevent := (hall 28800 newYear).event
  rw [parse_heartbeatTime, if_pos (by decide +kernel)] at hevent
  exact absurd hevent (by decide)

end Gonitor.Integrity
