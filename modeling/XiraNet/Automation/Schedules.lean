import Mathlib.Order.Bounds.Basic
import XiraNet.Automation.Cron

/-!
# Schedules of cron jobs

`next_after` of `automation/cron.rs` against the calendar: when the next run of a job is later than
now, and by how much.

* `CronSchedule.progresses_iff`: a schedule makes progress unless its interval wraps.
* `CronSchedule.progresses_fails`: a job for every 2^62 minutes is due at once.
-/

namespace XiraNet

namespace CronSchedule

/-- The numbers of a schedule are ones of their types. -/
def InRange : CronSchedule → Prop
  | .everySeconds n | .everyMinutes n | .everyHours n => n < 2 ^ 64
  | .daily hour minute => hour < 2 ^ 32 ∧ minute < 2 ^ 32
  | .custom _ => True

/-- The interval of a schedule that has one, in seconds. -/
def interval : CronSchedule → Option ℕ
  | .everySeconds s => some (max s 1)
  | .everyMinutes m => some (max m 1 * 60)
  | .everyHours h => some (max h 1 * 3600)
  | .daily _ _ => none
  | .custom _ => some 3600

/-- The next run is later than now: by the interval, as far as time goes, or at the next instant of
the time of day. -/
structure Progresses (schedule : CronSchedule) (now : ℕ) : Prop where
  later : now < schedule.nextAfter now
  interval : ∀ secs ∈ schedule.interval, min (now + secs) (2 ^ 64 - 1) ≤ schedule.nextAfter now
  daily : ∀ hour minute, schedule = .daily hour minute → hour < 24 → minute < 60 →
    IsLeast {t | now < t ∧ t % 86400 = hour * 3600 + minute * 60} (schedule.nextAfter now)

/-- The interval is a `u64`, or what is left of it reaches the end of time. -/
def Fits (schedule : CronSchedule) (now : ℕ) : Prop :=
  ∀ secs ∈ schedule.interval, secs < 2 ^ 64 ∨ 2 ^ 64 - 1 ≤ now + secs % 2 ^ 64

variable {schedule : CronSchedule} {now : ℕ}

/-- The next run after an interval is counted with what is left of the interval. -/
theorem nextAfter_of_interval (hrange : schedule.InRange) {secs : ℕ}
    (hsecs : schedule.interval = some secs) :
    schedule.nextAfter now = min (now + secs % 2 ^ 64) (2 ^ 64 - 1) := by
  cases schedule with
  | daily hour minute => cases hsecs
  | everySeconds s =>
      obtain rfl := Option.some.inj hsecs
      have hlt : max s 1 < 2 ^ 64 := max_lt hrange (by decide)
      rw [Nat.mod_eq_of_lt hlt]
      rfl
  | everyMinutes m =>
      obtain rfl := Option.some.inj hsecs
      rfl
  | everyHours h =>
      obtain rfl := Option.some.inj hsecs
      rfl
  | custom expression =>
      obtain rfl := Option.some.inj hsecs
      rfl

/-- The next run at a time of day, which does not wrap for a time that is not too late. -/
theorem nextAfter_daily {hour minute : ℕ} (hrange : (daily hour minute).InRange)
    (hnow : now < 2 ^ 40) :
    (daily hour minute).nextAfter now =
      let targetToday := now - now % 86400 + hour * 3600 + minute * 60
      if now < targetToday then targetToday else targetToday + 86400 := by
  obtain ⟨hhour, hminute⟩ := hrange
  have htoday : now - now % 86400 + hour * 3600 + minute * 60 + 86400 < 2 ^ 64 := by omega
  simp only [nextAfter, Nat.mod_eq_of_lt htoday,
    Nat.mod_eq_of_lt (lt_of_le_of_lt (Nat.le_add_right _ 86400) htoday)]

/-- The next run at a time of day is the first instant of it after now. -/
theorem isLeast_nextAfter_daily {hour minute : ℕ} (hnow : now < 2 ^ 40) (hhour : hour < 24)
    (hminute : minute < 60) :
    IsLeast {t | now < t ∧ t % 86400 = hour * 3600 + minute * 60}
      ((daily hour minute).nextAfter now) := by
  have hrange : (daily hour minute).InRange := ⟨by omega, by omega⟩
  rw [nextAfter_daily hrange hnow]
  dsimp only
  split
  next htoday => exact ⟨⟨htoday, by omega⟩, fun t ⟨hlater, htime⟩ => by omega⟩
  next htomorrow => exact ⟨⟨by omega, by omega⟩, fun t ⟨hlater, htime⟩ => by omega⟩

/-- No interval is empty. -/
theorem interval_pos {secs : ℕ} (hsecs : schedule.interval = some secs) : 0 < secs := by
  cases schedule with
  | daily hour minute => cases hsecs
  | everySeconds s | everyMinutes s | everyHours s | custom s =>
      obtain rfl := Option.some.inj hsecs
      omega

/-- A schedule makes progress exactly if its interval does not wrap, or wraps to one that reaches
the end of time. -/
theorem progresses_iff (hrange : schedule.InRange) (hnow : now < 2 ^ 40) :
    schedule.Progresses now ↔ schedule.Fits now := by
  cases hinterval : schedule.interval with
  | some secs =>
      have hnext : schedule.nextAfter now = min (now + secs % 2 ^ 64) (2 ^ 64 - 1) :=
        nextAfter_of_interval hrange hinterval
      have hpos := interval_pos hinterval
      have hfits : schedule.Fits now ↔ secs < 2 ^ 64 ∨ 2 ^ 64 - 1 ≤ now + secs % 2 ^ 64 := by
        simp [Fits, hinterval]
      rw [hfits]
      constructor
      · intro hprogress
        have hle := hprogress.interval secs hinterval
        rw [hnext] at hle
        omega
      · intro hwraps
        refine ⟨by rw [hnext]; omega, fun secs' hsecs' => ?_, ?_⟩
        · obtain rfl : secs = secs' := Option.some.inj (hinterval.symm.trans hsecs')
          rw [hnext]
          omega
        · rintro hour minute rfl
          cases hinterval
  | none =>
      refine iff_of_true ⟨?_, fun secs hsecs => ?_, ?_⟩ fun secs hsecs => ?_
      · cases schedule with
        | daily hour minute =>
            rw [nextAfter_daily hrange hnow]
            dsimp only
            split <;> omega
        | everySeconds s | everyMinutes s | everyHours s | custom s => cases hinterval
      · cases hinterval.symm.trans hsecs
      · rintro hour minute rfl hhour hminute
        exact isLeast_nextAfter_daily hnow hhour hminute
      · cases hinterval.symm.trans hsecs

/-- A job for every five minutes makes progress. -/
theorem progresses_fiveMinutes : (everyMinutes 5).Progresses 1000 := by
  have hrange : (everyMinutes 5).InRange := show 5 < 2 ^ 64 by decide
  refine (progresses_iff hrange (by decide)).mpr ?_
  rintro secs ⟨⟩
  exact .inl (by decide)

/-- With an interval of 2^62 minutes, the next run is now. -/
theorem progresses_fails :
    ¬∀ (schedule : CronSchedule) (now : ℕ), schedule.InRange → now < 2 ^ 40 →
      schedule.Progresses now := by
  intro hall
  have hrange : (everyMinutes (2 ^ 62)).InRange := show 2 ^ 62 < 2 ^ 64 by decide
  exact absurd (hall _ 1000 hrange (by decide)).later (by decide)

end CronSchedule

end XiraNet
