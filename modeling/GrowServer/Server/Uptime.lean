import GrowServer.Lib.Decimal
import GrowServer.Utils.DialogBuilder

/-!
# Durations in words (Server/Server.cpp, Utils/TimingClock.cpp)

`Server::GetUptime` cuts a running time by independent conversions of units,
`RebillionClockXD::GetString` by successive remainders. Both then choose the first unit
that is printed in the same way.
-/

namespace GrowServer
open LittleEndian

structure DurationParts where
  days : ℤ
  hours : ℤ
  mins : ℤ
  secs : ℤ
  deriving DecidableEq, Repr

namespace DurationParts

def format (parts : DurationParts) : Bytes :=
  if parts.days > 0 then
    toDecimal parts.days ++ ascii " days, " ++ toDecimal parts.hours ++ ascii " hours, " ++
      toDecimal parts.mins ++ ascii " mins, " ++ toDecimal parts.secs ++ ascii " secs"
  else if parts.hours > 0 then
    toDecimal parts.hours ++ ascii " hours, " ++ toDecimal parts.mins ++ ascii " mins, " ++
      toDecimal parts.secs ++ ascii " secs"
  else if parts.mins > 0 then
    toDecimal parts.mins ++ ascii " mins, " ++ toDecimal parts.secs ++ ascii " secs"
  else toDecimal parts.secs ++ ascii " secs"

/-- The numbers add up to the duration; one that is not printed is zero. -/
structure AddsUp (parts : DurationParts) (t : ℤ) : Prop where
  nonneg : 0 ≤ parts.days ∧ 0 ≤ parts.hours ∧ 0 ≤ parts.mins ∧ 0 ≤ parts.secs
  total : 86400 * parts.days + 3600 * parts.hours + 60 * parts.mins + parts.secs = t
  hours_lt : 0 < parts.days → parts.hours < 24
  mins_lt : parts.mins < 60
  secs_lt : parts.secs < 60

theorem format_eq_days (parts : DurationParts) (h : 0 < parts.days) :
    parts.format = toDecimal parts.days ++ ascii " days, " ++ toDecimal parts.hours ++
      ascii " hours, " ++ toDecimal parts.mins ++ ascii " mins, " ++ toDecimal parts.secs ++
        ascii " secs" := if_pos h

theorem hours_of_format_eq {days hours hours' mins secs : ℤ} (hdays : 0 < days)
    (h : format ⟨days, hours, mins, secs⟩ = format ⟨days, hours', mins, secs⟩) :
    hours = hours' := by
  rw [format_eq_days ⟨days, hours, mins, secs⟩ hdays,
    format_eq_days ⟨days, hours', mins, secs⟩ hdays] at h
  simp only [List.append_assoc, List.append_cancel_left_eq] at h
  have hprinted : toDecimal hours = toDecimal hours' := by
    simpa only [← List.append_assoc, List.append_cancel_right_eq] using h
  exact Decimal.ascii_toString_injective hprinted

end DurationParts

def nanoseconds (secs : ℤ) : ℤ := secs * 1000000000

namespace Server

/-- What `GetUptime` computes of the running time, in the ticks of the system clock;
`duration_cast` truncates. -/
def uptimeParts (time : ℤ) : DurationParts :=
  let hours := time.tdiv (nanoseconds 3600)
  let mins := (time.tdiv (nanoseconds 60)).tmod 60
  let secs := (time.tdiv (nanoseconds 1)).tmod 60
  let days := hours.tdiv 24
  ⟨days, hours, mins, secs⟩

def getUptime (time : ℤ) : Bytes := (uptimeParts time).format

theorem uptimeParts_eq {t : ℤ} (h : 0 ≤ t) :
    uptimeParts (nanoseconds t) = ⟨t / 86400, t / 3600, t / 60 % 60, t % 60⟩ := by
  have htime : 0 ≤ nanoseconds t := by
    unfold nanoseconds
    omega
  have hcast (unit : ℤ) (hunit : 0 < unit) :
      (nanoseconds t).tdiv (nanoseconds unit) = t / unit := by
    rw [Int.tdiv_eq_ediv_of_nonneg htime]
    exact Int.mul_ediv_mul_of_pos_left t unit (by decide)
  have hhours : 0 ≤ t / 3600 := Int.ediv_nonneg h (by decide)
  have hmins : 0 ≤ t / 60 := Int.ediv_nonneg h (by decide)
  simp only [uptimeParts, hcast 3600 (by decide), hcast 60 (by decide), hcast 1 (by decide),
    Int.tdiv_eq_ediv_of_nonneg hhours, Int.tmod_eq_emod_of_nonneg hmins, Int.ediv_one,
    Int.tmod_eq_emod_of_nonneg h, DurationParts.mk.injEq, and_true]
  omega

end Server

namespace RebillionClockXD

/-- What `GetString` computes; the number of seconds is cut to an `int`. -/
def stringParts (time : ℤ) : DurationParts :=
  let n := time.bmod (2 ^ 32)
  let days := n.tdiv (24 * 3600)
  let n := n.tmod (24 * 3600)
  let hours := n.tdiv 3600
  let n := n.tmod 3600
  let minutes := n.tdiv 60
  let seconds := n.tmod 60
  ⟨days, hours, minutes, seconds⟩

def getString (time : ℤ) : Bytes := (stringParts time).format

theorem stringParts_eq {t : ℤ} (h : 0 ≤ t) (hint : t < 2 ^ 31) :
    stringParts t = ⟨t / 86400, t / 3600 % 24, t / 60 % 60, t % 60⟩ := by
  have hn : t.bmod (2 ^ 32) = t := Int.bmod_eq_of_le (by omega) (by omega)
  have hday : 0 ≤ t % 86400 := Int.emod_nonneg t (by decide)
  have hhour : 0 ≤ t % 86400 % 3600 := Int.emod_nonneg _ (by decide)
  simp only [stringParts, hn, Int.reduceMul, Int.tdiv_eq_ediv_of_nonneg h,
    Int.tmod_eq_emod_of_nonneg h, Int.tdiv_eq_ediv_of_nonneg hday, Int.tmod_eq_emod_of_nonneg hday,
    Int.tdiv_eq_ediv_of_nonneg hhour, Int.tmod_eq_emod_of_nonneg hhour, DurationParts.mk.injEq,
    true_and]
  omega

theorem addsUp_stringParts {t : ℤ} (h : 0 ≤ t) (hint : t < 2 ^ 31) : (stringParts t).AddsUp t := by
  have hdays : 0 ≤ t / 86400 := by omega
  have hhours : 0 ≤ t / 3600 % 24 ∧ t / 3600 % 24 < 24 := by omega
  have hmins : 0 ≤ t / 60 % 60 ∧ t / 60 % 60 < 60 := by omega
  have hsecs : 0 ≤ t % 60 ∧ t % 60 < 60 := by omega
  have htotal : 86400 * (t / 86400) + 3600 * (t / 3600 % 24) + 60 * (t / 60 % 60) + t % 60 = t := by
    omega
  rw [stringParts_eq h hint]
  exact ⟨⟨hdays, hhours.1, hmins.1, hsecs.1⟩, htotal, fun _ => hhours.2, hmins.2, hsecs.2⟩

end RebillionClockXD

/-! ### The two formatters -/

theorem uptimeParts_eq_stringParts {t : ℤ} (h : 0 ≤ t) (hday : t < 86400) :
    Server.uptimeParts (nanoseconds t) = RebillionClockXD.stringParts t := by
  rw [Server.uptimeParts_eq h, RebillionClockXD.stringParts_eq h (by omega),
    DurationParts.mk.injEq]
  omega

/-- The texts differ from the first full day on, where the uptime shows all the hours. -/
theorem getUptime_eq_getString_iff {t : ℤ} (h : 0 ≤ t) (hint : t < 2 ^ 31) :
    Server.getUptime (nanoseconds t) = RebillionClockXD.getString t ↔ t < 86400 := by
  constructor
  · intro heq
    by_contra hday
    have hdays : 0 < t / 86400 := by omega
    rw [Server.getUptime, RebillionClockXD.getString, Server.uptimeParts_eq h,
      RebillionClockXD.stringParts_eq h hint] at heq
    have hhours := DurationParts.hours_of_format_eq hdays heq
    omega
  · intro hday
    rw [Server.getUptime, RebillionClockXD.getString, uptimeParts_eq_stringParts h hday]

/-- Both formatters print the duration, and in the same words. -/
structure FormattersAgree (t : ℤ) : Prop where
  same : Server.getUptime (nanoseconds t) = RebillionClockXD.getString t
  uptime : (Server.uptimeParts (nanoseconds t)).AddsUp t
  string : (RebillionClockXD.stringParts t).AddsUp t

/-- Of all whole numbers of seconds an `int` holds, the formatters agree exactly on
those of less than a day. -/
theorem formattersAgree_iff (t : ℤ) (h : 0 ≤ t) (hint : t < 2 ^ 31) :
    FormattersAgree t ↔ t < 86400 := by
  constructor
  · intro hagree
    exact (getUptime_eq_getString_iff h hint).mp hagree.same
  · intro hday
    have hstring := RebillionClockXD.addsUp_stringParts h hint
    refine ⟨(getUptime_eq_getString_iff h hint).mpr hday, ?_, hstring⟩
    rw [uptimeParts_eq_stringParts h hday]
    exact hstring

theorem formattersAgree_iff_hour : FormattersAgree 3725 ↔ (3725 : ℤ) < 86400 :=
  formattersAgree_iff 3725 (by decide) (by decide)

theorem not_formattersAgree_day : ¬ FormattersAgree 90000 := by
  intro h
  exact absurd h.uptime.total (by decide)

end GrowServer
