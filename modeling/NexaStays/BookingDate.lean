import NexaStays.Database

/-!
# Calendar dates of requests

`booking-date.util`: a `YYYY-MM-DD` text as its three numbers, its check against the
calendar, and the day it names, counted from 1970-01-01.
-/
namespace NexaStays.BookingDate

open NexaStays.Database NexaStays.Transactions

/-- The numbers of a text that matches `YYYY-MM-DD`. -/
structure Ymd where
  year : ℕ
  month : ℕ
  day : ℕ
  deriving DecidableEq, Repr

namespace Ymd

def isLeap (year : ℕ) : Bool := year % 4 = 0 ∧ (year % 100 ≠ 0 ∨ year % 400 = 0)

def daysInMonth (year month : ℕ) : ℕ :=
  if month = 2 then (if isLeap year then 29 else 28)
  else if month ∈ [4, 6, 9, 11] then 30
  else 31

/-- `Date.UTC` gives the three numbers back; it reads the years below 100 as 19xx. -/
def isValid (d : Ymd) : Bool :=
  100 ≤ d.year ∧ 1 ≤ d.month ∧ d.month ≤ 12 ∧ 1 ≤ d.day ∧ d.day ≤ daysInMonth d.year d.month

/-- Days from the epoch. Years start in March, so that a leap day is the last of its year. -/
def toDay (d : Ymd) : ℤ :=
  let y := if d.month ≤ 2 then d.year - 1 else d.year
  let m := if d.month ≤ 2 then d.month + 9 else d.month - 3
  (365 * y + y / 4 - y / 100 + y / 400 + (153 * m + 2) / 5 + (d.day - 1) : ℕ) - 719468

/-- The order of the texts. -/
def toText (d : Ymd) : ℕ := d.year * 10000 + d.month * 100 + d.day

end Ymd

example : (Ymd.mk 1970 1 1).toDay = 0 ∧ (Ymd.mk 2024 3 1).toDay - (Ymd.mk 2024 2 28).toDay = 2 := by
  decide

/-- The day a text names; `none` is a text of another form. -/
def parseBookingYmd : Option Ymd → Except StaysError ℤ
  | none => .error (.badRequest "Invalid date format. Use YYYY-MM-DD.")
  | some d => if d.isValid then .ok d.toDay else .error (.badRequest "Invalid date.")

def bookingNightsBetween (checkin checkout : ℤ) : ℤ := checkout - checkin

end NexaStays.BookingDate
