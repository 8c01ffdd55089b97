import NexaStays.BookedNights
import NexaStays.Calls
import NexaStays.CalendarSync
import NexaStays.GroupedSums
import NexaStays.HostReports

/-!
# Earnings of a host

`getHostDashboard` adds up the earning bookings of a host in one pass and rounds the sums;
`getHostAnalytics` adds them up listing by listing, for one period, and rounds the sums of
each listing. In exact arithmetic the listings add up to the dashboard; in doubles they may not.
-/
namespace NexaStays.HostEarnings

open NexaStays.KeyedTable NexaStays.Database NexaStays.HostReports NexaStays.BookingDate
  NexaStays.CalendarSync NexaStays.GroupedSums NexaStays.JsNumbers
  NexaStays.BookedNights

open NexaStays.JsNumbers.JsNumber (ofHundredths)

structure DashboardNow where
  today : ℤ
  thisMonthStart : ℤ
  thisMonthEndExclusive : ℤ
  previousMonthStart : ℤ
  previousMonthEndExclusive : ℤ
  in30EndExclusive : ℤ
  deriving DecidableEq, Repr

/-- `getDashboardNow` on a day of the dashboard's time zone. -/
def getDashboardNow (today : ℤ) : DashboardNow :=
  let d := ymdOfDay today
  let thisMonthStart := (Ymd.mk d.year d.month 1).toDay
  let previous : Ymd := if d.month = 1 then ⟨d.year - 1, 12, 1⟩ else ⟨d.year, d.month - 1, 1⟩
  { today
    thisMonthStart
    thisMonthEndExclusive := addMonths thisMonthStart 1
    previousMonthStart := previous.toDay
    previousMonthEndExclusive := thisMonthStart
    in30EndExclusive := today + 30 }

def ymdInHalfOpen (ymd start endExclusive : ℤ) : Bool := start ≤ ymd ∧ ymd < endExclusive

/-- The tables of the reports, with the column `confirmed_at` by booking. -/
structure ReportStore extends Store where
  confirmedAt : ℕ → Option ℤ

@[ext]
structure Earnings (R : Type) where
  gross : R
  net : R
  fees : R
  deriving DecidableEq, Repr

namespace Earnings

variable {R : Type}

instance [Zero R] : Zero (Earnings R) := ⟨⟨0, 0, 0⟩⟩

instance [Add R] : Add (Earnings R) :=
  ⟨fun x y => ⟨x.gross + y.gross, x.net + y.net, x.fees + y.fees⟩⟩

def map (f : R → R) (x : Earnings R) : Earnings R := ⟨f x.gross, f x.net, f x.fees⟩

theorem add_def [Add R] (x y : Earnings R) :
    x + y = ⟨x.gross + y.gross, x.net + y.net, x.fees + y.fees⟩ := rfl

theorem zero_def [Zero R] : (0 : Earnings R) = ⟨0, 0, 0⟩ := rfl

instance [AddCommMonoid R] : AddCommMonoid (Earnings R) where
  add_assoc x y z := by simp [add_def, add_assoc]
  zero_add x := by simp [add_def, zero_def]
  add_zero x := by simp [add_def, zero_def]
  add_comm x y := by simp [add_def, add_comm]
  nsmul := nsmulRec

end Earnings

/-- `toCasablancaYmd(b.confirmed_at ?? b.created_at)`, with the day of an instant. -/
def attrDay (rs : ReportStore) (casablancaDay : ℤ → ℤ) (b : StaysBooking) : ℤ :=
  casablancaDay ((rs.confirmedAt b.id).getD b.createdAt)

def hostListings (rs : ReportStore) (hostUserId : ℕ) : List StaysListing :=
  rs.listings.rows.filter fun l => l.hostUserId = hostUserId

/-- The bookings `where listing_id In(listingIds)`. -/
def bookingsOf (rs : ReportStore) (listingIds : List ℕ) : List StaysBooking :=
  rs.bookings.rows.filter fun b => b.listingId ∈ listingIds

section Reports

variable {R : Type} [JsNumber R]

namespace Dashboard

def earningStatuses : List BookingStatus := [.confirmed, .checkedIn, .completed]

def futureEarningStatuses : List BookingStatus := [.confirmed, .checkedIn]

def hostPayout (b : StaysBooking) : R :=
  match b.payoutAmount with
  | some amount => ofHundredths amount
  | none => max 0 (ofHundredths b.totalSubtotal - ofHundredths b.hostFee)

def grossPaid (b : StaysBooking) : R := ofHundredths (b.totalPaid.getD 0)

def platformFees (b : StaysBooking) : R := ofHundredths b.guestFee + ofHundredths b.hostFee

/-- What one booking adds to three sums. -/
def earningsOf (b : StaysBooking) : Earnings R := ⟨grossPaid b, hostPayout b, platformFees b⟩

/-- The sums of the first loop: all time, this month and the previous month. -/
structure Sums (R : Type) where
  all : Earnings R
  this : Earnings R
  prev : Earnings R
  deriving DecidableEq, Repr

def Sums.visit (dash : DashboardNow) (attr : StaysBooking → ℤ) (sums : Sums R)
    (b : StaysBooking) : Sums R :=
  if b.status ∉ earningStatuses then sums
  else
    { all := sums.all + earningsOf b
      this :=
        if ymdInHalfOpen (attr b) dash.thisMonthStart dash.thisMonthEndExclusive then
          sums.this + earningsOf b
        else sums.this
      prev :=
        if ymdInHalfOpen (attr b) dash.previousMonthStart dash.previousMonthEndExclusive then
          sums.prev + earningsOf b
        else sums.prev }

def isUpcoming30d (dash : DashboardNow) (b : StaysBooking) : Bool :=
  b.status ∈ futureEarningStatuses && ymdInHalfOpen b.checkinDate dash.today dash.in30EndExclusive

end Dashboard

structure HostDashboard (R : Type) where
  allTime : Earnings R
  thisMonth : Earnings R
  previousMonth : Earnings R
  upcomingRevenue30d : R
  payouts : Payouts R
  deriving DecidableEq, Repr

open Dashboard in
def getHostDashboard (rs : ReportStore) (casablancaDay : ℤ → ℤ) (hostUserId : ℕ) (now : ℤ) :
    HostDashboard R :=
  let dash := getDashboardNow (casablancaDay now)
  let listingIds := (hostListings rs hostUserId).map (·.id)
  let bookings := if listingIds = [] then [] else bookingsOf rs listingIds
  let sums := bookings.foldl (Sums.visit dash (attrDay rs casablancaDay)) ⟨0, 0, 0⟩
  let upcomingRevenue30d := bookings.foldl
    (fun revenue b => if isUpcoming30d dash b then revenue + hostPayout b else revenue) 0
  { allTime := sums.all.map Dashboard.round2
    thisMonth := sums.this.map Dashboard.round2
    previousMonth := sums.prev.map Dashboard.round2
    upcomingRevenue30d := Dashboard.round2 upcomingRevenue30d
    payouts := Dashboard.sumHostPayoutLedger rs.toStore hostUserId listingIds }

inductive PeriodId where
  | thisMonth | previousMonth | next30d | allTime
  deriving DecidableEq, Repr

inductive EarningsMode where
  | attr | checkinWindow | all
  deriving DecidableEq, Repr

structure ResolvedPeriod where
  start : ℤ
  endExclusive : ℤ
  mode : EarningsMode
  deriving DecidableEq, Repr

/-- The days `1970-01-01` and `9999-01-01` bound the period of all time. -/
def resolvePeriod (dash : DashboardNow) : PeriodId → ResolvedPeriod
  | .thisMonth => ⟨dash.thisMonthStart, dash.thisMonthEndExclusive, .attr⟩
  | .previousMonth => ⟨dash.previousMonthStart, dash.previousMonthEndExclusive, .attr⟩
  | .next30d => ⟨dash.today, dash.in30EndExclusive, .checkinWindow⟩
  | .allTime => ⟨(Ymd.mk 1970 1 1).toDay, (Ymd.mk 9999 1 1).toDay, .all⟩

namespace Analytics

def futureEarningStatuses : List BookingStatus := [.confirmed, .checkedIn]

def hostPayout (b : StaysBooking) : R :=
  match b.payoutAmount with
  | some amount => ofHundredths amount
  | none => max 0 (ofHundredths b.totalSubtotal - ofHundredths b.hostFee)

def grossPaid (b : StaysBooking) : R := ofHundredths (b.totalPaid.getD 0)

def platformFees (b : StaysBooking) : R := ofHundredths b.guestFee + ofHundredths b.hostFee

def bookingInPeriodEarnings (period : ResolvedPeriod) (attr : StaysBooking → ℤ)
    (b : StaysBooking) : Bool :=
  match period.mode with
  | .all => b.status ∈ Analytics.earningStatuses
  | .checkinWindow =>
    b.status ∈ futureEarningStatuses &&
      ymdInHalfOpen b.checkinDate period.start period.endExclusive
  | .attr =>
    b.status ∈ Analytics.earningStatuses && ymdInHalfOpen (attr b) period.start period.endExclusive

end Analytics

/-- The money of a listing: in its accumulator, and rounded in the report. -/
structure Acc (R : Type) where
  earnings : Earnings R
  upcoming30d : R
  payouts : Payouts R
  deriving DecidableEq, Repr

open Analytics in
def Acc.visit (dash : DashboardNow) (period : ResolvedPeriod) (attr : StaysBooking → ℤ)
    (b : StaysBooking) (acc : Acc R) : Acc R :=
  let acc :=
    if b.status ∈ futureEarningStatuses ∧
        ymdInHalfOpen b.checkinDate dash.today dash.in30EndExclusive then
      { acc with upcoming30d := acc.upcoming30d + hostPayout b }
    else acc
  if b.status ∉ earningStatuses then acc
  else if bookingInPeriodEarnings period attr b then
    { acc with earnings := acc.earnings + ⟨grossPaid b, hostPayout b, platformFees b⟩ }
  else acc

/-- The properties of the answer. -/
def Acc.report (acc : Acc R) : Acc R :=
  { earnings := acc.earnings.map Analytics.round2
    upcoming30d := Analytics.round2 acc.upcoming30d
    payouts := ⟨Analytics.round2 acc.payouts.pending, Analytics.round2 acc.payouts.paidOut⟩ }

/-- The part of `accById` at the start: the payouts of each listing, from the ledger. -/
def initialAccs (rs : ReportStore) (hostUserId : ℕ) (listings : List StaysListing) :
    List (ℕ × Acc R) :=
  let payoutByListing := Analytics.sumPayoutsByListing rs.toStore hostUserId
  listings.map fun l => (l.id, ⟨0, 0, (payoutByListing.lookup l.id).getD ⟨0, 0⟩⟩)

/-- `accById` after the loop. -/
def accById (rs : ReportStore) (casablancaDay : ℤ → ℤ) (hostUserId : ℕ) (periodId : PeriodId)
    (now : ℤ) : List (ℕ × Acc R) :=
  let dash := getDashboardNow (casablancaDay now)
  let period := resolvePeriod dash periodId
  let listings := hostListings rs hostUserId
  (bookingsOf rs (listings.map (·.id))).foldl
    (fun accs b => update accs b.listingId (Acc.visit dash period (attrDay rs casablancaDay) b))
    (initialAccs rs hostUserId listings)

/-- The money of the properties, by listing. -/
def getHostAnalytics (rs : ReportStore) (casablancaDay : ℤ → ℤ) (hostUserId : ℕ)
    (periodId : PeriodId) (now : ℤ) : List (ℕ × Acc R) :=
  if (hostListings rs hostUserId).map (·.id) = [] then []
  else (accById rs casablancaDay hostUserId periodId now).map fun p => (p.1, p.2.report)

end Reports

/-- The two services have the same statuses, and read a booking alike. -/
theorem earningStatuses_eq : Analytics.earningStatuses = Dashboard.earningStatuses := rfl

theorem hostPayout_eq : (Analytics.hostPayout : StaysBooking → ℚ) = Dashboard.hostPayout := rfl

theorem earning_attr (b : StaysBooking) (attr : StaysBooking → ℤ) (start stop : ℤ) :
    (decide (b.status ∈ Dashboard.earningStatuses) &&
      Analytics.bookingInPeriodEarnings ⟨start, stop, .attr⟩ attr b) =
        (decide (b.status ∈ Dashboard.earningStatuses) && ymdInHalfOpen (attr b) start stop) := by
  show (decide (b.status ∈ Dashboard.earningStatuses) &&
    (decide (b.status ∈ Dashboard.earningStatuses) && ymdInHalfOpen (attr b) start stop)) = _
  rw [Bool.and_self_left]

theorem earning_all (b : StaysBooking) (attr : StaysBooking → ℤ) (start stop : ℤ) :
    (decide (b.status ∈ Dashboard.earningStatuses) &&
      Analytics.bookingInPeriodEarnings ⟨start, stop, .all⟩ attr b) =
        decide (b.status ∈ Dashboard.earningStatuses) := by
  show (decide (b.status ∈ Dashboard.earningStatuses) &&
    decide (b.status ∈ Dashboard.earningStatuses)) = _
  rw [Bool.and_self]

/-- What the earnings of a period take from one booking. -/
def share (p : StaysBooking → Bool) (b : StaysBooking) : Earnings ℚ :=
  if p b then Dashboard.earningsOf b else 0

/-- What the revenue of the next days takes from one booking. -/
def upcomingShare (dash : DashboardNow) (b : StaysBooking) : ℚ :=
  if Dashboard.isUpcoming30d dash b then Dashboard.hostPayout b else 0

variable {dash : DashboardNow} {period : ResolvedPeriod} {attr : StaysBooking → ℤ}

theorem earnings_visit (b : StaysBooking) (acc : Acc ℚ) :
    (acc.visit dash period attr b).earnings =
      acc.earnings + share (fun b => b.status ∈ Dashboard.earningStatuses &&
        Analytics.bookingInPeriodEarnings period attr b) b := by
  rw [Acc.visit, earningStatuses_eq]
  by_cases hstatus : b.status ∈ Dashboard.earningStatuses <;>
    by_cases hperiod : Analytics.bookingInPeriodEarnings period attr b = true <;>
      simp only [share, hstatus, hperiod, not_true, not_false_eq_true, if_true, if_false,
        decide_true, decide_false, Bool.and_true, Bool.and_false, add_zero, Bool.false_eq_true]
  all_goals split_ifs <;> rfl

theorem upcoming30d_visit (b : StaysBooking) (acc : Acc ℚ) :
    (acc.visit dash period attr b).upcoming30d = acc.upcoming30d + upcomingShare dash b := by
  have hupcoming : Dashboard.isUpcoming30d dash b = true ↔
      b.status ∈ Analytics.futureEarningStatuses ∧
        ymdInHalfOpen b.checkinDate dash.today dash.in30EndExclusive = true := by
    simp [Dashboard.isUpcoming30d, Analytics.futureEarningStatuses,
      Dashboard.futureEarningStatuses]
  rw [Acc.visit, upcomingShare, hostPayout_eq]
  simp only [hupcoming]
  split_ifs <;> simp

theorem payouts_visit (b : StaysBooking) (acc : Acc ℚ) :
    (acc.visit dash period attr b).payouts = acc.payouts := by
  rw [Acc.visit]
  split_ifs <;> rfl

/-- The sums of the dashboard are sums over the bookings. -/
theorem foldl_visit (bookings : List StaysBooking) (sums : Dashboard.Sums ℚ) :
    bookings.foldl (Dashboard.Sums.visit dash attr) sums =
      { all := sums.all + (bookings.map (share fun b => b.status ∈ Dashboard.earningStatuses)).sum
        this := sums.this + (bookings.map (share fun b =>
          b.status ∈ Dashboard.earningStatuses &&
            ymdInHalfOpen (attr b) dash.thisMonthStart dash.thisMonthEndExclusive)).sum
        prev := sums.prev + (bookings.map (share fun b =>
          b.status ∈ Dashboard.earningStatuses &&
            ymdInHalfOpen (attr b) dash.previousMonthStart dash.previousMonthEndExclusive)).sum } := by
  induction bookings generalizing sums with
  | nil => simp
  | cons b bookings ih =>
    rw [List.foldl_cons, ih]
    by_cases hstatus : b.status ∈ Dashboard.earningStatuses
    · by_cases hthis : ymdInHalfOpen (attr b) dash.thisMonthStart dash.thisMonthEndExclusive = true <;>
        by_cases hprev : ymdInHalfOpen (attr b) dash.previousMonthStart
          dash.previousMonthEndExclusive = true <;>
            simp [Dashboard.Sums.visit, share, hstatus, hthis, hprev, add_assoc]
    · simp [Dashboard.Sums.visit, share, hstatus]

theorem foldl_upcoming (bookings : List StaysBooking) (revenue : ℚ) :
    bookings.foldl (fun revenue b => if Dashboard.isUpcoming30d dash b then
      revenue + Dashboard.hostPayout b else revenue) revenue =
        revenue + (bookings.map (upcomingShare dash)).sum := by
  induction bookings generalizing revenue with
  | nil => simp
  | cons b bookings ih =>
    rw [List.foldl_cons, ih]
    by_cases hupcoming : Dashboard.isUpcoming30d dash b = true <;>
      simp [upcomingShare, hupcoming, add_assoc]

/-- Three whole numbers of hundredths. -/
def Earnings.Exact (x : Earnings ℚ) : Prop :=
  IsHundredths x.gross ∧ IsHundredths x.net ∧ IsHundredths x.fees

theorem Earnings.exact_zero : Earnings.Exact 0 :=
  ⟨isHundredths_zero, isHundredths_zero, isHundredths_zero⟩

theorem Earnings.Exact.add {x y : Earnings ℚ} (hx : x.Exact) (hy : y.Exact) : (x + y).Exact :=
  ⟨hx.1.add hy.1, hx.2.1.add hy.2.1, hx.2.2.add hy.2.2⟩

theorem Earnings.Exact.round2_eq {x : Earnings ℚ} (h : x.Exact) :
    x.map Dashboard.round2 = x := by
  rw [Earnings.map, Dashboard.round2_eq h.1, Dashboard.round2_eq h.2.1, Dashboard.round2_eq h.2.2]

theorem isHundredths_hostPayout (b : StaysBooking) :
    IsHundredths (Dashboard.hostPayout b) := by
  unfold Dashboard.hostPayout
  split
  · exact isHundredths_ofHundredths _
  · exact isHundredths_zero.max ((isHundredths_ofHundredths _).sub (isHundredths_ofHundredths _))

theorem exact_earningsOf (b : StaysBooking) : (Dashboard.earningsOf b : Earnings ℚ).Exact :=
  ⟨isHundredths_ofHundredths _, isHundredths_hostPayout b,
    (isHundredths_ofHundredths _).add (isHundredths_ofHundredths _)⟩

theorem exact_shares (p : StaysBooking → Bool) (bookings : List StaysBooking) :
    (bookings.map (share p)).sum.Exact := by
  induction bookings with
  | nil => exact Earnings.exact_zero
  | cons b bookings ih =>
    rw [List.map_cons, List.sum_cons]
    refine Earnings.Exact.add ?_ ih
    unfold share
    split_ifs
    · exact exact_earningsOf b
    · exact Earnings.exact_zero

theorem isHundredths_upcomingShare (b : StaysBooking) : IsHundredths (upcomingShare dash b) := by
  unfold upcomingShare
  split_ifs
  · exact isHundredths_hostPayout b
  · exact isHundredths_zero

theorem isHundredths_upcomingShares (bookings : List StaysBooking) :
    IsHundredths (bookings.map (upcomingShare dash)).sum := by
  induction bookings with
  | nil => exact isHundredths_zero
  | cons b bookings ih =>
    rw [List.map_cons, List.sum_cons]
    exact (isHundredths_upcomingShare b).add ih

/-- The accumulator of a listing holds whole numbers of hundredths. -/
structure Acc.Exact (acc : Acc ℚ) : Prop where
  earnings : acc.earnings.Exact
  upcoming30d : IsHundredths acc.upcoming30d
  pending : IsHundredths acc.payouts.pending
  paidOut : IsHundredths acc.payouts.paidOut

theorem Acc.Exact.visit (b : StaysBooking) (acc : Acc ℚ) (h : acc.Exact) :
    (acc.visit dash period attr b).Exact := by
  constructor
  · rw [earnings_visit]
    refine h.earnings.add ?_
    unfold share
    split_ifs
    · exact exact_earningsOf b
    · exact Earnings.exact_zero
  · rw [upcoming30d_visit]
    exact h.upcoming30d.add (isHundredths_upcomingShare b)
  · rw [payouts_visit]
    exact h.pending
  · rw [payouts_visit]
    exact h.paidOut

/-- The report rounds nothing away. -/
theorem Acc.Exact.report_eq {acc : Acc ℚ} (h : acc.Exact) : acc.report = acc := by
  have hearnings : acc.earnings.map Analytics.round2 = acc.earnings := h.earnings.round2_eq
  rw [Acc.report, hearnings, Analytics.round2_eq h.upcoming30d, Analytics.round2_eq h.pending,
    Analytics.round2_eq h.paidOut]

variable {rs : ReportStore} {hostUserId : ℕ}

/-- The listing of a row, by the joins. -/
def listingOf (rs : ReportStore) (e : StaysLedgerEntry) : Option ℕ :=
  (bookingOf rs.toStore e).map (·.listingId)

/-- The payouts that the analytics find for a listing, also where the ledger has none. -/
theorem payouts_of_listing (listingId : ℕ) :
    ((Analytics.sumPayoutsByListing rs.toStore hostUserId).lookup listingId).getD
      (⟨0, 0⟩ : Payouts ℚ) =
      ((Dashboard.payoutRows rs.toStore hostUserId).filter fun e =>
        listingOf rs e = some listingId).foldl Payouts.add ⟨0, 0⟩ := by
  rw [Analytics.sumPayoutsByListing, Analytics.payoutRows_eq, lookup_map_self]
  by_cases hmem : listingId ∈
      ((Dashboard.payoutRows rs.toStore hostUserId).filterMap (listingOf rs)).dedup
  · exact congrArg (Option.getD · _) (if_pos hmem)
  · have hnone : (Dashboard.payoutRows rs.toStore hostUserId).filter
        (fun e => listingOf rs e = some listingId) = [] := by
      refine List.filter_eq_nil_iff.mpr fun e he hlisting => hmem ?_
      exact List.mem_dedup.mpr (List.mem_filterMap.mpr ⟨e, he, of_decide_eq_true hlisting⟩)
    rw [hnone]
    exact congrArg (Option.getD · _) (if_neg hmem)

theorem exact_initialAccs (listings : List StaysListing) :
    ∀ p ∈ (initialAccs rs hostUserId listings : List (ℕ × Acc ℚ)), p.2.Exact := by
  intro p hp
  obtain ⟨l, -, rfl⟩ := List.mem_map.mp hp
  refine ⟨Earnings.exact_zero, isHundredths_zero, ?_, ?_⟩
  · simp only [payouts_of_listing, foldl_add, zero_add]
    exact isHundredths_amounts _ _
  · simp only [payouts_of_listing, foldl_add, zero_add]
    exact isHundredths_amounts _ _

/-- In exact arithmetic the properties are the accumulators. -/
theorem getHostAnalytics_eq (casablancaDay : ℤ → ℤ) (periodId : PeriodId) (now : ℤ)
    (hne : (hostListings rs hostUserId).map (·.id) ≠ []) :
    (getHostAnalytics rs casablancaDay hostUserId periodId now : List (ℕ × Acc ℚ)) =
      accById rs casablancaDay hostUserId periodId now := by
  have hexact : ∀ p ∈ (accById rs casablancaDay hostUserId periodId now : List (ℕ × Acc ℚ)),
      p.2.Exact :=
    forall_foldl_update (fun b acc h => h.visit b acc) _ (exact_initialAccs _)
  rw [getHostAnalytics, if_neg hne]
  refine (List.map_congr_left fun p hp => ?_).trans (List.map_id _)
  rw [(hexact p hp).report_eq]
  rfl

theorem nodup_listingIds : ((hostListings rs hostUserId).map (·.id)).Nodup :=
  Table.nodup_filter rs.listings _

/-- Every row of the reports belongs to a listing of the host. -/
theorem listing_of_payoutRow {e : StaysLedgerEntry}
    (h : e ∈ Dashboard.payoutRows rs.toStore hostUserId) :
    ∃ k ∈ (hostListings rs hostUserId).map (·.id), listingOf rs e = some k := by
  have hhost := (of_decide_eq_true (List.mem_filter.mp h).2).2
  obtain ⟨b, hb, hlisting⟩ := Option.bind_eq_some_iff.mp hhost
  obtain ⟨l, hl, hsame⟩ := Option.map_eq_some_iff.mp hlisting
  refine ⟨b.listingId, List.mem_map.mpr ⟨l, ?_, Table.key_of_find? hl⟩, ?_⟩
  · exact List.mem_filter.mpr ⟨Table.mem_of_find? hl, decide_eq_true hsame⟩
  · rw [listingOf, hb]
    rfl

/-- The sums of the listings' payouts are those of the host's. -/
theorem sum_payouts (hne : (hostListings rs hostUserId).map (·.id) ≠ []) :
    ((initialAccs rs hostUserId (hostListings rs hostUserId)).map fun p =>
      (p.2.payouts.pending : ℚ)).sum =
        (Dashboard.sumHostPayoutLedger rs.toStore hostUserId
          ((hostListings rs hostUserId).map (·.id))).pending ∧
    ((initialAccs rs hostUserId (hostListings rs hostUserId)).map fun p =>
      (p.2.payouts.paidOut : ℚ)).sum =
        (Dashboard.sumHostPayoutLedger rs.toStore hostUserId
          ((hostListings rs hostUserId).map (·.id))).paidOut := by
  have hnodup : ((hostListings rs hostUserId).map (·.id)).Nodup := nodup_listingIds
  have hsum := fun x : StaysLedgerEntry → ℚ => sum_by_key (listingOf rs) x hnodup
    fun e (he : e ∈ Dashboard.payoutRows rs.toStore hostUserId) => listing_of_payoutRow he
  have hpending := hsum (amountOf .pending)
  have hsettled := hsum (amountOf .settled)
  rw [List.map_map] at hpending hsettled
  simp only [initialAccs, List.map_map, Function.comp_def, payouts_of_listing, foldl_add, zero_add,
    Dashboard.sumHostPayoutLedger, if_neg hne, Dashboard.round2_eq (isHundredths_amounts _ _)]
  exact ⟨hpending, hsettled⟩

/-- What the dashboard reports for a period that both have. -/
def HostDashboard.earnings {R : Type} (d : HostDashboard R) : PeriodId → Option (Earnings R)
  | .thisMonth => some d.thisMonth
  | .previousMonth => some d.previousMonth
  | .next30d => none
  | .allTime => some d.allTime

/-- A measure of the properties that grows with each booking. -/
theorem sum_properties {M : Type} [AddCommMonoid M] (measure : Acc ℚ → M) (x : StaysBooking → M)
    {casablancaDay : ℤ → ℤ} {periodId : PeriodId} {now : ℤ}
    (hvisit : ∀ b acc, measure (acc.visit (getDashboardNow (casablancaDay now))
      (resolvePeriod (getDashboardNow (casablancaDay now)) periodId) (attrDay rs casablancaDay) b) =
        measure acc + x b)
    (hne : (hostListings rs hostUserId).map (·.id) ≠ []) :
    ((getHostAnalytics rs casablancaDay hostUserId periodId now).map fun p => measure p.2).sum =
      ((initialAccs rs hostUserId (hostListings rs hostUserId)).map fun p => measure p.2).sum +
        ((bookingsOf rs ((hostListings rs hostUserId).map (·.id))).map x).sum := by
  have hfst : (initialAccs rs hostUserId (hostListings rs hostUserId) : List (ℕ × Acc ℚ)).map
      Prod.fst = (hostListings rs hostUserId).map (·.id) := by
    rw [initialAccs, List.map_map]
    rfl
  rw [getHostAnalytics_eq casablancaDay periodId now hne]
  refine sum_foldl_update hvisit ?_ fun b hb => ?_
  · rw [hfst]
    exact nodup_listingIds
  · rw [hfst]
    exact of_decide_eq_true (List.mem_filter.mp hb).2

/-- In exact arithmetic the properties of the analytics add up to the dashboard: the earnings
of each period that both report, the revenue of the next thirty days and the payouts of the
ledger. -/
theorem dashboard_eq_analytics (rs : ReportStore) (casablancaDay : ℤ → ℤ) (hostUserId : ℕ)
    (periodId : PeriodId) (now : ℤ) :
    let dashboard : HostDashboard ℚ := getHostDashboard rs casablancaDay hostUserId now
    let properties : List (ℕ × Acc ℚ) := getHostAnalytics rs casablancaDay hostUserId periodId now
    (∀ earnings ∈ dashboard.earnings periodId,
      (properties.map fun p => p.2.earnings).sum = earnings) ∧
    (properties.map fun p => p.2.upcoming30d).sum = dashboard.upcomingRevenue30d ∧
    (properties.map fun p => p.2.payouts.pending).sum = dashboard.payouts.pending ∧
    (properties.map fun p => p.2.payouts.paidOut).sum = dashboard.payouts.paidOut := by
  intro dashboard properties
  by_cases hne : (hostListings rs hostUserId).map (·.id) = []
  · have hproperties : properties = [] := by
      simp only [properties, getHostAnalytics, if_pos hne]
    have hzero : (0 : Earnings ℚ).map Dashboard.round2 = 0 := Earnings.exact_zero.round2_eq
    rw [hproperties]
    refine ⟨fun earnings hearnings => ?_, ?_, ?_, ?_⟩
    · cases periodId <;>
        simp_all [dashboard, getHostDashboard, HostDashboard.earnings]
    · simp [dashboard, getHostDashboard, hne, Dashboard.round2_eq isHundredths_zero]
    all_goals simp [dashboard, getHostDashboard, hne, Dashboard.sumHostPayoutLedger]
  · have hbookings : (if (hostListings rs hostUserId).map (·.id) = [] then []
        else bookingsOf rs ((hostListings rs hostUserId).map (·.id))) =
          bookingsOf rs ((hostListings rs hostUserId).map (·.id)) := if_neg hne
    have hpayouts := sum_payouts hne
    refine ⟨fun earnings hearnings => ?_, ?_, ?_, ?_⟩
    · rw [sum_properties _ _ earnings_visit hne]
      have hzero : ((initialAccs rs hostUserId (hostListings rs hostUserId)).map
          fun p => (p.2.earnings : Earnings ℚ)).sum = 0 := by
        simp [initialAccs, Function.comp_def]
      rw [hzero, zero_add]
      cases periodId <;>
        simp only [dashboard, getHostDashboard, HostDashboard.earnings, hbookings, foldl_visit,
          Option.mem_def, Option.some.injEq, reduceCtorEq, zero_add,
          (exact_shares _ _).round2_eq] at hearnings
      all_goals
        rw [← hearnings]
        simp only [resolvePeriod, earning_attr, earning_all]
    · rw [sum_properties _ _ upcoming30d_visit hne]
      have hzero : ((initialAccs rs hostUserId (hostListings rs hostUserId)).map
          fun p => (p.2.upcoming30d : ℚ)).sum = 0 := by
        simp [initialAccs, Function.comp_def]
      simp only [hzero, dashboard, getHostDashboard, hbookings, foldl_upcoming, zero_add,
        Dashboard.round2_eq (isHundredths_upcomingShares _)]
    · rw [sum_properties (fun acc => acc.payouts.pending) (fun _ => (0 : ℚ))
        (fun b acc => by rw [payouts_visit, add_zero]) hne, hpayouts.1]
      simp [dashboard, getHostDashboard]
    · rw [sum_properties (fun acc => acc.payouts.paidOut) (fun _ => (0 : ℚ))
        (fun b acc => by rw [payouts_visit, add_zero]) hne, hpayouts.2]
      simp [dashboard, getHostDashboard]

/-- A long stay that is over, without fees. -/
def sampleStay (id listingId : ℕ) (amount : ℤ) : StaysBooking where
  id
  bookingReference := ⟨2026, id⟩
  listingId
  guestUserId := 2
  status := .completed
  checkinDate := 0
  checkoutDate := 2740807
  guestCount := 1
  totalSubtotal := amount
  guestFee := 0
  hostFee := 0
  totalPaid := some amount
  payoutAmount := some amount
  currency := "MAD"
  idempotencyKey := none
  createdAt := 0
  completedAt := none

/-- Two listings of a host, each with one stay. -/
def sampleReports : ReportStore :=
  { Calls.sampleStore with
    bookings := Table.ofRows [sampleStay 1 1 1706269502395307, sampleStay 2 2 2740806596181655]
    confirmedAt := fun _ => none }

/-- In doubles the sum of the dashboard falls on half a hundredth that the amounts do not have,
and is rounded up: the dashboard shows a hundredth more than the properties. -/
theorem doubles_differ :
    (getHostDashboard sampleReports (· / 86400000) 1 0 : HostDashboard Float).allTime.net =
      ofHundredths 4447076098576963 ∧
    (getHostAnalytics sampleReports (· / 86400000) 1 .allTime 0 : List (ℕ × Acc Float)).map
        (fun p => p.2.earnings.net) =
      [ofHundredths 1706269502395307, ofHundredths 2740806596181655] ∧
    ¬∀ (rs : ReportStore) (casablancaDay : ℤ → ℤ) (hostUserId : ℕ) (periodId : PeriodId) (now : ℤ),
      ∀ earnings ∈ (getHostDashboard rs casablancaDay hostUserId now :
          HostDashboard Float).earnings periodId,
        ((getHostAnalytics rs casablancaDay hostUserId periodId now : List (ℕ × Acc Float)).map
          fun p => p.2.earnings.net).sum = earnings.net := by
  have hdashboard : (getHostDashboard sampleReports (· / 86400000) 1 0 :
      HostDashboard Float).allTime.net = ofHundredths 4447076098576963 := by decide +kernel
  have hproperties : (getHostAnalytics sampleReports (· / 86400000) 1 .allTime 0 :
      List (ℕ × Acc Float)).map (fun p => p.2.earnings.net) =
        [ofHundredths 1706269502395307, ofHundredths 2740806596181655] := by decide +kernel
  refine ⟨hdashboard, hproperties, fun h => ?_⟩
  have hsum := h sampleReports (· / 86400000) 1 .allTime 0 _ rfl
  rw [hdashboard, hproperties] at hsum
  revert hsum
  decide +kernel

end NexaStays.HostEarnings
