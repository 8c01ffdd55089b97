import NexaStays.Availability
import NexaStays.Calls
import NexaStays.CivilDates
import NexaStays.ImportEffects
import NexaStays.NightRanges

/-!
# The exported calendar, imported again

`buildExportIcs` writes the nights of a listing as texts of days; the importer reads each as a
`Date` at the local midnight of the day and takes its day in UTC. East of UTC that is the day
before.
-/
namespace NexaStays.CalendarExport

open NexaStays.KeyedTable NexaStays.Database NexaStays.Availability NexaStays.CalendarSync
  NexaStays.ImportEffects NexaStays.IsoDates NexaStays.CivilDates

open NexaStays.IsoDates.IsoDate (parse text text_le_iff text_inj dayNumber_inj parse_text
  exists_next)

open NexaStays.Calls (sampleStore)

open NexaStays.NightRanges (TextRange DateRange collapseNights collapseNights_eq mem_days)

/-- Today in UTC, and the same day eighteen months later. -/
def exportHorizon (now : ℤ) : Horizon :=
  let today := now / dayMs
  ⟨today, addMonths today horizonMonths⟩

structure FeedEvent where
  uid : String
  start : String
  stop : String
  summary : String
  deriving DecidableEq, Repr

/-- The date without its dashes. -/
def compact (date : String) : String := String.ofList (date.toList.filter (· ≠ '-'))

def FeedEvent.lines (e : FeedEvent) : List String :=
  ["BEGIN:VEVENT", "UID:" ++ e.uid, "DTSTART;VALUE=DATE:" ++ compact e.start,
    "DTEND;VALUE=DATE:" ++ compact e.stop, "SUMMARY:" ++ e.summary, "END:VEVENT"]

def calendarText (events : List FeedEvent) : String :=
  "\r\n".intercalate (["BEGIN:VCALENDAR", "VERSION:2.0",
    "PRODID:-//Nexa Stays//Calendar Export//EN", "CALSCALE:GREGORIAN", "METHOD:PUBLISH"] ++
    events.flatMap FeedEvent.lines ++ ["END:VCALENDAR"])

def bookingEvent (b : StaysBooking) : FeedEvent where
  uid := "nexa-booking-" ++ toString b.id ++ "@nexastays"
  start := dateText b.checkinDate
  stop := dateText b.checkoutDate
  summary := "Reserved"

def blockEvent (listingId : ℕ) (range : TextRange) : FeedEvent where
  uid := "nexa-block-" ++ toString listingId ++ "-" ++ range.start ++ "@nexastays"
  start := range.start
  stop := range.stop
  summary := "Unavailable"

/-- The rows of `HOST` and `ADMIN`, whose nights are exported. -/
def isExported (listingId : ℕ) (ab : StaysAvailabilityBlock) : Bool :=
  ab.listingId = listingId ∧ ab.isBlocked ∧ ab.source ∈ [some .host, some .admin]

def exportedBlocks (s : Store) (listingId : ℕ) (h : Horizon) : List StaysAvailabilityBlock :=
  s.blocks.rows.filter fun ab => isExported listingId ab ∧ h.start ≤ ab.date ∧ ab.date < h.stop

/-- The bookings that overlap the horizon, and the ranges of the sorted nights. -/
def feedEvents (s : Store) (listingId : ℕ) (h : Horizon) : Option (List FeedEvent) :=
  let bookings := overlappingBookings s listingId h.start h.stop none
  let nights := ((exportedBlocks s listingId h).map fun b => dateText b.date).mergeSort (· ≤ ·)
  (collapseNights nights).map fun ranges =>
    bookings.map bookingEvent ++ ranges.map (blockEvent listingId)

/-- The text of the feed of a listing that its token has found. -/
def buildExportIcs (s : Store) (listingId : ℕ) (now : ℤ) : Option String :=
  (feedEvents s listingId (exportHorizon now)).map calendarText

/-- A component as the parser returns it, with the instants of its dates. -/
structure VEvent where
  isVevent : Bool
  isCancelled : Bool
  start : Option ℤ
  stop : Option ℤ
  uid : Option String
  recurrenceid : Option ℤ
  summary : Option String

/-- The day of `toISOString`, in UTC. -/
def toDateOnly (instant : ℤ) : ℤ := instant / dayMs

def component (v : VEvent) : IcsComponent where
  isVevent := v.isVevent
  isCancelled := v.isCancelled
  start := v.start.map toDateOnly
  stop := v.stop.map toDateOnly
  uid := v.uid
  recurrenceId := v.recurrenceid.map fun r => dateText (toDateOnly r)
  summary := v.summary

/-- The nights of a feed in a horizon. -/
def importedNights (parseICS : String → List (String × VEvent)) (body : String) (h : Horizon) :
    List ℤ :=
  expandNights (parseIcsEvents ((parseICS body).map fun entry => (entry.1, component entry.2))) h

/-- The local midnights of a time zone, which is less than a day ahead of UTC or behind it. -/
structure Zone where
  midnight : ℤ → ℤ
  ahead : ∀ day, (day - 1) * dayMs < midnight day
  behind : ∀ day, midnight day < (day + 1) * dayMs

/-- The day in UTC of a local midnight. -/
def Zone.utcDay (z : Zone) (day : ℤ) : ℤ := toDateOnly (z.midnight day)

/-- What the parser makes of an event: its dates are at the local midnights of their days. -/
def Zone.entry (z : Zone) (e : FeedEvent) : String × VEvent :=
  (e.uid, {
    isVevent := true
    isCancelled := false
    start := (parse e.start).map fun d => z.midnight d.dayNumber
    stop := (parse e.stop).map fun d => z.midnight d.dayNumber
    uid := some e.uid
    recurrenceid := none
    summary := some e.summary })

/-- The parser returns the events of this feed. -/
def ReadsFeed (parseICS : String → List (String × VEvent)) (z : Zone) (events : List FeedEvent) :
    Prop :=
  parseICS (calendarText events) = events.map z.entry

/-- A held booking or a night of the host or an admin takes the night. -/
def Occupied (s : Store) (listingId : ℕ) (night : ℤ) : Prop :=
  (∃ b ∈ s.bookings.rows, b.listingId = listingId ∧ b.status ∈ bookedStatuses ∧
      b.checkinDate ≤ night ∧ night < b.checkoutDate) ∨
    ∃ ab ∈ s.blocks.rows, isExported listingId ab ∧ ab.date = night

/-- The text that is exported, parsed and expanded in the horizon, has the nights that are
occupied. -/
def RoundTrip (z : Zone) (s : Store) (listingId : ℕ) (now : ℤ) : Prop :=
  ∃ events, feedEvents s listingId (exportHorizon now) = some events ∧
    buildExportIcs s listingId now = some (calendarText events) ∧
    ∀ parseICS, ReadsFeed parseICS z events → ∀ night,
      night ∈ importedNights parseICS (calendarText events) (exportHorizon now) ↔
        (exportHorizon now).start ≤ night ∧ night < (exportHorizon now).stop ∧
          Occupied s listingId night

def IsDate (day : ℤ) : Prop := ∃ d : IsoDate, 1 ≤ d.year ∧ d.dayNumber = day

/-- The dates of the rows are dates, and every booking has a night. -/
structure Dated (s : Store) : Prop where
  checkin : ∀ b ∈ s.bookings.rows, IsDate b.checkinDate
  checkout : ∀ b ∈ s.bookings.rows, IsDate b.checkoutDate
  night : ∀ b ∈ s.bookings.rows, b.checkinDate < b.checkoutDate
  block : ∀ ab ∈ s.blocks.rows, IsDate ab.date

theorem parse_dateText {day : ℤ} (h : IsDate day) :
    ∃ d : IsoDate, parse (dateText day) = some d ∧ d.dayNumber = day := by
  obtain ⟨d, hyear, rfl⟩ := h
  exact ⟨d, by rw [dateText_dayNumber hyear, parse_text], rfl⟩

/-- A list of days that are dates. -/
theorem exists_dates {days : List ℤ} (h : ∀ day ∈ days, IsDate day) :
    ∃ ds : List IsoDate, ds.map IsoDate.dayNumber = days ∧ ds.map text = days.map dateText := by
  induction days with
  | nil => exact ⟨[], rfl, rfl⟩
  | cons day days ih =>
    obtain ⟨d, hyear, rfl⟩ := h day (by simp)
    obtain ⟨ds, hdays, htexts⟩ := ih fun day hday => h day (List.mem_cons_of_mem _ hday)
    exact ⟨d :: ds, by rw [List.map_cons, hdays], by
      rw [List.map_cons, List.map_cons, htexts, dateText_dayNumber hyear]⟩

def textLe (a b : IsoDate) : Bool := a.text ≤ b.text

/-- Different dates, sorted by their texts, are in order. -/
theorem sorted_dates {ds : List IsoDate} (h : ds.Nodup) :
    (ds.mergeSort textLe).Pairwise (·.dayNumber < ·.dayNumber) := by
  have hsorted : (ds.mergeSort textLe).Pairwise fun a b => textLe a b = true := by
    refine List.pairwise_mergeSort (fun a b c hab hbc => ?_) (fun a b => ?_) ds
    · simp only [textLe, decide_eq_true_eq] at hab hbc ⊢
      exact hab.trans hbc
    · simp only [textLe, Bool.or_eq_true, decide_eq_true_eq]
      exact le_total _ _
  have hnodup := (List.mergeSort_perm ds textLe).nodup_iff.mpr h
  refine (hsorted.and hnodup).imp fun {a b} hab => ?_
  have hle := text_le_iff.mp (of_decide_eq_true hab.1)
  exact lt_of_le_of_ne hle fun heq => hab.2 (dayNumber_inj.mp heq)

variable {s : Store} {listingId : ℕ} {h : Horizon}

theorem mem_exportedBlocks {ab : StaysAvailabilityBlock} :
    ab ∈ exportedBlocks s listingId h ↔
      ab ∈ s.blocks.rows ∧ isExported listingId ab ∧ h.start ≤ ab.date ∧ ab.date < h.stop := by
  simp [exportedBlocks]

theorem nodup_exported (s : Store) (listingId : ℕ) (h : Horizon) :
    ((exportedBlocks s listingId h).map StaysAvailabilityBlock.date).Nodup := by
  have hrows : s.blocks.rows.Nodup := List.Nodup.of_map _ s.blocks.nodup
  refine List.Nodup.map_on (fun a ha b hb hdate => ?_) (hrows.filter _)
  obtain ⟨ha, ha', -⟩ := mem_exportedBlocks.mp ha
  obtain ⟨hb, hb', -⟩ := mem_exportedBlocks.mp hb
  simp only [isExported, decide_eq_true_eq] at ha' hb'
  exact s.blocks.eq_of_key_eq ha hb (Prod.ext (ha'.1.trans hb'.1.symm) hdate)

/-- The events of the bookings and of the ranges of blocked nights. -/
def feedOf (s : Store) (listingId : ℕ) (h : Horizon) (ranges : List DateRange) : List FeedEvent :=
  (overlappingBookings s listingId h.start h.stop none).map bookingEvent ++
    ranges.map fun r => blockEvent listingId r.text

/-- A feed has the ranges of the blocked nights. -/
theorem feedEvents_eq (listingId : ℕ) (hs : Dated s) (hstop : IsDate h.stop) :
    ∃ ranges : List DateRange,
      feedEvents s listingId h = some (feedOf s listingId h ranges) ∧
      (∀ r ∈ ranges, r.start.dayNumber < r.stop.dayNumber) ∧
      ∀ d : IsoDate, (∃ r ∈ ranges, d ∈ r.days) ↔
        ∃ ab ∈ exportedBlocks s listingId h, ab.date = d.dayNumber := by
  have hdates : ∀ day ∈ (exportedBlocks s listingId h).map StaysAvailabilityBlock.date,
      IsDate day := by
    intro day hday
    obtain ⟨ab, hab, rfl⟩ := List.mem_map.mp hday
    exact hs.block ab (mem_exportedBlocks.mp hab).1
  obtain ⟨ds, hdays, htexts⟩ := exists_dates hdates
  have hnodup : ds.Nodup := by
    have := nodup_exported s listingId h
    rw [← hdays] at this
    exact List.Nodup.of_map _ this
  have hmem : ∀ d : IsoDate, d ∈ ds ↔ ∃ ab ∈ exportedBlocks s listingId h,
      ab.date = d.dayNumber := by
    intro d
    have := congrArg (d.dayNumber ∈ ·) hdays
    simp only [List.mem_map, dayNumber_inj, exists_eq_right, eq_iff_iff] at this
    exact this
  obtain ⟨last, -, hlast⟩ := hstop
  have hnext : ∀ d ∈ ds.mergeSort textLe, ∃ c, d.next? = some c := by
    intro d hd
    obtain ⟨ab, hab, hdate⟩ := (hmem d).mp (List.mem_mergeSort.mp hd)
    have := (mem_exportedBlocks.mp hab).2.2.2
    exact exists_next (b := last) (by omega)
  obtain ⟨ranges, heq, hranges, -, hall⟩ := collapseNights_eq hnext (sorted_dates hnodup)
  refine ⟨ranges, ?_, hranges, fun d => ?_⟩
  · have hsort : ((exportedBlocks s listingId h).map fun b => dateText b.date).mergeSort (· ≤ ·) =
        (ds.mergeSort textLe).map text := by
      have hmap : (ds.mergeSort textLe).map text = (ds.map text).mergeSort (· ≤ ·) :=
        List.map_mergeSort fun a _ b _ => rfl
      rw [hmap, htexts, List.map_map]
      rfl
    rw [feedEvents, hsort]
    simp only [heq, Option.map_some, List.map_map]
    rfl
  · have hsame : d ∈ ds.mergeSort textLe ↔ d ∈ ds := List.mem_mergeSort
    rw [← hmem, ← hsame, ← hall, List.mem_flatMap]

theorem Zone.utcDay_eq (z : Zone) (day : ℤ) : z.utcDay day = day ∨ z.utcDay day = day - 1 := by
  have hahead := z.ahead day
  have hbehind := z.behind day
  simp only [Zone.utcDay, toDateOnly, dayMs] at hahead hbehind ⊢
  omega

/-- The nights of an event of the days `[a, b)`; without an end after its start it has one. -/
def Zone.Decodes (z : Zone) (a b night : ℤ) : Prop :=
  z.utcDay a ≤ night ∧
    night < if z.utcDay a < z.utcDay b then z.utcDay b else z.utcDay a + 1

variable {z : Zone} {parseICS : String → List (String × VEvent)} {events : List FeedEvent}

theorem parseIcsEvent_entry {e : FeedEvent} {a b : IsoDate} (ha : parse e.start = some a)
    (hb : parse e.stop = some b) :
    ∃ p : ParsedEvent, parseIcsEvent (z.entry e).1 (component (z.entry e).2) = some p ∧
      p.startDate = z.utcDay a.dayNumber ∧
      p.endDate = if z.utcDay a.dayNumber < z.utcDay b.dayNumber then z.utcDay b.dayNumber
        else z.utcDay a.dayNumber + 1 := by
  simp only [parseIcsEvent, Zone.entry, component, ha, hb, Option.map_some, Bool.false_eq_true,
    not_false_eq_true, and_self, if_true]
  refine ⟨_, rfl, rfl, ?_⟩
  by_cases hlt : z.utcDay a.dayNumber < z.utcDay b.dayNumber
  · simp only [Zone.utcDay] at hlt
    simp [Zone.utcDay, Option.filter_some, hlt]
  · simp only [Zone.utcDay] at hlt
    simp [Zone.utcDay, Option.filter_some, hlt]

/-- The imported nights are those that the events decode to. -/
theorem mem_importedNights (hread : ReadsFeed parseICS z events)
    (hparse : ∀ e ∈ events, ∃ a b, parse e.start = some a ∧ parse e.stop = some b) {night : ℤ} :
    night ∈ importedNights parseICS (calendarText events) h ↔
      h.start ≤ night ∧ night < h.stop ∧
        ∃ e ∈ events, ∃ a b : IsoDate, parse e.start = some a ∧ parse e.stop = some b ∧
          z.Decodes a.dayNumber b.dayNumber night := by
  rw [importedNights, mem_expandNights, show parseICS _ = _ from hread]
  refine and_congr_right fun _ => and_congr_right fun _ => ?_
  simp only [parseIcsEvents, List.mem_filterMap, List.mem_map, List.map_map, Function.comp_apply]
  constructor
  · rintro ⟨p, ⟨_, ⟨e, he, rfl⟩, hp⟩, hnight⟩
    obtain ⟨a, b, ha, hb⟩ := hparse e he
    obtain ⟨p', hp', hstart, hstop⟩ := parseIcsEvent_entry (z := z) ha hb
    obtain rfl : p' = p := Option.some.inj (hp'.symm.trans hp)
    rw [hstart, hstop] at hnight
    exact ⟨e, he, a, b, ha, hb, hnight⟩
  · rintro ⟨e, he, a, b, ha, hb, hnight⟩
    obtain ⟨p, hp, hstart, hstop⟩ := parseIcsEvent_entry (z := z) ha hb
    refine ⟨p, ⟨_, ⟨e, he, rfl⟩, hp⟩, ?_⟩
    rw [hstart, hstop]
    exact hnight

/-- An event whose days in the horizon, after the first, are kept decodes to its own nights. -/
theorem decodes_iff {a b night : ℤ} (hab : a < b) (hhi : a < h.stop)
    (ha : h.start < a → z.utcDay a = a) (hb : b ≤ h.stop → z.utcDay b = b)
    (hstart : h.start ≤ night) (hstop : night < h.stop) :
    z.Decodes a b night ↔ a ≤ night ∧ night < b := by
  have hcases := z.utcDay_eq a
  have hcases' := z.utcDay_eq b
  unfold Zone.Decodes
  by_cases hfirst : h.start < a
  · have ha' := ha hfirst
    by_cases hlast : b ≤ h.stop
    · have hb' := hb hlast
      rw [ha', hb', if_pos hab]
    · rw [ha']
      split_ifs <;> omega
  · by_cases hlast : b ≤ h.stop
    · have hb' := hb hlast
      rw [hb']
      split_ifs <;> omega
    · split_ifs <;> omega

/-- The exported days after the first of the horizon, and up to its last, are kept. -/
structure Unshifted (z : Zone) (s : Store) (listingId : ℕ) (h : Horizon) : Prop where
  checkin : ∀ b ∈ overlappingBookings s listingId h.start h.stop none,
    h.start < b.checkinDate → z.utcDay b.checkinDate = b.checkinDate
  checkout : ∀ b ∈ overlappingBookings s listingId h.start h.stop none,
    b.checkoutDate ≤ h.stop → z.utcDay b.checkoutDate = b.checkoutDate
  night : ∀ ab ∈ exportedBlocks s listingId h, h.start < ab.date → z.utcDay ab.date = ab.date
  morning : ∀ ab ∈ exportedBlocks s listingId h, z.utcDay (ab.date + 1) = ab.date + 1

theorem mem_overlapping {b : StaysBooking} :
    b ∈ overlappingBookings s listingId h.start h.stop none ↔
      b ∈ s.bookings.rows ∧ b.listingId = listingId ∧ b.status ∈ bookedStatuses ∧
        b.checkinDate < h.stop ∧ h.start < b.checkoutDate := by
  simp [overlappingBookings, overlaps]

/-- A row that is exported covers the night. -/
def Covered (s : Store) (listingId : ℕ) (h : Horizon) (night : ℤ) : Prop :=
  (∃ b ∈ overlappingBookings s listingId h.start h.stop none,
      b.checkinDate ≤ night ∧ night < b.checkoutDate) ∨
    ∃ ab ∈ exportedBlocks s listingId h, ab.date = night

/-- The nights that are occupied in the horizon, by the rows of the feed. -/
theorem occupied_iff {night : ℤ} (hstart : h.start ≤ night) (hstop : night < h.stop) :
    Occupied s listingId night ↔ Covered s listingId h night := by
  refine or_congr ⟨?_, ?_⟩ ⟨?_, ?_⟩
  · rintro ⟨b, hb, hlisting, hstatus, hfirst, hlast⟩
    exact ⟨b, mem_overlapping.mpr ⟨hb, hlisting, hstatus, by omega, by omega⟩, hfirst, hlast⟩
  · rintro ⟨b, hb, hnight⟩
    obtain ⟨hb, hlisting, hstatus, -, -⟩ := mem_overlapping.mp hb
    exact ⟨b, hb, hlisting, hstatus, hnight⟩
  · rintro ⟨ab, hab, hexported, rfl⟩
    exact ⟨ab, mem_exportedBlocks.mpr ⟨hab, hexported, hstart, hstop⟩, rfl⟩
  · rintro ⟨ab, hab, rfl⟩
    obtain ⟨hab, hexported, -⟩ := mem_exportedBlocks.mp hab
    exact ⟨ab, hab, hexported, rfl⟩

/-- The days at the ends of a range of exported nights. -/
theorem range_ends {ranges : List DateRange} {r : DateRange} (hr : r ∈ ranges)
    (hlt : r.start.dayNumber < r.stop.dayNumber)
    (hdays : ∀ d : IsoDate, (∃ r ∈ ranges, d ∈ r.days) ↔
      ∃ ab ∈ exportedBlocks s listingId h, ab.date = d.dayNumber) :
    (∃ ab ∈ exportedBlocks s listingId h, ab.date = r.start.dayNumber) ∧
      ∃ ab ∈ exportedBlocks s listingId h, ab.date + 1 = r.stop.dayNumber := by
  obtain ⟨last, hlast⟩ := IsoDate.exists_dayNumber (a := r.start) (b := r.stop)
    (n := r.stop.dayNumber - 1) (by omega) (by omega)
  obtain ⟨ab, hab, hdate⟩ := (hdays last).mp ⟨r, hr, mem_days.mpr (by omega)⟩
  exact ⟨(hdays r.start).mp ⟨r, hr, mem_days.mpr ⟨le_rfl, hlt⟩⟩, ab, hab, by omega⟩

/-- The nights of the ranges are those of the rows. -/
theorem mem_ranges_iff {ranges : List DateRange} (hs : Dated s)
    (hdays : ∀ d : IsoDate, (∃ r ∈ ranges, d ∈ r.days) ↔
      ∃ ab ∈ exportedBlocks s listingId h, ab.date = d.dayNumber) {night : ℤ} :
    (∃ r ∈ ranges, r.start.dayNumber ≤ night ∧ night < r.stop.dayNumber) ↔
      ∃ ab ∈ exportedBlocks s listingId h, ab.date = night := by
  constructor
  · rintro ⟨r, hr, hnight⟩
    obtain ⟨d, rfl⟩ := IsoDate.exists_dayNumber (a := r.start) (b := r.stop) hnight.1 hnight.2.le
    exact (hdays d).mp ⟨r, hr, mem_days.mpr hnight⟩
  · rintro ⟨ab, hab, rfl⟩
    obtain ⟨d, -, hd⟩ := hs.block ab (mem_exportedBlocks.mp hab).1
    obtain ⟨r, hr, hmem⟩ := (hdays d).mpr ⟨ab, hab, hd.symm⟩
    exact ⟨r, hr, hd ▸ mem_days.mp hmem⟩

theorem parse_bookingEvent {b : StaysBooking} (hs : Dated s) (hb : b ∈ s.bookings.rows) :
    ∃ first last : IsoDate,
      parse (bookingEvent b).start = some first ∧ parse (bookingEvent b).stop = some last ∧
      first.dayNumber = b.checkinDate ∧ last.dayNumber = b.checkoutDate := by
  obtain ⟨first, hfirst, hfirst'⟩ := parse_dateText (hs.checkin b hb)
  obtain ⟨last, hlast, hlast'⟩ := parse_dateText (hs.checkout b hb)
  exact ⟨first, last, hfirst, hlast, hfirst', hlast'⟩

/-- The imported nights of a feed, by its bookings and ranges. -/
theorem mem_importedFeed (hs : Dated s) {ranges : List DateRange} {night : ℤ}
    (hread : ReadsFeed parseICS z (feedOf s listingId h ranges)) :
    night ∈ importedNights parseICS (calendarText (feedOf s listingId h ranges)) h ↔
      h.start ≤ night ∧ night < h.stop ∧
        ((∃ b ∈ overlappingBookings s listingId h.start h.stop none,
            z.Decodes b.checkinDate b.checkoutDate night) ∨
          ∃ r ∈ ranges, z.Decodes r.start.dayNumber r.stop.dayNumber night) := by
  have hbooking : ∀ b ∈ overlappingBookings s listingId h.start h.stop none,
      ∃ first last : IsoDate,
        parse (bookingEvent b).start = some first ∧ parse (bookingEvent b).stop = some last ∧
        first.dayNumber = b.checkinDate ∧ last.dayNumber = b.checkoutDate :=
    fun b hb => parse_bookingEvent hs (mem_overlapping.mp hb).1
  have hrange : ∀ r : DateRange, parse (blockEvent listingId r.text).start = some r.start ∧
      parse (blockEvent listingId r.text).stop = some r.stop :=
    fun r => ⟨parse_text _, parse_text _⟩
  rw [mem_importedNights hread]
  · refine and_congr_right fun _ => and_congr_right fun _ => ⟨?_, ?_⟩
    · rintro ⟨e, he, a, b, ha, hb, hnight⟩
      obtain he | he := List.mem_append.mp he
      · obtain ⟨row, hrow, rfl⟩ := List.mem_map.mp he
        obtain ⟨first, last, hfirst, hlast, hfirst', hlast'⟩ := hbooking row hrow
        obtain rfl := Option.some.inj (hfirst.symm.trans ha)
        obtain rfl := Option.some.inj (hlast.symm.trans hb)
        rw [hfirst', hlast'] at hnight
        exact Or.inl ⟨row, hrow, hnight⟩
      · obtain ⟨r, hr, rfl⟩ := List.mem_map.mp he
        obtain rfl := Option.some.inj ((hrange r).1.symm.trans ha)
        obtain rfl := Option.some.inj ((hrange r).2.symm.trans hb)
        exact Or.inr ⟨r, hr, hnight⟩
    · rintro (⟨row, hrow, hnight⟩ | ⟨r, hr, hnight⟩)
      · obtain ⟨first, last, hfirst, hlast, hfirst', hlast'⟩ := hbooking row hrow
        rw [← hfirst', ← hlast'] at hnight
        exact ⟨_, List.mem_append_left _ (List.mem_map_of_mem hrow), first, last, hfirst, hlast,
          hnight⟩
      · exact ⟨_, List.mem_append_right _ (List.mem_map_of_mem hr), r.start, r.stop,
          (hrange r).1, (hrange r).2, hnight⟩
  · intro e he
    obtain he | he := List.mem_append.mp he
    · obtain ⟨b, hb, rfl⟩ := List.mem_map.mp he
      obtain ⟨first, last, hfirst, hlast, -⟩ := hbooking b hb
      exact ⟨first, last, hfirst, hlast⟩
    · obtain ⟨r, hr, rfl⟩ := List.mem_map.mp he
      exact ⟨r.start, r.stop, hrange r⟩

/-- The feed of a listing whose exported days are kept is imported as its own nights. -/
theorem roundTrip_of_unshifted {now : ℤ} (hs : Dated s) (hstop : IsDate (exportHorizon now).stop)
    (hkept : Unshifted z s listingId (exportHorizon now)) : RoundTrip z s listingId now := by
  obtain ⟨ranges, hfeed, hranges, hdays⟩ := feedEvents_eq listingId hs hstop
  refine ⟨_, hfeed, by rw [buildExportIcs, hfeed]; rfl, fun parseICS hread night => ?_⟩
  rw [mem_importedFeed hs hread]
  refine and_congr_right fun hlo => and_congr_right fun hhi => ?_
  rw [occupied_iff hlo hhi, Covered, ← mem_ranges_iff hs hdays]
  refine or_congr (exists_congr fun b => and_congr_right fun hb => ?_)
    (exists_congr fun r => and_congr_right fun hr => ?_)
  · obtain ⟨hrow, -, -, hover, -⟩ := mem_overlapping.mp hb
    exact decodes_iff (hs.night b hrow) hover (hkept.checkin b hb) (hkept.checkout b hb) hlo hhi
  · obtain ⟨⟨ab, hab, hdate⟩, ab', hab', hdate'⟩ := range_ends hr (hranges r hr) hdays
    have hbounds := (mem_exportedBlocks.mp hab).2.2
    exact decodes_iff (h := exportHorizon now) (hranges r hr) (by omega)
      (fun hlt => hdate ▸ hkept.night ab hab (by omega))
      (fun _ => hdate' ▸ hkept.morning ab' hab') hlo hhi

/-- A clock that is ahead of UTC at every midnight imports every night one day early. -/
theorem decodes_early {a b night : ℤ} (hz : ∀ day, z.utcDay day = day - 1) (hab : a < b) :
    z.Decodes a b night ↔ a ≤ night + 1 ∧ night + 1 < b := by
  unfold Zone.Decodes
  rw [hz a, hz b, if_pos (by omega)]
  omega

/-- A property of the days of a range that passes to the next day and back is one of all or of
none. -/
theorem all_or_none {P : ℤ → Prop} {lo hi : ℤ} :
    (∀ n, lo ≤ n → n < hi → (P (n + 1) ↔ P n)) ↔
      (∀ n, lo ≤ n → n ≤ hi → P n) ∨ ∀ n, lo ≤ n → n ≤ hi → ¬P n := by
  constructor
  · intro hstep
    have hall : ∀ k : ℕ, lo + k ≤ hi → (P (lo + k) ↔ P lo) := by
      intro k
      induction k with
      | zero => simp
      | succ k ih =>
        intro hk
        push_cast at hk ⊢
        rw [← add_assoc, hstep (lo + k) (by omega) (by omega), ih (by omega)]
    have hday : ∀ n, lo ≤ n → n ≤ hi → (P n ↔ P lo) := by
      intro n hlo hhi
      obtain ⟨k, rfl⟩ := Int.le.dest hlo
      exact hall k hhi
    by_cases hfirst : P lo
    · exact Or.inl fun n hlo hhi => (hday n hlo hhi).mpr hfirst
    · exact Or.inr fun n hlo hhi hn => hfirst ((hday n hlo hhi).mp hn)
  · rintro (hall | hnone) n hlo hhi
    · exact iff_of_true (hall _ (by omega) (by omega)) (hall n hlo hhi.le)
    · exact iff_of_false (hnone _ (by omega) (by omega)) (hnone n hlo hhi.le)

/-- Nothing is exported if and only if no night of the horizon is covered. -/
theorem none_covered_iff (hs : Dated s) (hle : h.start < h.stop) :
    (∀ n, h.start ≤ n → n ≤ h.stop → ¬Covered s listingId h n) ↔
      overlappingBookings s listingId h.start h.stop none = [] ∧
        exportedBlocks s listingId h = [] := by
  constructor
  · intro hnone
    refine ⟨List.eq_nil_iff_forall_not_mem.mpr fun b hb => ?_,
      List.eq_nil_iff_forall_not_mem.mpr fun ab hab => ?_⟩
    · obtain ⟨hrow, -, -, hover, hover'⟩ := mem_overlapping.mp hb
      have hnight := hs.night b hrow
      exact hnone (max b.checkinDate h.start) (by omega) (by omega)
        (Or.inl ⟨b, hb, by omega, by omega⟩)
    · have hbounds := (mem_exportedBlocks.mp hab).2.2
      exact hnone ab.date (by omega) (by omega) (Or.inr ⟨ab, hab, rfl⟩)
  · rintro ⟨hbookings, hblocks⟩ n - - (⟨b, hb, -⟩ | ⟨ab, hab, -⟩)
    · rw [hbookings] at hb
      exact List.not_mem_nil hb
    · rw [hblocks] at hab
      exact List.not_mem_nil hab

/-- Ahead of UTC the nights come back only of a calendar that is free or full. -/
theorem roundTrip_ahead_iff {now : ℤ} (hz : ∀ day, z.utcDay day = day - 1) (hs : Dated s)
    (hstop : IsDate (exportHorizon now).stop)
    (hle : (exportHorizon now).start < (exportHorizon now).stop) :
    RoundTrip z s listingId now ↔
      (∀ n, (exportHorizon now).start ≤ n → n ≤ (exportHorizon now).stop →
        Covered s listingId (exportHorizon now) n) ∨
      overlappingBookings s listingId (exportHorizon now).start (exportHorizon now).stop none = [] ∧
        exportedBlocks s listingId (exportHorizon now) = [] := by
  obtain ⟨ranges, hfeed, hranges, hdays⟩ := feedEvents_eq listingId hs hstop
  rw [← none_covered_iff hs hle, ← all_or_none]
  have himported : ∀ parseICS, ReadsFeed parseICS z (feedOf s listingId (exportHorizon now) ranges) →
      ∀ night, night ∈ importedNights parseICS
          (calendarText (feedOf s listingId (exportHorizon now) ranges)) (exportHorizon now) ↔
        (exportHorizon now).start ≤ night ∧ night < (exportHorizon now).stop ∧
          Covered s listingId (exportHorizon now) (night + 1) := by
    intro parseICS hread night
    rw [mem_importedFeed hs hread, Covered, ← mem_ranges_iff hs hdays]
    refine and_congr_right fun _ => and_congr_right fun _ =>
      or_congr (exists_congr fun b => and_congr_right fun hb => ?_)
        (exists_congr fun r => and_congr_right fun hr => ?_)
    · exact decodes_early hz (hs.night b (mem_overlapping.mp hb).1)
    · exact decodes_early hz (hranges r hr)
  constructor
  · rintro ⟨events, hfeed', -, hround⟩ n hlo hhi
    have hread : ReadsFeed (fun _ => events.map z.entry) z events := rfl
    have hnight := hround _ hread n
    obtain rfl := Option.some.inj (hfeed.symm.trans hfeed')
    rw [himported _ hread, occupied_iff hlo hhi] at hnight
    simpa [hlo, hhi] using hnight
  · intro hstep
    refine ⟨_, hfeed, by rw [buildExportIcs, hfeed]; rfl, fun parseICS hread n => ?_⟩
    rw [himported parseICS hread]
    refine and_congr_right fun hlo => and_congr_right fun hhi => ?_
    rw [occupied_iff hlo hhi]
    exact hstep n hlo hhi

theorem isDate_between {lo hi day : ℤ} (hlo : IsDate lo) (hhi : IsDate hi) (h₁ : lo ≤ day)
    (h₂ : day ≤ hi) : IsDate day := by
  obtain ⟨first, hyear, rfl⟩ := hlo
  obtain ⟨last, -, rfl⟩ := hhi
  obtain ⟨d, rfl⟩ := IsoDate.exists_dayNumber h₁ h₂
  refine ⟨d, ?_, rfl⟩
  by_contra hzero
  have hmonth := d.month_le
  have hindex : d.index < first.index := by
    rw [IsoDate.index, IsoDate.index]
    omega
  exact absurd (IsoDate.dayNumber_lt_of_index hindex) h₁.not_gt

/-- A held booking of listing 1. -/
def stay (first last : ℤ) : StaysBooking where
  id := 1
  bookingReference := ⟨2026, 1⟩
  listingId := 1
  guestUserId := 2
  status := .confirmed
  checkinDate := first
  checkoutDate := last
  guestCount := 1
  totalSubtotal := 30000
  guestFee := 1500
  hostFee := 1500
  totalPaid := some 31500
  payoutAmount := some 28500
  currency := "MAD"
  idempotencyKey := none
  createdAt := 0
  completedAt := none

def oneStay (first last : ℤ) : Store :=
  { sampleStore with bookings := Table.ofRows [stay first last] }

theorem dated_oneStay {first last : ℤ} (hfirst : IsDate first) (hlast : IsDate last)
    (hlt : first < last) : Dated (oneStay first last) := by
  have hrow : ∀ b ∈ (oneStay first last).bookings.rows, b = stay first last := fun b hb =>
    List.mem_singleton.mp hb
  refine ⟨fun b hb => ?_, fun b hb => ?_, fun b hb => ?_, fun ab hab => absurd hab List.not_mem_nil⟩
  · rw [hrow b hb]
    exact hfirst
  · rw [hrow b hb]
    exact hlast
  · rw [hrow b hb]
    exact hlt

theorem overlapping_oneStay {first last : ℤ} (hover : first < h.stop) (hover' : h.start < last) :
    overlappingBookings (oneStay first last) 1 h.start h.stop none = [stay first last] := by
  have hone : (oneStay first last).bookings.rows = [stay first last] := rfl
  simp [overlappingBookings, hone, overlaps, stay, bookedStatuses, hover, hover']

theorem feedEvents_oneStay (first last : ℤ) :
    feedEvents (oneStay first last) 1 h = some (feedOf (oneStay first last) 1 h []) := by
  have hblocks : exportedBlocks (oneStay first last) 1 h = [] := rfl
  rw [feedEvents, hblocks, List.map_nil, List.mergeSort_nil]
  rfl

/-- The feed of one booking decodes to what its event decodes to. -/
theorem roundTrip_oneStay {now first last : ℤ} (night : ℤ)
    (hs : Dated (oneStay first last)) (hover : first < (exportHorizon now).stop)
    (hover' : (exportHorizon now).start < last) (hlo : (exportHorizon now).start ≤ night)
    (hhi : night < (exportHorizon now).stop) (htrip : RoundTrip z (oneStay first last) 1 now) :
    z.Decodes first last night ↔ first ≤ night ∧ night < last := by
  have hblocks : exportedBlocks (oneStay first last) 1 (exportHorizon now) = [] := rfl
  obtain ⟨events, hfeed, -, hround⟩ := htrip
  have hread : ReadsFeed (fun _ => events.map z.entry) z events := rfl
  have hnight := hround _ hread night
  obtain rfl := Option.some.inj ((feedEvents_oneStay first last).symm.trans hfeed)
  rw [mem_importedFeed hs hread, occupied_iff hlo hhi, Covered, overlapping_oneStay hover hover',
    hblocks] at hnight
  simpa [hlo, hhi, stay] using hnight

/-- The local midnights of the horizon are on their own days in UTC. -/
def AtMostUtc (z : Zone) (h : Horizon) : Prop :=
  ∀ day, h.start < day → day ≤ h.stop → z.utcDay day = day

theorem unshifted_of_atMostUtc (hz : AtMostUtc z h) : Unshifted z s listingId h where
  checkin b hb hlt := hz _ hlt (mem_overlapping.mp hb).2.2.2.1.le
  checkout b hb hle := hz _ (mem_overlapping.mp hb).2.2.2.2 hle
  night ab hab hlt := hz _ hlt (mem_exportedBlocks.mp hab).2.2.2.le
  morning ab hab := by
    have := (mem_exportedBlocks.mp hab).2.2
    exact hz _ (by omega) (by omega)

theorem exportHorizon_lt {now : ℤ} (hstart : IsDate (exportHorizon now).start) :
    (exportHorizon now).start + 18 ≤ (exportHorizon now).stop := by
  obtain ⟨d, hyear, hd⟩ := hstart
  have := le_addMonths hyear horizonMonths
  rw [hd] at this
  exact this

/-- In a time zone every feed that is exported at an instant is imported as the nights of its
listing, if and only if the local midnights of the horizon are on their own days in UTC. -/
theorem roundTrips_iff (z : Zone) (now : ℤ) (hstart : IsDate (exportHorizon now).start)
    (hstop : IsDate (exportHorizon now).stop) :
    (∀ s listingId, Dated s → RoundTrip z s listingId now) ↔ AtMostUtc z (exportHorizon now) := by
  refine ⟨fun htrip day hlo hhi => ?_, fun hz s listingId hs =>
    roundTrip_of_unshifted hs hstop (unshifted_of_atMostUtc hz)⟩
  have hlong := exportHorizon_lt hstart
  have hdate : ∀ n, (exportHorizon now).start ≤ n → n ≤ (exportHorizon now).stop → IsDate n :=
    fun n => isDate_between hstart hstop
  by_contra hshift
  have hbefore : z.utcDay day = day - 1 := (z.utcDay_eq day).resolve_left hshift
  by_cases hlast : day < (exportHorizon now).stop
  · -- a booking of the night is imported with the night before it
    have hs := dated_oneStay (hdate day (by omega) hhi)
      (hdate (day + 1) (by omega) (by omega)) (by omega)
    have hiff := roundTrip_oneStay (day - 1) hs hlast (by omega) (by omega) (by omega)
      (htrip _ 1 hs)
    have hnext := z.utcDay_eq (day + 1)
    have hdecodes : z.Decodes day (day + 1) (day - 1) := by
      unfold Zone.Decodes
      rw [hbefore]
      refine ⟨le_rfl, ?_⟩
      split_ifs <;> omega
    have := hiff.mp hdecodes
    omega
  · -- a booking up to the last day is imported without its last night
    have hs := dated_oneStay (hdate (day - 2) (by omega) (by omega)) (hdate day hlo.le hhi)
      (by omega)
    have hiff := roundTrip_oneStay (day - 1) hs (by omega) (by omega) (by omega)
      (by omega) (htrip _ 1 hs)
    have hfirst := z.utcDay_eq (day - 2)
    have hdecodes : z.Decodes (day - 2) day (day - 1) := hiff.mpr (by omega)
    unfold Zone.Decodes at hdecodes
    rw [hbefore] at hdecodes
    obtain ⟨-, hlt⟩ := hdecodes
    split_ifs at hlt <;> omega

/-- In a time zone every feed that is exported at an instant is imported as the nights of its
listing, if and only if the local midnights of the horizon are on their own days in UTC. Anywhere
else it is that of a listing whose exported days are kept; and where every local midnight is on
the day before, that of a listing that is free or full. -/
theorem feed_round_trip (z : Zone) (now : ℤ) (hstart : IsDate (exportHorizon now).start)
    (hstop : IsDate (exportHorizon now).stop) :
    ((∀ s listingId, Dated s → RoundTrip z s listingId now) ↔ AtMostUtc z (exportHorizon now)) ∧
    (∀ s listingId, Dated s → Unshifted z s listingId (exportHorizon now) →
      RoundTrip z s listingId now) ∧
    ((∀ day, z.utcDay day = day - 1) → ∀ s listingId, Dated s →
      (RoundTrip z s listingId now ↔
        (∀ n, (exportHorizon now).start ≤ n → n ≤ (exportHorizon now).stop →
          Covered s listingId (exportHorizon now) n) ∨
        overlappingBookings s listingId (exportHorizon now).start (exportHorizon now).stop none =
            [] ∧
          exportedBlocks s listingId (exportHorizon now) = [])) := by
  have hlong := exportHorizon_lt hstart
  exact ⟨roundTrips_iff z now hstart hstop,
    fun s listingId hs hkept => roundTrip_of_unshifted hs hstop hkept,
    fun hz s listingId hs => roundTrip_ahead_iff hz hs hstop (by omega)⟩

/-- The midnights of a time zone that is always as many milliseconds ahead of UTC. -/
def fixedZone (offset : ℤ) (hlo : -dayMs < offset) (hhi : offset < dayMs) : Zone where
  midnight day := day * dayMs - offset
  ahead day := by
    rw [sub_mul, one_mul]
    omega
  behind day := by
    rw [add_mul, one_mul]
    omega

theorem utcDay_fixedZone {offset : ℤ} (hlo : -dayMs < offset) (hhi : offset < dayMs) (day : ℤ) :
    (fixedZone offset hlo hhi).utcDay day = if offset ≤ 0 then day else day - 1 := by
  simp only [Zone.utcDay, fixedZone, toDateOnly, dayMs] at hlo hhi ⊢
  split_ifs <;> omega

theorem isDate_sample : IsDate (exportHorizon (20000 * dayMs)).start ∧
    IsDate (exportHorizon (20000 * dayMs)).stop :=
  ⟨⟨⟨2024, 10, 4, by decide, by decide, by decide, by decide, by decide⟩, by decide, by decide⟩,
    ⟨⟨2026, 4, 4, by decide, by decide, by decide, by decide, by decide⟩, by decide, by decide⟩⟩

theorem dated_sample : Dated (oneStay 20010 20012) :=
  dated_oneStay (isDate_between isDate_sample.1 isDate_sample.2 (by decide) (by decide))
    (isDate_between isDate_sample.1 isDate_sample.2 (by decide) (by decide)) (by decide)

/-- Five hours behind UTC. -/
theorem feed_round_trip_behind :
    RoundTrip (fixedZone (-18000000) (by decide) (by decide)) (oneStay 20010 20012) 1
      (20000 * dayMs) := by
  refine (feed_round_trip _ _ isDate_sample.1 isDate_sample.2).1.mpr (fun day _ _ => ?_) _ 1
    dated_sample
  rw [utcDay_fixedZone, if_pos (by decide)]

/-- An hour ahead of UTC the two nights of a booking are imported one day early. -/
theorem ahead_imports_early :
    buildExportIcs (oneStay 20010 20012) 1 (20000 * dayMs) =
        some (calendarText [bookingEvent (stay 20010 20012)]) ∧
      (∀ parseICS,
        ReadsFeed parseICS (fixedZone 3600000 (by decide) (by decide))
            [bookingEvent (stay 20010 20012)] →
          importedNights parseICS (calendarText [bookingEvent (stay 20010 20012)])
            (exportHorizon (20000 * dayMs)) = [20009, 20010]) ∧
      Occupied (oneStay 20010 20012) 1 20011 ∧
      ¬RoundTrip (fixedZone 3600000 (by decide) (by decide)) (oneStay 20010 20012) 1
        (20000 * dayMs) := by
  have hfeed : feedOf (oneStay 20010 20012) 1 (exportHorizon (20000 * dayMs)) [] =
      [bookingEvent (stay 20010 20012)] := by
    rw [feedOf, overlapping_oneStay (by decide) (by decide)]
    rfl
  refine ⟨by rw [buildExportIcs, feedEvents_oneStay, hfeed]; rfl, fun parseICS hread => ?_,
    Or.inl ⟨stay 20010 20012, List.mem_singleton.mpr rfl,
    rfl, by decide, by decide, by decide⟩, fun htrip => ?_⟩
  · rw [importedNights, show parseICS _ = _ from hread]
    decide +kernel
  · have hiff := roundTrip_oneStay 20009 dated_sample (by decide) (by decide) (by decide)
      (by decide) htrip
    have hdecodes := hiff.mp (by
      unfold Zone.Decodes
      rw [utcDay_fixedZone, utcDay_fixedZone]
      decide)
    omega

end NexaStays.CalendarExport
