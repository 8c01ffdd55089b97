import NexaStays.CalendarCalls

/-!
# Imported nights stay blocked

A night of a listing has one row, which one calendar owns, while the stored events of
several may cover it. What an operation does to the nights is said by the calendar whose
events it replaces, the nights it writes and the nights it releases; covered nights stay
blocked exactly if no released night is covered by another calendar and no night that the
horizon has newly reached is left without a row.
-/
namespace NexaStays.ImportedNights

open NexaStays.KeyedTable NexaStays.Transactions NexaStays.Database NexaStays.BookingDate
  NexaStays.HostCalendar NexaStays.CalendarSync NexaStays.SoloRuns NexaStays.ImportEffects
  NexaStays.CalendarCalls

def InHorizon (now night : ℤ) : Prop :=
  (importHorizon now).start ≤ night ∧ night < (importHorizon now).stop

/-- A stored event of the calendar covers the night. -/
def Reserved (s : Store) (calendarId : ℕ) (night : ℤ) : Prop :=
  ∃ e ∈ s.events.rows, e.externalCalendarId = calendarId ∧ e.startDate ≤ night ∧ night < e.endDate

/-- A calendar that is connected to the listing has reserved the night. -/
def CoveredBy (s : Store) (calendarId listingId : ℕ) (night : ℤ) : Prop :=
  connectedTo s calendarId = some listingId ∧ Reserved s calendarId night

def IsBlocked (s : Store) (listingId : ℕ) (night : ℤ) : Prop :=
  ∃ b ∈ s.blocks.find? (listingId, night), b.isBlocked = true

/-- The night has a row of the host or of an administrator. -/
def HostNight (s : Store) (listingId : ℕ) (night : ℤ) : Prop :=
  ∃ b ∈ s.blocks.find? (listingId, night), b.source = some .host ∨ b.source = some .admin

/-- Every covered night in the horizon that the host has not taken over is blocked. -/
def AllBlocked (now : ℤ) (s : Store) : Prop :=
  ∀ calendarId listingId night, InHorizon now night → CoveredBy s calendarId listingId night →
    ¬HostNight s listingId night → IsBlocked s listingId night

instance (now night : ℤ) : Decidable (InHorizon now night) :=
  inferInstanceAs (Decidable (_ ∧ _))

instance (s : Store) (calendarId listingId : ℕ) (night : ℤ) :
    Decidable (CoveredBy s calendarId listingId night) :=
  inferInstanceAs (Decidable (_ ∧ ∃ e ∈ s.events.rows, _))

instance (s : Store) (listingId : ℕ) (night : ℤ) : Decidable (IsBlocked s listingId night) :=
  inferInstanceAs (Decidable (∃ b ∈ s.blocks.find? (listingId, night), _))

instance (s : Store) (listingId : ℕ) (night : ℤ) : Decidable (HostNight s listingId night) :=
  inferInstanceAs (Decidable (∃ b ∈ s.blocks.find? (listingId, night), _))

/-- The rows of calendars block their nights. -/
def IcalBlocked (s : Store) : Prop :=
  ∀ b ∈ s.blocks.rows, b.source = some .ical → b.isBlocked = true

/-- The calendar whose stored events are replaced, the nights whose row is written, and the
nights whose row is deleted. -/
structure Touch where
  replaced : Option ℕ
  written : ℕ → ℤ → Prop
  released : ℕ → ℤ → Prop

namespace Touch

/-- Nothing is touched. -/
def nothing : Touch := ⟨none, fun _ _ => False, fun _ _ => False⟩

/-- No night is given up that another calendar has reserved. -/
def GivesUpFree (touch : Touch) (now : ℤ) (s : Store) : Prop :=
  ∀ calendarId listingId night, touch.released listingId night → InHorizon now night →
    touch.replaced ≠ some calendarId → ¬CoveredBy s calendarId listingId night

/-- A reserved night that the horizon did not reach before has a row, of a calendar or of
the host, unless the operation writes it. -/
def ReachesBlocked (touch : Touch) (earlier now : ℤ) (s : Store) : Prop :=
  ∀ calendarId listingId night, InHorizon now night → ¬InHorizon earlier night →
    ¬touch.written listingId night → ¬touch.released listingId night →
    touch.replaced ≠ some calendarId → CoveredBy s calendarId listingId night →
    ¬HostNight s listingId night → IsBlocked s listingId night

end Touch

/-- The store after an operation, as far as nights are concerned. -/
structure Touches (touch : Touch) (now : ℤ) (s s' : Store) : Prop where
  others : ∀ calendarId listingId night, touch.replaced ≠ some calendarId →
    (CoveredBy s' calendarId listingId night ↔ CoveredBy s calendarId listingId night)
  imported : ∀ calendarId listingId night, touch.replaced = some calendarId →
    CoveredBy s' calendarId listingId night → InHorizon now night → touch.written listingId night
  settled : ∀ listingId night, touch.written listingId night →
    HostNight s' listingId night ∨ IsBlocked s' listingId night
  released : ∀ listingId night, touch.released listingId night →
    ¬touch.written listingId night ∧ s'.blocks.find? (listingId, night) = none
  kept : ∀ listingId night, ¬touch.written listingId night → ¬touch.released listingId night →
    s'.blocks.find? (listingId, night) = s.blocks.find? (listingId, night)

variable {earlier now : ℤ} {s s' : Store}

theorem hostNight_congr {listingId : ℕ} {night : ℤ}
    (h : s'.blocks.find? (listingId, night) = s.blocks.find? (listingId, night)) :
    HostNight s' listingId night ↔ HostNight s listingId night := by
  simp only [HostNight, h]

theorem isBlocked_congr {listingId : ℕ} {night : ℤ}
    (h : s'.blocks.find? (listingId, night) = s.blocks.find? (listingId, night)) :
    IsBlocked s' listingId night ↔ IsBlocked s listingId night := by
  simp only [IsBlocked, h]

/-- One operation: covered nights are blocked after it exactly if it gives up free nights
only and the nights that the horizon newly reaches are blocked. -/
theorem Touches.allBlocked_iff {touch : Touch} (h : Touches touch now s s') (hs : AllBlocked earlier s) :
    AllBlocked now s' ↔ touch.GivesUpFree now s ∧ touch.ReachesBlocked earlier now s := by
  constructor
  · intro hafter
    constructor
    · intro calendarId listingId night hreleased hnow hother hcovered
      have hnone := (h.released listingId night hreleased).2
      have hnot : ¬HostNight s' listingId night := by simp [HostNight, hnone]
      have hblocked := hafter calendarId listingId night hnow
        ((h.others calendarId listingId night hother).mpr hcovered) hnot
      simp [IsBlocked, hnone] at hblocked
    · intro calendarId listingId night hnow _ hwritten hreleased hother hcovered hhost
      have hrow := h.kept listingId night hwritten hreleased
      rw [← isBlocked_congr hrow]
      apply hafter calendarId listingId night hnow
      · exact (h.others calendarId listingId night hother).mpr hcovered
      · rwa [hostNight_congr hrow]
  · rintro ⟨hfree, hreaches⟩ calendarId listingId night hnow hcovered hhost
    by_cases hwritten : touch.written listingId night
    · exact (h.settled listingId night hwritten).resolve_left hhost
    have hother : touch.replaced ≠ some calendarId := fun hreplaced =>
      hwritten (h.imported calendarId listingId night hreplaced hcovered hnow)
    have hcovered' := (h.others calendarId listingId night hother).mp hcovered
    by_cases hreleased : touch.released listingId night
    · exact absurd hcovered' (hfree calendarId listingId night hreleased hnow hother)
    have hrow := h.kept listingId night hwritten hreleased
    rw [hostNight_congr hrow] at hhost
    rw [isBlocked_congr hrow]
    by_cases hearlier : InHorizon earlier night
    · exact hs calendarId listingId night hearlier hcovered' hhost
    · exact hreaches calendarId listingId night hnow hearlier hwritten hreleased hother hcovered'
        hhost

/-- An operation on the calendars and nights of a host. -/
inductive Operation where
  | sync (calendarId : ℕ) (force : Bool) (fetched : Fetched)
  | delete (listingId calendarId hostUserId : ℕ)
  | block (listingId hostUserId : ℕ) (fromDate toDate : Option Ymd) (isBlocked : Bool)
  deriving DecidableEq, Repr

namespace Operation

def call (reference : BlockReference) (now : ℤ) : Operation → CalendarCall
  | .sync calendarId force fetched => .syncCalendar calendarId force now fetched
  | .delete listingId calendarId hostUserId =>
    .deleteCalendar reference listingId calendarId hostUserId
  | .block listingId hostUserId fromDate toDate isBlocked =>
    .setHostAvailabilityBlock listingId hostUserId fromDate toDate isBlocked

/-- What an import touches: a feed whose events are rejected has the stored ones deleted. -/
def importTouch (i : Import) (s : Store) : Touch :=
  if i.Insertable then
    { replaced := some i.calendarId
      written := fun listingId night => listingId = i.listingId ∧ night ∈ i.nights
      released := fun listingId night =>
        ∃ b ∈ i.staleRows s, b.listingId = listingId ∧ b.date = night }
  else ⟨some i.calendarId, fun _ _ => False, fun _ _ => False⟩

/-- What a sync touches: nothing unless it has its claim and its feed is delivered. -/
def syncTouch (calendarId : ℕ) (force : Bool) (now : ℤ) (fetched : Fetched) (s : Store) : Touch :=
  match connectedTo s calendarId, fetched with
  | some listingId, .delivered data _ _ =>
    if force = true ∨ claimCalendar calendarId now (now + claimMs) false s ≠ [] then
      importTouch (importOf calendarId listingId now data) s
    else .nothing
  | _, _ => .nothing

/-- What an operation touches, as the store before it decides. -/
def touch (reference : BlockReference) (now : ℤ) (s : Store) : Operation → Touch
  | .sync calendarId force fetched => syncTouch calendarId force now fetched s
  | .delete _ calendarId _ =>
    { replaced := some calendarId
      written := fun _ _ => False
      released := fun listingId night =>
        ∃ b ∈ referencedBlocks reference calendarId s, b.listingId = listingId ∧ b.date = night }
  | .block listingId _ fromDate toDate _ =>
    { replaced := none
      written := fun l night => l = listingId ∧ ∃ start stop, parseBookingYmd fromDate = .ok start ∧
        parseBookingYmd toDate = .ok stop ∧ start ≤ night ∧ night < stop
      released := fun _ _ => False }

end Operation

theorem coveredBy_congr (hconnected : ∀ id, connectedTo s' id = connectedTo s id)
    {calendarId : ℕ} (hevents : ∀ e : StaysExternalCalendarEvent, e.externalCalendarId = calendarId →
      (e ∈ s'.events.rows ↔ e ∈ s.events.rows)) (listingId : ℕ) (night : ℤ) :
    CoveredBy s' calendarId listingId night ↔ CoveredBy s calendarId listingId night := by
  unfold CoveredBy Reserved
  rw [hconnected]
  constructor
  · rintro ⟨hlisting, e, he, hid, hrange⟩
    exact ⟨hlisting, e, (hevents e hid).mp he, hid, hrange⟩
  · rintro ⟨hlisting, e, he, hid, hrange⟩
    exact ⟨hlisting, e, (hevents e hid).mpr he, hid, hrange⟩

theorem touches_nothing (h : SameRows s s') (now : ℤ) : Touches .nothing now s s' where
  others calendarId listingId night _ :=
    coveredBy_congr h.connected (fun _ _ => by rw [h.events]) listingId night
  imported _ _ _ h := by simp [Touch.nothing] at h
  settled _ _ h := h.elim
  released _ _ h := h.elim
  kept _ _ _ _ := by rw [h.blocks]

/-- A night with a row that an import skips keeps it. -/
theorem find?_skipped {i : Import} {night : ℤ} (hnight : night ∈ i.nights)
    (hskips : i.Skips (s.blocks.find? (i.listingId, night))) :
    (i.storeAt s i.done).blocks.find? (i.listingId, night) =
      s.blocks.find? (i.listingId, night) := by
  have hput : (i.listingId, night) ∉ (i.blockRows s (i.nights.take i.nights.length)).map
      fun b => (b.listingId, b.date) := by
    intro hmem
    obtain ⟨b, hb, hkey⟩ := List.mem_map.mp hmem
    obtain ⟨m, -, hnot, rfl⟩ := Import.mem_blockRows.mp hb
    obtain rfl : m = night := (Prod.mk.inj hkey).2
    exact hnot hskips
  have hstale : (i.listingId, night) ∉ (i.staleRows s).map fun b => (b.listingId, b.date) := by
    intro hmem
    obtain ⟨b, hb, hkey⟩ := List.mem_map.mp hmem
    exact (Import.mem_staleRows.mp hb).2.2.2 ((Prod.mk.inj hkey).2 ▸ hnight)
  show ((s.blocks.deleteAll _).putAll _).find? _ = _
  rw [Table.find?_putAll_of_notMem hput, Table.find?_deleteAll, if_neg hstale]

/-- Every other night of the feed has a row of the calendar. -/
theorem find?_taken {i : Import} {night : ℤ} (hnight : night ∈ i.nights)
    (hskips : ¬i.Skips (s.blocks.find? (i.listingId, night))) :
    (i.storeAt s i.done).blocks.find? (i.listingId, night) =
      some (icalBlock i.listingId i.calendarId night) := by
  have hrow : icalBlock i.listingId i.calendarId night ∈
      i.blockRows s (i.nights.take i.nights.length) := by
    rw [List.take_length]
    exact Import.mem_blockRows.mpr ⟨night, hnight, hskips, rfl⟩
  have hnodup := Import.nodup_blockRows (i := i) (s := s)
    (i.nodup.sublist (List.take_sublist i.nights.length _))
  exact Table.find?_putAll_of_mem hnodup hrow

/-- An imported night is the host's, or blocked. -/
theorem imported_night {i : Import} (hical : IcalBlocked s) {night : ℤ} (hnight : night ∈ i.nights) :
    HostNight (i.storeAt s i.done) i.listingId night ∨
      IsBlocked (i.storeAt s i.done) i.listingId night := by
  by_cases hskips : i.Skips (s.blocks.find? (i.listingId, night))
  · have hrow := find?_skipped hnight hskips
    obtain ⟨b, hb, hsource⟩ := hskips
    obtain hhost | hadmin | ⟨hsource, -, -⟩ := hsource
    · exact Or.inl ⟨b, by rw [hrow]; exact hb, Or.inl hhost⟩
    · exact Or.inl ⟨b, by rw [hrow]; exact hb, Or.inr hadmin⟩
    · exact Or.inr ⟨b, by rw [hrow]; exact hb, hical b (Table.mem_of_find? hb) hsource⟩
  · exact Or.inr ⟨_, find?_taken hnight hskips, rfl⟩

/-- A night that is neither released nor imported keeps its row. -/
theorem find?_untouched {i : Import} {listingId : ℕ} {night : ℤ}
    (hwritten : ¬(listingId = i.listingId ∧ night ∈ i.nights))
    (hreleased : ¬∃ b ∈ i.staleRows s, b.listingId = listingId ∧ b.date = night) :
    (i.storeAt s i.done).blocks.find? (listingId, night) =
      s.blocks.find? (listingId, night) := by
  have hput : (listingId, night) ∉ (i.blockRows s (i.nights.take i.nights.length)).map
      fun b => (b.listingId, b.date) := by
    intro hmem
    obtain ⟨b, hb, hkey⟩ := List.mem_map.mp hmem
    obtain ⟨m, hm, -, rfl⟩ := Import.mem_blockRows.mp hb
    obtain ⟨hlisting, hdate⟩ := Prod.mk.inj hkey
    exact hwritten ⟨hlisting.symm, hdate ▸ List.mem_of_mem_take hm⟩
  have hstale : (listingId, night) ∉ (i.staleRows s).map fun b => (b.listingId, b.date) := by
    intro hmem
    obtain ⟨b, hb, hkey⟩ := List.mem_map.mp hmem
    exact hreleased ⟨b, hb, Prod.mk.inj hkey⟩
  show ((s.blocks.deleteAll _).putAll _).find? _ = _
  rw [Table.find?_putAll_of_notMem hput, Table.find?_deleteAll, if_neg hstale]

theorem find?_stale {i : Import} {b : StaysAvailabilityBlock} (hb : b ∈ i.staleRows s) :
    (i.storeAt s i.done).blocks.find? (b.listingId, b.date) = none := by
  have hput : (b.listingId, b.date) ∉ (i.blockRows s (i.nights.take i.nights.length)).map
      fun r => (r.listingId, r.date) := by
    intro hmem
    obtain ⟨r, hr, hkey⟩ := List.mem_map.mp hmem
    obtain ⟨m, hm, -, rfl⟩ := Import.mem_blockRows.mp hr
    obtain rfl : m = b.date := (Prod.mk.inj hkey).2
    exact (Import.mem_staleRows.mp hb).2.2.2 (List.mem_of_mem_take hm)
  show ((s.blocks.deleteAll _).putAll _).find? _ = _
  rw [Table.find?_putAll_of_notMem hput, Table.find?_deleteAll, if_pos (List.mem_map_of_mem hb)]

theorem find?_congr_of_sameRows {t : Store} (h : SameRows t s') (k : ℕ × ℤ) :
    s'.blocks.find? k = t.blocks.find? k := by
  rw [h.blocks]

/-- The events of an import inside the horizon are those of its nights. -/
theorem mem_nights_of_reserved {calendarId listingId : ℕ} {data : List (String × IcsComponent)}
    {e : StaysExternalCalendarEvent} {night : ℤ}
    (he : e ∈ (importOf calendarId listingId now data).eventRows)
    (hrange : e.startDate ≤ night ∧ night < e.endDate) (hnow : InHorizon now night) :
    night ∈ (importOf calendarId listingId now data).nights := by
  obtain ⟨p, hp, rfl⟩ := List.mem_map.mp he
  exact mem_expandNights.mpr ⟨hnow.1, hnow.2, p, hp, hrange⟩

/-- A feed that is imported. -/
theorem touches_import {calendarId listingId : ℕ} {data : List (String × IcsComponent)}
    (hical : IcalBlocked s) {i : Import} (hi : i = importOf calendarId listingId now data)
    (hconnected : connectedTo s calendarId = some listingId) (hins : i.Insertable)
    (h : SameRows (i.storeAt s i.done) s') :
    Touches (Operation.importTouch i s) now s s' := by
  have hid : i.calendarId = calendarId := by rw [hi]; rfl
  have hlisting : i.listingId = listingId := by rw [hi]; rfl
  have hrow := find?_congr_of_sameRows h
  have hmem : ∀ e, e ∈ s'.events.rows ↔
      e ∈ i.eventRows ∨ e ∈ s.events.rows ∧ e.externalCalendarId ≠ i.calendarId := by
    intro e
    rw [h.events]
    exact Import.mem_eventsInserted hins
  have htouch : Operation.importTouch i s =
      { replaced := some i.calendarId
        written := fun l night => l = i.listingId ∧ night ∈ i.nights
        released := fun l night => ∃ b ∈ i.staleRows s, b.listingId = l ∧ b.date = night } := by
    rw [Operation.importTouch, if_pos hins]
  rw [htouch]
  constructor
  · intro c l night hother
    refine coveredBy_congr (fun id => ?_) (fun e he => ?_) l night
    · rw [h.connected, connectedTo_storeAt]
    · rw [hmem]
      constructor
      · rintro (hin | hin)
        · exact absurd (congrArg some ((Import.id_of_mem_eventRows hin).symm.trans he)) hother
        · exact hin.1
      · exact fun hin => Or.inr ⟨hin, fun heq => hother (congrArg some (heq.symm.trans he))⟩
  · rintro c l night hreplaced ⟨hl, e, he, hc, hrange⟩ hnow
    obtain rfl : i.calendarId = c := Option.some.inj hreplaced
    rw [h.connected, connectedTo_storeAt, hid, hconnected] at hl
    obtain rfl : listingId = l := Option.some.inj hl
    refine ⟨hlisting.symm, ?_⟩
    obtain hin | ⟨-, hne⟩ := (hmem e).mp he
    · rw [hi] at hin ⊢
      exact mem_nights_of_reserved hin hrange hnow
    · exact absurd hc hne
  · rintro l night ⟨rfl, hnight⟩
    rw [hostNight_congr (hrow _), isBlocked_congr (hrow _)]
    exact imported_night hical hnight
  · rintro l night ⟨b, hb, rfl, rfl⟩
    rw [hrow]
    exact ⟨fun hwritten => (Import.mem_staleRows.mp hb).2.2.2 hwritten.2, find?_stale hb⟩
  · intro l night hwritten hreleased
    rw [hrow]
    exact find?_untouched hwritten hreleased

/-- A feed whose events are rejected. -/
theorem touches_rejected {i : Import} (hins : ¬i.Insertable)
    (h : SameRows (i.storeAt s .deleted) s') :
    Touches (Operation.importTouch i s) now s s' := by
  have htouch : Operation.importTouch i s =
      ⟨some i.calendarId, fun _ _ => False, fun _ _ => False⟩ := by
    rw [Operation.importTouch, if_neg hins]
  have hmem : ∀ e, e ∈ s'.events.rows ↔
      e ∈ s.events.rows ∧ e.externalCalendarId ≠ i.calendarId := by
    intro e
    rw [h.events]
    exact Import.mem_eventsDeleted
  rw [htouch]
  constructor
  · intro c l night hother
    refine coveredBy_congr (fun id => ?_) (fun e he => ?_) l night
    · rw [h.connected, connectedTo_storeAt]
    · rw [hmem]
      exact and_iff_left fun heq => hother (congrArg some (heq.symm.trans he))
  · rintro c l night hreplaced ⟨-, e, he, hc, -⟩ -
    obtain rfl : i.calendarId = c := Option.some.inj hreplaced
    exact absurd hc ((hmem e).mp he).2
  · exact fun _ _ hfalse => hfalse.elim
  · exact fun _ _ hfalse => hfalse.elim
  · intro l night _ _
    rw [find?_congr_of_sameRows h]
    rfl

/-- A sync touches what the store before it decides. -/
theorem touches_sync {calendarId : ℕ} {force : Bool} {fetched : Fetched} {summary : SyncSummary}
    (hical : IcalBlocked s) (h : SyncEnd False s calendarId force now fetched summary s') :
    Touches (Operation.syncTouch calendarId force now fetched s) now s s' := by
  unfold Operation.syncTouch
  obtain ⟨⟨hforce, hclaim⟩, -, hsame⟩ | ⟨hmay, listingId, hconnected, hend⟩ := h
  · split
    · rw [if_neg (by simp [hforce, hclaim])]
      exact touches_nothing hsame now
    · exact touches_nothing hsame now
  · rw [hconnected]
    cases fetched with
    | notModified => exact touches_nothing hend.2 now
    | failed isTimeout message => exact touches_nothing hend.2 now
    | delivered data etag lastModified =>
      simp only [if_pos hmay]
      obtain ⟨-, hins, hsame⟩ | ⟨-, p, -, hsame, hp⟩ := hend
      · exact touches_import hical rfl hconnected hins hsame
      · obtain ⟨rfl, hins⟩ := hp not_false
        exact touches_rejected hins hsame

/-- The rows of a deletion. -/
theorem publish_deleteCalendarRows (reference : BlockReference) (calendarId : ℕ) :
    publish s (deleteCalendarRows reference calendarId s) =
      { s with
        calendars := s.calendars.deleteAll (s.calendars.find? calendarId).toList
        events := s.events.deleteAll (storedEvents s calendarId)
        blocks := s.blocks.deleteAll (referencedBlocks reference calendarId s) } := by
  have hcalendars : ∀ t : Store, publish t ((s.calendars.find? calendarId).toList.map
      .deleteCalendar) = { t with
        calendars := t.calendars.deleteAll (s.calendars.find? calendarId).toList } := by
    intro t
    cases s.calendars.find? calendarId <;> rfl
  rw [deleteCalendarRows, publish_append, publish_append, hcalendars, publish_deleteEvents,
    publish_deleteBlocks]

theorem connectedTo_deleted {reference : BlockReference} {calendarId : ℕ} (id : ℕ) :
    connectedTo (publish s (deleteCalendarRows reference calendarId s)) id =
      if id = calendarId then none else connectedTo s id := by
  have hkeys : (s.calendars.find? calendarId).toList.map (·.id) =
      if (s.calendars.find? calendarId).isSome then [calendarId] else [] := by
    cases hrow : s.calendars.find? calendarId with
    | none => rfl
    | some c => simp [Table.key_of_find? hrow]
  rw [publish_deleteCalendarRows]
  show ((s.calendars.deleteAll _).find? id).map _ = _
  rw [Table.find?_deleteAll, hkeys]
  by_cases hid : id = calendarId
  · subst hid
    cases hrow : s.calendars.find? id with
    | none => simp
    | some c => simp
  · have hnot : id ∉ if (s.calendars.find? calendarId).isSome then [calendarId] else [] := by
      split_ifs <;> simp [hid]
    rw [if_neg hnot, if_neg hid]
    rfl

theorem touches_delete (reference : BlockReference) (listingId calendarId hostUserId : ℕ) :
    Touches ((Operation.delete listingId calendarId hostUserId).touch reference now s) now s
      (publish s (deleteCalendarRows reference calendarId s)) := by
  have hmem : ∀ e, e ∈ (publish s (deleteCalendarRows reference calendarId s)).events.rows ↔
      e ∈ s.events.rows ∧ e.externalCalendarId ≠ calendarId := by
    intro e
    rw [publish_deleteCalendarRows]
    exact Import.mem_eventsDeleted (i := ⟨calendarId, 0, [], [], List.nodup_nil⟩)
  have hkeys : ∀ l night, (l, night) ∈ (referencedBlocks reference calendarId s).map
      (fun b => (b.listingId, b.date)) ↔ ∃ b ∈ referencedBlocks reference calendarId s,
        b.listingId = l ∧ b.date = night := by
    intro l night
    simp
  have hrow : ∀ l night, (publish s (deleteCalendarRows reference calendarId s)).blocks.find?
      (l, night) = (s.blocks.deleteAll (referencedBlocks reference calendarId s)).find?
        (l, night) := by
    intro l night
    rw [publish_deleteCalendarRows]
  constructor
  · intro c l night hother
    have hc : c ≠ calendarId := fun heq => hother (congrArg some heq.symm)
    unfold CoveredBy Reserved
    rw [connectedTo_deleted, if_neg hc]
    constructor
    · rintro ⟨hl, e, he, hid, hrange⟩
      exact ⟨hl, e, ((hmem e).mp he).1, hid, hrange⟩
    · rintro ⟨hl, e, he, hid, hrange⟩
      exact ⟨hl, e, (hmem e).mpr ⟨he, fun heq => hc (hid.symm.trans heq)⟩, hid, hrange⟩
  · rintro c l night hreplaced ⟨hl, -⟩ -
    obtain rfl : calendarId = c := Option.some.inj hreplaced
    rw [connectedTo_deleted, if_pos rfl] at hl
    exact absurd hl (by simp)
  · exact fun _ _ hfalse => hfalse.elim
  · intro l night hreleased
    rw [hrow, Table.find?_deleteAll, if_pos ((hkeys l night).mpr hreleased)]
    exact ⟨fun hfalse => hfalse, rfl⟩
  · intro l night _ hreleased
    rw [hrow, Table.find?_deleteAll, if_neg fun hmem => hreleased ((hkeys l night).mp hmem)]

theorem nodup_nightsBetween (start stop : ℤ) : (nightsBetween start stop).Nodup := by
  apply List.Nodup.map
  · intro a b hab
    simpa using hab
  · exact List.nodup_range

theorem nodup_hostBlocks (listingId : ℕ) (isBlocked : Bool) (start stop : ℤ) :
    (((nightsBetween start stop).map (hostBlock listingId isBlocked)).map
      fun b => (b.listingId, b.date)).Nodup := by
  rw [List.map_map]
  apply List.Nodup.map
  · intro a b hab
    exact (Prod.mk.inj hab).2
  · exact nodup_nightsBetween start stop

theorem touches_block {reference : BlockReference} {listingId hostUserId : ℕ}
    {fromDate toDate : Option Ymd} {isBlocked : Bool} {start stop : ℤ}
    (hstart : parseBookingYmd fromDate = .ok start) (hstop : parseBookingYmd toDate = .ok stop) :
    Touches ((Operation.block listingId hostUserId fromDate toDate isBlocked).touch reference now s)
      now s (publish s (((nightsBetween start stop).map (hostBlock listingId isBlocked)).map
        .block)) := by
  have hwritten : ∀ l night,
      ((Operation.block listingId hostUserId fromDate toDate isBlocked).touch reference now
        s).written l night ↔ l = listingId ∧ start ≤ night ∧ night < stop := by
    intro l night
    show (_ ∧ ∃ a b, _) ↔ _
    rw [hstart, hstop]
    simp
  have hkeys : ∀ l night, (l, night) ∈ ((nightsBetween start stop).map
      (hostBlock listingId isBlocked)).map (fun b => (b.listingId, b.date)) ↔
        l = listingId ∧ start ≤ night ∧ night < stop := by
    intro l night
    simp only [List.map_map, List.mem_map, mem_nightsBetween, Function.comp_apply, hostBlock,
      Prod.mk.injEq]
    constructor
    · rintro ⟨n, hn, rfl, rfl⟩
      exact ⟨rfl, hn⟩
    · rintro ⟨rfl, hn⟩
      exact ⟨night, hn, rfl, rfl⟩
  rw [publish_blocks]
  constructor
  · exact fun c l night _ => coveredBy_congr (fun _ => rfl) (fun _ _ => Iff.rfl) l night
  · exact fun _ _ _ hreplaced => absurd hreplaced (by simp [Operation.touch])
  · intro l night hw
    left
    obtain ⟨rfl, hrange⟩ := (hwritten l night).mp hw
    have hrow := Table.find?_putAll_of_mem (t := s.blocks)
      (nodup_hostBlocks l isBlocked start stop)
      (List.mem_map_of_mem (mem_nightsBetween.mpr hrange))
    exact ⟨_, hrow, Or.inl rfl⟩
  · exact fun _ _ hfalse => hfalse.elim
  · intro l night hw _
    rw [hwritten, ← hkeys] at hw
    exact Table.find?_putAll_of_notMem hw

/-- Every new row is a blocked one of a calendar. -/
def AddsImported (s s' : Store) : Prop :=
  ∀ b ∈ s'.blocks.rows, b ∈ s.blocks.rows ∨ b.source = some .ical ∧ b.isBlocked = true

theorem AddsImported.icalBlocked (h : AddsImported s s') (hs : IcalBlocked s) : IcalBlocked s' := by
  intro b hb hsource
  obtain hold | ⟨-, hblocked⟩ := h b hb
  · exact hs b hold hsource
  · exact hblocked

theorem addsImported_of_sameRows {t : Store} (h : SameRows t s') (ht : AddsImported s t) :
    AddsImported s s' := by
  intro b hb
  rw [h.blocks] at hb
  exact ht b hb

theorem addsImported_storeAt (i : Import) (s : Store) (p : Progress) :
    AddsImported s (i.storeAt s p) := by
  cases p with
  | fetched => exact fun b hb => Or.inl hb
  | deleted => exact fun b hb => Or.inl hb
  | inserted => exact fun b hb => Or.inl hb
  | released n =>
    intro b hb
    have hnodup := Import.nodup_blockRows (i := i) (s := s)
      (i.nodup.sublist (List.take_sublist n _))
    obtain hrow | ⟨hold, -⟩ := (Table.mem_putAll hnodup).mp hb
    · obtain ⟨night, -, -, rfl⟩ := Import.mem_blockRows.mp hrow
      exact Or.inr ⟨rfl, rfl⟩
    · exact Or.inl (Table.mem_deleteAll.mp hold).1

theorem addsImported_sync {calendarId : ℕ} {force : Bool} {fetched : Fetched}
    {summary : SyncSummary} (h : SyncEnd False s calendarId force now fetched summary s') :
    AddsImported s s' := by
  have hnothing : AddsImported s s := fun b hb => Or.inl hb
  obtain ⟨-, -, hsame⟩ | ⟨-, listingId, -, hend⟩ := h
  · exact addsImported_of_sameRows hsame hnothing
  · cases fetched with
    | notModified => exact addsImported_of_sameRows hend.2 hnothing
    | failed isTimeout message => exact addsImported_of_sameRows hend.2 hnothing
    | delivered data etag lastModified =>
      obtain ⟨-, -, hsame⟩ | ⟨-, p, -, hsame, -⟩ := hend
      · exact addsImported_of_sameRows hsame (addsImported_storeAt _ _ _)
      · exact addsImported_of_sameRows hsame (addsImported_storeAt _ _ _)

theorem icalBlocked_delete (reference : BlockReference) (calendarId : ℕ) (hs : IcalBlocked s) :
    IcalBlocked (publish s (deleteCalendarRows reference calendarId s)) := by
  intro b hb
  rw [publish_deleteCalendarRows] at hb
  exact hs b (Table.mem_deleteAll.mp hb).1

theorem icalBlocked_block (listingId : ℕ) (isBlocked : Bool) (start stop : ℤ)
    (hs : IcalBlocked s) :
    IcalBlocked (publish s (((nightsBetween start stop).map (hostBlock listingId isBlocked)).map
      .block)) := by
  intro b hb hsource
  rw [publish_blocks] at hb
  obtain hrow | ⟨hold, -⟩ := (Table.mem_putAll (nodup_hostBlocks _ _ _ _)).mp hb
  · obtain ⟨night, -, rfl⟩ := List.mem_map.mp hrow
    simp [hostBlock] at hsource
  · exact hs b hold hsource

/-- What an operation that has returned did to the nights. -/
theorem Operation.returns {reference : BlockReference} {op : Operation} {a : CalendarAnswer}
    (hs : IcalBlocked s) (h : Returns False (op.call reference now) s a s') :
    Touches (op.touch reference now s) now s s' ∧ IcalBlocked s' := by
  cases op with
  | sync calendarId force fetched =>
    obtain ⟨summary, -, hend⟩ := h.sync
    exact ⟨touches_sync hs hend, (addsImported_sync hend).icalBlocked hs⟩
  | delete listingId calendarId hostUserId =>
    rw [h.delete]
    exact ⟨touches_delete reference listingId calendarId hostUserId,
      icalBlocked_delete reference calendarId hs⟩
  | block listingId hostUserId fromDate toDate isBlocked =>
    obtain ⟨start, stop, hstart, hstop, hstore⟩ := h.hostBlock
    rw [hstore]
    exact ⟨touches_block hstart hstop, icalBlocked_block listingId isBlocked start stop hs⟩

/-- An operation at an instant, after one at an earlier instant. -/
structure Step where
  op : Operation
  earlier : ℤ
  now : ℤ
  before : Store
  after : Store

namespace Step

/-- The operation returns. -/
def Completed (reference : BlockReference) (step : Step) : Prop :=
  ∃ a, Returns False (step.op.call reference step.now) step.before a step.after

/-- No shared night is given up, and the horizon reaches blocked nights only. -/
def Keeps (reference : BlockReference) (step : Step) : Prop :=
  (step.op.touch reference step.now step.before).GivesUpFree step.now step.before ∧
    (step.op.touch reference step.now step.before).ReachesBlocked step.earlier step.now step.before

end Step

/-- Operations that are completed one after the other. -/
inductive Chain (reference : BlockReference) : ℤ → Store → List Step → Prop where
  | done (instant : ℤ) (s : Store) : Chain reference instant s []
  | step (first : Step) (rest : List Step) (completed : first.Completed reference)
      (chain : Chain reference first.now first.after rest) :
      Chain reference first.earlier first.before (first :: rest)

theorem chain_cons {reference : BlockReference} {instant : ℤ} {first : Step} {rest : List Step} :
    Chain reference instant s (first :: rest) ↔ instant = first.earlier ∧ s = first.before ∧
      first.Completed reference ∧ Chain reference first.now first.after rest := by
  constructor
  · intro h
    generalize hsteps : first :: rest = steps at h
    cases h with
    | done => simp at hsteps
    | step _ _ completed chain =>
      obtain ⟨rfl, rfl⟩ := List.cons.inj hsteps
      exact ⟨rfl, rfl, completed, chain⟩
  · rintro ⟨rfl, rfl, completed, chain⟩
    exact .step first rest completed chain

/-- From a store whose covered nights are blocked on, covered nights are blocked after each
of any operations exactly if each keeps them so. -/
theorem imported_nights_blocked {reference : BlockReference} {steps : List Step}
    (hical : IcalBlocked s) (hs : AllBlocked now s) (h : Chain reference now s steps) :
    (∀ step ∈ steps, AllBlocked step.now step.after) ↔ ∀ step ∈ steps, step.Keeps reference := by
  induction h with
  | done => simp
  | step first rest completed _ ih =>
    obtain ⟨a, hreturns⟩ := completed
    obtain ⟨htouches, hical'⟩ := Operation.returns hical hreturns
    have hfirst := htouches.allBlocked_iff hs
    rw [List.forall_mem_cons, List.forall_mem_cons]
    constructor
    · rintro ⟨hafter, hrest⟩
      exact ⟨hfirst.mp hafter, (ih hical' hafter).mp hrest⟩
    · rintro ⟨hkeeps, hrest⟩
      have hafter := hfirst.mpr hkeeps
      exact ⟨hafter, (ih hical' hafter).mpr hrest⟩

theorem allBlocked_of_no_events (h : s.events.rows = []) (now : ℤ) : AllBlocked now s := by
  rintro calendarId listingId night - ⟨-, e, he, -⟩
  simp [h] at he

/-- The day of the operations. -/
def today : ℤ := 21910 * dayMs

/-- A sync of one of two calendars whose feeds have these reservations. -/
def sampleSync (calendarId : ℕ) (data : List (String × IcsComponent)) : Operation :=
  .sync calendarId false (.delivered data none none)

/-- An operation of `n` statements. -/
def sampleStep (op : Operation) (s : Store) (n : ℕ) : Step :=
  { op
    earlier := today
    now := today
    before := s
    after := storeAfter (op.call .none today) s (System.turns 0 1 n) }

theorem completed_sampleStep (op : Operation) (s : Store) (n : ℕ)
    (h : ((statements False (op.call .none today) s (System.turns 0 1 n)).any fun sys =>
      sys.threads.any fun t => t.program.result.any fun _ => true) = true) :
    (sampleStep op s n).Completed .none := by
  obtain ⟨a, -, hreturns⟩ := returns_storeAfter _ _ _ _ h
  exact ⟨a, hreturns⟩

theorem chain_sampleStep {op : Operation} {s : Store} {n : ℕ} {rest : List Step}
    (completed : (sampleStep op s n).Completed .none)
    (chain : Chain .none today (sampleStep op s n).after rest) :
    Chain .none today s (sampleStep op s n :: rest) :=
  .step (sampleStep op s n) rest completed chain

/-- The first calendar imports a reservation. -/
def firstSync : Step :=
  sampleStep (sampleSync 1 [sampleComponent "x" "a" 21924 21926]) (sampleCalendars [] []) 19

theorem completed_firstSync : firstSync.Completed .none :=
  completed_sampleStep _ _ _ (by decide +kernel)

/-- The first import of a reservation blocks its nights. -/
theorem imported_nights_blocked_first_sync :
    Chain .none today (sampleCalendars [] []) [firstSync] ∧ AllBlocked today firstSync.after := by
  have hevents : (sampleCalendars [] []).events.rows = [] := rfl
  have hchain : Chain .none today (sampleCalendars [] []) [firstSync] :=
    chain_sampleStep completed_firstSync (.done _ _)
  have hical : IcalBlocked (sampleCalendars [] []) := fun b hb => absurd hb List.not_mem_nil
  have hiff := imported_nights_blocked hical (allBlocked_of_no_events hevents today) hchain
  have huncovered : ∀ calendarId listingId night,
      ¬CoveredBy (sampleCalendars [] []) calendarId listingId night := by
    rintro calendarId listingId night ⟨-, e, he, -⟩
    exact absurd he List.not_mem_nil
  have hkeeps : firstSync.Keeps .none := by
    constructor
    · exact fun calendarId listingId night _ _ _ => huncovered calendarId listingId night
    · exact fun calendarId listingId night _ _ _ _ _ hcovered =>
        absurd hcovered (huncovered calendarId listingId night)
  have hall := hiff.mpr (List.forall_mem_singleton.mpr hkeeps)
  exact ⟨hchain, hall firstSync (List.mem_singleton_self _)⟩

/-- The second calendar has the same reservation. -/
def secondSync : Step :=
  sampleStep (sampleSync 2 [sampleComponent "y" "b" 21924 21926]) firstSync.after 17

/-- The first calendar, which owns the nights, drops it. -/
def thirdSync : Step := sampleStep (sampleSync 1 []) secondSync.after 15

/-- The nights are released although the second calendar has reserved them. -/
theorem shared_night_released : ∃ steps, Chain .none today (sampleCalendars [] []) steps ∧
    ¬∀ step ∈ steps, AllBlocked step.now step.after := by
  have hsecond : secondSync.Completed .none := completed_sampleStep _ _ _ (by decide +kernel)
  have hthird : thirdSync.Completed .none := completed_sampleStep _ _ _ (by decide +kernel)
  refine ⟨[firstSync, secondSync, thirdSync], ?_, fun hall => ?_⟩
  · apply chain_sampleStep completed_firstSync
    apply chain_sampleStep hsecond
    exact chain_sampleStep hthird (.done _ _)
  · have hcovered : InHorizon today 21924 ∧ CoveredBy thirdSync.after 2 1 21924 ∧
        ¬HostNight thirdSync.after 1 21924 ∧ ¬IsBlocked thirdSync.after 1 21924 := by
      decide +kernel
    obtain ⟨hnow, hcovered, hhost, hfree⟩ := hcovered
    exact hfree (hall thirdSync (by simp) 2 1 21924 hnow hcovered hhost)

end NexaStays.ImportedNights
