import NexaStays.CalendarSync
import NexaStays.SoloRuns

/-!
# What a sync does to events and nights

An import goes through its statements in order; how far it has come determines the events
and the blocked nights. A sync that runs alone leaves the events and nights of some stage
of its import, and of the last one if it succeeds.
-/
namespace NexaStays.ImportEffects

open NexaStays.KeyedTable NexaStays.Transactions NexaStays.Database NexaStays.HostCalendar
  NexaStays.CalendarSync NexaStays.SoloRuns

open NexaStays.Transactions.Program (forEach)

theorem publish_deleteEvents (s : Store) (rows : List StaysExternalCalendarEvent) :
    publish s (rows.map Write.deleteEvent) = { s with events := s.events.deleteAll rows } := by
  induction rows generalizing s with
  | nil => rfl
  | cons e rows ih =>
    rw [List.map_cons, publish_cons, ih]
    rfl

theorem publish_events (s : Store) (rows : List StaysExternalCalendarEvent) :
    publish s (rows.map Write.event) = { s with events := s.events.putAll rows } := by
  induction rows generalizing s with
  | nil => rfl
  | cons e rows ih =>
    rw [List.map_cons, publish_cons, ih]
    rfl

theorem publish_deleteBlocks (s : Store) (rows : List StaysAvailabilityBlock) :
    publish s (rows.map Write.deleteBlock) = { s with blocks := s.blocks.deleteAll rows } := by
  induction rows generalizing s with
  | nil => rfl
  | cons b rows ih =>
    rw [List.map_cons, publish_cons, ih]
    rfl

theorem publish_blocks (s : Store) (rows : List StaysAvailabilityBlock) :
    publish s (rows.map Write.block) = { s with blocks := s.blocks.putAll rows } := by
  induction rows generalizing s with
  | nil => rfl
  | cons b rows ih =>
    rw [List.map_cons, publish_cons, ih]
    rfl

theorem mem_storedEvents {s : Store} {calendarId : ℕ} {e : StaysExternalCalendarEvent} :
    e ∈ storedEvents s calendarId ↔ e ∈ s.events.rows ∧ e.externalCalendarId = calendarId := by
  simp [storedEvents]

theorem mem_icalRows {s : Store} {calendarId : ℕ} {b : StaysAvailabilityBlock} :
    b ∈ icalRows s calendarId ↔
      b ∈ s.blocks.rows ∧ b.externalCalendarId = some calendarId ∧ b.source = some .ical := by
  simp [icalRows]

/-- What a sync imports: the events of its feed and the nights they cover, each once. -/
structure Import where
  calendarId : ℕ
  listingId : ℕ
  events : List ParsedEvent
  nights : List ℤ
  nodup : nights.Nodup

theorem nodup_eraseDups {α : Type} [DecidableEq α] (n : ℕ) (l : List α) (h : l.length ≤ n) :
    l.eraseDups.Nodup := by
  induction n generalizing l with
  | zero => simp [List.length_eq_zero_iff.mp (by omega : l.length = 0)]
  | succ n ih =>
    cases l with
    | nil => simp
    | cons a l =>
      have hlen := List.length_filter_le (fun b => !b == a) l
      rw [List.eraseDups_cons, List.nodup_cons]
      constructor
      · simp
      · exact ih _ (by simp only [List.length_cons] at h; omega)

theorem nodup_expandNights (events : List ParsedEvent) (h : Horizon) :
    (expandNights events h).Nodup :=
  nodup_eraseDups _ _ le_rfl

theorem mem_expandNights {events : List ParsedEvent} {h : Horizon} {night : ℤ} :
    night ∈ expandNights events h ↔
      h.start ≤ night ∧ night < h.stop ∧ ∃ e ∈ events, e.startDate ≤ night ∧ night < e.endDate := by
  simp only [expandNights, List.mem_eraseDups, List.mem_flatMap, mem_nightsBetween]
  constructor
  · rintro ⟨e, he, hstart, hstop⟩
    exact ⟨by omega, by omega, e, he, by omega, by omega⟩
  · rintro ⟨hstart, hstop, e, he, hfirst, hlast⟩
    exact ⟨e, he, by omega, by omega⟩

def importOf (calendarId listingId : ℕ) (now : ℤ) (data : List (String × IcsComponent)) :
    Import :=
  let events := inHorizon (importHorizon now) (parseIcsEvents data)
  ⟨calendarId, listingId, events, expandNights events (importHorizon now),
    nodup_expandNights _ _⟩

/-- How far an import has come; the last stage counts the nights that are done. -/
inductive Progress where
  | fetched | deleted | inserted | released (nights : ℕ)
  deriving DecidableEq, Repr

namespace Import

variable (i : Import) (s : Store)

def eventRows : List StaysExternalCalendarEvent := i.events.map (eventRow i.calendarId)

/-- The nights of the calendar that its feed no longer covers. -/
def staleRows : List StaysAvailabilityBlock :=
  (icalRows s i.calendarId).filter fun b => b.date ∉ i.nights

/-- A row of the host, of an administrator or of another calendar, which an import skips. -/
def Skips (existing : Option StaysAvailabilityBlock) : Prop :=
  ∃ b ∈ existing, b.source = some .host ∨ b.source = some .admin ∨
    b.source = some .ical ∧ b.externalCalendarId ≠ none ∧ b.externalCalendarId ≠ some i.calendarId

instance (existing : Option StaysAvailabilityBlock) : Decidable (i.Skips existing) :=
  inferInstanceAs (Decidable (∃ b ∈ existing, b.source = some .host ∨ b.source = some .admin ∨
    b.source = some .ical ∧ b.externalCalendarId ≠ none ∧ b.externalCalendarId ≠ some i.calendarId))

/-- The rows that block some nights. -/
def blockRows (nights : List ℤ) : List StaysAvailabilityBlock :=
  (nights.filter fun n => ¬i.Skips (s.blocks.find? (i.listingId, n))).map
    (icalBlock i.listingId i.calendarId)

def eventsDeleted := s.events.deleteAll (storedEvents s i.calendarId)

def eventsInserted := (i.eventsDeleted s).putAll i.eventRows

def blocksReleased (n : ℕ) :=
  (s.blocks.deleteAll (i.staleRows s)).putAll (i.blockRows s (i.nights.take n))

/-- The store at a stage. -/
def storeAt : Progress → Store
  | .fetched => s
  | .deleted => { s with events := i.eventsDeleted s }
  | .inserted => { s with events := i.eventsInserted s }
  | .released n => { s with events := i.eventsInserted s, blocks := i.blocksReleased s n }

/-- The events of the feed have keys of their own. -/
def Insertable : Prop :=
  (i.eventRows.map fun e => (e.externalCalendarId, e.uid, e.recurrenceId)).Nodup

instance : Decidable i.Insertable :=
  inferInstanceAs (Decidable (i.eventRows.map fun e =>
    (e.externalCalendarId, e.uid, e.recurrenceId)).Nodup)

variable {i s}

theorem mem_eventsDeleted {e : StaysExternalCalendarEvent} :
    e ∈ (i.eventsDeleted s).rows ↔ e ∈ s.events.rows ∧ e.externalCalendarId ≠ i.calendarId := by
  rw [eventsDeleted, Table.mem_deleteAll]
  constructor
  · rintro ⟨he, hkey⟩
    exact ⟨he, fun hid => hkey (List.mem_map_of_mem (mem_storedEvents.mpr ⟨he, hid⟩))⟩
  · rintro ⟨he, hid⟩
    refine ⟨he, fun hkey => hid ?_⟩
    obtain ⟨e', he', heq⟩ := List.mem_map.mp hkey
    rw [← (mem_storedEvents.mp he').2]
    exact (congrArg Prod.fst heq).symm

theorem id_of_mem_eventRows {e : StaysExternalCalendarEvent} (h : e ∈ i.eventRows) :
    e.externalCalendarId = i.calendarId := by
  obtain ⟨p, -, rfl⟩ := List.mem_map.mp h
  rfl

theorem insertable_iff :
    insertable (i.storeAt s .deleted) i.eventRows = true ↔ i.Insertable := by
  simp only [insertable, Bool.decide_and, Bool.and_eq_true, decide_eq_true_eq]
  constructor
  · exact fun h => h.1
  · refine fun h => ⟨h, fun e he => ?_⟩
    rw [Table.find?_eq_none]
    intro r hr hkey
    have hid : r.externalCalendarId = i.calendarId :=
      (congrArg Prod.fst hkey).trans (id_of_mem_eventRows he)
    exact (mem_eventsDeleted.mp hr).2 hid

theorem mem_eventsInserted (h : i.Insertable) {e : StaysExternalCalendarEvent} :
    e ∈ (i.eventsInserted s).rows ↔
      e ∈ i.eventRows ∨ e ∈ s.events.rows ∧ e.externalCalendarId ≠ i.calendarId := by
  rw [eventsInserted, Table.mem_putAll h, mem_eventsDeleted]
  constructor
  · rintro (he | ⟨he, -⟩)
    · exact Or.inl he
    · exact Or.inr he
  · rintro (he | he)
    · exact Or.inl he
    · refine Or.inr ⟨he, fun hkey => he.2 ?_⟩
      obtain ⟨e', he', heq⟩ := List.mem_map.mp hkey
      rw [← id_of_mem_eventRows he']
      exact (congrArg Prod.fst heq).symm

theorem mem_staleRows {b : StaysAvailabilityBlock} :
    b ∈ i.staleRows s ↔ b ∈ s.blocks.rows ∧ b.externalCalendarId = some i.calendarId ∧
      b.source = some .ical ∧ b.date ∉ i.nights := by
  simp [staleRows, mem_icalRows, and_assoc]

theorem mem_blockRows {nights : List ℤ} {b : StaysAvailabilityBlock} :
    b ∈ i.blockRows s nights ↔ ∃ night ∈ nights,
      ¬i.Skips (s.blocks.find? (i.listingId, night)) ∧
        b = icalBlock i.listingId i.calendarId night := by
  simp only [blockRows, List.mem_map, List.mem_filter, decide_eq_true_eq]
  constructor
  · rintro ⟨night, ⟨hnight, hskips⟩, rfl⟩
    exact ⟨night, hnight, hskips, rfl⟩
  · rintro ⟨night, hnight, hskips, rfl⟩
    exact ⟨night, ⟨hnight, hskips⟩, rfl⟩

theorem nodup_blockRows {nights : List ℤ} (h : nights.Nodup) :
    ((i.blockRows s nights).map fun b => (b.listingId, b.date)).Nodup := by
  rw [blockRows, List.map_map]
  apply List.Nodup.map
  · intro a b hab
    exact (Prod.mk.inj hab).2
  · exact h.filter _

/-- A night before any of the first `n` nights is blocked keeps its row, if it is not stale. -/
theorem find?_blocksReleased {n : ℕ} {night : ℤ} (hnight : night ∈ i.nights)
    (hnot : night ∉ i.nights.take n) :
    (i.blocksReleased s n).find? (i.listingId, night) =
      s.blocks.find? (i.listingId, night) := by
  have hput : (i.listingId, night) ∉
      (i.blockRows s (i.nights.take n)).map fun b => (b.listingId, b.date) := by
    intro hmem
    obtain ⟨b, hb, heq⟩ := List.mem_map.mp hmem
    obtain ⟨m, hm, -, rfl⟩ := mem_blockRows.mp hb
    obtain rfl : m = night := (Prod.mk.inj heq).2
    exact hnot hm
  have hstale : (i.listingId, night) ∉
      (i.staleRows s).map fun b => (b.listingId, b.date) := by
    intro hmem
    obtain ⟨b, hb, heq⟩ := List.mem_map.mp hmem
    exact (mem_staleRows.mp hb).2.2.2 ((Prod.mk.inj heq).2 ▸ hnight)
  rw [blocksReleased, Table.find?_putAll_of_notMem hput, Table.find?_deleteAll, if_neg hstale]

/-- The stage at which every night is done. -/
def done (i : Import) : Progress := .released i.nights.length

/-- The events are inserted only if no two of them have one key. -/
def Reaches (i : Import) (p : Progress) : Prop := p = .fetched ∨ p = .deleted ∨ i.Insertable

end Import

/-- The listing of a connected calendar. -/
def connectedTo (s : Store) (calendarId : ℕ) : Option ℕ :=
  (s.calendars.find? calendarId).map (·.listingId)

/-- Two stores that differ at most in what the rows of the calendars say of their syncs. -/
structure SameRows (s s' : Store) : Prop where
  events : s'.events = s.events
  blocks : s'.blocks = s.blocks
  bookings : s'.bookings = s.bookings
  listings : s'.listings = s.listings
  connected : ∀ id, connectedTo s' id = connectedTo s id

theorem SameRows.refl (s : Store) : SameRows s s := ⟨rfl, rfl, rfl, rfl, fun _ => rfl⟩

theorem SameRows.trans {s s' s'' : Store} (h : SameRows s s') (h' : SameRows s' s'') :
    SameRows s s'' :=
  ⟨h'.events.trans h.events, h'.blocks.trans h.blocks, h'.bookings.trans h.bookings,
    h'.listings.trans h.listings, fun id => (h'.connected id).trans (h.connected id)⟩

/-- Writing the row of a calendar that stays with its listing. -/
theorem sameRows_calendar {s : Store} {c : StaysExternalCalendar}
    (h : connectedTo s c.id = some c.listingId) : SameRows s (publish s [.calendar c]) := by
  refine ⟨rfl, rfl, rfl, rfl, fun id => ?_⟩
  show ((s.calendars.put c).find? id).map _ = _
  rw [Table.find?_put]
  by_cases hid : id = c.id
  · rw [if_pos hid, hid, h]
    rfl
  · rw [if_neg hid]
    rfl

theorem connectedTo_storeAt (i : Import) (s : Store) (p : Progress) (id : ℕ) :
    connectedTo (i.storeAt s p) id = connectedTo s id := by
  cases p <;> rfl

/-- The end of a program that leaves the rows alone, and throws only if a statement fails. -/
abbrev Keeps (fails : Prop) (s : Store) : Except StaysError Unit → Store → Prop :=
  Ends (fun _ => SameRows s) fun _ s' => fails ∧ SameRows s s'

variable {fails : Prop} {s : Store} {cal : StaysExternalCalendar}

theorem saveCalendar_alone (h : connectedTo s cal.id = some cal.listingId) :
    Alone fails (Keeps fails s) (saveCalendar cal) s := by
  refine Alone.query (Alone.writeRows ?_ fun hf => ⟨hf, .refl s⟩) fun hf => ⟨hf, .refl s⟩
  obtain ⟨row, hrow, hlisting⟩ := Option.map_eq_some_iff.mp h
  have hid : row.id = cal.id := Table.key_of_find? hrow
  simp only [hrow, Option.toList_some, List.map_cons, List.map_nil]
  apply sameRows_calendar
  have hsaved : (savedRow cal row row).listingId = cal.listingId := by
    simp [savedRow, savedColumn, hlisting]
  rw [hsaved]
  show connectedTo s row.id = _
  rw [hid, h]

theorem writeLog_alone : Alone fails (Keeps fails s) writeLog s :=
  Alone.query (Alone.query ⟨.refl s, fun hf => ⟨hf, .refl s⟩⟩ fun hf => ⟨hf, .refl s⟩)
    fun hf => ⟨hf, .refl s⟩

/-- The end of a sync: an entity of the calendar is saved, and the log is written. -/
theorem saveThenLog_alone (h : connectedTo s cal.id = some cal.listingId) :
    Alone fails (Keeps fails s) (saveCalendar cal >>= fun _ => writeLog) s := by
  refine (saveCalendar_alone h).bind (fun _ s' hs' => ?_) fun _ _ hs' => hs'
  refine writeLog_alone.mono fun r t hlog => ?_
  cases r with
  | ok _ => exact hs'.trans hlog
  | error e => exact ⟨hlog.1, hs'.trans hlog.2⟩

theorem finishSuccess_alone (summary : SyncSummary) (notModified : Bool)
    (restoreStatus : CalendarStatus) (h : connectedTo s cal.id = some cal.listingId) :
    Alone fails (Keeps fails s)
      (finishSuccess cal summary notModified restoreStatus) s :=
  fun _ _ _ => saveThenLog_alone h

theorem finishFailure_alone (summary : SyncSummary)
    (h : connectedTo s cal.id = some cal.listingId) :
    Alone fails (Keeps fails s) (finishFailure cal summary) s :=
  fun _ _ => saveThenLog_alone h

theorem blockNight_alone (i : Import) (hcal : cal.id = i.calendarId)
    (hlisting : cal.listingId = i.listingId) (night : ℤ) :
    Alone fails (Ends (fun _ s' => s' = publish s ((i.blockRows s [night]).map .block))
      fun _ s' => fails ∧ s' = s) (blockNight cal night) s := by
  have hskips : i.Skips (s.blocks.find? (cal.listingId, night)) ↔
      ((s.blocks.find? (cal.listingId, night)).bind (·.source) = some .host ∨
        (s.blocks.find? (cal.listingId, night)).bind (·.source) = some .admin) ∨
      (s.blocks.find? (cal.listingId, night)).bind (·.source) = some .ical ∧
        (s.blocks.find? (cal.listingId, night)).bind (·.externalCalendarId) ≠ none ∧
        (s.blocks.find? (cal.listingId, night)).bind (·.externalCalendarId) ≠ some cal.id := by
    rw [hcal]
    cases s.blocks.find? (cal.listingId, night) with
    | none => simp [Import.Skips]
    | some b => simp [Import.Skips, or_assoc]
  refine Alone.query ?_ fun hf => ⟨hf, rfl⟩
  by_cases h : i.Skips (s.blocks.find? (cal.listingId, night))
  · have hnone : i.blockRows s [night] = [] := by
      simp [Import.blockRows, ← hlisting, h]
    rw [hnone]
    obtain hhost | hical := hskips.mp h
    · rw [if_pos hhost]
      rfl
    · by_cases hhost : (s.blocks.find? (cal.listingId, night)).bind (·.source) = some .host ∨
          (s.blocks.find? (cal.listingId, night)).bind (·.source) = some .admin
      · rw [if_pos hhost]
        rfl
      · rw [if_neg hhost, if_pos hical]
        rfl
  · have hone : i.blockRows s [night] = [icalBlock cal.listingId cal.id night] := by
      rw [Import.blockRows, ← hlisting, ← hcal]
      simp [h]
    rw [hskips, not_or] at h
    rw [if_neg h.1, if_neg h.2, hone]
    exact ⟨rfl, fun hf => ⟨hf, rfl⟩⟩

namespace Import

variable {i : Import}

/-- One more night. -/
theorem storeAt_succ {n : ℕ} {night : ℤ} (hnight : i.nights[n]? = some night) :
    i.storeAt s (.released (n + 1)) =
      publish (i.storeAt s (.released n)) ((i.blockRows (i.storeAt s (.released n)) [night]).map .block) := by
  have hmem : night ∈ i.nights := List.mem_of_getElem? hnight
  have hnot : night ∉ i.nights.take n := by
    intro hin
    obtain ⟨k, hk, hget⟩ := List.mem_iff_getElem.mp hin
    obtain ⟨hn, hget'⟩ := List.getElem?_eq_some_iff.mp hnight
    have hkn : k < n := by
      have := hk
      simp only [List.length_take] at this
      omega
    rw [List.getElem_take] at hget
    have heq := (List.Nodup.getElem_inj_iff i.nodup).mp (hget.trans hget'.symm)
    omega
  have hrow : (i.storeAt s (.released n)).blocks.find? (i.listingId, night) =
      s.blocks.find? (i.listingId, night) := find?_blocksReleased hmem hnot
  have htake : i.nights.take (n + 1) = i.nights.take n ++ [night] := by
    rw [List.take_add_one, hnight]
    rfl
  have hrows : i.blockRows s (i.nights.take (n + 1)) =
      i.blockRows s (i.nights.take n) ++ i.blockRows (i.storeAt s (.released n)) [night] := by
    rw [htake]
    simp only [blockRows, List.filter_append, List.map_append, List.filter_cons, List.filter_nil,
      hrow]
  rw [publish_blocks]
  show Store.mk _ _ _ _ _ _ _ _ _ _ _ = _
  simp only [storeAt, blocksReleased, hrows, Table.putAll, List.foldl_append]

end Import

theorem insertInHorizon_alone (i : Import) : Alone fails
    (Ends (fun _ s' => i.Insertable ∧ s' = i.storeAt s .inserted)
      fun _ s' => s' = i.storeAt s .deleted ∧ (¬fails → ¬i.Insertable))
    (insertInHorizon i.calendarId i.events) (i.storeAt s .deleted) := by
  unfold insertInHorizon
  split_ifs with hempty
  · have hnil : i.eventRows = [] := by simp [Import.eventRows, hempty]
    have hsame : i.eventsInserted s = i.eventsDeleted s := by simp [Import.eventsInserted, hnil]
    show _ ∧ _
    constructor
    · simp [Import.Insertable, hnil]
    · simp only [Import.storeAt, hsame]
  · by_cases h : i.Insertable
    · have hins := Import.insertable_iff (s := s) |>.mpr h
      refine ⟨?_, fun hf => ⟨rfl, fun hn => absurd hf hn⟩⟩
      show Alone fails _ ((if insertable (i.storeAt s .deleted) i.eventRows then .pure ()
        else .throw .database : Stays Unit)) (publish (i.storeAt s .deleted)
          (if insertable (i.storeAt s .deleted) i.eventRows then i.eventRows.map .event else []))
      rw [hins, if_pos rfl, if_pos rfl, publish_events]
      exact ⟨h, rfl⟩
    · have hins : insertable (i.storeAt s .deleted) i.eventRows = false := by
        rw [← Bool.not_eq_true, Import.insertable_iff]
        exact h
      refine ⟨?_, fun hf => ⟨rfl, fun _ => h⟩⟩
      show Alone fails _ ((if insertable (i.storeAt s .deleted) i.eventRows then .pure ()
        else .throw .database : Stays Unit)) (publish (i.storeAt s .deleted)
          (if insertable (i.storeAt s .deleted) i.eventRows then i.eventRows.map .event else []))
      rw [hins]
      exact ⟨rfl, fun _ => h⟩

theorem releaseNights_alone (i : Import) : Alone fails
    (Ends (fun _ s' => s' = i.storeAt s (.released 0)) fun _ s' => fails ∧ s' = i.storeAt s .inserted)
    (releaseNights (i.staleRows s)) (i.storeAt s .inserted) := by
  have hnone : i.blocksReleased s 0 = s.blocks.deleteAll (i.staleRows s) := by
    simp [Import.blocksReleased, Import.blockRows]
  unfold releaseNights
  split_ifs with h
  · show _ = _
    simp [Import.storeAt, hnone, h]
  · refine ⟨?_, fun hf => ⟨hf, rfl⟩⟩
    show publish _ ((i.staleRows s).map Write.deleteBlock) = _
    rw [publish_deleteBlocks]
    simp [Import.storeAt, hnone]

/-- The loop over the nights. -/
theorem blockNights_alone (i : Import) (hcal : cal.id = i.calendarId)
    (hlisting : cal.listingId = i.listingId) : Alone fails
    (Ends (fun _ s' => s' = i.storeAt s i.done)
      fun _ s' => fails ∧ ∃ n, s' = i.storeAt s (.released n))
    (forEach (blockNight cal) i.nights) (i.storeAt s (.released 0)) := by
  refine Alone.forEach (fun done s' => s' = i.storeAt s (.released done.length)) ?_ rfl
  rintro done night rest _ hxs rfl
  have hnight : i.nights[done.length]? = some night := by rw [hxs]; simp
  refine (blockNight_alone i hcal hlisting night).mono fun r t hr => ?_
  cases r with
  | ok _ =>
    show t = _
    rw [List.length_append, List.length_singleton, Import.storeAt_succ hnight]
    exact hr
  | error e => exact ⟨hr.1, done.length, hr.2⟩

/-- How an import that runs alone ends: at its last stage, or at the stage where a statement
failed, which without failures is the rejected insertion. -/
theorem importFeed_alone (h : connectedTo s cal.id = some cal.listingId) (now : ℤ)
    (data : List (String × IcsComponent)) (etag lastModified : Option String) (i : Import)
    (hi : i = importOf cal.id cal.listingId now data) :
    Alone fails
      (Ends (fun summary s' => summary.outcome = .success ∧ i.Insertable ∧
          SameRows (i.storeAt s i.done) s')
        fun _ s' => ∃ p, i.Reaches p ∧ SameRows (i.storeAt s p) s' ∧
          (¬fails → p = .deleted ∧ ¬i.Insertable))
      (importFeed cal now data etag lastModified) s := by
  have hfail : ∀ p s', i.Reaches p → SameRows (i.storeAt s p) s' → fails →
      ∃ p, i.Reaches p ∧ SameRows (i.storeAt s p) s' ∧ (¬fails → p = .deleted ∧ ¬i.Insertable) :=
    fun p s' hp hs' hf => ⟨p, hp, hs', fun hn => absurd hf hn⟩
  have hcal : cal.id = i.calendarId := by rw [hi]; rfl
  have hlisting : cal.listingId = i.listingId := by rw [hi]; rfl
  have hevents : inHorizon (importHorizon now) (parseIcsEvents data) = i.events := by rw [hi]; rfl
  have hnights : expandNights i.events (importHorizon now) = i.nights := by rw [hi]; rfl
  unfold importFeed
  simp only [hevents, hnights]
  refine Alone.query (Alone.writeRows ?_ (hfail .fetched _ (Or.inl rfl) (.refl _)))
    (hfail .fetched _ (Or.inl rfl) (.refl _))
  have hdeleted : publish s ((storedEvents s cal.id).map .deleteEvent) = i.storeAt s .deleted := by
    rw [publish_deleteEvents, hcal]
    rfl
  rw [hdeleted]
  have hinsert : Alone fails _ _ (i.storeAt s .deleted) := insertInHorizon_alone i
  rw [← hcal] at hinsert
  refine hinsert.bind ?_ fun e s' hs' =>
    ⟨.deleted, Or.inr (Or.inl rfl), hs'.1 ▸ .refl _, fun hn => ⟨rfl, hs'.2 hn⟩⟩
  rintro _ _ ⟨hins, rfl⟩
  have hreach : ∀ p, i.Reaches p := fun p => Or.inr (Or.inr hins)
  refine Alone.query ?_ (hfail .inserted _ (hreach _) (.refl _))
  have hstale : (icalRows (i.storeAt s .inserted) cal.id).filter (fun b => b.date ∉ i.nights) =
      i.staleRows s := by rw [hcal]; rfl
  rw [hstale]
  refine (releaseNights_alone i).bind ?_ fun e s' hs' =>
    hfail .inserted _ (hreach _) (hs'.2 ▸ .refl _) hs'.1
  rintro _ _ rfl
  refine (blockNights_alone i hcal hlisting).bind ?_ ?_
  · rintro _ _ rfl
    refine Alone.query ?_ (hfail i.done _ (hreach _) (.refl _))
    have hrow : connectedTo (i.storeAt s i.done) cal.id = some cal.listingId := by
      rw [connectedTo_storeAt, h]
    refine Alone.bind (finishSuccess_alone _ _ _ (by exact hrow)) ?_ ?_
    · exact fun _ s' hs' => ⟨rfl, hins, hs'⟩
    · exact fun e s' hs' => hfail i.done _ (hreach _) hs'.2 hs'.1
  · rintro e s' ⟨hf, n, rfl⟩
    exact hfail (.released n) _ (hreach _) (.refl _) hf

/-- The stages of an import depend on the rows alone. -/
theorem sameRows_storeAt {s s' : Store} (h : SameRows s s') (i : Import) (p : Progress) :
    SameRows (i.storeAt s p) (i.storeAt s' p) := by
  have hdeleted : i.eventsDeleted s' = i.eventsDeleted s := by
    simp only [Import.eventsDeleted, storedEvents, h.events]
  have hinserted : i.eventsInserted s' = i.eventsInserted s := by
    simp only [Import.eventsInserted, hdeleted]
  have hreleased : ∀ n, i.blocksReleased s' n = i.blocksReleased s n := by
    intro n
    simp only [Import.blocksReleased, Import.staleRows, icalRows, Import.blockRows, h.blocks]
  cases p with
  | fetched => exact h
  | deleted => exact ⟨hdeleted, h.blocks, h.bookings, h.listings, h.connected⟩
  | inserted => exact ⟨hinserted, h.blocks, h.bookings, h.listings, h.connected⟩
  | released n => exact ⟨hinserted, hreleased n, h.bookings, h.listings, h.connected⟩

/-- The outcomes of a sync that did not succeed. -/
def failureOutcomes : List SyncOutcome := [.timeout, .error]

/-- What a sync that has its claim has done to the rows when it returns. -/
def ClaimedEnd (fails : Prop) (s : Store) (calendarId listingId : ℕ) (now : ℤ) (summary : SyncSummary)
    (s' : Store) : Fetched → Prop
  | .notModified | .failed _ _ => summary.outcome ≠ .success ∧ SameRows s s'
  | .delivered data _ _ =>
    let i := importOf calendarId listingId now data
    summary.outcome = .success ∧ i.Insertable ∧ SameRows (i.storeAt s i.done) s' ∨
      summary.outcome ∈ failureOutcomes ∧ ∃ p, i.Reaches p ∧ SameRows (i.storeAt s p) s' ∧
        (¬fails → p = .deleted ∧ ¬i.Insertable)

/-- A sync returns without a claim, or after an end of one that has it. -/
def SyncEnd (fails : Prop) (s : Store) (calendarId : ℕ) (force : Bool) (now : ℤ)
    (fetched : Fetched) (summary : SyncSummary) (s' : Store) : Prop :=
  (force = false ∧ claimCalendar calendarId now (now + claimMs) false s = []) ∧
      summary.outcome = .error ∧ SameRows s s' ∨
    (force = true ∨ claimCalendar calendarId now (now + claimMs) false s ≠ []) ∧
      ∃ listingId, connectedTo s calendarId = some listingId ∧
        ClaimedEnd fails s calendarId listingId now summary s' fetched

theorem ClaimedEnd.of_sameRows {t s' : Store} {calendarId listingId : ℕ} {now : ℤ}
    {summary : SyncSummary} {fetched : Fetched} (h : SameRows s t)
    (hend : ClaimedEnd fails t calendarId listingId now summary s' fetched) :
    ClaimedEnd fails s calendarId listingId now summary s' fetched := by
  cases fetched with
  | notModified => exact ⟨hend.1, h.trans hend.2⟩
  | failed isTimeout message => exact ⟨hend.1, h.trans hend.2⟩
  | delivered data etag lastModified =>
    obtain ⟨hsuccess, hins, hsame⟩ | ⟨hfailed, p, hreach, hsame, hp⟩ := hend
    · exact Or.inl ⟨hsuccess, hins, (sameRows_storeAt h _ _).trans hsame⟩
    · exact Or.inr ⟨hfailed, p, hreach, (sameRows_storeAt h _ _).trans hsame, hp⟩

theorem failureOutcome_mem (fetched : Fetched) (e : StaysError) (n : ℕ) :
    failureOutcome fetched e n ∈ failureOutcomes := by
  unfold failureOutcome
  split
  · split_ifs <;> decide
  · split_ifs <;> decide

/-- The `catch` block leaves the rows alone. -/
theorem catchSync_alone (h : connectedTo s cal.id = some cal.listingId) (fetched : Fetched)
    (e : StaysError) : Alone fails
    (Ends (fun summary s' => summary.outcome ∈ failureOutcomes ∧ SameRows s s') fun _ _ => fails)
    (catchSync cal fetched e) s := by
  intro n
  refine (finishFailure_alone _ h).bind ?_ fun _ _ hs' => hs'.1
  exact fun _ s' hs' => ⟨failureOutcome_mem fetched e n, hs'⟩

theorem trySync_alone (h : connectedTo s cal.id = some cal.listingId) (now : ℤ)
    (fetched : Fetched) : Alone fails
    (Ends (fun summary s' => ClaimedEnd fails s cal.id cal.listingId now summary s' fetched)
      fun _ t => connectedTo t cal.id = some cal.listingId ∧ ∀ summary s',
        summary.outcome ∈ failureOutcomes → SameRows t s' →
          ClaimedEnd fails s cal.id cal.listingId now summary s' fetched)
    (trySync cal now fetched) s := by
  have hne : ∀ summary : SyncSummary, summary.outcome ∈ failureOutcomes →
      summary.outcome ≠ .success := by
    rintro ⟨_, outcome, _⟩
    cases outcome <;> simp [failureOutcomes]
  cases fetched with
  | notModified =>
    refine (finishSuccess_alone _ _ _ h).bind ?_ ?_
    · exact fun _ s' hs' => ⟨nofun, hs'⟩
    · rintro e t ⟨-, ht⟩
      refine ⟨by rw [ht.connected, h], fun summary s' hfailed hs' => ?_⟩
      exact ⟨hne summary hfailed, ht.trans hs'⟩
  | failed isTimeout message =>
    exact ⟨h, fun summary s' hfailed hs' => ⟨hne summary hfailed, hs'⟩⟩
  | delivered data etag lastModified =>
    refine (importFeed_alone h now data etag lastModified _ rfl).mono fun r t ht => ?_
    cases r with
    | ok summary => exact Or.inl ht
    | error e =>
      obtain ⟨p, hreach, hsame, hp⟩ := ht
      constructor
      · rw [hsame.connected, connectedTo_storeAt, h]
      · exact fun summary s' hfailed hs' => Or.inr ⟨hfailed, p, hreach, hsame.trans hs', hp⟩

theorem syncClaimed_alone {calendarId listingId : ℕ}
    (h : connectedTo s calendarId = some listingId) (now : ℤ) (fetched : Fetched) : Alone fails
    (Ends (fun summary s' => ClaimedEnd fails s calendarId listingId now summary s' fetched)
      fun _ _ => fails)
    (syncClaimed calendarId now fetched) s := by
  refine Alone.query ?_ fun hf => hf
  obtain ⟨cal, hcal, rfl⟩ := Option.map_eq_some_iff.mp h
  obtain rfl : cal.id = calendarId := Table.key_of_find? hcal
  rw [hcal]
  refine (trySync_alone h now fetched).attempt (fun summary s' hs' => hs') ?_
  rintro e t ⟨ht, hend⟩
  refine (catchSync_alone ht fetched e).mono fun r s' hr => ?_
  cases r with
  | ok summary => exact hend summary s' hr.1 hr.2
  | error e => exact hr

/-- A claim writes the row of a connected calendar. -/
theorem claimCalendar_cases (calendarId : ℕ) (now claimUntil : ℤ) (evenSyncing : Bool) (s : Store) :
    claimCalendar calendarId now claimUntil evenSyncing s = [] ∨
      ∃ c, s.calendars.find? calendarId = some c ∧
        claimCalendar calendarId now claimUntil evenSyncing s = [.calendar { c with
          status := .syncing, lockedUntil := some claimUntil, lastAttemptAt := some now }] := by
  unfold claimCalendar
  cases hrow : s.calendars.find? calendarId with
  | none => exact Or.inl rfl
  | some c =>
    rw [Option.filter_some]
    split_ifs
    · exact Or.inr ⟨c, rfl, rfl⟩
    · exact Or.inl rfl

theorem sameRows_claim {calendarId : ℕ} {now claimUntil : ℤ} {evenSyncing : Bool}
    (h : claimCalendar calendarId now claimUntil evenSyncing s ≠ []) :
    SameRows s (publish s (claimCalendar calendarId now claimUntil evenSyncing s)) ∧
      ∃ listingId, connectedTo s calendarId = some listingId := by
  obtain hnil | ⟨c, hrow, hclaim⟩ :=
    claimCalendar_cases calendarId now claimUntil evenSyncing s
  · exact absurd hnil h
  · have hid : c.id = calendarId := Table.key_of_find? hrow
    have hconnected : connectedTo s calendarId = some c.listingId := by
      rw [connectedTo, hrow]
      rfl
    refine ⟨?_, c.listingId, hconnected⟩
    rw [hclaim]
    exact sameRows_calendar (by rw [← hid] at hconnected; exact hconnected)

/-- How a sync that runs alone ends. -/
theorem syncCalendar_alone (calendarId : ℕ) (force : Bool) (now : ℤ) (fetched : Fetched) :
    Alone fails
      (Ends (SyncEnd fails s calendarId force now fetched) fun _ s' => fails ∨ SameRows s s')
      (syncCalendar calendarId force now fetched) s := by
  have hclaimed : ∀ (evenSyncing : Bool) (instant : ℤ),
      (force = true ∨ claimCalendar calendarId now (now + claimMs) false s ≠ []) →
      claimCalendar calendarId instant (now + claimMs) evenSyncing s ≠ [] →
      Alone fails
        (Ends (SyncEnd fails s calendarId force now fetched) fun _ s' => fails ∨ SameRows s s')
        (syncClaimed calendarId now fetched)
        (publish s (claimCalendar calendarId instant (now + claimMs) evenSyncing s)) := by
    intro evenSyncing instant hmay hne
    obtain ⟨hsame, listingId, hconnected⟩ := sameRows_claim hne
    have hconnected' := (hsame.connected calendarId).trans hconnected
    refine (syncClaimed_alone hconnected' now fetched).mono fun r s' hr => ?_
    cases r with
    | ok summary => exact Or.inr ⟨hmay, listingId, hconnected, hr.of_sameRows hsame⟩
    | error e => exact Or.inl hr
  refine Alone.writeRows ?_ fun hf => Or.inl hf
  by_cases hfirst : claimCalendar calendarId now (now + claimMs) false s = []
  · rw [if_neg (by simp [hfirst]), hfirst]
    cases force with
    | false => exact Or.inl ⟨⟨rfl, hfirst⟩, rfl, .refl s⟩
    | true =>
      rw [if_pos rfl]
      refine Alone.receive fun n => Alone.writeRows ?_ fun hf => Or.inl hf
      rw [publish_nil]
      by_cases hsecond : claimCalendar calendarId (n : ℤ) (now + claimMs) true s = []
      · rw [hsecond]
        exact Or.inr (.refl s)
      · rw [Program.require, if_pos hsecond]
        exact hclaimed true n (Or.inl rfl) hsecond
  · rw [if_pos hfirst]
    exact hclaimed false now (Or.inr hfirst) hfirst

end NexaStays.ImportEffects
