import NexaStays.CalendarCalls

/-!
# A sync that fails

The statements of an import are not in a transaction. A sync that fails before the stored
events are deleted leaves events and nights as they were; after that it does so only where
the feed brings nothing new.
-/
namespace NexaStays.FailedSync

open NexaStays.KeyedTable NexaStays.Transactions NexaStays.Database NexaStays.CalendarSync
  NexaStays.SoloRuns NexaStays.ImportEffects NexaStays.CalendarCalls

/-- The stored events of a calendar, and the nights of its listing, are what they were. -/
def Unchanged (s s' : Store) (calendarId : ℕ) : Prop :=
  (∀ e : StaysExternalCalendarEvent, e.externalCalendarId = calendarId →
    (e ∈ s'.events.rows ↔ e ∈ s.events.rows)) ∧
  ∀ listingId, connectedTo s calendarId = some listingId →
    ∀ b : StaysAvailabilityBlock, b.listingId = listingId →
      (b ∈ s'.blocks.rows ↔ b ∈ s.blocks.rows)

/-- The feed brings the events that are stored. -/
def BringsStored (i : Import) (s : Store) : Prop :=
  ∀ e, e ∈ i.eventRows ↔ e ∈ storedEvents s i.calendarId

/-- An import that stops here has done nothing that shows. -/
def Harmless (i : Import) (s : Store) : Progress → Prop
  | .fetched => True
  | .deleted => storedEvents s i.calendarId = []
  | .inserted => BringsStored i s
  | .released n => BringsStored i s ∧ (∀ b ∈ i.staleRows s, b.listingId ≠ i.listingId) ∧
      ∀ b ∈ i.blockRows s (i.nights.take n), b ∈ s.blocks.rows

variable {i : Import} {s s' : Store}

theorem Unchanged.congr {calendarId : ℕ} {t : Store} (h : SameRows t s') :
    Unchanged s s' calendarId ↔ Unchanged s t calendarId := by
  unfold Unchanged
  rw [h.events, h.blocks]

theorem eventsDeleted_iff :
    (∀ e : StaysExternalCalendarEvent, e.externalCalendarId = i.calendarId →
      (e ∈ (i.eventsDeleted s).rows ↔ e ∈ s.events.rows)) ↔ storedEvents s i.calendarId = [] := by
  rw [List.eq_nil_iff_forall_not_mem]
  constructor
  · intro h e he
    obtain ⟨hmem, hid⟩ := mem_storedEvents.mp he
    exact (Import.mem_eventsDeleted.mp ((h e hid).mpr hmem)).2 hid
  · intro h e hid
    constructor
    · exact fun he => (Import.mem_eventsDeleted.mp he).1
    · exact fun he => absurd (mem_storedEvents.mpr ⟨he, hid⟩) (h e)

theorem eventsInserted_iff (hins : i.Insertable) :
    (∀ e : StaysExternalCalendarEvent, e.externalCalendarId = i.calendarId →
      (e ∈ (i.eventsInserted s).rows ↔ e ∈ s.events.rows)) ↔ BringsStored i s := by
  have hmem : ∀ e : StaysExternalCalendarEvent, e.externalCalendarId = i.calendarId →
      (e ∈ (i.eventsInserted s).rows ↔ e ∈ i.eventRows) := by
    intro e hid
    rw [Import.mem_eventsInserted hins]
    constructor
    · rintro (he | ⟨-, hne⟩)
      · exact he
      · exact absurd hid hne
    · exact Or.inl
  constructor
  · intro h e
    constructor
    · intro he
      have hid := Import.id_of_mem_eventRows he
      exact mem_storedEvents.mpr ⟨(h e hid).mp ((hmem e hid).mpr he), hid⟩
    · intro he
      obtain ⟨hstored, hid⟩ := mem_storedEvents.mp he
      exact (hmem e hid).mp ((h e hid).mpr hstored)
  · intro h e hid
    rw [hmem e hid, h e, mem_storedEvents]
    exact and_iff_left hid

theorem mem_blocksReleased {n : ℕ} {b : StaysAvailabilityBlock} :
    b ∈ (i.blocksReleased s n).rows ↔ b ∈ i.blockRows s (i.nights.take n) ∨
      (b ∈ s.blocks.rows ∧ b ∉ i.staleRows s) ∧
        (b.listingId, b.date) ∉ (i.blockRows s (i.nights.take n)).map
          fun r => (r.listingId, r.date) := by
  have hnodup := Import.nodup_blockRows (i := i) (s := s) (i.nodup.sublist (List.take_sublist n _))
  rw [Import.blocksReleased, Table.mem_putAll hnodup, Table.mem_deleteAll]
  have hstale : b ∈ s.blocks.rows →
      ((b.listingId, b.date) ∉ (i.staleRows s).map (fun r => (r.listingId, r.date)) ↔
        b ∉ i.staleRows s) := by
    intro hb
    constructor
    · exact fun h hmem => h (List.mem_map_of_mem hmem)
    · intro h hmem
      obtain ⟨r, hr, hkey⟩ := List.mem_map.mp hmem
      exact h (s.blocks.eq_of_key_eq (Import.mem_staleRows.mp hr).1 hb hkey ▸ hr)
  constructor
  · rintro (hb | ⟨⟨hb, hkey⟩, hrow⟩)
    · exact Or.inl hb
    · exact Or.inr ⟨⟨hb, (hstale hb).mp hkey⟩, hrow⟩
  · rintro (hb | ⟨⟨hb, hkey⟩, hrow⟩)
    · exact Or.inl hb
    · exact Or.inr ⟨⟨hb, (hstale hb).mpr hkey⟩, hrow⟩

theorem blocksReleased_iff (n : ℕ) :
    (∀ b : StaysAvailabilityBlock, b.listingId = i.listingId →
      (b ∈ (i.blocksReleased s n).rows ↔ b ∈ s.blocks.rows)) ↔
    (∀ b ∈ i.staleRows s, b.listingId ≠ i.listingId) ∧
      ∀ b ∈ i.blockRows s (i.nights.take n), b ∈ s.blocks.rows := by
  constructor
  · intro h
    constructor
    · intro b hb hlisting
      obtain ⟨hmem, -, -, hdate⟩ := Import.mem_staleRows.mp hb
      obtain hrow | ⟨⟨-, hnot⟩, -⟩ := mem_blocksReleased.mp ((h b hlisting).mpr hmem)
      · obtain ⟨night, hnight, -, rfl⟩ := Import.mem_blockRows.mp hrow
        exact hdate (List.mem_of_mem_take hnight)
      · exact hnot hb
    · intro b hb
      obtain ⟨night, -, -, rfl⟩ := Import.mem_blockRows.mp hb
      exact (h _ rfl).mp (mem_blocksReleased.mpr (Or.inl hb))
  · rintro ⟨hstale, hrows⟩ b hlisting
    rw [mem_blocksReleased]
    constructor
    · rintro (hb | ⟨⟨hb, -⟩, -⟩)
      · exact hrows b hb
      · exact hb
    · intro hb
      by_cases hkey : (b.listingId, b.date) ∈
          (i.blockRows s (i.nights.take n)).map fun r => (r.listingId, r.date)
      · obtain ⟨r, hr, heq⟩ := List.mem_map.mp hkey
        exact Or.inl (s.blocks.eq_of_key_eq (hrows r hr) hb heq ▸ hr)
      · exact Or.inr ⟨⟨hb, fun hmem => hstale b hmem hlisting⟩, hkey⟩

/-- A stage shows nothing exactly if it is harmless. -/
theorem unchanged_storeAt_iff (hlisting : connectedTo s i.calendarId = some i.listingId)
    {p : Progress} (hp : i.Reaches p) :
    Unchanged s (i.storeAt s p) i.calendarId ↔ Harmless i s p := by
  have hsame : ∀ listingId, connectedTo s i.calendarId = some listingId →
      listingId = i.listingId := fun _ h => Option.some.inj (h.symm.trans hlisting)
  cases p with
  | fetched => exact iff_of_true ⟨fun _ _ => Iff.rfl, fun _ _ _ _ => Iff.rfl⟩ trivial
  | deleted =>
    constructor
    · exact fun h => eventsDeleted_iff.mp h.1
    · exact fun h => ⟨eventsDeleted_iff.mpr h, fun _ _ _ _ => Iff.rfl⟩
  | inserted =>
    have hins : i.Insertable := by simpa [Import.Reaches] using hp
    constructor
    · exact fun h => (eventsInserted_iff hins).mp h.1
    · exact fun h => ⟨(eventsInserted_iff hins).mpr h, fun _ _ _ _ => Iff.rfl⟩
  | released n =>
    have hins : i.Insertable := by simpa [Import.Reaches] using hp
    constructor
    · exact fun h => ⟨(eventsInserted_iff hins).mp h.1,
        (blocksReleased_iff n).mp (h.2 _ hlisting)⟩
    · rintro ⟨hevents, hblocks⟩
      refine ⟨(eventsInserted_iff hins).mpr hevents, fun listingId hconnected => ?_⟩
      rw [hsame listingId hconnected]
      exact (blocksReleased_iff n).mpr hblocks

/-- How far the import of a sync had come when it failed, and the rows it leaves there. -/
def StopsAt (s s' : Store) (calendarId : ℕ) (now : ℤ) (fetched : Fetched) (p : Progress) : Prop :=
  match connectedTo s calendarId, fetched with
  | some listingId, .delivered data _ _ =>
    (importOf calendarId listingId now data).Reaches p ∧
      SameRows ((importOf calendarId listingId now data).storeAt s p) s'
  | _, _ => p = .fetched ∧ SameRows s s'

/-- Stopping there is harmless. -/
def HarmlessStop (s : Store) (calendarId : ℕ) (now : ℤ) (fetched : Fetched) (p : Progress) : Prop :=
  match connectedTo s calendarId, fetched with
  | some listingId, .delivered data _ _ => Harmless (importOf calendarId listingId now data) s p
  | _, _ => True

theorem exists_stopsAt {fails : Prop} {calendarId : ℕ} {force : Bool} {now : ℤ}
    {fetched : Fetched} {summary : SyncSummary}
    (h : SyncEnd fails s calendarId force now fetched summary s')
    (hfailed : summary.outcome ∈ failureOutcomes) :
    ∃ p, StopsAt s s' calendarId now fetched p := by
  obtain ⟨-, -, hsame⟩ | ⟨-, listingId, hconnected, hend⟩ := h
  · refine ⟨.fetched, ?_⟩
    unfold StopsAt
    split
    · exact ⟨Or.inl rfl, hsame⟩
    · exact ⟨rfl, hsame⟩
  · unfold StopsAt
    rw [hconnected]
    cases fetched with
    | notModified => exact ⟨.fetched, rfl, hend.2⟩
    | failed isTimeout message => exact ⟨.fetched, rfl, hend.2⟩
    | delivered data etag lastModified =>
      obtain ⟨hsuccess, -, -⟩ | ⟨-, p, hreach, hsame, -⟩ := hend
      · rw [hsuccess] at hfailed
        exact absurd hfailed (by decide)
      · exact ⟨p, hreach, hsame⟩

theorem unchanged_iff_of_stopsAt {calendarId : ℕ} {now : ℤ} {fetched : Fetched} {p : Progress}
    (h : StopsAt s s' calendarId now fetched p) :
    Unchanged s s' calendarId ↔ HarmlessStop s calendarId now fetched p := by
  have hkept : SameRows s s' → (Unchanged s s' calendarId ↔ True) := by
    intro hsame
    rw [Unchanged.congr hsame]
    exact iff_true_intro ⟨fun _ _ => Iff.rfl, fun _ _ _ _ => Iff.rfl⟩
  unfold StopsAt at h
  unfold HarmlessStop
  cases hconnected : connectedTo s calendarId with
  | none =>
    rw [hconnected] at h
    exact hkept h.2
  | some listingId =>
    rw [hconnected] at h
    cases fetched with
    | notModified => exact hkept h.2
    | failed isTimeout message => exact hkept h.2
    | delivered data etag lastModified =>
      rw [Unchanged.congr h.2]
      exact unchanged_storeAt_iff (i := importOf calendarId listingId now data) hconnected h.1

/-- A sync that runs alone, with any statement failing, and returns a failure, has stopped
at a stage of its import; events and nights are what they were exactly if it is harmless
to stop there. -/
theorem failed_sync_unchanged {calendarId : ℕ} {force : Bool} {now : ℤ} {fetched : Fetched}
    {summary : SyncSummary}
    (h : Returns True (.syncCalendar calendarId force now fetched) s (.summary summary) s')
    (hfailed : summary.outcome ∈ failureOutcomes) :
    (∃ p, StopsAt s s' calendarId now fetched p) ∧
    ∀ p, StopsAt s s' calendarId now fetched p →
      (Unchanged s s' calendarId ↔ HarmlessStop s calendarId now fetched p) := by
  constructor
  · obtain ⟨summary', heq, hend⟩ := h.sync
    obtain rfl : summary = summary' := by simpa using heq
    exact exists_stopsAt hend hfailed
  · exact fun p hp => unchanged_iff_of_stopsAt hp

/-- A calendar with one stored event, and its two nights. -/
def storedReservation : Store :=
  sampleCalendars [sampleEvent 1 "a" 21924 21926] [icalBlock 1 1 21924, icalBlock 1 1 21925]

/-- A feed that is not fetched in time. -/
theorem failed_sync_unchanged_timeout : ∃ summary s',
    Returns True (.syncCalendar 1 false (21910 * dayMs) (.failed true "timeout"))
      storedReservation (.summary summary) s' ∧
    summary.outcome = .timeout ∧ Unchanged storedReservation s' 1 := by
  obtain ⟨a, s', hreturns, hp⟩ := returns_of_statements True
    (.syncCalendar 1 false (21910 * dayMs) (.failed true "timeout")) storedReservation
    (System.turns 0 1 10) (fun a _ => a.summary?.map (·.outcome) = some .timeout)
    (by decide +kernel)
  obtain ⟨summary, hsummary, houtcome⟩ := Option.map_eq_some_iff.mp (of_decide_eq_true hp)
  obtain rfl := CalendarAnswer.summary?_eq_some.mp hsummary
  obtain ⟨⟨p, hstop⟩, hiff⟩ := failed_sync_unchanged hreturns (by rw [houtcome]; decide)
  exact ⟨summary, s', hreturns, houtcome, (hiff p hstop).mpr trivial⟩

/-- The insert of the feed's event is refused: the stored event is gone. -/
theorem failed_sync_loses_event : ∃ summary s',
    Returns True (.syncCalendar 1 false (21910 * dayMs)
      (.delivered [sampleComponent "b" "b" 21930 21931] none none)) storedReservation
      (.summary summary) s' ∧
    summary.outcome ∈ failureOutcomes ∧ ¬Unchanged storedReservation s' 1 := by
  obtain ⟨a, s', hreturns, hp⟩ := returns_of_statements True
    (.syncCalendar 1 false (21910 * dayMs)
      (.delivered [sampleComponent "b" "b" 21930 21931] none none)) storedReservation
    (System.turns 0 1 4 ++ [.fail 0] ++ System.turns 0 1 8)
    (fun a s' => a.summary?.map (·.outcome) = some .error ∧ s'.events.rows = [])
    (by decide +kernel)
  obtain ⟨hsome, hgone⟩ := of_decide_eq_true hp
  obtain ⟨summary, hsummary, houtcome⟩ := Option.map_eq_some_iff.mp hsome
  obtain rfl := CalendarAnswer.summary?_eq_some.mp hsummary
  refine ⟨summary, s', hreturns, by rw [houtcome]; decide, fun hsame => ?_⟩
  have hstored : sampleEvent 1 "a" 21924 21926 ∈ storedReservation.events.rows := by decide
  have hmem := (hsame.1 _ rfl).mpr hstored
  rw [hgone] at hmem
  exact absurd hmem (by simp)

end NexaStays.FailedSync
