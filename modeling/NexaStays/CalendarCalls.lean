import NexaStays.Availability
import NexaStays.Calls
import NexaStays.ImportEffects

/-!
# The calls that calendars and nights depend on

Syncs, alone or in the batch of the scheduler, and what the host and the guests do with
calendars and nights.
-/
namespace NexaStays.CalendarCalls

open NexaStays.KeyedTable NexaStays.Transactions NexaStays.Database NexaStays.BookingDate
  NexaStays.HostCalendar NexaStays.Availability NexaStays.Calls NexaStays.CalendarSync
  NexaStays.SoloRuns NexaStays.ImportEffects

inductive CalendarCall where
  | syncCalendar (calendarId : ℕ) (force : Bool) (now : ℤ) (fetched : Fetched)
  | processDueCalendars (now : ℤ) (feeds : List (ℕ × Fetched))
  | updateCalendar (listingId calendarId hostUserId : ℕ) (pause : Option Bool)
  | deleteCalendar (reference : BlockReference) (listingId calendarId hostUserId : ℕ)
  | setHostAvailabilityBlock (listingId hostUserId : ℕ) (fromDate toDate : Option Ymd)
      (isBlocked : Bool)
  | isListingAvailable (listingId : ℕ) (checkin checkout : ℤ)
  deriving DecidableEq, Repr

inductive CalendarAnswer where
  | summary (summary : SyncSummary)
  | nights (count : ℕ)
  | available (available : Bool)
  | done
  deriving DecidableEq, Repr

/-- The summary of a sync's answer. -/
def CalendarAnswer.summary? : CalendarAnswer → Option SyncSummary
  | .summary result => some result
  | _ => none

theorem CalendarAnswer.summary?_eq_some {a : CalendarAnswer} {result : SyncSummary} :
    a.summary? = some result ↔ a = .summary result := by
  cases a <;> simp [CalendarAnswer.summary?]

/-- What a feed answers in a batch. -/
def feedOf (feeds : List (ℕ × Fetched)) (calendarId : ℕ) : Fetched :=
  (feeds.lookup calendarId).getD .notModified

def CalendarCall.program : CalendarCall → Stays CalendarAnswer
  | .syncCalendar calendarId force now fetched =>
    .summary <$> CalendarSync.syncCalendar calendarId force now fetched
  | .processDueCalendars now feeds =>
    (fun _ => .done) <$> CalendarSync.processDueCalendars now (feedOf feeds)
  | .updateCalendar listingId calendarId hostUserId pause =>
    (fun _ => .done) <$> CalendarSync.updateCalendar listingId calendarId hostUserId pause
  | .deleteCalendar reference listingId calendarId hostUserId =>
    (fun _ => .done) <$> CalendarSync.deleteCalendar reference listingId calendarId hostUserId
  | .setHostAvailabilityBlock listingId hostUserId fromDate toDate isBlocked =>
    .nights <$> HostCalendar.setHostAvailabilityBlock listingId hostUserId fromDate toDate isBlocked
  | .isListingAvailable listingId checkin checkout =>
    .available <$> Availability.isListingAvailable listingId checkin checkout none

abbrev CalendarSystem := System CalendarCall Store Key Write StaysError CalendarAnswer

/-- Calls that have not started. -/
def start (s : Store) (calls : List CalendarCall) : CalendarSystem :=
  ⟨s, calls.map fun c => ⟨c, .idle, c.program⟩⟩

/-- The calls that sync: a sync of one calendar, or the batch of the scheduler. -/
def CalendarCall.IsSync : CalendarCall → Prop
  | .syncCalendar _ _ _ _ | .processDueCalendars _ _ => True
  | _ => False

instance : DecidablePred CalendarCall.IsSync := fun c => by
  cases c <;> unfold CalendarCall.IsSync <;> infer_instance

/-- A call alone on a store. -/
def alone (c : CalendarCall) (s : Store) : CalendarSystem := single c c.program s

/-- The call runs alone from one store to another, with or without failing statements, and
returns the answer. -/
def Returns (fails : Prop) (c : CalendarCall) (s : Store) (a : CalendarAnswer) (s' : Store) : Prop :=
  ∃ sys, System.Run (Undisturbed fails) (alone c s) sys ∧ sys.store = s' ∧
    ∃ t ∈ sys.threads, t.program.result = some a

variable {fails : Prop} {s s' : Store} {a : CalendarAnswer}

theorem Returns.of_alone {c : CalendarCall} {Q : Except StaysError CalendarAnswer → Store → Prop}
    (h : Returns fails c s a s') (halone : Alone fails Q c.program s) : Q (.ok a) s' := by
  obtain ⟨sys, hrun, rfl, hdone⟩ := h
  exact result_of_run halone hrun hdone

/-- How a sync returns. -/
theorem Returns.sync {calendarId : ℕ} {force : Bool} {now : ℤ} {fetched : Fetched}
    (h : Returns fails (.syncCalendar calendarId force now fetched) s a s') :
    ∃ summary, a = .summary summary ∧ SyncEnd fails s calendarId force now fetched summary s' := by
  have hsync : Alone fails
      (Ends (fun a s' => ∃ summary, a = .summary summary ∧
          SyncEnd fails s calendarId force now fetched summary s') fun _ _ => True)
      (CalendarCall.syncCalendar calendarId force now fetched).program s := by
    refine Alone.map ((syncCalendar_alone calendarId force now fetched).mono fun r t hr => ?_)
    cases r with
    | ok summary => exact ⟨summary, rfl, hr⟩
    | error e => trivial
  exact h.of_alone hsync

/-- The nights after a host's block or unblock. -/
theorem Returns.hostBlock {listingId hostUserId : ℕ} {fromDate toDate : Option Ymd}
    {isBlocked : Bool}
    (h : Returns fails (.setHostAvailabilityBlock listingId hostUserId fromDate toDate isBlocked)
      s a s') :
    ∃ start stop, parseBookingYmd fromDate = .ok start ∧ parseBookingYmd toDate = .ok stop ∧
      s' = publish s (((nightsBetween start stop).map
        (HostCalendar.hostBlock listingId isBlocked)).map .block) := by
  have hblock : Alone fails
      (Ends (fun _ s' => ∃ start stop, parseBookingYmd fromDate = .ok start ∧
          parseBookingYmd toDate = .ok stop ∧ s' = publish s (((nightsBetween start stop).map
            (HostCalendar.hostBlock listingId isBlocked)).map .block)) fun _ _ => True)
      (CalendarCall.setHostAvailabilityBlock listingId hostUserId fromDate toDate
        isBlocked).program s := by
    refine Alone.map (Alone.query ?_ fun _ => trivial)
    refine Alone.expect (fun _ _ => ?_) fun _ => trivial
    refine Alone.expect (fun _ _ => ?_) fun _ => trivial
    refine Alone.expect (fun _ _ => ?_) fun _ => trivial
    refine Alone.require (fun _ => ?_) fun _ => trivial
    refine Alone.ofExcept (fun start hstart => ?_) fun _ _ => trivial
    refine Alone.ofExcept (fun stop hstop => ?_) fun _ _ => trivial
    refine Alone.require (fun _ => ?_) fun _ => trivial
    refine Alone.writeRows ?_ fun _ => trivial
    refine ⟨start, stop, hstart, hstop, ?_⟩
    rw [List.map_map]
    rfl
  exact h.of_alone hblock

/-- The rows after the deletion of a calendar. -/
theorem Returns.delete {reference : BlockReference} {listingId calendarId hostUserId : ℕ}
    (h : Returns fails (.deleteCalendar reference listingId calendarId hostUserId) s a s') :
    s' = publish s (deleteCalendarRows reference calendarId s) := by
  have hdelete : Alone fails
      (Ends (fun _ s' => s' = publish s (deleteCalendarRows reference calendarId s)) fun _ _ => True)
      (CalendarCall.deleteCalendar reference listingId calendarId hostUserId).program s := by
    have howned : Alone fails (Ends (fun _ t => t = s) fun _ _ => True)
        (getOwnedCalendar listingId calendarId hostUserId) s := by
      have howner : Alone fails (Ends (fun _ t => t = s) fun _ _ => True)
          (assertListingOwner listingId hostUserId) s :=
        Alone.query (Alone.expected (fun _ _ => rfl) fun _ => trivial) fun _ => trivial
      refine howner.bind ?_ fun _ _ _ => trivial
      rintro _ _ rfl
      exact Alone.query (Alone.expected (fun _ _ => rfl) fun _ => trivial) fun _ => trivial
    refine Alone.map (howned.bind ?_ fun _ _ _ => trivial)
    rintro _ _ rfl
    exact Alone.writeRows rfl fun _ => trivial
  exact h.of_alone hdelete

/-- The query of a guest, which changes nothing. -/
theorem Returns.isListingAvailable {listingId : ℕ} {checkin checkout : ℤ}
    (h : Returns fails (.isListingAvailable listingId checkin checkout) s a s') :
    s' = s ∧ a = .available ((overlappingBookings s listingId checkin checkout none = []) ∧
      blockedNights s listingId checkin checkout = []) := by
  have hquery : Alone fails
      (Ends (fun a s' => s' = s ∧ a = .available
          ((overlappingBookings s listingId checkin checkout none = []) ∧
            blockedNights s listingId checkin checkout = [])) fun _ _ => True)
      (CalendarCall.isListingAvailable listingId checkin checkout).program s := by
    refine Alone.map (Alone.query ?_ fun _ => trivial)
    by_cases hover : (overlappingBookings s listingId checkin checkout none).length > 0
    · rw [if_pos hover]
      refine ⟨rfl, ?_⟩
      have hne : overlappingBookings s listingId checkin checkout none ≠ [] :=
        List.ne_nil_of_length_pos hover
      simp [hne]
    · rw [if_neg hover]
      have hnil : overlappingBookings s listingId checkin checkout none = [] :=
        List.eq_nil_of_length_eq_zero (by omega)
      refine Alone.query ⟨rfl, ?_⟩ fun _ => trivial
      cases hrows : blockedNights s listingId checkin checkout with
      | nil => simp [hnil]
      | cons b rows => simp
  exact h.of_alone hquery

/-- A connected calendar of the first listing. -/
def sampleCalendar (id : ℕ) : StaysExternalCalendar where
  id
  listingId := 1
  status := .active
  nextSyncAt := 0
  lockedUntil := none
  lastAttemptAt := none
  lastSuccessfulSyncAt := none
  lastError := none
  etag := none
  lastModified := none
  consecutiveFailures := 0
  syncResult := none

/-- A reservation in a feed. -/
def sampleComponent (key uid : String) (start stop : ℤ) : String × IcsComponent :=
  (key, ⟨true, false, some start, some stop, some uid, none, none⟩)

def sampleEvent (calendarId : ℕ) (uid : String) (start stop : ℤ) : StaysExternalCalendarEvent :=
  ⟨calendarId, uid, "", start, stop, none⟩

/-- The listings of the other deployment, with two calendars of the first one. -/
def sampleCalendars (events : List StaysExternalCalendarEvent)
    (blocks : List StaysAvailabilityBlock) : Store :=
  { sampleStore with
    calendars := Table.ofRows [sampleCalendar 1, sampleCalendar 2]
    events := Table.ofRows events
    blocks := Table.ofRows blocks }

/-- A state that a schedule of some calls reaches. -/
theorem exists_calendarRun (ok : CalendarSystem → Action → Prop) [∀ sys a, Decidable (ok sys a)]
    (s : Store) (calls : List CalendarCall) (as : List Action) (p : CalendarSystem → Bool)
    (h : (System.exec ok (start s calls) as).any p = true) :
    ∃ sys, System.Run ok (start s calls) sys ∧ p sys = true :=
  System.exists_run h

/-- A number of statements of a call that is alone. -/
def statements (fails : Prop) [Decidable fails] (c : CalendarCall) (s : Store) (as : List Action) :
    Option CalendarSystem :=
  System.exec (Undisturbed fails) (alone c s) as

/-- A call that has returned after some statements. -/
theorem returns_of_statements (fails : Prop) [Decidable fails] (c : CalendarCall) (s : Store)
    (as : List Action) (p : CalendarAnswer → Store → Bool)
    (h : ((statements fails c s as).any fun sys => sys.threads.any fun t =>
      t.program.result.any fun a => p a sys.store) = true) :
    ∃ a s', Returns fails c s a s' ∧ p a s' = true := by
  cases hexec : statements fails c s as with
  | none => simp [hexec] at h
  | some sys =>
    rw [hexec, Option.any_some, List.any_eq_true] at h
    obtain ⟨t, ht, hany⟩ := h
    obtain ⟨a, ha, hp⟩ : ∃ a, t.program.result = some a ∧ p a sys.store = true := by
      cases hresult : t.program.result with
      | none => simp [hresult] at hany
      | some a => exact ⟨a, rfl, by simpa [hresult] using hany⟩
    exact ⟨a, sys.store, ⟨sys, System.run_of_exec hexec, rfl, t, ht, ha⟩, hp⟩

/-- The store after some statements of a call that is alone and meets no failure. -/
def storeAfter (c : CalendarCall) (s : Store) (as : List Action) : Store :=
  ((statements False c s as).map (·.store)).getD s

theorem returns_storeAfter (c : CalendarCall) (s : Store) (as : List Action)
    (p : CalendarAnswer → Bool)
    (h : ((statements False c s as).any fun sys => sys.threads.any fun t =>
      t.program.result.any p) = true) :
    ∃ a, p a = true ∧ Returns False c s a (storeAfter c s as) := by
  cases hexec : statements False c s as with
  | none => simp [hexec] at h
  | some sys =>
    rw [hexec, Option.any_some, List.any_eq_true] at h
    obtain ⟨t, ht, hresult⟩ := h
    cases ha : t.program.result with
    | none => simp [ha] at hresult
    | some a =>
      have hstore : sys.store = storeAfter c s as := by simp [storeAfter, hexec]
      exact ⟨a, by simpa [ha] using hresult, sys, System.run_of_exec hexec, hstore, t, ht, ha⟩

end NexaStays.CalendarCalls
