import NexaStays.CrashedSync
import NexaStays.Residues

/-!
# Where a sync leaves a pause alone

A claim does not look at whether the calendar is paused, and the save at the end of a sync
writes a status that was decided before. Outside of these a sync never touches the row of
its calendar, so a pause is kept at every place but those between a claim and its end; and of
these at the few where the sync has the pause to restore, or no status to write any more.
-/
namespace NexaStays.PausePlaces

open NexaStays.KeyedTable NexaStays.Transactions NexaStays.Database NexaStays.HostCalendar
  NexaStays.CalendarSync NexaStays.SoloRuns NexaStays.ImportEffects NexaStays.CalendarCalls
  NexaStays.Monitors NexaStays.SyncMonitors NexaStays.CrashedSync NexaStays.Phases
  NexaStays.Residues

open NexaStays.Transactions.Program (receive attempt forEach)

def paused (s : Store) (calendarId : ℕ) : Bool :=
  (s.calendars.find? calendarId).any fun c => c.status = .paused

/-- What the batch does for one calendar. -/
def syncDue (feed : ℕ → Fetched) (cal : StaysExternalCalendar) : Stays Unit :=
  attempt
    (do
      let started ← receive
      let _ ← syncCalendar cal.id false started (feed cal.id)
      pure ())
    fun _ => pure ()

/-- The call stands in a sync of which `q` is left: its own, or one of the batch that has the
calendars `rest` to come. -/
inductive Within (q : Stays SyncSummary) : CalendarCall → Stays CalendarAnswer → Prop
  | sync (calendarId : ℕ) (force : Bool) (now : ℤ) (fetched : Fetched) :
    Within q (.syncCalendar calendarId force now fetched) (.summary <$> q)
  | batch (now : ℤ) (feeds : List (ℕ × Fetched)) (rest : List StaysExternalCalendar) :
    Within q (.processDueCalendars now feeds)
      ((fun _ => .done) <$> (attempt (q >>= fun _ => pure ()) fun _ => pure ()).handle
        (fun _ => forEach (syncDue (feedOf feeds)) rest) .throw)

abbrev CalendarThread := Thread CalendarCall Store Key Write StaysError CalendarAnswer

/-- The call is between its claim of the calendar and the end of that sync. -/
def Claiming (id : ℕ) (t : CalendarThread) : Prop :=
  t.call.IsSync ∧ ∃ now fetched, Inside (syncClaimed id now fetched) t.program

/-- The sync has not read the row that it claimed, and its feed is not modified. -/
def AwaitsRow (id : ℕ) (t : CalendarThread) : Prop :=
  ∃ now, Within (syncClaimed id now .notModified) t.call t.program

/-- The feed of the sync is not modified, and it has read the row as `PAUSED`. -/
def RestoresPause (id : ℕ) (t : CalendarThread) : Prop :=
  ∃ now cal q, cal.id = id ∧ cal.status = .paused ∧ Remainder (trySync cal now .notModified) q ∧
    Within (attempt q (catchSync cal .notModified)) t.call t.program

/-- The end of a sync whose save has found the row in the status that it saves. -/
def settle (entity row : StaysExternalCalendar) (summary : SyncSummary) : Stays SyncSummary := do
  let _ ← Stays.update (saveWrites entity (some row))
  writeLog
  pure summary

/-- The sync has no status to write any more, but in its `catch` block. -/
def HasSettled (t : CalendarThread) : Prop :=
  ∃ entity row summary cal fetched q, entity.status = row.status ∧
    Remainder (settle entity row summary) q ∧
    Within (attempt q (catchSync cal fetched)) t.call t.program

/-- The sync has failed, and has no status to write any more. -/
def HasFailed (t : CalendarThread) : Prop :=
  ∃ entity row summary q, entity.status = row.status ∧
    Residue (settle entity row summary) q ∧ Within q t.call t.program

/-- A program may not take a paused calendar to another status, but for a claim, after
which nothing is asked. Statements fail only if `fails`. -/
def pauseMonitor (fails : Bool) (calendarId : ℕ) : Monitor Unit Store where
  rejects _ s s' := paused s calendarId = true ∧ paused s' calendarId = false ∧
    syncing s' calendarId = false
  next _ s s' := if paused s calendarId && paused s' calendarId then some () else none
  failed _ := if fails then some () else none
  stopped _ := True

/-- As long as the calendar is paused and not claimed, the program leaves it paused. -/
def KeepsPause {α : Type} (fails : Bool) (calendarId : ℕ) (p : Stays α) : Prop :=
  Follows (pauseMonitor fails calendarId) (fun _ _ => True) p ()

/-- A program may not end a pause, whatever the status was meanwhile. -/
def steadyMonitor (fails : Bool) (calendarId : ℕ) : Monitor Unit Store where
  rejects _ s s' := paused s calendarId = true ∧ paused s' calendarId = false
  next _ _ _ := some ()
  failed _ := if fails then some () else none
  stopped _ := True

/-- A program may not touch the row of the calendar. -/
def aloofMonitor (calendarId : ℕ) : Monitor Unit Store where
  rejects _ s s' := s'.calendars.find? calendarId ≠ s.calendars.find? calendarId
  next _ _ _ := some ()
  failed _ := some ()
  stopped _ := True

/-- The program leaves the row of the calendar as it is. -/
def Aloof {α : Type} (calendarId : ℕ) (p : Stays α) : Prop :=
  Follows (aloofMonitor calendarId) (fun _ _ => True) p ()

variable {fails : Bool} {id calendarId : ℕ} {s s' : Store} {cal : StaysExternalCalendar} {α : Type}
  {p q : Stays α}

theorem paused_congr (h : s'.calendars.find? id = s.calendars.find? id) :
    paused s' id = paused s id := by
  rw [paused, h]
  rfl

theorem KeepsPause.ends (h : KeepsPause fails id p) :
    Follows (pauseMonitor fails id) (Leaves fun _ => True) p () :=
  Follows.mono (fun r _ _ => by cases r <;> trivial) h

theorem KeepsPause.of_ends {P : α → Unit → Prop} {E : StaysError → Unit → Prop}
    (h : Follows (pauseMonitor fails id) (Ends P E) p ()) : KeepsPause fails id p :=
  Follows.mono (fun _ _ _ => trivial) h

/-- What keeps a pause although statements fail keeps it if none does. -/
theorem KeepsPause.unfailing (h : KeepsPause true id p) : KeepsPause fails id p := by
  have hrejects : ∀ g s s', (pauseMonitor fails id).rejects g s s' →
      (pauseMonitor true id).rejects g s s' := fun _ _ _ h => h
  have hnext : ∀ g s s', ∀ g' ∈ (pauseMonitor fails id).next g s s',
      g' ∈ (pauseMonitor true id).next g s s' := fun _ _ _ _ h => h
  have hfailed : ∀ g, ∀ g' ∈ (pauseMonitor fails id).failed g,
      g' ∈ (pauseMonitor true id).failed g := fun _ _ _ => rfl
  exact Follows.coarser hrejects hnext hfailed (fun _ _ => trivial) h

theorem keepsPause_of_not_active (h : ¬Active p) : KeepsPause fails id p := by
  cases p with
  | pure | throw | halt => trivial
  | _ => exact absurd trivial h

theorem Aloof.keepsPause (h : Aloof id p) : KeepsPause fails id p := by
  refine Follows.coarser (fun _ s s' => ?_) (fun _ _ _ _ _ => rfl) (fun _ _ _ => rfl)
    (fun _ _ => trivial) h
  rintro ⟨hs, hs', -⟩ hsame
  rw [paused_congr hsame, hs] at hs'
  exact absurd hs' (by simp)

theorem Aloof.residue (h : Aloof id p) (hpq : Residue p q) : Aloof id q :=
  follows_residue (fun _ _ => rfl) rfl h hpq

theorem indifferent_aloof : Indifferent (aloofMonitor id) fun _ => True := by
  constructor
  · intro R g s s' hsame _ hnext
    exact ⟨fun h => h (by rw [hsame]), fun g' _ => hnext g' trivial⟩
  · exact fun _ _ => trivial

theorem Aloof.of_ends {P : α → Unit → Prop} {E : StaysError → Unit → Prop}
    (h : Follows (aloofMonitor id) (Ends P E) p ()) : Aloof id p :=
  Follows.mono (fun _ _ _ => trivial) h

/-- The save of another calendar. -/
theorem saveCalendar_aloof (hid : cal.id ≠ id) :
    Follows (aloofMonitor id) (Leaves fun _ => True) (saveCalendar cal) () := by
  refine Follows.query (fun s => ⟨fun h => h rfl, fun _ _ => ?_⟩) fun _ _ => trivial
  refine Follows.writeRows (fun s' => ⟨fun h => h ?_, fun _ _ => trivial⟩) fun _ _ => trivial
  exact find?_save_of_ne (s := s') (s.calendars.find? cal.id) hid

theorem syncClaimed_aloof (now : ℤ) (fetched : Fetched) (hid : calendarId ≠ id) :
    Follows (aloofMonitor id) (Leaves fun _ => True) (syncClaimed calendarId now fetched) () := by
  refine Follows.query (fun s => ⟨fun h => h rfl, fun _ _ => ?_⟩) fun _ _ => trivial
  refine Follows.expect (fun cal hcal => ?_) fun _ => trivial
  have hcal : cal.id = calendarId := Table.key_of_find? hcal
  exact sync_follows indifferent_aloof indifferent_aloof
    (fun entity _ hentity _ _ => saveCalendar_aloof (by rw [hentity, hcal]; exact hid))
    (fun _ h => h) now fetched trivial

/-- The claim of another calendar. -/
theorem find?_claim_of_ne {now claimUntil : ℤ} {evenSyncing : Bool} (hid : calendarId ≠ id) :
    (publish s (claimCalendar calendarId now claimUntil evenSyncing s)).calendars.find? id =
      s.calendars.find? id := by
  obtain hempty | ⟨c, hrow, hwrites⟩ := claimCalendar_cases calendarId now claimUntil evenSyncing s
  · rw [hempty]
    rfl
  · have hc : c.id = calendarId := Table.key_of_find? hrow
    rw [hwrites]
    show (s.calendars.put _).find? id = _
    exact Table.find?_put_of_ne fun h => hid (hc.symm.trans h.symm)

theorem syncCalendar_aloof (force : Bool) (now : ℤ) (fetched : Fetched) (hid : calendarId ≠ id) :
    Follows (aloofMonitor id) (Leaves fun _ => True) (syncCalendar calendarId force now fetched)
      () := by
  refine Follows.writeRows (fun s => ⟨fun h => h (find?_claim_of_ne hid), fun _ _ => ?_⟩)
    fun _ _ => trivial
  split_ifs
  · exact syncClaimed_aloof now fetched hid
  · refine receive_follows indifferent_aloof trivial fun later _ _ => ?_
    refine Follows.writeRows (fun s => ⟨fun h => h (find?_claim_of_ne hid), fun _ _ => ?_⟩)
      fun _ _ => trivial
    exact Follows.require (fun _ => syncClaimed_aloof now fetched hid) fun _ => trivial
  · trivial

theorem accepts_read {R : Unit → Prop} (hnext : paused s id = true → R ()) :
    (pauseMonitor fails id).Accepts R () s s := by
  constructor
  · rintro ⟨hs, hs', -⟩
    simp [hs] at hs'
  · intro g hg
    cases hs : paused s id with
    | true => exact hnext hs
    | false => simp [pauseMonitor, hs] at hg

/-- Nothing is asked after a claim of the calendar. -/
theorem accepts_claim {now claimUntil : ℤ} {evenSyncing : Bool} {R : Unit → Prop}
    (hnil : claimCalendar id now claimUntil evenSyncing s = [] → R ()) :
    (pauseMonitor fails id).Accepts R () s
      (publish s (claimCalendar id now claimUntil evenSyncing s)) := by
  obtain hempty | ⟨c, hrow, hwrites⟩ := claimCalendar_cases id now claimUntil evenSyncing s
  · rw [hempty]
    exact accepts_read fun _ => hnil hempty
  · have hid : id = c.id := (Table.key_of_find? hrow).symm
    have hafter : (publish s (claimCalendar id now claimUntil evenSyncing s)).calendars.find? id =
        some { c with
          status := .syncing, lockedUntil := some claimUntil, lastAttemptAt := some now } := by
      rw [hwrites]
      show (s.calendars.put _).find? id = _
      rw [Table.find?_put, if_pos hid]
    constructor
    · rintro ⟨-, -, hsyncing⟩
      simp [syncing, hafter] at hsyncing
    · intro g hg
      simp [pauseMonitor, paused, hafter] at hg

/-- At every point of the program a sync of the calendar is under way, or a pause is kept. -/
def Located (id : ℕ) (p : Stays α) : Prop :=
  ∀ q, Residue p q → (∃ now fetched, Inside (syncClaimed id now fetched) q) ∨
    KeepsPause true id q

/-- The claim is not made yet. -/
structure Unclaimed (id : ℕ) (p : Stays SyncSummary) : Prop where
  keeps : KeepsPause true id p
  located : Located id p

theorem located_syncClaimed (now : ℤ) (fetched : Fetched) :
    Located id (syncClaimed id now fetched) := by
  intro q hq
  by_cases hactive : Active q
  · exact Or.inl ⟨now, fetched, inside_self hq hactive⟩
  · exact Or.inr (keepsPause_of_not_active hactive)

theorem unclaimed_of_not_active {p : Stays SyncSummary} (h : ¬Active p) : Unclaimed id p :=
  ⟨keepsPause_of_not_active h, fun q hq => by
    rw [eq_of_residue h hq]
    exact Or.inr (keepsPause_of_not_active h)⟩

theorem unclaimed_receive {k : ℕ → Stays SyncSummary} (h : ∀ n, Unclaimed id (k n)) :
    Unclaimed id (receive >>= k) := by
  have hkeeps : KeepsPause true id (receive >>= k) :=
    Follows.receive fun s n => accepts_read fun _ => (h n).keeps
  refine ⟨hkeeps, fun q hq => ?_⟩
  obtain rfl | ⟨n, hn⟩ := residue_choose hq
  · exact Or.inr hkeeps
  · exact (h n).located q hn

theorem unclaimed_claim {now claimUntil : ℤ} {evenSyncing : Bool}
    {k : List Write → Stays SyncSummary} (hnil : Unclaimed id (k []))
    (hclaimed : ∀ ws ≠ [], Located id (k ws)) :
    Unclaimed id (Stays.update (claimCalendar id now claimUntil evenSyncing) >>= k) := by
  have hkeeps : KeepsPause true id
      (Stays.update (claimCalendar id now claimUntil evenSyncing) >>= k) :=
    Follows.writeRows (fun s => accepts_claim fun h => h.symm ▸ hnil.keeps) fun _ _ => trivial
  refine ⟨hkeeps, fun q hq => ?_⟩
  obtain rfl | ⟨s, hs⟩ | herr := residue_update hq
  · exact Or.inr hkeeps
  · by_cases hempty : claimCalendar id now claimUntil evenSyncing s = []
    · have hs : Residue (k (claimCalendar id now claimUntil evenSyncing s)) q := hs
      rw [hempty] at hs
      exact hnil.located q hs
    · exact hclaimed _ hempty q hs
  · rw [eq_of_residue (p := Program.throw _) not_false herr]
    exact Or.inr trivial

theorem unclaimed_syncCalendar (calendarId : ℕ) (force : Bool) (now : ℤ) (fetched : Fetched) :
    Unclaimed id (syncCalendar calendarId force now fetched) := by
  by_cases hid : calendarId = id
  · subst hid
    refine unclaimed_claim ?_ fun ws hws => ?_
    · rw [if_neg (not_not.mpr rfl)]
      split_ifs
      · refine unclaimed_receive fun later => unclaimed_claim ?_ fun ws hws => ?_
        · exact unclaimed_of_not_active not_false
        · rw [Program.require, if_pos hws]
          exact located_syncClaimed now fetched
      · exact unclaimed_of_not_active not_false
    · rw [if_pos hws]
      exact located_syncClaimed now fetched
  · have haloof : Aloof id _ := Aloof.of_ends (syncCalendar_aloof force now fetched hid)
    exact ⟨haloof.keepsPause, fun q hq => Or.inr (haloof.residue hq).keepsPause⟩

theorem syncDue_keeps (feed : ℕ → Fetched) (cal : StaysExternalCalendar) :
    Follows (pauseMonitor true id) (Leaves fun _ => True) (syncDue feed cal) () := by
  refine Follows.attempt (P := fun _ _ => True) (E := fun _ _ => True) ?_ (fun _ _ _ => trivial)
    fun _ _ _ => trivial
  refine Follows.receive fun s n => accepts_read fun _ => ?_
  exact (unclaimed_syncCalendar cal.id false n (feed cal.id)).keeps.ends.bind
    (fun _ _ _ => trivial) fun _ _ _ => trivial

theorem batch_keeps (feed : ℕ → Fetched) (due : List StaysExternalCalendar) :
    Follows (pauseMonitor true id) (Leaves fun _ => True) (forEach (syncDue feed) due) () :=
  Follows.forEach (fun _ => True) (fun cal _ _ _ => syncDue_keeps feed cal) trivial

/-- A pause is kept by what follows a sync. -/
theorem Within.keeps {q : Stays SyncSummary} {c : CalendarCall} {p : Stays CalendarAnswer}
    (hq : KeepsPause fails id q) (h : Within q c p) : KeepsPause fails id p := by
  cases h with
  | sync calendarId force now fetched =>
    exact Follows.map (Follows.mono (fun r _ _ => by cases r <;> trivial) hq)
  | batch now feeds rest =>
    have hrest : KeepsPause fails id (forEach (syncDue (feedOf feeds)) rest) :=
      (KeepsPause.of_ends (batch_keeps (feedOf feeds) rest)).unfailing
    have hsync : Follows (pauseMonitor fails id) (Leaves fun _ => True)
        (attempt (q >>= fun _ => pure ()) fun _ => pure ()) () :=
      Follows.attempt (P := fun _ _ => True) (E := fun _ _ => True)
        (hq.ends.bind (fun _ _ _ => trivial) fun _ _ _ => trivial) (fun _ _ _ => trivial)
        fun _ _ _ => trivial
    have hloop : Follows (pauseMonitor fails id) (Leaves fun _ => True)
        ((attempt (q >>= fun _ => pure ()) fun _ => pure ()).handle
          (fun _ => forEach (syncDue (feedOf feeds)) rest) .throw) () := by
      refine Follows.handle (hsync.mono fun r _ _ => ?_)
      cases r with
      | ok _ => exact hrest.ends
      | error e => trivial
    exact Follows.map (hloop.mono fun r _ _ => by cases r <;> trivial)

theorem Located.handle {β : Type} {p : Stays α} {f : α → Stays β} {g : StaysError → Stays β}
    (hp : Located id p) (hf : ∀ a, Located id (f a)) (hg : ∀ e, Located id (g e))
    (hkeeps : ∀ a, KeepsPause true id (f a)) (hthrows : ∀ e, KeepsPause true id (g e)) :
    Located id (p.handle f g) := by
  intro q hq
  obtain ⟨p', hp', rfl⟩ | ⟨a, -, ha⟩ | ⟨e, -, he⟩ := residue_handle hq
  · obtain ⟨now, fetched, hinside⟩ | hkept := hp p' hp'
    · exact Or.inl ⟨now, fetched, hinside.handle⟩
    · refine Or.inr (Follows.handle (Follows.mono (fun r g' _ => ?_) hkept))
      cases r with
      | ok a => exact hkeeps a
      | error e => exact hthrows e
  · exact hf a q ha
  · exact hg e q he

theorem located_of_not_active {p : Stays α} (h : ¬Active p) : Located id p := fun q hq => by
  rw [eq_of_residue h hq]
  exact Or.inr (keepsPause_of_not_active h)

/-- What is done with the result of a program changes nothing. -/
theorem Located.map {β : Type} {p : Stays α} (f : α → β) (h : Located id p) :
    Located id (f <$> p) :=
  h.handle (fun _ => located_of_not_active not_false) (fun _ => located_of_not_active not_false)
    (fun _ => trivial) fun _ => trivial

theorem located_syncDue (feed : ℕ → Fetched) (cal : StaysExternalCalendar) :
    Located id (syncDue feed cal) := by
  have hbody : Located id (do
      let started ← receive
      let _ ← syncCalendar cal.id false started (feed cal.id)
      pure ()) := by
    intro q hq
    obtain rfl | ⟨n, hn⟩ := residue_choose hq
    · refine Or.inr (Follows.receive fun s n => accepts_read fun _ => ?_)
      exact (unclaimed_syncCalendar cal.id false n (feed cal.id)).keeps.ends.bind
        (fun _ _ _ => trivial) fun _ _ _ => trivial
    · exact (unclaimed_syncCalendar cal.id false n (feed cal.id)).located.map (fun _ => ()) q hn
  exact hbody.handle (fun _ => located_of_not_active not_false)
    (fun _ => located_of_not_active not_false) (fun _ => trivial) fun _ => trivial

theorem located_batch (feed : ℕ → Fetched) (due : List StaysExternalCalendar) :
    Located id (forEach (syncDue feed) due) := by
  induction due with
  | nil => exact located_of_not_active not_false
  | cons cal due ih =>
    exact (located_syncDue feed cal).handle (fun _ => ih) (fun _ => located_of_not_active not_false)
      (fun _ => KeepsPause.of_ends (batch_keeps feed due)) fun _ => trivial

/-- At every point of a sync but those between its claim and its end, a pause is kept. -/
theorem located_program {c : CalendarCall} (hsync : c.IsSync) : Located id c.program := by
  cases c with
  | syncCalendar calendarId force now fetched =>
    exact (unclaimed_syncCalendar calendarId force now fetched).located.map CalendarAnswer.summary
  | processDueCalendars now feeds =>
    refine Located.map (p := processDueCalendars now (feedOf feeds)) _ fun q hq => ?_
    obtain rfl | ⟨s, hs⟩ | herr := residue_select hq
    · exact Or.inr (KeepsPause.of_ends (Follows.query
        (fun s => accepts_read fun _ => batch_keeps (feedOf feeds) (dueCalendars now s))
        fun _ _ => trivial))
    · exact located_batch (feedOf feeds) (dueCalendars now s) q hs
    · rw [eq_of_residue (p := Program.throw _) not_false herr]
      exact Or.inr trivial
  | updateCalendar | deleteCalendar | setHostAvailabilityBlock | isListingAvailable =>
    exact hsync.elim

/-- The program does not make the calendar `SYNCING`. -/
def quietMonitor (calendarId : ℕ) : Monitor Unit Store where
  rejects _ s s' := syncing s calendarId = false ∧ syncing s' calendarId = true
  next _ _ _ := some ()
  failed _ := some ()
  stopped _ := True

/-- The next statement is a claim of the calendar. -/
def AtClaim (id : ℕ) (p : Stays α) : Prop :=
  ∃ now claimUntil evenSyncing k err,
    p = Program.update (claimCalendar id now claimUntil evenSyncing) k err

/-- The next statement does not make the calendar `SYNCING`. -/
def Quiet (id : ℕ) (p : Stays α) : Prop :=
  ∀ free n s ses q ses' ws, Unbound ses → advance free n s ses p = some (q, ses', ws) →
    syncing (publish s ws) id = true → syncing s id = true

/-- At every point of the program nothing but a claim makes the calendar `SYNCING`. -/
def OnlyClaims (id : ℕ) (p : Stays α) : Prop := ∀ q, Residue p q → AtClaim id q ∨ Quiet id q

theorem quiet_of_not_active (h : ¬Active p) : Quiet id p := by
  intro free n s ses q ses' ws _ hstep
  exact absurd (Next.active (Or.inl ⟨free, n, s, ses, ses', ws, hstep⟩)) h

theorem onlyClaims_of_not_active (h : ¬Active p) : OnlyClaims id p := fun q hq => by
  rw [eq_of_residue h hq]
  exact Or.inr (quiet_of_not_active h)

theorem onlyClaims_of_follows {Q : Except StaysError α → Unit → Prop}
    (h : Follows (quietMonitor id) Q p ()) : OnlyClaims id p := by
  refine fun q hq => Or.inr fun free n s ses q' ses' ws hses hstep hafter => ?_
  have hleft : Follows (quietMonitor id) Q q () := follows_residue (fun _ _ => rfl) rfl h hq
  by_contra hbefore
  exact (hleft.advance hses hstep).1.1 ⟨Bool.eq_false_iff.mpr hbefore, hafter⟩

theorem OnlyClaims.handle {β : Type} {f : α → Stays β} {g : StaysError → Stays β}
    (hp : OnlyClaims id p) (hf : ∀ a, OnlyClaims id (f a)) (hg : ∀ e, OnlyClaims id (g e)) :
    OnlyClaims id (p.handle f g) := by
  intro q hq
  obtain ⟨p', hp', rfl⟩ | ⟨a, -, ha⟩ | ⟨e, -, he⟩ := residue_handle hq
  · by_cases hactive : Active p'
    · obtain ⟨now, claimUntil, evenSyncing, k, err, rfl⟩ | hquiet := hp p' hp'
      · exact Or.inl ⟨now, claimUntil, evenSyncing, _, _, rfl⟩
      · refine Or.inr fun free n s ses q ses' ws hses hstep => ?_
        obtain ⟨q', hq', -⟩ := advance_handle hactive hstep
        exact hquiet free n s ses q' ses' ws hses hq'
    · cases p' with
      | pure a => exact hf a _ .refl
      | throw e => exact hg e _ .refl
      | halt => exact Or.inr (quiet_of_not_active not_false)
      | _ => exact absurd trivial hactive
  · exact hf a q ha
  · exact hg e q he

theorem indifferent_quiet : Indifferent (quietMonitor id) fun _ => True := by
  constructor
  · intro R g s s' hsame _ hnext
    refine ⟨fun ⟨hbefore, hafter⟩ => ?_, fun g' _ => hnext g' trivial⟩
    rw [syncing_congr hsame] at hafter
    exact Bool.false_ne_true (hbefore.symm.trans hafter)
  · exact fun _ _ => trivial

theorem saveCalendar_quiet (hstatus : cal.status ≠ .syncing) :
    Follows (quietMonitor id) (Leaves fun _ => True) (saveCalendar cal) () := by
  refine query_follows indifferent_quiet trivial (fun stored _ _ => ?_) fun _ _ _ => trivial
  refine Follows.writeRows (fun s => ⟨fun h => ?_, fun _ _ => trivial⟩) fun _ _ => trivial
  obtain ⟨hbefore, hafter⟩ := h
  by_cases hid : cal.id = id
  · subst hid
    have hsyncing : syncing s cal.id = true := (syncing_save hstatus hafter).2
    exact Bool.false_ne_true (hbefore.symm.trans hsyncing)
  · have hrow := find?_save_of_ne (s := s) stored hid
    have hsame : syncing (publish s (saveWrites cal stored s)) id = syncing s id := by
      rw [syncing, hrow]
      rfl
    exact Bool.false_ne_true (hbefore.symm.trans (hsame.symm.trans hafter))

theorem syncClaimed_onlyClaims (now : ℤ) (fetched : Fetched) :
    OnlyClaims id (syncClaimed calendarId now fetched) := by
  have hquiet : Follows (quietMonitor id) (Leaves fun _ => True)
      (syncClaimed calendarId now fetched) () := by
    refine query_follows indifferent_quiet trivial (fun found _ _ => ?_) fun _ _ _ => trivial
    refine Follows.expect (fun cal _ => ?_) fun _ => trivial
    exact sync_follows indifferent_quiet indifferent_quiet
      (fun entity _ _ hstatus _ => saveCalendar_quiet hstatus) (fun _ h => h) now fetched trivial
  exact onlyClaims_of_follows hquiet

theorem onlyClaims_claim {now claimUntil : ℤ} {evenSyncing : Bool} {β : Type}
    {k : List Write → Stays β} (hk : ∀ ws, OnlyClaims id (k ws)) :
    OnlyClaims id (Stays.update (claimCalendar id now claimUntil evenSyncing) >>= k) := by
  intro q hq
  obtain rfl | ⟨s, hs⟩ | herr := residue_update hq
  · exact Or.inl ⟨now, claimUntil, evenSyncing, _, _, rfl⟩
  · exact hk _ q hs
  · rw [eq_of_residue (p := Program.throw _) not_false herr]
    exact Or.inr (quiet_of_not_active not_false)

theorem onlyClaims_receive {β : Type} {k : ℕ → Stays β} (hk : ∀ n, OnlyClaims id (k n)) :
    OnlyClaims id (receive >>= k) := by
  have hreceive : OnlyClaims id (receive : Stays ℕ) :=
    onlyClaims_of_follows (Q := fun _ _ => True) fun s n =>
      indifferent_quiet.idle rfl trivial fun _ _ => trivial
  exact hreceive.handle hk fun _ => onlyClaims_of_not_active not_false

theorem syncCalendar_onlyClaims (calendarId : ℕ) (force : Bool) (now : ℤ) (fetched : Fetched) :
    OnlyClaims id (syncCalendar calendarId force now fetched) := by
  by_cases hid : calendarId = id
  · subst hid
    refine onlyClaims_claim fun ws => ?_
    split_ifs
    · exact syncClaimed_onlyClaims now fetched
    · refine onlyClaims_receive fun later => onlyClaims_claim fun ws => ?_
      rw [Program.require]
      split_ifs
      · exact syncClaimed_onlyClaims now fetched
      · exact onlyClaims_of_not_active not_false
    · exact onlyClaims_of_not_active not_false
  · have hquiet : Follows (quietMonitor id) (Leaves fun _ => True)
        (syncCalendar calendarId force now fetched) () := by
      refine Follows.coarser (fun _ s s' => ?_) (fun _ _ _ _ _ => rfl) (fun _ _ _ => rfl)
        (fun _ _ => trivial) (syncCalendar_aloof force now fetched hid)
      rintro ⟨hs, hs'⟩ hsame
      rw [syncing, hsame] at hs'
      exact Bool.false_ne_true (hs.symm.trans hs')
    exact onlyClaims_of_follows hquiet

theorem batch_onlyClaims (feed : ℕ → Fetched) (due : List StaysExternalCalendar) :
    OnlyClaims id (forEach (syncDue feed) due) := by
  induction due with
  | nil => exact onlyClaims_of_not_active not_false
  | cons cal due ih =>
    have hbody : OnlyClaims id (receive >>= fun started =>
        syncCalendar cal.id false started (feed cal.id) >>= fun _ => (pure () : Stays Unit)) :=
      onlyClaims_receive fun started => (syncCalendar_onlyClaims cal.id false started _).handle
        (fun _ => onlyClaims_of_not_active not_false) fun _ => onlyClaims_of_not_active not_false
    have hsync : OnlyClaims id (syncDue feed cal) :=
      hbody.handle (fun _ => onlyClaims_of_not_active not_false)
        fun _ => onlyClaims_of_not_active not_false
    exact hsync.handle (fun _ => ih) fun _ => onlyClaims_of_not_active not_false

/-- Nothing that a sync does makes the calendar `SYNCING`, but its claims. -/
theorem program_onlyClaims {c : CalendarCall} (hsync : c.IsSync) : OnlyClaims id c.program := by
  have hthrow : ∀ e : StaysError, OnlyClaims id (.throw e : Stays CalendarAnswer) :=
    fun _ => onlyClaims_of_not_active not_false
  cases c with
  | syncCalendar calendarId force now fetched =>
    exact (syncCalendar_onlyClaims calendarId force now fetched).handle
      (fun _ => onlyClaims_of_not_active not_false) hthrow
  | processDueCalendars now feeds =>
    have hread : OnlyClaims id (Stays.read (dueCalendars now)) :=
      onlyClaims_of_follows (Q := fun _ _ => True)
        ⟨fun s => indifferent_quiet.idle rfl trivial fun _ _ => trivial, fun _ _ => trivial⟩
    have hbatch : OnlyClaims id (processDueCalendars now (feedOf feeds)) :=
      hread.handle (fun due => batch_onlyClaims (feedOf feeds) due)
        fun _ => onlyClaims_of_not_active not_false
    exact hbatch.handle (fun _ => onlyClaims_of_not_active not_false) hthrow
  | updateCalendar | deleteCalendar | setHostAvailabilityBlock | isListingAvailable =>
    exact hsync.elim

/-- The next statement of the call is a claim that finds the row of the calendar unlocked. -/
def ClaimsNext (id : ℕ) (s : Store) (t : CalendarThread) : Prop :=
  ∃ now claimUntil evenSyncing k err c,
    t.program = Program.update (claimCalendar id now claimUntil evenSyncing) k err ∧
    s.calendars.find? id = some c ∧ ∀ u ∈ c.lockedUntil, u < now

/-- A claim of a locked row writes nothing. -/
theorem claimCalendar_eq_nil {now claimUntil : ℤ} {evenSyncing : Bool}
    (h : ¬∃ c, s.calendars.find? id = some c ∧ ∀ u ∈ c.lockedUntil, u < now) :
    claimCalendar id now claimUntil evenSyncing s = [] := by
  cases hrow : s.calendars.find? id with
  | none =>
    rw [claimCalendar, hrow]
    rfl
  | some c =>
    have hlocked : ¬∀ u ∈ c.lockedUntil, u < now := fun hfree => h ⟨c, hrow, hfree⟩
    rw [claimCalendar, hrow, Option.filter_some, if_neg fun hclaims => hlocked ?_]
    · rfl
    · exact (of_decide_eq_true hclaims).1

/-- The end of a program that throws only if statements fail. -/
abbrev Unthrown {α : Type} (fails : Bool) : Except StaysError α → Unit → Prop :=
  Ends (fun _ _ => True) fun _ _ => fails = true

theorem keepsPause_of_steady {Q : Except StaysError α → Unit → Prop} {p : Stays α}
    (h : Follows (steadyMonitor fails id) Q p ()) : Follows (pauseMonitor fails id) Q p () := by
  have hrejects : ∀ g s s', (pauseMonitor fails id).rejects g s s' →
      (steadyMonitor fails id).rejects g s s' := fun _ _ _ h => ⟨h.1, h.2.1⟩
  have hnext : ∀ g s s', ∀ g' ∈ (pauseMonitor fails id).next g s s',
      g' ∈ (steadyMonitor fails id).next g s s' := fun _ _ _ _ _ => rfl
  exact Follows.coarser hrejects hnext (fun _ _ h => h) (fun _ _ => trivial) h

theorem steady_read {R : Unit → Prop} (hnext : R ()) :
    (steadyMonitor fails id).Accepts R () s s :=
  ⟨fun h => absurd h.1 (by simp [h.2]), fun _ _ => hnext⟩

theorem fails_of_failed : ∀ g ∈ (steadyMonitor fails id).failed (), fails = true := by
  cases fails with
  | true => exact fun _ _ => rfl
  | false => exact fun _ hg => absurd hg (by simp [steadyMonitor])

theorem row_of_paused (h : paused s id = true) :
    ∃ c, s.calendars.find? id = some c ∧ c.status = .paused := by
  cases hrow : s.calendars.find? id with
  | none => simp [paused, hrow] at h
  | some c => exact ⟨c, rfl, by simpa [paused, hrow] using h⟩

theorem writeLog_steady : Follows (steadyMonitor fails id) (Unthrown fails) writeLog () := by
  refine Follows.query (fun s => steady_read ?_) fails_of_failed
  refine Follows.query (fun s => steady_read ?_) fails_of_failed
  exact ⟨fun s => steady_read trivial, fails_of_failed⟩

/-- A save keeps a pause whose entity is paused, or has the status that the save has found. -/
theorem accepts_save {R : Unit → Prop} (stored : Option StaysExternalCalendar)
    (h : cal.status = .paused ∨ ∃ row, stored = some row ∧ cal.status = row.status)
    (hnext : R ()) :
    (steadyMonitor fails id).Accepts R () s (publish s (saveWrites cal stored s)) := by
  refine ⟨?_, fun _ _ => hnext⟩
  rintro ⟨hbefore, hafter⟩
  by_cases hid : cal.id = id
  · obtain ⟨c, hc, hcurrent⟩ := row_of_paused hbefore
    have hput : ∀ saved : StaysExternalCalendar, saved.id = id → saved.status = .paused →
        saveWrites cal stored s = [.calendar saved] → False := by
      intro saved hkey hstatus hwrites
      have hrow : (s.calendars.put saved).find? id = some saved := by
        rw [Table.find?_put, if_pos hkey.symm]
      rw [hwrites] at hafter
      simp [paused, storage_write, Store.write, hrow, hstatus] at hafter
    cases stored with
    | none =>
      obtain hpaused | ⟨row, hrow, -⟩ := h
      · exact hput cal hid hpaused rfl
      · simp at hrow
    | some row =>
      have hkey : c.id = id := Table.key_of_find? hc
      refine hput (savedRow cal row c) hkey ?_ (by simp [saveWrites, hid, hc])
      obtain hpaused | ⟨_, hrow, hsame⟩ := h
      · by_cases heq : cal.status = row.status
        · simp [savedRow, savedColumn, heq, hcurrent]
        · simp [savedRow, savedColumn, hpaused]
          exact fun _ => hcurrent
      · obtain rfl := Option.some.inj hrow
        simp [savedRow, savedColumn, hsame, hcurrent]
  · rw [paused_congr (find?_save_of_ne stored hid), hbefore] at hafter
    exact absurd hafter (by simp)

theorem settle_steady {entity row : StaysExternalCalendar} (summary : SyncSummary)
    (h : entity.status = row.status) :
    Follows (steadyMonitor fails id) (Unthrown fails) (settle entity row summary) () := by
  refine Follows.writeRows (fun s => accepts_save _ (Or.inr ⟨row, rfl, h⟩) ?_) fails_of_failed
  exact writeLog_steady.bind (fun _ _ _ => trivial) fun _ _ h => h

/-- Of a row that was read as paused nothing but the pause is restored. -/
theorem trySync_steady (now : ℤ) (hstatus : cal.status = .paused) :
    Follows (steadyMonitor fails id) (Unthrown fails) (trySync cal now .notModified) () := by
  have hsave : ∀ entity : StaysExternalCalendar, entity.status = .paused →
      Follows (steadyMonitor fails id) (Unthrown fails) (saveCalendar entity) () := by
    intro entity hentity
    refine Follows.query (fun s => steady_read ?_) fails_of_failed
    exact Follows.writeRows (fun s' => accepts_save (s.calendars.find? entity.id)
      (Or.inl hentity) trivial) fails_of_failed
  show Follows _ _ (finishSuccess cal _ true (if cal.status = .paused then .paused else .active) >>=
    fun _ => _) _
  rw [if_pos hstatus]
  refine Follows.bind (P := fun _ _ => True) (E := fun _ _ => fails = true) ?_
    (fun _ _ _ => trivial) fun _ _ h => h
  refine Follows.receive fun s _ => steady_read ?_
  refine Follows.receive fun s _ => steady_read ?_
  refine Follows.receive fun s _ => steady_read ?_
  exact (hsave _ rfl).bind (fun _ _ _ => writeLog_steady) fun _ _ h => h

/-- A `try` block that does not throw. -/
theorem attempt_keeps {p : Stays α} {h : StaysError → Stays α}
    (hp : Follows (pauseMonitor false id) (Unthrown false) p ()) :
    KeepsPause false id (attempt p h) :=
  Follows.attempt hp (fun _ _ _ => trivial) fun _ _ h => absurd h (by simp)

theorem AwaitsRow.keeps {t : CalendarThread} (h : AwaitsRow id t) :
    KeepsPause false id t.program := by
  obtain ⟨now, hwithin⟩ := h
  refine hwithin.keeps (Follows.query (fun s => accepts_read fun hs => ?_) nofun)
  obtain ⟨cal, hcal, hstatus⟩ := row_of_paused hs
  rw [hcal]
  exact attempt_keeps (keepsPause_of_steady (trySync_steady now hstatus))

theorem RestoresPause.keeps {t : CalendarThread} (h : RestoresPause id t) :
    KeepsPause false id t.program := by
  obtain ⟨now, cal, q, -, hstatus, hq, hwithin⟩ := h
  exact hwithin.keeps (attempt_keeps (keepsPause_of_steady
    (follows_remainder (fun _ _ => rfl) (trySync_steady now hstatus) hq)))

theorem HasSettled.keeps {t : CalendarThread} (h : HasSettled t) :
    KeepsPause false id t.program := by
  obtain ⟨entity, row, summary, cal, fetched, q, hstatus, hq, hwithin⟩ := h
  exact hwithin.keeps (attempt_keeps (keepsPause_of_steady
    (follows_remainder (fun _ _ => rfl) (settle_steady summary hstatus) hq)))

theorem HasFailed.keeps {t : CalendarThread} (h : HasFailed t) :
    KeepsPause true id t.program := by
  obtain ⟨entity, row, summary, q, hstatus, hq, hwithin⟩ := h
  exact hwithin.keeps (KeepsPause.of_ends (keepsPause_of_steady
    (follows_residue (fun _ _ => rfl) rfl (settle_steady summary hstatus) hq)))

/-- The places between a claim and the end of its sync where a pause may fall, if no statement
of the sync fails after it. -/
def Harmless (id : ℕ) (t : CalendarThread) : Prop :=
  AwaitsRow id t ∨ RestoresPause id t ∨ HasSettled t ∨ HasFailed t

theorem Harmless.keeps {t : CalendarThread} (h : Harmless id t) :
    KeepsPause false id t.program := by
  obtain h | h | h | h := h
  · exact h.keeps
  · exact h.keeps
  · exact h.keeps
  · exact h.keeps.unfailing

end NexaStays.PausePlaces
