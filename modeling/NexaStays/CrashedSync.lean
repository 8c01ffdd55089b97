import NexaStays.CalendarCalls
import NexaStays.SyncMonitors

/-!
# Syncs that stop half-way

A claim leaves its calendar `SYNCING`, and only the save at the end of the sync gives it
another status. A calendar that is `SYNCING` has a sync that is bound to save it, until a
process stops in between.
-/
namespace NexaStays.CrashedSync

open NexaStays.KeyedTable NexaStays.Transactions NexaStays.Database NexaStays.HostCalendar
  NexaStays.CalendarSync NexaStays.SoloRuns NexaStays.ImportEffects NexaStays.CalendarCalls
  NexaStays.Monitors NexaStays.SyncMonitors

def syncing (s : Store) (calendarId : ℕ) : Bool :=
  (s.calendars.find? calendarId).any fun c => c.status = .syncing

/-- A program that makes the calendar `SYNCING` owes another status; so does one that is
about to give it another status, while the calendar is `SYNCING`. -/
def claimMonitor (calendarId : ℕ) : Monitor Bool Store where
  rejects _ _ _ := False
  next owes s s' := some (syncing s' calendarId && (owes || !syncing s calendarId))
  failed _ := some false
  stopped owes := owes = false

/-- The program is bound to give a calendar that is `SYNCING` another status. -/
def Owes {α : Type} (calendarId : ℕ) (p : Stays α) : Prop :=
  Follows (claimMonitor calendarId) (fun _ owes => owes = false) p true

variable {id : ℕ} {s s' : Store} {owes : Bool} {cal : StaysExternalCalendar} {P : Prop}

theorem syncing_congr (h : s'.calendars = s.calendars) : syncing s' id = syncing s id := by
  rw [syncing, h]
  rfl

theorem owes_of_settled (h : owes = false) : owes = true → P := by
  simp [h]

/-- An obligation that `P` goes with does not arise where the calendar stays as it is. -/
theorem indifferent_owing (P : Prop) :
    Indifferent (claimMonitor id) fun owes => owes = true → P := by
  constructor
  · intro R owes s s' hsame howes hnext
    refine ⟨fun h => h, fun owes' h => hnext owes' ?_⟩
    obtain rfl := Option.some.inj h
    rw [syncing_congr hsame]
    intro htrue
    apply howes
    revert htrue
    cases syncing s id <;> cases owes <;> simp
  · intro owes owes' _ h
    exact owes_of_settled (Option.some.inj h).symm

theorem indifferent_settled : Indifferent (claimMonitor id) fun owes => owes = false := by
  have h : Indifferent (claimMonitor id) fun owes => owes = true → False := indifferent_owing False
  simpa only [imp_false, Bool.not_eq_true] using h

theorem syncing_put (s : Store) (c : StaysExternalCalendar) (id : ℕ) :
    syncing (publish s [.calendar c]) id =
      if id = c.id then decide (c.status = .syncing) else syncing s id := by
  show ((s.calendars.put c).find? id).any _ = _
  rw [Table.find?_put]
  split_ifs with h
  · rfl
  · rfl

/-- What a save writes over the row that it read. -/
def saveWrites (cal : StaysExternalCalendar) (stored : Option StaysExternalCalendar) (s : Store) :
    List Write :=
  match stored with
  | none => [.calendar cal]
  | some row => (s.calendars.find? cal.id).toList.map fun c => .calendar (savedRow cal row c)

/-- A save leaves the other calendars alone. -/
theorem find?_save_of_ne (stored : Option StaysExternalCalendar) (hid : cal.id ≠ id) :
    (publish s (saveWrites cal stored s)).calendars.find? id = s.calendars.find? id := by
  have hput : ∀ c : StaysExternalCalendar, c.id = cal.id →
      (s.calendars.put c).find? id = s.calendars.find? id :=
    fun c hc => Table.find?_put_of_ne fun heq => hid (hc.symm.trans heq.symm)
  cases stored with
  | none => exact hput cal rfl
  | some row =>
    unfold saveWrites
    cases hrow : s.calendars.find? cal.id with
    | none => rfl
    | some c =>
      have hc : c.id = cal.id := Table.key_of_find? hrow
      exact hput (savedRow cal row c) hc

/-- A save leaves a calendar `SYNCING` only if it read it with another status. -/
theorem syncing_save {stored : Option StaysExternalCalendar} (hstatus : cal.status ≠ .syncing)
    (h : syncing (publish s (saveWrites cal stored s)) cal.id = true) :
    (∃ row, stored = some row ∧ row.status ≠ .syncing) ∧ syncing s cal.id = true := by
  cases stored with
  | none =>
    rw [saveWrites, syncing_put, if_pos rfl] at h
    exact absurd (of_decide_eq_true h) hstatus
  | some row =>
    cases hrow : s.calendars.find? cal.id with
    | none =>
      simp [saveWrites, hrow, syncing] at h
    | some c =>
      have hid : cal.id = (savedRow cal row c).id := (Table.key_of_find? hrow).symm
      simp only [saveWrites, hrow, Option.toList_some, List.map_cons, List.map_nil] at h
      rw [syncing_put, if_pos hid] at h
      have hsaved : savedColumn cal.status row.status c.status = .syncing := of_decide_eq_true h
      unfold savedColumn at hsaved
      split_ifs at hsaved with heq
      · refine ⟨⟨row, rfl, heq ▸ hstatus⟩, ?_⟩
        simp [syncing, hrow, hsaved]
      · exact absurd hsaved hstatus

/-- The end of an obligation, whatever is returned or thrown. -/
abbrev Settled {α : Type} : Except StaysError α → Bool → Prop := Leaves fun owes => owes = false

/-- A save with another status settles the calendar. -/
theorem saveCalendar_settles (hstatus : cal.status ≠ .syncing) (howes : owes = true → cal.id = id) :
    Follows (claimMonitor id) Settled (saveCalendar cal) owes := by
  refine Follows.query (fun s => ⟨fun h => h, fun owes₁ h₁ => ?_⟩)
    fun owes' h => (Option.some.inj h).symm
  refine Follows.writeRows (fun s' => ⟨fun h => h, fun owes₂ h₂ => ?_⟩)
    fun owes' h => (Option.some.inj h).symm
  obtain rfl := Option.some.inj h₁
  obtain rfl := Option.some.inj h₂
  show (syncing (publish s' (saveWrites cal (s.calendars.find? cal.id) s')) id && _) = false
  by_cases hid : cal.id = id
  · subst hid
    cases hafter : syncing (publish s' (saveWrites cal (s.calendars.find? cal.id) s')) cal.id with
    | false => rfl
    | true =>
      obtain ⟨⟨row, hrow, hother⟩, hbefore⟩ := syncing_save hstatus hafter
      have hread : syncing s cal.id = false := by simp [syncing, hrow, hother]
      simp [hread, hbefore]
  · have hnot : owes = false := by
      cases howes' : owes with
      | false => rfl
      | true => exact absurd (howes howes') hid
    have hkept : syncing (publish s' (saveWrites cal (s.calendars.find? cal.id) s')) id =
        syncing s' id := by
      rw [syncing, find?_save_of_ne _ hid]
      rfl
    rw [hkept, hnot]
    cases syncing s id <;> cases syncing s' id <;> rfl

/-- A sync that has its claim is bound to settle it. -/
theorem syncClaimed_settles {calendarId : ℕ} (now : ℤ) (fetched : Fetched)
    (howes : owes = true → calendarId = id) :
    Follows (claimMonitor id) Settled (syncClaimed calendarId now fetched) owes := by
  refine Follows.query (fun s => ⟨fun h => h, fun owes₁ h₁ => ?_⟩)
    fun _ h => (Option.some.inj h).symm
  obtain rfl := Option.some.inj h₁
  cases hrow : s.calendars.find? calendarId with
  | none =>
    show (syncing s id && (owes || !syncing s id)) = false
    by_cases hid : calendarId = id
    · have hgone : syncing s id = false := by simp [syncing, ← hid, hrow]
      simp [hgone]
    · have hnot : owes = false := by
        cases hvalue : owes with
        | false => rfl
        | true => exact absurd (howes hvalue) hid
      cases hs : syncing s id <;> simp [hnot]
  | some cal =>
    have hcal : cal.id = calendarId := Table.key_of_find? hrow
    have howes₁ : (syncing s id && (owes || !syncing s id)) = true → cal.id = id := by
      intro h
      rw [hcal]
      apply howes
      revert h
      cases syncing s id <;> cases owes <;> simp
    exact sync_follows (indifferent_owing (cal.id = id)) indifferent_settled
      (fun entity owes hentity hstatus howes =>
        saveCalendar_settles hstatus fun h => hentity.trans (howes h))
      (fun owes h => owes_of_settled h) now fetched howes₁

/-- A claim of another calendar. -/
theorem syncing_claim_of_ne {calendarId : ℕ} {now claimUntil : ℤ} {evenSyncing : Bool}
    (hid : calendarId ≠ id) :
    syncing (publish s (claimCalendar calendarId now claimUntil evenSyncing s)) id =
      syncing s id := by
  obtain hnil | ⟨c, hrow, hclaim⟩ := claimCalendar_cases calendarId now claimUntil evenSyncing s
  · rw [hnil]
    rfl
  · have hne : id ≠ c.id := fun h => hid ((Table.key_of_find? hrow).symm.trans h.symm)
    rw [hclaim, syncing_put, if_neg hne]

/-- The obligation after a claim by a program that had none. -/
theorem accepts_claim {calendarId : ℕ} {now claimUntil : ℤ} {evenSyncing : Bool}
    {R : Bool → Prop}
    (hnil : claimCalendar calendarId now claimUntil evenSyncing s = [] → R false)
    (hclaim : claimCalendar calendarId now claimUntil evenSyncing s ≠ [] →
      ∀ owes : Bool, (owes = true → calendarId = id) → R owes) :
    (claimMonitor id).Accepts R false s
      (publish s (claimCalendar calendarId now claimUntil evenSyncing s)) := by
  refine ⟨fun h => h, fun owes h => ?_⟩
  obtain rfl := Option.some.inj h
  by_cases hempty : claimCalendar calendarId now claimUntil evenSyncing s = []
  · rw [hempty]
    cases hs : syncing s id <;> simpa [hs] using hnil hempty
  · apply hclaim hempty
    intro htrue
    by_contra hid
    rw [syncing_claim_of_ne hid] at htrue
    revert htrue
    cases syncing s id <;> simp

/-- A sync settles what it claims. -/
theorem syncCalendar_settles (calendarId : ℕ) (force : Bool) (now : ℤ) (fetched : Fetched) :
    Follows (claimMonitor id) Settled (syncCalendar calendarId force now fetched) false := by
  have hfailed : ∀ owes ∈ (claimMonitor id).failed false, owes = false :=
    fun owes h => (Option.some.inj h).symm
  refine Follows.writeRows (fun s => accepts_claim (fun hnil => ?_) fun hclaim owes h => ?_) hfailed
  · rw [if_neg (not_not.mpr hnil)]
    split_ifs
    · refine receive_follows indifferent_settled rfl fun later owes h => ?_
      obtain rfl : owes = false := h
      refine Follows.writeRows (fun s => accepts_claim (fun hnil => ?_) fun hclaim owes h => ?_)
        hfailed
      · rw [hnil]
        rfl
      · exact Follows.require (fun _ => syncClaimed_settles now fetched h)
          fun hnot => absurd hclaim hnot
    · rfl
  · rw [if_pos hclaim]
    exact syncClaimed_settles now fetched h

theorem processDueCalendars_settles (now : ℤ) (feed : ℕ → Fetched) :
    Follows (claimMonitor id) Settled (processDueCalendars now feed) false := by
  refine query_follows indifferent_settled rfl (fun due owes h => ?_) fun _ _ h => h
  obtain rfl : owes = false := h
  refine Follows.forEach (fun owes => owes = false) (fun cal _ owes h => ?_) rfl
  rw [h]
  refine Follows.attempt (P := fun _ owes => owes = false) (E := fun _ owes => owes = false) ?_
    (fun _ _ h => h) fun _ _ h => h
  refine receive_follows indifferent_settled rfl fun started owes h => ?_
  obtain rfl : owes = false := h
  exact (syncCalendar_settles cal.id false started (feed cal.id)).bind (fun _ _ h => h)
    fun _ _ h => h

theorem program_settles {c : CalendarCall} (hsync : c.IsSync) :
    Follows (claimMonitor id) (fun _ owes => owes = false) c.program false := by
  cases c with
  | syncCalendar calendarId force now fetched =>
    exact Follows.map ((syncCalendar_settles calendarId force now fetched).mono fun r _ h => by
      cases r <;> exact h)
  | processDueCalendars now feeds =>
    exact Follows.map ((processDueCalendars_settles now (feedOf feeds)).mono fun r _ h => by
      cases r <;> exact h)
  | updateCalendar | deleteCalendar | setHostAvailabilityBlock | isListingAvailable =>
    exact hsync.elim

/-- A sync is bound to give the calendar another status. -/
def Covered (id : ℕ) (sys : CalendarSystem) : Prop :=
  ∃ t ∈ sys.threads, t.call.IsSync ∧ Owes id t.program

/-- No process stops, and no statement fails for good, while its sync is the only one that
is bound to settle the calendar; and nobody else makes a calendar `SYNCING`. -/
def Settles (id : ℕ) (sys : CalendarSystem) (a : Action) : Prop :=
  ∀ sys', sys.step a = some sys' →
    ((∀ i n, a ≠ .run i n) → Covered id sys → Covered id sys') ∧
    ((∀ c ∈ sys.caller a, ¬c.IsSync) → syncing sys'.store id = true →
      syncing sys.store id = true)

/-- What is left of a sync settles the calendar if it owes that. -/
def Tracked (id : ℕ) (t : Thread CalendarCall Store Key Write StaysError CalendarAnswer) : Prop :=
  t.call.IsSync → Unbound t.session ∧
    ∃ owes, Follows (claimMonitor id) (fun _ owes => owes = false) t.program owes

/-- The invariant: a calendar that is `SYNCING` has a sync that settles it. -/
structure Inv (id : ℕ) (sys : CalendarSystem) : Prop where
  tracked : ∀ t ∈ sys.threads, Tracked id t
  covered : syncing sys.store id = true → Covered id sys

theorem inv_start (calls : List CalendarCall) (h : syncing s id = false) :
    Inv id (start s calls) := by
  constructor
  · intro t ht hsync
    obtain ⟨c, -, rfl⟩ := List.mem_map.mp ht
    exact ⟨unbound_idle, false, program_settles hsync⟩
  · intro hsyncing
    exact absurd hsyncing (by simp [start, h])

/-- The residue of a sync after its step. -/
theorem tracked_step {sys : CalendarSystem} {a : Action}
    {t : Thread CalendarCall Store Key Write StaysError CalendarAnswer} {p : Stays CalendarAnswer}
    {ses : Session Key Write} {ws : List Write} (ht : Tracked id t)
    (hmove : sys.move t a = some (p, ses, ws)) : Tracked id ⟨t.call, ses, p⟩ := by
  intro hsync
  obtain ⟨hses, owes, hfollows⟩ := ht hsync
  cases a with
  | run i n =>
    obtain ⟨haccepts, hses'⟩ := hfollows.advance hses hmove
    exact ⟨hses', _, haccepts.2 _ rfl⟩
  | fail i =>
    obtain ⟨hfailed, hses', -⟩ := hfollows.failing hses hmove
    exact ⟨hses', false, hfailed false rfl⟩
  | crash i =>
    obtain ⟨rfl, rfl, -⟩ : Program.halt = p ∧ Session.idle = ses ∧ [] = ws := by
      simpa [System.move] using hmove
    exact ⟨unbound_idle, false, rfl⟩

theorem inv_step {sys sys' : CalendarSystem} {a : Action} (h : Inv id sys)
    (hmeets : Settles id sys a) (hstep : sys.step a = some sys') : Inv id sys' := by
  obtain ⟨hkept, hothers⟩ := hmeets sys' hstep
  obtain ⟨t, p, ses, ws, ht, hmove, hsys'⟩ := System.step_eq_some.mp hstep
  have hmem : t ∈ sys.threads := List.mem_of_getElem? ht
  constructor
  · intro u hu
    rw [hsys'] at hu
    obtain hold | rfl := List.mem_or_eq_of_mem_set hu
    · exact h.tracked u hold
    · exact tracked_step (h.tracked t hmem) hmove
  · intro hafter
    have hstays : ∀ u ∈ sys.threads, u.call.IsSync → Owes id u.program → u ≠ t →
        Covered id sys' := by
      intro u hu hsync howes hne
      refine ⟨u, ?_, hsync, howes⟩
      rw [hsys']
      exact (mem_threads_set ht hu).resolve_left hne
    have hmoved : t.call.IsSync → Owes id p → Covered id sys' := by
      intro hsync howes
      refine ⟨⟨t.call, ses, p⟩, ?_, hsync, howes⟩
      rw [hsys']
      exact mem_threads_self ht
    rw [hsys'] at hafter
    cases a with
    | run i n =>
      by_cases hbefore : syncing sys.store id = true
      · obtain ⟨u, hu, hsync, howes⟩ := h.covered hbefore
        by_cases hut : u = t
        · subst hut
          have hnext := (howes.advance (h.tracked u hu hsync).1 hmove).1.2 _ rfl
          rw [hafter] at hnext
          exact hmoved hsync hnext
        · exact hstays u hu hsync howes hut
      · by_cases hsync : t.call.IsSync
        · obtain ⟨hses, owes, hfollows⟩ := h.tracked t hmem hsync
          have hnext := (hfollows.advance hses hmove).1.2 _ rfl
          rw [hafter, Bool.eq_false_iff.mpr hbefore] at hnext
          simp only [Bool.not_false, Bool.or_true, Bool.and_true] at hnext
          exact hmoved hsync hnext
        · have hcaller : sys.caller (.run i n) = some t.call :=
            System.caller_eq (System.published_eq_some.mpr ⟨t, p, ses, ht, rfl, hmove⟩)
          refine absurd (hothers (fun c hc => ?_) (by rw [hsys']; exact hafter)) hbefore
          obtain rfl : t.call = c := Option.some.inj (hcaller.symm.trans hc)
          exact hsync
    | fail i =>
      rw [failing_writes hmove] at hafter
      exact hkept (by simp) (h.covered hafter)
    | crash i =>
      obtain rfl : [] = ws := (Prod.mk.inj (Prod.mk.inj (Option.some.inj hmove)).2).2
      exact hkept (by simp) (h.covered hafter)

/-- What the scheduler asks of a calendar. -/
def Waiting (now : ℤ) (c : StaysExternalCalendar) : Prop :=
  c.status ≠ .paused ∧ (∀ u ∈ c.lockedUntil, u < now) ∧ c.nextSyncAt ≤ now

instance (now : ℤ) (c : StaysExternalCalendar) : Decidable (Waiting now c) :=
  inferInstanceAs (Decidable (_ ∧ (∀ u ∈ c.lockedUntil, u < now) ∧ _))

/-- The scheduler selects the calendar, and its claim succeeds. -/
def Recovered (now : ℤ) (s : Store) (c : StaysExternalCalendar) : Prop :=
  c ∈ dueCalendars now s ∧ claimCalendar c.id now (now + claimMs) false s ≠ []

/-- A calendar that is `SYNCING` is neither selected nor claimed, at any instant. -/
theorem stuck_of_syncing {c : StaysExternalCalendar} (hrow : s.calendars.find? c.id = some c)
    (h : c.status = .syncing) (now : ℤ) :
    c ∉ dueCalendars now s ∧ claimCalendar c.id now (now + claimMs) false s = [] := by
  constructor
  · intro hselected
    have hmem := List.mem_mergeSort.mp (List.mem_of_mem_take hselected)
    have hisDue := (List.mem_filter.mp hmem).2
    simp [isDue, h] at hisDue
  · simp [claimCalendar, hrow, h]

/-- With a batch that is not full, what waits is recovered exactly if it is not `SYNCING`. -/
theorem recovered_iff {now : ℤ} {c : StaysExternalCalendar}
    (hrow : s.calendars.find? c.id = some c) (hwaiting : Waiting now c)
    (hbatch : (s.calendars.rows.filter (isDue now)).length ≤ batchLimit) :
    Recovered now s c ↔ syncing s c.id = false := by
  obtain ⟨hpaused, hlock, hdue⟩ := hwaiting
  have hall : dueCalendars now s = (s.calendars.rows.filter (isDue now)).mergeSort
      fun a b => a.nextSyncAt ≤ b.nextSyncAt := by
    apply List.take_of_length_le
    rwa [List.length_mergeSort]
  have hstatus : syncing s c.id = false ↔ c.status ≠ .syncing := by
    simp [syncing, hrow]
  rw [hstatus]
  constructor
  · intro hrecovered hsyncing
    exact (stuck_of_syncing hrow hsyncing now).1 hrecovered.1
  · intro hsyncing
    constructor
    · rw [hall, List.mem_mergeSort]
      refine List.mem_filter.mpr ⟨Table.mem_of_find? hrow, ?_⟩
      have hactive : c.status = .active ∨ c.status = .error := by
        cases hs : c.status <;> simp_all
      simpa [isDue, hdue, hactive] using hlock
    · have hclaims : (∀ u ∈ c.lockedUntil, u < now) ∧ (False ∨ c.status ≠ .syncing) :=
        ⟨hlock, Or.inr hsyncing⟩
      simpa [claimCalendar, hrow] using hclaims

/-- In a state of a run in which no claim is abandoned, a calendar that waits and that no
sync is about to settle is recovered by the scheduler. -/
theorem crashed_sync_recovered {calls : List CalendarCall} {sys : CalendarSystem} {now : ℤ}
    {c : StaysExternalCalendar} (hstart : syncing s c.id = false)
    (hrun : System.Run (Settles c.id) (start s calls) sys) (hidle : ¬Covered c.id sys)
    (hrow : sys.store.calendars.find? c.id = some c) (hwaiting : Waiting now c)
    (hbatch : (sys.store.calendars.rows.filter (isDue now)).length ≤ batchLimit) :
    Recovered now sys.store c := by
  have hinv : Inv c.id sys :=
    hrun.invariant (fun _ _ _ h hmeets hstep => inv_step h hmeets hstep) (inv_start calls hstart)
  rw [recovered_iff hrow hwaiting hbatch]
  exact Bool.eq_false_iff.mpr fun hsyncing => hidle (hinv.covered hsyncing)

/-- Nothing is left to do. -/
def ended {α : Type} : Stays α → Bool
  | .pure _ | .throw _ | .halt => true
  | _ => false

theorem not_covered_of_ended {sys : CalendarSystem}
    (h : (sys.threads.all fun t => ended t.program) = true) : ¬Covered id sys := by
  rintro ⟨t, ht, -, howes⟩
  have hended : ended t.program = true := List.all_eq_true.mp h t ht
  cases hp : t.program with
  | pure | throw | halt =>
    rw [hp] at howes
    exact absurd howes (by simp [Owes, Follows, claimMonitor])
  | _ => simp [ended, hp] at hended

/-- A statement of a sync, which does not fail. -/
def SyncRuns (sys : CalendarSystem) : Action → Prop
  | .run i n => ∃ c ∈ sys.caller (.run i n), c.IsSync
  | .fail _ | .crash _ => False

instance (sys : CalendarSystem) : ∀ a, Decidable (SyncRuns sys a)
  | .run i n => inferInstanceAs (Decidable (∃ c ∈ sys.caller (.run i n), c.IsSync))
  | .fail _ | .crash _ => inferInstanceAs (Decidable False)

theorem settles_of_syncRuns (id : ℕ) (sys : CalendarSystem) (a : Action) (h : SyncRuns sys a) :
    Settles id sys a := by
  intro sys' _
  cases a with
  | run i n =>
    constructor
    · exact fun hrun => absurd rfl (hrun i n)
    · intro hothers
      obtain ⟨c, hc, hsync⟩ := h
      exact absurd hsync (hothers c hc)
  | fail i => exact h.elim
  | crash i => exact h.elim

def sampleSyncCall : CalendarCall := .syncCalendar 1 false 0 .notModified

/-- Later than the lock of a sync at the instant zero, and than the next sync after it. -/
def afterwards : ℤ := 10 * claimMs

theorem exists_ended (ok : CalendarSystem → Action → Prop) [∀ sys a, Decidable (ok sys a)]
    (as : List Action) (status : CalendarStatus)
    (h : (System.exec ok (start (sampleCalendars [] []) [sampleSyncCall]) as).any (fun sys =>
      (sys.threads.all fun t => ended t.program) && (sys.store.calendars.find? 1).any fun c =>
        decide (c.status = status ∧ Waiting afterwards c) &&
        decide ((sys.store.calendars.rows.filter (isDue afterwards)).length ≤ batchLimit)) =
      true) :
    ∃ sys c, System.Run ok (start (sampleCalendars [] []) [sampleSyncCall]) sys ∧ c.id = 1 ∧
      ¬Covered c.id sys ∧ sys.store.calendars.find? c.id = some c ∧ c.status = status ∧
      Waiting afterwards c ∧
      (sys.store.calendars.rows.filter (isDue afterwards)).length ≤ batchLimit := by
  obtain ⟨sys, hrun, hp⟩ := exists_calendarRun _ _ _ _ _ h
  obtain ⟨hended, hany⟩ := Bool.and_eq_true_iff.mp hp
  cases hrow : sys.store.calendars.find? 1 with
  | none => simp [hrow] at hany
  | some c =>
    have hid : c.id = 1 := Table.key_of_find? hrow
    rw [hrow, Option.any_some, Bool.and_eq_true_iff, decide_eq_true_eq, decide_eq_true_eq] at hany
    exact ⟨sys, c, hrun, hid, not_covered_of_ended hended, by rw [hid, hrow], hany.1.1, hany.1.2,
      hany.2⟩

/-- A sync that comes to its end leaves a calendar that the scheduler recovers. -/
theorem crashed_sync_recovered_ended : ∃ sys c,
    System.Run (Settles c.id) (start (sampleCalendars [] []) [sampleSyncCall]) sys ∧
      Recovered afterwards sys.store c := by
  obtain ⟨sys, c, hrun, hid, hidle, hrow, -, hwaiting, hbatch⟩ := exists_ended SyncRuns
    (System.turns 0 1 10) .active (by decide +kernel)
  have hsettles := hrun.mono (settles_of_syncRuns c.id)
  have hstart : syncing (sampleCalendars [] []) c.id = false := by
    rw [hid]
    decide +kernel
  exact ⟨sys, c, hsettles, crashed_sync_recovered hstart hsettles hidle hrow hwaiting hbatch⟩

/-- The process stops after its claim: the calendar waits for ever. -/
theorem crashed_sync_stuck : ∃ sys c, System.Run (fun _ _ => True)
      (start (sampleCalendars [] []) [sampleSyncCall]) sys ∧ ¬Covered c.id sys ∧
    sys.store.calendars.find? c.id = some c ∧ Waiting afterwards c ∧
    ∀ now, c ∉ dueCalendars now sys.store ∧
      claimCalendar c.id now (now + claimMs) false sys.store = [] := by
  obtain ⟨sys, c, hrun, -, hidle, hrow, hstatus, hwaiting, -⟩ := exists_ended (fun _ _ => True)
    [.run 0 1, .crash 0] .syncing (by decide +kernel)
  exact ⟨sys, c, hrun, hidle, hrow, hwaiting, stuck_of_syncing hrow hstatus⟩

end NexaStays.CrashedSync
