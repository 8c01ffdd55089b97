import NexaStays.PausePlaces

/-!
# A host's pause

A pause survives where it falls on no sync between its claim and its end, or at a place that
is harmless, and no claim comes after it.
-/
namespace NexaStays.PausedCalendar

open NexaStays.KeyedTable NexaStays.Transactions NexaStays.Database NexaStays.HostCalendar
  NexaStays.CalendarSync NexaStays.SoloRuns NexaStays.ImportEffects NexaStays.CalendarCalls
  NexaStays.Monitors NexaStays.SyncMonitors NexaStays.CrashedSync NexaStays.Phases
  NexaStays.Residues NexaStays.PausePlaces

variable {id : ℕ} {s : Store}

/-- While the calendar is paused no sync runs a claim that finds it unlocked; when the calendar
becomes paused, each sync of it that is between its claim and its end stands at a harmless place;
and no statement of such a sync fails during the pause, unless it has failed and settled the
row. -/
structure Spares (id : ℕ) (sys : CalendarSystem) (a : Action) (sys' : CalendarSystem) : Prop where
  claims : ∀ i n, a = .run i n → paused sys.store id = true → ∀ t, sys.threads[i]? = some t →
    t.call.IsSync → ¬ClaimsNext id sys.store t
  pauses : paused sys.store id = false → paused sys'.store id = true →
    ∀ t ∈ sys'.threads, Claiming id t → Harmless id t
  fails : ∀ i, a = .fail i → paused sys.store id = true → ∀ t, sys.threads[i]? = some t →
    Claiming id t → HasFailed t

def RespectsPause (id : ℕ) (sys : CalendarSystem) (a : Action) : Prop :=
  ∀ sys', sys.step a = some sys' → Spares id sys a sys'

/-- Where a sync may stand. -/
def Stands (id : ℕ) (t : CalendarThread) : Prop :=
  Tracked id t ∧ (t.call.IsSync → Residue t.call.program t.program ∨ t.program = .halt)

/-- A sync that is not between its claim and its end keeps a pause. -/
theorem Stands.keeps {t : CalendarThread} (h : Stands id t) (hsync : t.call.IsSync)
    (hclaiming : ¬Claiming id t) : KeepsPause true id t.program := by
  obtain hresidue | hhalt := h.2 hsync
  · obtain hinside | hkeeps := located_program hsync t.program hresidue
    · exact absurd ⟨hsync, hinside⟩ hclaiming
    · exact hkeeps
  · rw [hhalt]
    trivial

/-- Of a sync nothing but a claim of an unlocked row makes it `SYNCING`. -/
theorem Stands.unclaimed {t : CalendarThread} (h : Stands id t) (hsync : t.call.IsSync)
    (hclaim : ¬ClaimsNext id s t) {free : Key → Bool} {n : ℕ} {p : Stays CalendarAnswer}
    {ses : Session Key Write} {ws : List Write}
    (hstep : advance free n s t.session t.program = some (p, ses, ws))
    (hbefore : syncing s id = false) : syncing (publish s ws) id = false := by
  have hses : Unbound t.session := (h.1 hsync).1
  have hplace : AtClaim id t.program ∨ Quiet id t.program := by
    obtain hresidue | hhalt := h.2 hsync
    · exact program_onlyClaims hsync t.program hresidue
    · rw [hhalt]
      exact Or.inr (quiet_of_not_active not_false)
  obtain ⟨now, claimUntil, evenSyncing, k, err, hprogram⟩ | hquiet := hplace
  · have hnil : claimCalendar id now claimUntil evenSyncing s = [] :=
      claimCalendar_eq_nil fun ⟨c, hrow, hfree⟩ =>
        hclaim ⟨now, claimUntil, evenSyncing, k, err, c, hprogram, hrow, hfree⟩
    rw [hprogram] at hstep
    simp only [advance, hses.view, hses.visible, hnil, Option.ite_none_right_eq_some,
      Option.some.injEq, Prod.mk.injEq] at hstep
    obtain ⟨-, -, -, rfl⟩ := hstep
    exact hbefore
  · by_contra hafter
    exact Bool.false_ne_true (hbefore.symm.trans
      (hquiet free n s t.session p ses ws hses hstep (Bool.not_eq_false _ ▸ hafter)))

theorem stands_step {sys : CalendarSystem} {a : Action} {t : CalendarThread}
    {p : Stays CalendarAnswer} {ses : Session Key Write} {ws : List Write} (h : Stands id t)
    (hmove : sys.move t a = some (p, ses, ws)) : Stands id ⟨t.call, ses, p⟩ := by
  refine ⟨tracked_step h.1 hmove, fun hsync => ?_⟩
  obtain hnext | hhalt := next_of_move hmove
  · obtain hresidue | hhalt := h.2 hsync
    · exact Or.inl (hresidue.tail hnext)
    · rw [hhalt] at hnext
      exact (Next.active hnext).elim
  · exact Or.inr hhalt

/-- The invariant: syncs keep a pause that is there. -/
structure PauseInv (id : ℕ) (sys : CalendarSystem) : Prop where
  stands : ∀ t ∈ sys.threads, Stands id t
  keeps : paused sys.store id = true → ∀ t ∈ sys.threads, t.call.IsSync →
    KeepsPause false id t.program

theorem pauseInv_start (s : Store) (calls : List CalendarCall) : PauseInv id (start s calls) := by
  have hstands : ∀ t ∈ (start s calls).threads, Stands id t := by
    intro t ht
    obtain ⟨c, -, rfl⟩ := List.mem_map.mp ht
    exact ⟨fun hsync => ⟨unbound_idle, false, program_settles hsync⟩, fun _ => Or.inl .refl⟩
  refine ⟨hstands, fun _ t ht hsync => ?_⟩
  obtain ⟨c, -, rfl⟩ := List.mem_map.mp ht
  have hprogram : KeepsPause true id c.program := by
    cases c with
    | syncCalendar calendarId force now fetched =>
      exact Within.keeps (unclaimed_syncCalendar calendarId force now fetched).keeps
        (.sync calendarId force now fetched)
    | processDueCalendars now feeds =>
      have hdue : Follows (pauseMonitor true id) (Leaves fun _ => True)
          (processDueCalendars now (feedOf feeds)) () :=
        Follows.query (fun s => accepts_read fun _ => batch_keeps (feedOf feeds) (dueCalendars now s))
          fun _ _ => trivial
      exact Follows.map (hdue.mono fun r _ _ => by cases r <;> trivial)
    | updateCalendar | deleteCalendar | setHostAvailabilityBlock | isListingAvailable =>
      exact hsync.elim
  exact hprogram.unfailing

/-- A step of a sync from a paused calendar. -/
theorem keepsPause_step {sys sys' : CalendarSystem} {a : Action} {t : CalendarThread}
    {p : Stays CalendarAnswer} {ses : Session Key Write} {ws : List Write}
    (h : PauseInv id sys) (ht : sys.threads[System.mover a]? = some t) (hsync : t.call.IsSync)
    (hmove : sys.move t a = some (p, ses, ws)) (hspares : Spares id sys a sys')
    (hstore : sys'.store = publish sys.store ws) (hpaused : paused sys.store id = true) :
    paused sys'.store id = true ∧ KeepsPause false id p := by
  have hmem : t ∈ sys.threads := List.mem_of_getElem? ht
  have hses : Unbound t.session := ((h.stands t hmem).1 hsync).1
  have hkeeps := h.keeps hpaused t hmem hsync
  rw [hstore]
  cases a with
  | run i n =>
    obtain ⟨⟨hrejects, hnext⟩, -⟩ := Follows.advance hkeeps hses hmove
    have hbefore : syncing sys.store id = false := by
      obtain ⟨c, hrow, hstatus⟩ := row_of_paused hpaused
      simp [syncing, hrow, hstatus]
    have hclaim := (h.stands t hmem).unclaimed hsync (hspares.claims i n rfl hpaused t ht hsync)
      hmove hbefore
    have hafter : paused (publish sys.store ws) id = true := by
      by_contra hnot
      exact hrejects ⟨hpaused, Bool.eq_false_iff.mpr hnot, hclaim⟩
    exact ⟨hafter, hnext () (by simp [pauseMonitor, hpaused, hafter])⟩
  | fail i =>
    have hunfailing : KeepsPause true id t.program := by
      by_cases hclaiming : Claiming id t
      · exact (hspares.fails i rfl hpaused t ht hclaiming).keeps
      · exact (h.stands t hmem).keeps hsync hclaiming
    obtain ⟨hfailed, -, rfl⟩ := Follows.failing hunfailing hses hmove
    have hp : KeepsPause true id p := hfailed () rfl
    exact ⟨hpaused, hp.unfailing⟩
  | crash i =>
    obtain ⟨rfl, rfl, rfl⟩ : Program.halt = p ∧ Session.idle = ses ∧ [] = ws := by
      simpa [System.move] using hmove
    exact ⟨hpaused, trivial⟩

theorem pauseInv_step {sys sys' : CalendarSystem} {a : Action} (h : PauseInv id sys)
    (hmeets : RespectsPause id sys a) (hstep : sys.step a = some sys') : PauseInv id sys' := by
  have hspares := hmeets sys' hstep
  obtain ⟨t, p, ses, ws, ht, hmove, hsys'⟩ := System.step_eq_some.mp hstep
  have hmem : t ∈ sys.threads := List.mem_of_getElem? ht
  have hstands : ∀ u ∈ sys'.threads, Stands id u := by
    intro u hu
    rw [hsys'] at hu
    obtain hold | rfl := List.mem_or_eq_of_mem_set hu
    · exact h.stands u hold
    · exact stands_step (h.stands t hmem) hmove
  refine ⟨hstands, fun hafter u hu hsync => ?_⟩
  cases hbefore : paused sys.store id with
  | false =>
    by_cases hclaiming : Claiming id u
    · exact (hspares.pauses hbefore hafter u hu hclaiming).keeps
    · exact ((hstands u hu).keeps hsync hclaiming).unfailing
  | true =>
    rw [hsys'] at hu
    obtain hold | rfl := List.mem_or_eq_of_mem_set hu
    · exact h.keeps hbefore u hold hsync
    · exact (keepsPause_step h ht hsync hmove hspares (by rw [hsys']) hbefore).2

/-- In a run in which no claim meets a paused calendar that is unlocked, and no pause falls between
a claim and its end but at a harmless place, no step of a sync takes the calendar out of its
pause. -/
theorem pause_survives {calls : List CalendarCall} {sys sys' : CalendarSystem} {a : Action}
    (hrun : System.Run (RespectsPause id) (start s calls) sys) (hmeets : RespectsPause id sys a)
    (hstep : sys.step a = some sys') (hsync : ∃ c ∈ sys.caller a, c.IsSync)
    (hpaused : paused sys.store id = true) : paused sys'.store id = true := by
  have hinv : PauseInv id sys :=
    hrun.invariant (fun _ _ _ h hmeets hstep => pauseInv_step h hmeets hstep)
      (pauseInv_start s calls)
  have hspares := hmeets sys' hstep
  obtain ⟨t, p, ses, ws, ht, hmove, hsys'⟩ := System.step_eq_some.mp hstep
  have hcaller : sys.caller a = some t.call :=
    System.caller_eq (System.published_eq_some.mpr ⟨t, p, ses, ht, rfl, hmove⟩)
  obtain ⟨c, hc, hsync⟩ := hsync
  obtain rfl : t.call = c := Option.some.inj (hcaller.symm.trans hc)
  exact (keepsPause_step hinv ht hsync hmove hspares (by rw [hsys']) hpaused).1

def samplePause : CalendarCall := .updateCalendar 1 1 1 (some true)

/-- A sync that has claimed the calendar, before the host pauses it. -/
def claimedSystem : CalendarSystem :=
  ⟨publish (sampleCalendars [] []) (claimCalendar 1 0 claimMs false (sampleCalendars [] [])),
    [⟨sampleSyncCall, .idle, .summary <$> syncClaimed 1 0 .notModified⟩,
      ⟨samplePause, .idle, samplePause.program⟩]⟩

theorem claimedSystem_eq :
    (start (sampleCalendars [] []) [sampleSyncCall, samplePause]).step (.run 0 1) =
      some claimedSystem := rfl

/-- A step of the host, while the only sync awaits the row. -/
theorem respectsPause_host {sys sys' : CalendarSystem} {n : ℕ} {t u : CalendarThread}
    (ht : AwaitsRow id t) (hu : ¬u.call.IsSync) (hthreads : sys.threads = [t, u])
    (hstep : sys.step (.run 1 n) = some sys') :
    RespectsPause id sys (.run 1 n) ∧ ∃ v, ¬v.call.IsSync ∧ sys'.threads = [t, v] := by
  have hthreads' : ∀ next, sys.step (.run 1 n) = some next →
      ∃ v : CalendarThread, ¬v.call.IsSync ∧ next.threads = [t, v] := by
    intro next h
    obtain ⟨x, p, ses, ws, hx, -, rfl⟩ := System.step_eq_some.mp h
    obtain rfl : u = x := by simpa [hthreads, System.mover] using hx
    exact ⟨⟨u.call, ses, p⟩, hu, by simp [hthreads, System.mover]⟩
  refine ⟨fun next hnext => ⟨fun i m hrun _ x hx hsync => ?_, fun _ _ x hx hclaiming => ?_,
    by simp⟩, hthreads' sys' hstep⟩
  · obtain ⟨rfl, rfl⟩ := Action.run.inj hrun
    obtain rfl : u = x := by simpa [hthreads] using hx
    exact absurd hsync hu
  · obtain ⟨v, hv, hlist⟩ := hthreads' next hnext
    rw [hlist] at hx
    obtain rfl | rfl : x = t ∨ x = v := by simpa using hx
    · exact Or.inl ht
    · exact absurd hclaiming.1 hv

theorem run_host {as : List Action} {sys sys' : CalendarSystem} {t u : CalendarThread}
    (ht : AwaitsRow id t) (hu : ¬u.call.IsSync) (hthreads : sys.threads = [t, u])
    (has : ∀ a ∈ as, ∃ n, a = .run 1 n) (h : System.exec (fun _ _ => True) sys as = some sys') :
    System.Run (RespectsPause id) sys sys' := by
  induction as generalizing sys u with
  | nil =>
    rw [Option.some.inj h]
    exact .refl _
  | cons a as ih =>
    obtain ⟨n, rfl⟩ := has a (by simp)
    rw [System.exec, if_pos trivial] at h
    obtain ⟨mid, hstep, hrest⟩ := Option.bind_eq_some_iff.mp h
    obtain ⟨hmeets, v, hv, hmid⟩ := respectsPause_host ht hu hthreads hstep
    exact System.Run.trans (.tail (.refl _) hmeets hstep)
      (ih hv hmid (fun b hb => has b (by simp [hb])) hrest)

def isUpdate {α : Type} : Stays α → Bool
  | Program.update _ _ _ => true
  | _ => false

theorem not_claimsNext {t : CalendarThread} (h : isUpdate t.program = false) :
    ¬ClaimsNext id s t := by
  rintro ⟨now, claimUntil, evenSyncing, k, err, c, hprogram, -⟩
  rw [hprogram] at h
  cases h

/-- The host pauses a calendar that a sync has claimed and is about to read. -/
theorem pause_survives_awaited : ∃ sys sys',
    System.Run (RespectsPause 1) (start (sampleCalendars [] []) [sampleSyncCall, samplePause]) sys ∧
    (∃ t ∈ sys.threads, t.call = samplePause ∧ t.program.result.isSome = true) ∧
    sys.step (.run 0 1) = some sys' ∧ paused sys'.store 1 = true := by
  have hclaim : RespectsPause 1 (start (sampleCalendars [] []) [sampleSyncCall, samplePause])
      (.run 0 1) := by
    intro sys' hstep
    obtain rfl : claimedSystem = sys' := Option.some.inj (claimedSystem_eq.symm.trans hstep)
    exact ⟨fun _ _ _ h => absurd h (by decide +kernel),
      fun _ h => absurd h (by decide +kernel), by simp⟩
  have hawaits : AwaitsRow 1 (⟨sampleSyncCall, .idle, .summary <$> syncClaimed 1 0 .notModified⟩ :
      CalendarThread) := ⟨0, .sync 1 false 0 .notModified⟩
  have hchecks : ((System.exec (fun _ _ => True) claimedSystem (System.turns 1 1 5)).any fun sys =>
      decide (∃ t ∈ sys.threads, t.call = samplePause ∧ t.program.result.isSome = true) &&
      decide ((∃ c ∈ sys.caller (.run 0 1), c.IsSync) ∧ paused sys.store 1 = true) &&
      (sys.step (.run 0 1)).isSome && sys.threads[0]?.all fun t => !isUpdate t.program) = true := by
    decide +kernel
  cases hexec : System.exec (fun _ _ => True) claimedSystem (System.turns 1 1 5) with
  | none => simp [hexec] at hchecks
  | some sys =>
    simp only [hexec, Option.any_some, Bool.and_eq_true, decide_eq_true_eq] at hchecks
    obtain ⟨⟨⟨hreturned, hsync, hpaused⟩, hmoves⟩, hreads⟩ := hchecks
    have hrun : System.Run (RespectsPause 1)
        (start (sampleCalendars [] []) [sampleSyncCall, samplePause]) sys :=
      System.Run.trans (.tail (.refl _) hclaim claimedSystem_eq)
        (run_host hawaits (by decide) rfl (fun _ ha => eq_run_of_mem_turns ha) hexec)
    obtain ⟨sys', hstep⟩ := Option.isSome_iff_exists.mp hmoves
    have hmeets : RespectsPause 1 sys (.run 0 1) := by
      refine fun next _ => ⟨fun i n hrun _ t ht _ => ?_, fun h => absurd h (by simp [hpaused]),
        by simp⟩
      obtain ⟨rfl, -⟩ := Action.run.inj hrun
      rw [ht, Option.all_some, Bool.not_eq_true'] at hreads
      exact not_claimsNext hreads
    exact ⟨sys, sys', hrun, hreturned, hstep, pause_survives hrun hmeets hstep hsync hpaused⟩

/-- The host pauses the calendar while a sync is under way, which makes it active again. -/
theorem pause_overwritten : ∃ sys sys' a,
    System.Run (fun _ _ => True) (start (sampleCalendars [] [])
      [sampleSyncCall, samplePause]) sys ∧
    (∃ t ∈ sys.threads, t.call = samplePause ∧
      t.program.result.isSome = true) ∧
    sys.step a = some sys' ∧ (∃ c ∈ sys.caller a, c.IsSync) ∧
    paused sys.store 1 = true ∧ paused sys'.store 1 = false := by
  obtain ⟨sys, hrun, hp⟩ := exists_calendarRun (fun _ _ => True) (sampleCalendars [] [])
    [sampleSyncCall, samplePause]
    (System.turns 0 1 2 ++ System.turns 1 1 5 ++ System.turns 0 1 4)
    (fun sys => decide (∃ t ∈ sys.threads, t.call = samplePause ∧
        t.program.result.isSome = true) &&
      decide ((∃ c ∈ sys.caller (.run 0 1), c.IsSync) ∧ paused sys.store 1 = true) &&
      (sys.step (.run 0 1)).any fun sys' => paused sys'.store 1 = false) (by decide +kernel)
  simp only [Bool.and_eq_true, decide_eq_true_eq] at hp
  obtain ⟨⟨hreturned, hsync, hpaused⟩, hnext⟩ := hp
  cases hstep : sys.step (.run 0 1) with
  | none => simp [hstep] at hnext
  | some sys' =>
    rw [hstep, Option.any_some, decide_eq_true_eq] at hnext
    exact ⟨sys, sys', .run 0 1, hrun, hreturned, hstep, hsync, hpaused, hnext⟩

end NexaStays.PausedCalendar
