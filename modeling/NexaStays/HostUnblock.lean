import NexaStays.ImportedNights

/-!
# A host's block and unblock

An unblock leaves the host's row, which no sync overwrites: a night of the range stays as
the host left it. Every other covered night is blocked again by the sync of its calendar,
until a sync of another calendar releases it.
-/
namespace NexaStays.HostUnblock

open NexaStays.KeyedTable NexaStays.Transactions NexaStays.Database NexaStays.BookingDate
  NexaStays.HostCalendar NexaStays.Availability NexaStays.CalendarSync NexaStays.SoloRuns
  NexaStays.ImportEffects NexaStays.CalendarCalls NexaStays.ImportedNights

variable {now : ℤ} {s s' : Store} {listingId : ℕ} {night : ℤ}

/-- The night has a row of the host or of an administrator that does not block it. -/
def OpenedByHost (s : Store) (listingId : ℕ) (night : ℤ) : Prop :=
  ∃ b ∈ s.blocks.find? (listingId, night),
    (b.source = some .host ∨ b.source = some .admin) ∧ b.isBlocked = false

theorem not_openedByHost_sync (h : AddsImported s s') (hs : ¬OpenedByHost s listingId night) :
    ¬OpenedByHost s' listingId night := by
  rintro ⟨b, hb, hsource, hopen⟩
  obtain ⟨hmem, hkey⟩ := Table.find?_eq_some.mp hb
  obtain hold | ⟨-, hblocked⟩ := h b hmem
  · exact hs ⟨b, Table.find?_eq_some.mpr ⟨hold, hkey⟩, hsource, hopen⟩
  · simp [hblocked] at hopen

theorem isBlocked_of_settled (hs : ¬OpenedByHost s listingId night)
    (h : HostNight s listingId night ∨ IsBlocked s listingId night) :
    IsBlocked s listingId night := by
  obtain ⟨b, hb, hsource⟩ | hblocked := h
  · cases hrow : b.isBlocked with
    | true => exact ⟨b, hb, hrow⟩
    | false => exact absurd ⟨b, hb, hsource, hrow⟩ hs
  · exact hblocked

/-- A blocked night stays blocked if it is not released. -/
theorem isBlocked_of_touches {touch : Touch} (h : Touches touch now s s')
    (hopen : ¬OpenedByHost s' listingId night) (hblocked : IsBlocked s listingId night)
    (hreleased : ¬touch.released listingId night) : IsBlocked s' listingId night := by
  by_cases hwritten : touch.written listingId night
  · exact isBlocked_of_settled hopen (h.settled listingId night hwritten)
  · rwa [isBlocked_congr (h.kept listingId night hwritten hreleased)]

/-- An import leaves the rows of the host alone. -/
theorem find?_hostNight {i : Import} (h : HostNight s listingId night) :
    (i.storeAt s i.done).blocks.find? (listingId, night) =
      s.blocks.find? (listingId, night) := by
  obtain ⟨b, hb, hsource⟩ := h
  by_cases hwritten : listingId = i.listingId ∧ night ∈ i.nights
  · obtain ⟨rfl, hnight⟩ := hwritten
    apply find?_skipped hnight
    refine ⟨b, hb, ?_⟩
    obtain hhost | hadmin := hsource
    · exact Or.inl hhost
    · exact Or.inr (Or.inl hadmin)
  · apply find?_untouched hwritten
    rintro ⟨r, hr, rfl, rfl⟩
    obtain ⟨hmem, -, hical, -⟩ := Import.mem_staleRows.mp hr
    obtain rfl : r = b := Option.some.inj ((Table.find?_key hmem).symm.trans hb)
    simp [hical] at hsource

theorem find?_hostNight_sync {calendarId : ℕ} {force : Bool} {fetched : Fetched}
    {summary : SyncSummary} (h : SyncEnd False s calendarId force now fetched summary s')
    (hhost : HostNight s listingId night) :
    s'.blocks.find? (listingId, night) = s.blocks.find? (listingId, night) := by
  obtain ⟨-, -, hsame⟩ | ⟨-, id, -, hend⟩ := h
  · rw [hsame.blocks]
  · cases fetched with
    | notModified => rw [hend.2.blocks]
    | failed isTimeout message => rw [hend.2.blocks]
    | delivered data etag lastModified =>
      obtain ⟨-, -, hsame⟩ | ⟨-, p, -, hsame, hp⟩ := hend
      · rw [hsame.blocks]
        exact find?_hostNight hhost
      · obtain ⟨rfl, -⟩ := hp not_false
        rw [hsame.blocks]
        rfl

/-- A sync that goes through and whose feed covers a night of the listing in the horizon. -/
def Imports (step : Step) (listingId : ℕ) (night : ℤ) : Prop :=
  ∃ calendarId force data etag lastModified summary,
    step.op = .sync calendarId force (.delivered data etag lastModified) ∧
    Returns False (.syncCalendar calendarId force step.now (.delivered data etag lastModified))
      step.before (.summary summary) step.after ∧ summary.outcome = .success ∧
    connectedTo step.before calendarId = some listingId ∧ InHorizon step.now night ∧
    ∃ e ∈ parseIcsEvents data, e.startDate ≤ night ∧ night < e.endDate

/-- The step deletes the row of the night. -/
def Releases (reference : BlockReference) (step : Step) (listingId : ℕ) (night : ℤ) : Prop :=
  (step.op.touch reference step.now step.before).released listingId night

def IsSync (step : Step) : Prop :=
  ∃ calendarId force fetched, step.op = .sync calendarId force fetched

/-- A sync releases rows of its own calendar only. -/
theorem mem_icalRows_of_releases {reference : BlockReference} {step : Step} {calendarId : ℕ}
    {force : Bool} {fetched : Fetched} (hop : step.op = .sync calendarId force fetched)
    (h : Releases reference step listingId night) :
    ∃ b ∈ icalRows step.before calendarId, b.listingId = listingId ∧ b.date = night := by
  unfold Releases at h
  rw [hop] at h
  simp only [Operation.touch, Operation.syncTouch] at h
  split at h
  · split_ifs at h
    · unfold Operation.importTouch at h
      split_ifs at h
      · obtain ⟨b, hb, hkey⟩ := h
        exact ⟨b, (List.mem_filter.mp hb).1, hkey⟩
      · exact h.elim
    · exact h.elim
  · exact h.elim

/-- What is imported is written. -/
theorem written_of_imports (reference : BlockReference) {step : Step}
    (h : Imports step listingId night) :
    (step.op.touch reference step.now step.before).written listingId night := by
  obtain ⟨calendarId, force, data, etag, lastModified, summary, hop, hreturns, hsuccess,
    hconnected, hnow, e, he, hrange⟩ := h
  obtain ⟨summary', heq, hend⟩ := hreturns.sync
  obtain rfl : summary = summary' := by simpa using heq
  rw [hop]
  obtain ⟨-, herror, -⟩ | ⟨hmay, id, hid, hclaimed⟩ := hend
  · rw [hsuccess] at herror
    exact absurd herror (by decide)
  · obtain ⟨-, hins, -⟩ | ⟨hfailed, -⟩ := hclaimed
    · obtain rfl : listingId = id := Option.some.inj (hconnected.symm.trans hid)
      have htouch : (Operation.sync calendarId force (.delivered data etag lastModified)).touch
          reference step.now step.before =
          Operation.importTouch (importOf calendarId listingId step.now data) step.before := by
        simp only [Operation.touch, Operation.syncTouch, hconnected, if_pos hmay]
      rw [htouch, Operation.importTouch, if_pos hins]
      refine ⟨rfl, mem_expandNights.mpr ⟨hnow.1, hnow.2, e, ?_, hrange⟩⟩
      have h₁ := hnow.1
      have h₂ := hnow.2
      simp only [inHorizon, List.mem_filter, decide_eq_true_eq]
      exact ⟨he, by omega, by omega⟩
    · rw [hsuccess] at hfailed
      exact absurd hfailed (by decide)

/-- A sync opens no night, and blocks what it imports. -/
theorem sync_night {reference : BlockReference} {step : Step} (hsync : IsSync step)
    (hcompleted : step.Completed reference) (hical : IcalBlocked step.before)
    (hopen : ¬OpenedByHost step.before listingId night) :
    ¬OpenedByHost step.after listingId night ∧
      (Imports step listingId night → IsBlocked step.after listingId night) ∧
      (IsBlocked step.before listingId night → ¬Releases reference step listingId night →
        IsBlocked step.after listingId night) := by
  obtain ⟨a, hreturns⟩ := hcompleted
  have htouches := (Operation.returns hical hreturns).1
  obtain ⟨calendarId, force, fetched, hop⟩ := hsync
  rw [hop] at hreturns
  obtain ⟨summary, -, hend⟩ := hreturns.sync
  have hopen' := not_openedByHost_sync (addsImported_sync hend) hopen
  refine ⟨hopen', fun himports => ?_, isBlocked_of_touches htouches hopen'⟩
  have hwritten := written_of_imports reference himports
  exact isBlocked_of_settled hopen' (htouches.settled listingId night hwritten)

/-- The store that some steps leave. -/
def finalStore (s : Store) (steps : List Step) : Store := steps.foldl (fun _ step => step.after) s

section Round

variable {reference : BlockReference} {round : List Step} {t : ℤ}

theorem isBlocked_round (hchain : Chain reference t s round) (hsyncs : ∀ step ∈ round, IsSync step)
    (hical : IcalBlocked s) (hopen : ¬OpenedByHost s listingId night)
    (hblocked : IsBlocked s listingId night)
    (hkept : ∀ step ∈ round, ¬Releases reference step listingId night) :
    IsBlocked (finalStore s round) listingId night := by
  induction hchain with
  | done => exact hblocked
  | step first rest completed _ ih =>
    rw [List.forall_mem_cons] at hsyncs hkept
    obtain ⟨hopen', -, hstays⟩ := sync_night hsyncs.1 completed hical hopen
    obtain ⟨a, hreturns⟩ := completed
    have hical' := (Operation.returns hical hreturns).2
    exact ih hsyncs.2 hical' hopen' (hstays hblocked hkept.1) hkept.2

/-- A night that one sync of the round imports and no later one releases. -/
theorem imported_in_round (hchain : Chain reference t s round)
    (hsyncs : ∀ step ∈ round, IsSync step) (hical : IcalBlocked s)
    (hopen : ¬OpenedByHost s listingId night) {earlier later : List Step} {step : Step}
    (hround : round = earlier ++ step :: later) (himports : Imports step listingId night)
    (hkept : ∀ st ∈ later, ¬Releases reference st listingId night) :
    IsBlocked (finalStore s round) listingId night := by
  induction hchain generalizing earlier with
  | done => simp at hround
  | step first rest completed chain ih =>
    rw [List.forall_mem_cons] at hsyncs
    obtain ⟨hopen', hblocks, -⟩ := sync_night hsyncs.1 completed hical hopen
    obtain ⟨a, hreturns⟩ := completed
    have hical' := (Operation.returns hical hreturns).2
    cases earlier with
    | nil =>
      obtain ⟨rfl, rfl⟩ := List.cons.inj hround
      show IsBlocked (finalStore first.after rest) listingId night
      exact isBlocked_round chain hsyncs.2 hical' hopen' (hblocks himports) hkept
    | cons _ earlier => exact ih hsyncs.2 hical' hopen' (List.cons.inj hround).2

/-- No sync of a round overwrites the host's row. -/
theorem hostNight_round (hchain : Chain reference t s round)
    (hsyncs : ∀ step ∈ round, IsSync step) (hhost : HostNight s listingId night) :
    (finalStore s round).blocks.find? (listingId, night) =
      s.blocks.find? (listingId, night) := by
  induction hchain with
  | done => rfl
  | step first rest completed _ ih =>
    rw [List.forall_mem_cons] at hsyncs
    obtain ⟨a, hreturns⟩ := completed
    obtain ⟨⟨calendarId, force, fetched, hop⟩, hrest⟩ := hsyncs
    rw [hop] at hreturns
    obtain ⟨summary, -, hend⟩ := hreturns.sync
    have hrow := find?_hostNight_sync hend hhost
    exact (ih hrest ((hostNight_congr hrow).mpr hhost)).trans hrow

end Round

/-- A night of the host's range. -/
def InRange (fromDate toDate : Option Ymd) (night : ℤ) : Prop :=
  ∃ start stop, parseBookingYmd fromDate = .ok start ∧ parseBookingYmd toDate = .ok stop ∧
    start ≤ night ∧ night < stop

/-- The row of one night after a host's block or unblock. -/
theorem find?_hostBlocks (listingId : ℕ) (night : ℤ) (s : Store) (isBlocked : Bool)
    (start stop : ℤ) :
    (publish s (((nightsBetween start stop).map (hostBlock listingId isBlocked)).map
      Write.block)).blocks.find? (listingId, night) =
      if start ≤ night ∧ night < stop then some (hostBlock listingId isBlocked night)
      else s.blocks.find? (listingId, night) := by
  rw [publish_blocks]
  split_ifs with hrange
  · exact Table.find?_putAll_of_mem (r := hostBlock listingId isBlocked night)
      (nodup_hostBlocks listingId isBlocked start stop)
      (List.mem_map_of_mem (mem_nightsBetween.mpr hrange))
  · apply Table.find?_putAll_of_notMem
    intro hmem
    obtain ⟨b, hb, hkey⟩ := List.mem_map.mp hmem
    obtain ⟨n, hn, rfl⟩ := List.mem_map.mp hb
    obtain rfl : n = night := (Prod.mk.inj hkey).2
    exact hrange (mem_nightsBetween.mp hn)

theorem unavailable_of_isBlocked {fails : Prop} {checkin checkout : ℤ} {a : CalendarAnswer}
    (hblocked : IsBlocked s listingId night) (hcheckin : checkin ≤ night)
    (hcheckout : night < checkout)
    (h : Returns fails (.isListingAvailable listingId checkin checkout) s a s') :
    a = .available false := by
  obtain ⟨b, hb, hrow⟩ := hblocked
  obtain ⟨hmem, hkey⟩ := Table.find?_eq_some.mp hb
  obtain ⟨rfl, rfl⟩ := Prod.mk.inj hkey
  have hmem' : b ∈ blockedNights s b.listingId checkin checkout := by
    simp [blockedNights, hmem, hrow, hcheckin, hcheckout]
  rw [h.isListingAvailable.2]
  simp [List.ne_nil_of_mem hmem']

/-- After a host's block and unblock of a range and a round of syncs, a night of the range
has the host's row; a night outside it that the host had not opened is reported
unavailable if a sync of the round imports it and no later one releases it. -/
theorem blocked_unblocked_synced {reference : BlockReference} {t : ℤ} {block unblock : Step}
    {round : List Step} {hostUserId : ℕ} {fromDate toDate : Option Ymd} (hical : IcalBlocked s)
    (hblock : block.op = .block listingId hostUserId fromDate toDate true)
    (hunblock : unblock.op = .block listingId hostUserId fromDate toDate false)
    (hsyncs : ∀ step ∈ round, IsSync step)
    (hchain : Chain reference t s (block :: unblock :: round)) (night : ℤ) :
    (InRange fromDate toDate night →
      (finalStore unblock.after round).blocks.find? (listingId, night) =
        some (hostBlock listingId false night)) ∧
    (¬InRange fromDate toDate night → ¬OpenedByHost s listingId night →
      ∀ earlier step later, round = earlier ++ step :: later → Imports step listingId night →
        (∀ st ∈ later, ¬Releases reference st listingId night) →
        ∀ fails checkin checkout a s', checkin ≤ night → night < checkout →
          Returns fails (.isListingAvailable listingId checkin checkout)
            (finalStore unblock.after round) a s' → a = .available false) := by
  obtain ⟨-, rfl, ⟨a, hfirst⟩, hrest⟩ := chain_cons.mp hchain
  obtain ⟨-, hmid, ⟨a', hsecond⟩, hround⟩ := chain_cons.mp hrest
  have hical₁ := (Operation.returns hical hfirst).2
  rw [hmid] at hfirst hical₁
  have hical₂ := (Operation.returns hical₁ hsecond).2
  rw [hblock] at hfirst
  rw [hunblock] at hsecond
  obtain ⟨start, stop, hstart, hstop, hstore⟩ := hfirst.hostBlock
  obtain ⟨start', stop', hstart', hstop', hstore'⟩ := hsecond.hostBlock
  obtain rfl : start = start' := Except.ok.inj (hstart.symm.trans hstart')
  obtain rfl : stop = stop' := Except.ok.inj (hstop.symm.trans hstop')
  have hrange : InRange fromDate toDate night ↔ start ≤ night ∧ night < stop := by
    simp [InRange, hstart, hstop]
  have hrow := find?_hostBlocks listingId night unblock.before false start stop
  rw [← hstore'] at hrow
  rw [hrange]
  constructor
  · intro hnight
    rw [if_pos hnight] at hrow
    rw [hostNight_round hround hsyncs ⟨_, hrow, Or.inl rfl⟩, hrow]
  · intro hnight hopen earlier step later heq himports hkept fails checkin checkout a s' hin hout
    have hbefore := find?_hostBlocks listingId night block.before true start stop
    rw [← hstore, if_neg hnight] at hbefore
    rw [if_neg hnight, hbefore] at hrow
    have hopen' : ¬OpenedByHost unblock.after listingId night := by
      simpa only [OpenedByHost, hrow] using hopen
    exact unavailable_of_isBlocked
      (imported_in_round hround hsyncs hical₂ hopen' heq himports hkept) hin hout

/-- Two nights that the first calendar has reserved and blocked. -/
def reservedStore : Store :=
  sampleCalendars [sampleEvent 1 "a" 21924 21926] [icalBlock 1 1 21924, icalBlock 1 1 21925]

/-- The host blocks or unblocks these nights. -/
def hostOperation (isBlocked : Bool) : Operation :=
  .block 1 1 (some ⟨2030, 1, 10⟩) (some ⟨2030, 1, 12⟩) isBlocked

def hostBlocks : Step := sampleStep (hostOperation true) reservedStore 2

def hostUnblocks : Step := sampleStep (hostOperation false) hostBlocks.after 2

/-- The feed has the reservation still, and another one. -/
def sampleFeed : List (String × IcsComponent) :=
  [sampleComponent "x" "a" 21924 21926, sampleComponent "y" "b" 21930 21931]

def syncsFirst : Step := sampleStep (sampleSync 1 sampleFeed) hostUnblocks.after 19

def syncsSecond : Step := sampleStep (sampleSync 2 []) syncsFirst.after 14

theorem chain_hostBlocks :
    Chain .none today reservedStore [hostBlocks, hostUnblocks, syncsFirst, syncsSecond] := by
  apply chain_sampleStep (completed_sampleStep _ _ _ (by decide +kernel))
  apply chain_sampleStep (completed_sampleStep _ _ _ (by decide +kernel))
  apply chain_sampleStep (completed_sampleStep _ _ _ (by decide +kernel))
  exact chain_sampleStep (completed_sampleStep _ _ _ (by decide +kernel)) (.done _ _)

theorem imports_sampleStep {s : Store} {calendarId n : ℕ} {data : List (String × IcsComponent)}
    (hsuccess : ((statements False ((sampleSync calendarId data).call .none today) s
      (System.turns 0 1 n)).any fun sys => sys.threads.any fun t => t.program.result.any fun a =>
        a.summary?.map (·.outcome) = some .success) = true)
    (hconnected : connectedTo s calendarId = some listingId) (hnow : InHorizon today night)
    (hcovers : ∃ e ∈ parseIcsEvents data, e.startDate ≤ night ∧ night < e.endDate) :
    Imports (sampleStep (sampleSync calendarId data) s n) listingId night := by
  obtain ⟨a, ha, hreturns⟩ := returns_storeAfter _ _ _ _ hsuccess
  obtain ⟨summary, hsummary, houtcome⟩ := Option.map_eq_some_iff.mp (of_decide_eq_true ha)
  obtain rfl := CalendarAnswer.summary?_eq_some.mp hsummary
  exact ⟨calendarId, false, data, none, none, summary, rfl, hreturns, houtcome, hconnected, hnow,
    hcovers⟩

theorem imports_syncsFirst (hnow : InHorizon today night)
    (hcovers : ∃ e ∈ parseIcsEvents sampleFeed, e.startDate ≤ night ∧ night < e.endDate) :
    Imports syncsFirst 1 night :=
  imports_sampleStep (by decide +kernel) (by decide +kernel) hnow hcovers

/-- The other reservation blocks its night. -/
theorem blocked_unblocked_synced_other_night : ∃ a s',
    Returns False (.isListingAvailable 1 21930 21931) syncsSecond.after a s' ∧
      a = .available false := by
  obtain ⟨a, -, hreturns⟩ := returns_storeAfter (.isListingAvailable 1 21930 21931)
    syncsSecond.after (System.turns 0 1 2) (fun _ => true) (by decide +kernel)
  have hical : IcalBlocked reservedStore := by
    show ∀ b ∈ reservedStore.blocks.rows, b.source = some .ical → b.isBlocked = true
    decide +kernel
  have hblock : hostBlocks.op = .block 1 1 (some ⟨2030, 1, 10⟩) (some ⟨2030, 1, 12⟩) true := rfl
  have hunblock : hostUnblocks.op = .block 1 1 (some ⟨2030, 1, 10⟩) (some ⟨2030, 1, 12⟩) false :=
    rfl
  have hsyncs : ∀ step ∈ [syncsFirst, syncsSecond], IsSync step :=
    List.forall_mem_cons.mpr ⟨⟨_, _, _, rfl⟩, List.forall_mem_singleton.mpr ⟨_, _, _, rfl⟩⟩
  have hall := (blocked_unblocked_synced hical hblock hunblock hsyncs chain_hostBlocks 21930).2
  have hrange : ¬InRange (some ⟨2030, 1, 10⟩) (some ⟨2030, 1, 12⟩) 21930 := by
    rintro ⟨start, stop, -, hstop, -, hlt⟩
    obtain rfl : 21926 = stop := Except.ok.inj hstop
    exact absurd hlt (by decide)
  have hopen : ¬OpenedByHost reservedStore 1 21930 := by
    have hrow : reservedStore.blocks.find? (1, 21930) = none := by decide +kernel
    simp [OpenedByHost, hrow]
  have himports : Imports syncsFirst 1 21930 :=
    imports_syncsFirst (by decide +kernel) (by decide +kernel)
  have hkept : ∀ st ∈ [syncsSecond], ¬Releases .none st 1 21930 := by
    refine List.forall_mem_singleton.mpr fun hreleases => ?_
    have hop : syncsSecond.op = .sync _ _ _ := rfl
    have hrow := mem_icalRows_of_releases hop hreleases
    revert hrow
    decide +kernel
  exact ⟨a, _, hreturns, hall hrange hopen [] syncsFirst [syncsSecond] rfl himports hkept _ _ _ _ _
    le_rfl (by decide) hreturns⟩

/-- The nights that the host has unblocked are free, although the sync imports them. -/
theorem unblocked_night_available :
    Chain .none today reservedStore [hostBlocks, hostUnblocks, syncsFirst, syncsSecond] ∧
    Imports syncsFirst 1 21924 ∧ ∃ s', Returns False (.isListingAvailable 1 21924 21926)
      syncsSecond.after (.available true) s' := by
  refine ⟨chain_hostBlocks, imports_syncsFirst (by decide +kernel) (by decide +kernel), ?_⟩
  obtain ⟨a, ha, hreturns⟩ := returns_storeAfter (.isListingAvailable 1 21924 21926)
    syncsSecond.after (System.turns 0 1 2) (fun a => a = .available true) (by decide +kernel)
  obtain rfl := of_decide_eq_true ha
  exact ⟨_, hreturns⟩

end NexaStays.HostUnblock
