import NexaStays.ImportEffects
import NexaStays.Monitors

/-!
# Monitors of a sync

Between its claim and its save a sync writes events and nights only. A monitor that looks
at calendars alone is indifferent to these statements, so what it asks of a sync comes
down to what it asks of the save.
-/
namespace NexaStays.SyncMonitors

open NexaStays.Transactions NexaStays.Database NexaStays.CalendarSync NexaStays.SoloRuns
  NexaStays.ImportEffects NexaStays.Monitors

variable {γ : Type} {m : Monitor γ Store} {I J : γ → Prop} {g : γ} {cal : StaysExternalCalendar}

/-- The monitor stays in `I` at statements that leave the calendars alone. -/
structure Indifferent (m : Monitor γ Store) (I : γ → Prop) : Prop where
  idle : ∀ {R : γ → Prop} {g : γ} {s s' : Store}, s'.calendars = s.calendars → I g →
    (∀ g', I g' → R g') → m.Accepts R g s s'
  failed : ∀ {g g' : γ}, I g → g' ∈ m.failed g → I g'

/-- The end of a program, returned or thrown. -/
abbrev Leaves {α : Type} (I : γ → Prop) : Except StaysError α → γ → Prop :=
  Ends (fun _ => I) fun _ => I

section Statements

variable (h : Indifferent m I)

include h

theorem query_follows {α β : Type} {f : Store → α} {k : α → Stays β}
    {R : Except StaysError β → γ → Prop} (hg : I g) (hk : ∀ a g', I g' → Follows m R (k a) g')
    (herror : ∀ e g', I g' → R (.error e) g') : Follows m R (Stays.read f >>= k) g :=
  Follows.query (fun s => h.idle rfl hg fun g' hg' => hk (f s) g' hg')
    fun g' hg' => herror _ g' (h.failed hg hg')

theorem receive_follows {β : Type} {k : ℕ → Stays β} {R : Except StaysError β → γ → Prop}
    (hg : I g) (hk : ∀ n g', I g' → Follows m R (k n) g') :
    Follows m R (Program.receive >>= k) g :=
  Follows.receive fun _ n => h.idle rfl hg (hk n)

theorem writeLog_follows (hg : I g) : Follows m (Leaves I) writeLog g := by
  refine query_follows h hg (fun _ g' hg' => ?_) fun _ _ hg' => hg'
  refine query_follows h hg' (fun _ g'' hg'' => ?_) fun _ _ hg' => hg'
  exact ⟨fun _ => h.idle rfl hg'' fun _ hlast => hlast, fun _ hlast => h.failed hg'' hlast⟩

theorem insertInHorizon_follows (calendarId : ℕ) (events : List ParsedEvent) (hg : I g) :
    Follows m (Leaves I) (insertInHorizon calendarId events) g := by
  unfold insertInHorizon
  split_ifs
  · exact hg
  · refine ⟨fun s => h.idle ?_ hg fun g' hg' => ?_, fun g' hg' => h.failed hg hg'⟩
    · dsimp only
      split_ifs
      · rw [publish_events]
      · rfl
    · dsimp only
      split_ifs
      · exact hg'
      · exact hg'

theorem releaseNights_follows (toRemove : List StaysAvailabilityBlock) (hg : I g) :
    Follows m (Leaves I) (releaseNights toRemove) g := by
  unfold releaseNights
  split_ifs
  · exact hg
  · refine Follows.writeRows (fun s => h.idle ?_ hg fun _ hg' => hg') fun g' hg' => h.failed hg hg'
    rw [publish_deleteBlocks]

theorem blockNight_follows (night : ℤ) (hg : I g) :
    Follows m (Leaves I) (blockNight cal night) g := by
  refine query_follows h hg (fun existing g' hg' => ?_) fun _ _ hg' => hg'
  dsimp only
  split_ifs
  · exact hg'
  · exact hg'
  · exact Follows.writeRows (fun _ => h.idle rfl hg' fun _ hlast => hlast)
      fun _ hlast => h.failed hg' hlast

end Statements

section Sync

variable (hI : Indifferent m I) (hJ : Indifferent m J)
  (hsave : ∀ (entity : StaysExternalCalendar) (g : γ), entity.id = cal.id →
    entity.status ≠ .syncing → I g → Follows m (Leaves J) (saveCalendar entity) g)

include hJ hsave

/-- The end of a sync saves an entity of the calendar, and writes the log. -/
theorem saveThenLog_follows {entity : StaysExternalCalendar} (hid : entity.id = cal.id)
    (hstatus : entity.status ≠ .syncing) (hg : I g) :
    Follows m (Leaves J) (saveCalendar entity >>= fun _ => writeLog) g :=
  (hsave entity g hid hstatus hg).bind (fun _ _ hg' => writeLog_follows hJ hg') fun _ _ hg' => hg'

include hI

theorem finishSuccess_follows {entity : StaysExternalCalendar} (hid : entity.id = cal.id)
    (summary : SyncSummary) (notModified : Bool) {restoreStatus : CalendarStatus}
    (hstatus : restoreStatus ≠ .syncing) (hg : I g) :
    Follows m (Leaves J) (finishSuccess entity summary notModified restoreStatus) g := by
  refine receive_follows hI hg fun _ g₁ h₁ => ?_
  refine receive_follows hI h₁ fun _ g₂ h₂ => ?_
  refine receive_follows hI h₂ fun _ g₃ h₃ => ?_
  exact saveThenLog_follows hJ hsave hid hstatus h₃

theorem finishFailure_follows (summary : SyncSummary) (hg : I g) :
    Follows m (Leaves J) (finishFailure cal summary) g := by
  refine receive_follows hI hg fun _ g₁ h₁ => ?_
  refine receive_follows hI h₁ fun _ g₂ h₂ => ?_
  exact saveThenLog_follows hJ hsave rfl (by simp) h₂

theorem importFeed_follows (hJI : ∀ g, J g → I g) (now : ℤ)
    (data : List (String × IcsComponent)) (etag lastModified : Option String) (hg : I g) :
    Follows m (Ends (fun _ => J) fun _ => I) (importFeed cal now data etag lastModified) g := by
  refine query_follows hI hg (fun _ g₁ h₁ => ?_) fun _ _ hg' => hg'
  refine Follows.writeRows (fun s => hI.idle ?_ h₁ fun g₂ h₂ => ?_) fun g' hg' => hI.failed h₁ hg'
  · rw [publish_deleteEvents]
  refine (insertInHorizon_follows hI _ _ h₂).bind (fun _ g₃ h₃ => ?_) fun _ _ hg' => hg'
  refine query_follows hI h₃ (fun _ g₄ h₄ => ?_) fun _ _ hg' => hg'
  refine (releaseNights_follows hI _ h₄).bind (fun _ g₅ h₅ => ?_) fun _ _ hg' => hg'
  refine Follows.bind (Follows.forEach I (fun night _ g hg => blockNight_follows hI night hg) h₅)
    (fun _ g₆ h₆ => ?_) fun _ _ hg' => hg'
  refine query_follows hI h₆ (fun _ g₇ h₇ => ?_) fun _ _ hg' => hg'
  have hactive : CalendarStatus.active ≠ .syncing := by simp
  refine Follows.bind (P := fun _ => J) (E := fun _ => J) ?_ (fun _ _ hg' => hg')
    fun _ _ hg' => hJI _ hg'
  exact finishSuccess_follows hI hJ hsave (by rfl) _ false hactive h₇

theorem trySync_follows (hJI : ∀ g, J g → I g) (now : ℤ) (fetched : Fetched) (hg : I g) :
    Follows m (Ends (fun _ => J) fun _ => I) (trySync cal now fetched) g := by
  cases fetched with
  | notModified =>
    have hstatus : (if cal.status = .paused then CalendarStatus.paused else .active) ≠ .syncing := by
      split_ifs <;> simp
    exact (finishSuccess_follows hI hJ hsave rfl _ true hstatus hg).bind (fun _ _ hg' => hg')
      fun _ _ hg' => hJI _ hg'
  | failed isTimeout message => exact hg
  | delivered data etag lastModified =>
    exact importFeed_follows hI hJ hsave hJI now data etag lastModified hg

theorem catchSync_follows (fetched : Fetched) (e : StaysError) (hg : I g) :
    Follows m (Leaves J) (catchSync cal fetched e) g := by
  refine receive_follows hI hg fun _ g₁ h₁ => ?_
  exact (finishFailure_follows hI hJ hsave _ h₁).bind (fun _ _ hg' => hg') fun _ _ hg' => hg'

/-- The sync of a calendar whose row has been read ends as its save does. -/
theorem sync_follows (hJI : ∀ g, J g → I g) (now : ℤ) (fetched : Fetched) (hg : I g) :
    Follows m (Leaves J) (Program.attempt (trySync cal now fetched) (catchSync cal fetched)) g :=
  Follows.attempt (trySync_follows hI hJ hsave hJI now fetched hg) (fun _ _ hg' => hg')
    fun e _ hg' => catchSync_follows hI hJ hsave fetched e hg'

end Sync

end NexaStays.SyncMonitors
