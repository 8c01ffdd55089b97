import NexaStays.Confinement
import NexaStays.KycReview
import NexaStays.SumsubEffects

/-!
# Snapshots that follow the decisions

An approval and a resynchronisation drop the snapshot of the account. A rejection, an event of
the provider and a new submission do not, so a snapshot that is cached when one of them decides
is answered until its time is over.
-/
namespace NexaStays.SnapshotFreshness

open NexaStays.KeyedTable NexaStays.Transactions NexaStays.Completions NexaStays.Sequences
open NexaStays.Embedding NexaStays.Confinement NexaStays.PersonStore NexaStays.Sumsub
open NexaStays.ProviderSync NexaStays.KycStore NexaStays.KycReview

inductive Call where
  | getSnapshot
  /-- the time of the cached snapshot is over -/
  | expire
  | approve (reviewedBy : String)
  | reject (reason reviewedBy : String)
  | resyncFromSumsub (answers : ProviderAnswers)
  | processSumsubWebhook (d : Delivery)
  | submitKyc (payload : SubmitKycDto)

section Calls

variable (config : WebhookConfig) (configured : Bool) (userId : ℕ)

/-- A call; only `getSnapshot` answers a snapshot. -/
def program : Call → Review (Option IdentitySnapshot)
  | .getSnapshot => do
    let snapshot ← getSnapshot userId
    pure (some snapshot)
  | .expire => do
    invalidate userId
    pure none
  | .approve reviewedBy => do
    approve userId reviewedBy
    pure none
  | .reject reason reviewedBy => do
    reject userId reason reviewedBy
    pure none
  | .resyncFromSumsub answers => do
    let _ ← resyncFromSumsub config configured userId answers
    pure none
  | .processSumsubWebhook d => do
    let _ ← Review.onPerson (processSumsubWebhook config d)
    pure none
  | .submitKyc payload => do
    let _ ← Review.onPerson (submitKyc config.hashNationalId config.toDate userId payload)
    pure none

/-- What `loadSnapshot` computes from the rows. -/
def loaded (person : PersonStore.Store) : IdentitySnapshot :=
  match person.users.find? userId with
  | none => noSnapshot userId
  | some user => snapshotOf user (person.kycProfiles.find? userId)

/-- The KYC status and tier of a snapshot. -/
def decision (snapshot : IdentitySnapshot) : String × String :=
  (snapshot.kycStatus, snapshot.kycTier)

abbrev Entry := Turn Call KycStore.Store × Except PersonError (Option IdentitySnapshot)

/-- A `getSnapshot` that answers, answers what the rows say. -/
def Follows (entry : Entry) : Prop :=
  entry.1.call = .getSnapshot → ∀ snapshot, entry.2 = .ok (some snapshot) →
    decision snapshot = decision (loaded userId entry.1.before.person)

/-- A snapshot that is cached says what the rows say. -/
def Standing (s : KycStore.Store) : Prop :=
  ∀ cached, s.snapshots.find? userId = some cached →
    decision cached = decision (loaded userId s.person)

def Uncached (s : KycStore.Store) : Prop := s.snapshots.find? userId = none

/-- The call is refused before it decides anything. -/
def Undecided (s : PersonStore.Store) : Call → Prop
  | .getSnapshot | .expire => True
  | .approve _ | .reject _ _ | .resyncFromSumsub _ => s.kycProfiles.find? userId = none
  | .processSumsubWebhook d => (∃ e, d.digest = .error e) ∨
    ∀ text eventAt account, d.event.userId = some text →
      d.event.providerEventAt config.toTime = some eventAt → config.readId text = some account →
      isStale eventAt (s.kycProfiles.find? account) = true
  | .submitKyc payload => s.users.find? userId = none ∨
    ∃ e, resolveDocumentCountry payload = .error e

/-- The call drops the snapshot before it answers. -/
def Call.invalidates : Call → Prop
  | .approve _ | .resyncFromSumsub _ => True
  | _ => False

/-- A call that decides finds no snapshot, or drops it. -/
def Clean (entry : Entry) : Prop :=
  Uncached userId entry.1.before ∨ Undecided config userId entry.1.before.person entry.1.call ∨
    (entry.1.call.invalidates ∧ ∃ answer, entry.2 = .ok answer)

end Calls

section Proofs

variable {config : WebhookConfig} {configured : Bool} {userId : ℕ} {s : KycStore.Store}

/-- No snapshot is written. -/
def NoSnapshot (w : KycStore.Write) : Prop := ∀ entry, w ≠ .snapshot entry

theorem confined_onPerson {α : Type} (p : Personal α) : Confined NoSnapshot (Review.onPerson p) :=
  confined_within personal (fun w entry h => by cases h) p

theorem confined_forget : Confined NoSnapshot (invalidate userId) :=
  Confined.send fun _ w hw => by
    rw [List.mem_singleton.mp hw]
    intro entry h
    cases h

theorem confined_syncReuse (phoneNumber : Option String) (kyc : KycProfile) :
    Confined NoSnapshot (syncReuse phoneNumber kyc) := by
  unfold syncReuse
  cases Sumsub.truthy phoneNumber with
  | none => exact Confined.pure
  | some number =>
    refine Confined.attempt ?_ fun _ => Confined.pure
    refine (confined_onPerson _).bind fun identity => Confined.bind ?_ fun _ => confined_onPerson _
    refine Confined.receive.bind fun now => Confined.query.bind fun existing =>
      (Confined.writeRows fun _ w hw => ?_).bind fun _ => Confined.pure
    rw [List.mem_singleton.mp hw]
    intro entry h
    cases h

/-- `getSnapshot` alone writes a snapshot. -/
theorem confined_program {call : Call} (hcall : call ≠ .getSnapshot) :
    Confined NoSnapshot (program config configured userId call) := by
  cases call with
  | getSnapshot => exact absurd rfl hcall
  | expire => exact confined_forget.bind fun _ => Confined.pure
  | approve reviewedBy =>
    refine Confined.bind ?_ fun _ => Confined.pure
    refine (confined_onPerson _).bind fun kyc => Confined.query.bind fun user => ?_
    refine (confined_syncReuse _ kyc).bind fun _ => (confined_onPerson _).bind fun _ => ?_
    exact Confined.query.bind fun _ => confined_forget.bind fun _ => Confined.query
  | reject reason reviewedBy =>
    refine Confined.bind ?_ fun _ => Confined.pure
    exact (confined_onPerson _).bind fun _ => (confined_onPerson _).bind fun _ => Confined.query
  | resyncFromSumsub answers =>
    refine Confined.bind ?_ fun _ => Confined.pure
    refine Confined.query.bind fun found => Confined.expect.bind fun kyc => ?_
    refine Confined.require.bind fun _ => (confined_onPerson _).bind fun sync => ?_
    refine Confined.query.bind fun _ => confined_forget.bind fun _ => ?_
    exact Confined.query.bind fun row => Confined.expect.bind fun _ => Confined.pure
  | processSumsubWebhook d => exact (confined_onPerson _).bind fun _ => Confined.pure
  | submitKyc payload => exact (confined_onPerson _).bind fun _ => Confined.pure

/-- The cache has no other snapshot than the one it had. -/
def Kept (userId : ℕ) (cached : Option IdentitySnapshot) (s : KycStore.Store) : Prop :=
  s.snapshots.find? userId = none ∨ s.snapshots.find? userId = cached

theorem kept_write {cached : Option IdentitySnapshot} (s : KycStore.Store) (w : KycStore.Write)
    (hw : NoSnapshot w) (h : Kept userId cached s) :
    Kept userId cached (Storage.write s w) := by
  cases w with
  | person w => exact h
  | reusable r => exact h
  | snapshot entry => exact absurd rfl (hw entry)
  | forget id =>
    by_cases hid : userId = id
    · subst hid
      exact .inl ((Table.find?_delete s.snapshots userId userId).trans (if_pos rfl))
    · have hsame : (s.snapshots.delete id).find? userId = s.snapshots.find? userId :=
        (Table.find?_delete s.snapshots id userId).trans (if_neg hid)
      exact h.imp hsame.trans hsame.trans

/-- The calls that drop the snapshot leave none where they answer. -/
theorem forgotten {call : Call} (hcall : call.invalidates) :
    MustEnd (Value fun _ _ t => Uncached userId t) (program config configured userId call) .idle s := by
  have hforget : ∀ {ses t}, MustEnd (Value fun _ _ t => Uncached userId t)
      (invalidate userId : Review Unit) ses t := by
    intro ses t
    exact MustEnd.pure ((Table.find?_delete t.snapshots userId userId).trans (if_pos rfl))
  cases call with
  | approve reviewedBy =>
    refine MustEnd.bind ?_ fun _ ses t ht => MustEnd.pure ht
    refine (MustEnd.any _).bind fun kyc ses t _ => (MustEnd.any _).bind fun user ses t _ => ?_
    refine (MustEnd.any _).bind fun _ ses t _ => (MustEnd.any _).bind fun _ ses t _ => ?_
    refine (MustEnd.any _).bind fun _ ses t _ => hforget.bind fun _ ses t ht => ?_
    exact MustEnd.query ht
  | resyncFromSumsub answers =>
    refine MustEnd.bind ?_ fun _ ses t ht => MustEnd.pure ht
    refine (MustEnd.any _).bind fun found ses t _ => (MustEnd.any _).bind fun kyc ses t _ => ?_
    refine (MustEnd.any _).bind fun _ ses t _ => (MustEnd.any _).bind fun sync ses t _ => ?_
    refine (MustEnd.any _).bind fun _ ses t _ => hforget.bind fun _ ses t ht => ?_
    refine MustEnd.bind (P := fun _ _ t => Uncached userId t) (MustEnd.query ht)
      fun row ses t ht => ?_
    exact (MustEnd.expect (P := fun _ _ t => Uncached userId t) fun _ _ => ht).bind
      fun _ ses t ht => MustEnd.pure ht
  | _ => exact hcall.elim

/-- The rows are as they were. -/
def SameRows {α : Type} (person : PersonStore.Store) (_ : Except PersonError α)
    (_ : Session KycStore.Key KycStore.Write) (t : KycStore.Store) : Prop := t.person = person

/-- The call threw, and the rows are as they were. -/
def Stopped {α : Type} (person : PersonStore.Store) (r : Except PersonError α)
    (_ : Session KycStore.Key KycStore.Write) (t : KycStore.Store) : Prop :=
  (∃ e, r = .error e) ∧ t.person = person

theorem Stopped.bind {α β : Type} {person : PersonStore.Store} {p : Review α} {k : α → Review β}
    {ses : Session KycStore.Key KycStore.Write} (h : MustEnd (Stopped person) p ses s) :
    MustEnd (Stopped person) (p >>= k) ses s := by
  refine MustEnd.handle h (fun a ses t ha => ?_) fun e ses t he => ⟨⟨e, rfl⟩, he.2⟩
  obtain ⟨⟨e, he⟩, -⟩ := ha
  cases he

theorem sameRows_bind {α : Type} {person : PersonStore.Store} {p : Review α}
    (h : MustEnd (SameRows person) p .idle s) :
    MustEnd (SameRows person) (p >>= fun _ => pure (none : Option IdentitySnapshot)) .idle s :=
  MustEnd.handle h (fun _ _ _ ha => ha) fun _ _ _ he => he

theorem sameRows_of_stopped {α : Type} {person : PersonStore.Store} {p : Review α}
    (h : MustEnd (Stopped person) p .idle s) : MustEnd (SameRows person) p .idle s :=
  h.mono fun _ _ _ hr => hr.2

theorem sameRows_onPerson {α : Type} {p : Personal α}
    (h : MustEnd (fun _ _ t => t = s.person) p .idle s.person) :
    MustEnd (SameRows s.person) (Review.onPerson p) .idle s :=
  (mustEnd_within h (Carries.idle : Carries personal .idle .idle)).mono fun _ _ _ ⟨_, _, _, _, ht⟩ => ht

theorem stopped_onPerson {α : Type} {p : Personal α}
    (h : MustEnd (fun r _ t => (∃ e, r = .error e) ∧ t = s.person) p .idle s.person) :
    MustEnd (Stopped s.person) (Review.onPerson p) .idle s := by
  refine (mustEnd_within h (Carries.idle : Carries personal .idle .idle)).mono fun r _ t ht => ?_
  obtain ⟨r', ses, rfl, -, ⟨e, rfl⟩, ht⟩ := ht
  exact ⟨⟨e, rfl⟩, ht⟩

theorem stopped_decide {status reviewedBy : String} {reason : Option String}
    (hnone : s.person.kycProfiles.find? userId = none) :
    MustEnd (Stopped s.person) (Review.onPerson (decide status userId reviewedBy reason)) .idle s := by
  refine stopped_onPerson ⟨?_, ⟨_, rfl⟩, rfl⟩
  have hview : (Session.idle : Session PersonStore.Key PersonStore.Write).view s.person = s.person :=
    rfl
  simp only [hview, hnone]
  exact ⟨⟨_, rfl⟩, rfl⟩

/-- An event that is not newer is not applied. -/
theorem mustEnd_applyEvent {d : Delivery} {text : String} {eventAt : ℤ} {person : PersonStore.Store}
    (hstale : ∀ account, config.readId text = some account →
      isStale eventAt (person.kycProfiles.find? account) = true) :
    MustEnd (fun r ses t => (∀ o, r = .ok o → o = none) ∧ ses.pending = [] ∧ t = person)
      (applyEvent config d text eventAt) .opened person := by
  have hses : ∀ key, (Session.opened.acquire person key :
      Session PersonStore.Key PersonStore.Write).pending = [] := by
    intro key
    rw [Session.acquire]
    split <;> rfl
  refine ⟨?_, fun o ho => (by cases ho), rfl, rfl⟩
  change MustEnd _ _ (Session.opened.acquire person _) person
  generalize hacquired : (Session.opened.acquire person (.advisory ("sumsub-kyc:" ++ text)) :
    Session PersonStore.Key PersonStore.Write) = ses
  have hpending : ses.pending = [] := by
    rw [← hacquired]
    exact hses _
  cases haccount : config.readId text with
  | none => exact ⟨fun o ho => (by cases ho), hpending, rfl⟩
  | some account =>
    refine ⟨?_, fun o ho => (by cases ho), hpending, rfl⟩
    have hview : ses.view person = person := by rw [Session.view, hpending, publish]; rfl
    change MustEnd _ (if isStale eventAt ((ses.view person).kycProfiles.find? account) = true then _
      else _) ses person
    rw [hview, if_pos (hstale account haccount)]
    refine ⟨fun o ho => ?_, hpending, rfl⟩
    exact (Except.ok.inj ho).symm

theorem sameRows_webhook {d : Delivery}
    (h : Undecided config userId s.person (.processSumsubWebhook d)) :
    MustEnd (fun _ _ t => t = s.person) (processSumsubWebhook config d) .idle s.person := by
  unfold processSumsubWebhook
  cases hdigest : d.digest with
  | error e => rfl
  | ok _ =>
    have hstale := h.resolve_left (by simp [hdigest])
    cases htext : d.event.userId with
    | none => rfl
    | some text =>
      cases hat : d.event.providerEventAt config.toTime with
      | none => rfl
      | some eventAt =>
        have happly := mustEnd_applyEvent (d := d) fun account haccount =>
          hstale text eventAt account htext hat haccount
        refine MustEnd.handle (Q := fun r _ t => (∀ o, r = .ok o → o = none) ∧ t = s.person) ?_
          (fun o ses t ho => ?_) fun e ses t he => he.2
        · refine MustEnd.handle (Q := fun r _ t => (∀ o, r = .ok o → o = none) ∧ t = s.person) ?_
            (fun o ses t ho => ⟨fun _ h => ho.1 _ (by cases h; rfl), ho.2⟩)
            fun e ses t he => ⟨fun o ho => (by cases ho), he.2⟩
          refine MustEnd.handle happly (fun o ses t ho => ?_) fun e ses t he => ?_
          · obtain ⟨hnone, hpending, rfl⟩ := ho
            simp only [MustEnd, hpending]
            exact ⟨⟨fun _ h => hnone _ (by cases h; rfl), rfl⟩, fun o ho => (by cases ho), trivial⟩
          · exact ⟨fun o ho => (by cases ho), he.2.2⟩
        · obtain ⟨hnone, rfl⟩ := ho
          rw [hnone o rfl]
          rfl

theorem sameRows_submitKyc {payload : SubmitKycDto}
    (h : Undecided config userId s.person (.submitKyc payload)) :
    MustEnd (fun _ _ t => t = s.person)
      (submitKyc config.hashNationalId config.toDate userId payload) .idle s.person := by
  have hview : (Session.idle : Session PersonStore.Key PersonStore.Write).view s.person = s.person :=
    rfl
  refine ⟨?_, rfl⟩
  simp only [hview]
  cases huser : s.person.users.find? userId with
  | none => rfl
  | some user =>
    obtain ⟨e, he⟩ := h.resolve_left (by simp [huser])
    refine ⟨?_, rfl⟩
    simp only [he]
    rfl

/-- A call that is refused leaves the rows. -/
theorem sameRows_undecided {call : Call} (hcall : call ≠ .getSnapshot)
    (h : Undecided config userId s.person call) :
    MustEnd (SameRows s.person) (program config configured userId call) .idle s := by
  cases call with
  | getSnapshot => exact absurd rfl hcall
  | expire => exact (rfl : s.person = s.person)
  | approve reviewedBy =>
    exact sameRows_of_stopped (Stopped.bind (Stopped.bind (stopped_decide h)))
  | reject reason reviewedBy =>
    exact sameRows_of_stopped (Stopped.bind (Stopped.bind (stopped_decide h)))
  | resyncFromSumsub answers =>
    refine sameRows_of_stopped (Stopped.bind ⟨?_, ⟨_, rfl⟩, rfl⟩)
    have hnone : (Session.idle.view s).person.kycProfiles.find? userId = none := h
    simp only [hnone]
    exact ⟨⟨_, rfl⟩, rfl⟩
  | processSumsubWebhook d => exact sameRows_bind (sameRows_onPerson (sameRows_webhook h))
  | submitKyc payload => exact sameRows_bind (sameRows_onPerson (sameRows_submitKyc h))

theorem userId_loaded {person : PersonStore.Store} : (loaded userId person).userId = userId := by
  unfold loaded
  cases huser : person.users.find? userId with
  | none => rfl
  | some user =>
    have hid : user.id = userId := Table.key_of_find? huser
    exact hid

theorem mustEnd_loadSnapshot :
    MustEnd (fun r _ t => (∀ snapshot, r = .ok snapshot → snapshot = loaded userId s.person) ∧ t = s)
      (Review.onPerson (loadSnapshot userId)) .idle s := by
  have hview : (Session.idle : Session KycStore.Key KycStore.Write).view s = s := rfl
  refine ⟨?_, fun _ h => (by cases h), rfl⟩
  simp only [hview]
  cases huser : s.person.users.find? userId with
  | none =>
    have hfind : (personal.get s).users.find? userId = none := huser
    simp only [hfind]
    refine ⟨fun snapshot h => ?_, rfl⟩
    simp [loaded, huser, ← Except.ok.inj h]
  | some user =>
    have hfind : (personal.get s).users.find? userId = some user := huser
    simp only [hfind]
    refine ⟨⟨fun snapshot h => ?_, rfl⟩, fun _ h => (by cases h), rfl⟩
    simp only [loaded, huser]
    exact (Except.ok.inj h).symm

/-- What the call answers, and what it leaves in the cache. -/
def Answers (userId : ℕ) (s : KycStore.Store) (r : Except PersonError IdentitySnapshot)
    (_ : Session KycStore.Key KycStore.Write) (t : KycStore.Store) : Prop :=
  Standing userId t ∧ ∀ snapshot, r = .ok snapshot →
    decision snapshot = decision (loaded userId s.person)

theorem mustEnd_remembered {α β : Type} {Q : Except PersonError β → Session KycStore.Key KycStore.Write →
    KycStore.Store → Prop} {f : KycStore.Store → α} {k : α → Review β}
    (h : MustEnd Q (k (f s)) .idle s) : MustEnd Q (Review.remembered f >>= k) .idle s :=
  h

theorem mustEnd_getSnapshot (hs : Standing userId s) :
    MustEnd (Answers userId s) (getSnapshot userId) .idle s := by
  refine mustEnd_remembered ?_
  cases hcached : s.snapshots.find? userId with
  | some cached =>
    refine ⟨hs, fun snapshot h => ?_⟩
    rw [← Except.ok.inj h]
    exact hs cached hcached
  | none =>
    refine MustEnd.handle mustEnd_loadSnapshot (fun snapshot ses t h => ?_) fun e ses t h => ?_
    · obtain ⟨hloaded, rfl⟩ := h
      have hsnapshot := hloaded snapshot rfl
      refine ⟨fun cached hfind => ?_, fun snapshot' h => ?_⟩
      · have hput : (t.snapshots.put snapshot).find? userId = some snapshot := by
          rw [Table.find?_put, hsnapshot, userId_loaded, if_pos rfl]
        rw [← Option.some.inj (hput.symm.trans hfind), hsnapshot]
        rfl
      · rw [← Except.ok.inj h, hsnapshot]
    · obtain ⟨-, rfl⟩ := h
      exact ⟨hs, fun _ h => (by cases h)⟩

/-- A clean call keeps a cached snapshot in step with the rows, and answers by them. -/
theorem standing_step {call : Call} {t : KycStore.Store}
    {r : Except PersonError (Option IdentitySnapshot)}
    (hclean : Clean config userId (⟨call, s, t⟩, r)) (hs : Standing userId s)
    {sys : System Call KycStore.Store KycStore.Key KycStore.Write PersonError
      (Option IdentitySnapshot)}
    {thread : Thread Call KycStore.Store KycStore.Key KycStore.Write PersonError
      (Option IdentitySnapshot)}
    (hrun : System.Run (fun _ _ => True) (solo call s (program config configured userId call)) sys)
    (hthread : thread ∈ sys.threads) (hresult : outcome thread.program = some r)
    (hstore : sys.store = t) :
    Standing userId t ∧ Follows userId (⟨call, s, t⟩, r) := by
  subst hstore
  by_cases hcall : call = .getSnapshot
  · subst hcall
    have hget : MustEnd (fun r _ t => Standing userId t ∧ ∀ snapshot, r = .ok (some snapshot) →
        decision snapshot = decision (loaded userId s.person))
        (program config configured userId .getSnapshot) .idle s := by
      refine MustEnd.handle (mustEnd_getSnapshot hs) (fun snapshot ses t h => ?_) fun e ses t h => ?_
      · refine ⟨h.1, fun snapshot' heq => ?_⟩
        rw [← Option.some.inj (Except.ok.inj heq)]
        exact h.2 snapshot rfl
      · exact ⟨h.1, fun _ heq => (by cases heq)⟩
    obtain ⟨_, hstanding, hanswer⟩ := result_of_run hget hrun hthread hresult
    exact ⟨hstanding, fun _ => hanswer⟩
  · refine ⟨fun cached hcached => ?_, fun h => absurd h hcall⟩
    have hkept : Kept userId (s.snapshots.find? userId) sys.store :=
      confined_solo kept_write (confined_program hcall) (.inr rfl) hrun
    have hbefore : s.snapshots.find? userId = some cached := by
      obtain hnone | hsame := hkept
      · rw [hnone] at hcached
        cases hcached
      · rw [← hsame, hcached]
    obtain huncached | hundecided | ⟨hinvalidates, answer, rfl⟩ := hclean
    · rw [Uncached, hbefore] at huncached
      cases huncached
    · obtain ⟨_, hrows⟩ := result_of_run (sameRows_undecided hcall hundecided) hrun hthread hresult
      rw [hrows]
      exact hs cached hbefore
    · obtain ⟨_, hvalue⟩ := result_of_run (forgotten hinvalidates) hrun hthread hresult
      have hgone : sys.store.snapshots.find? userId = none := hvalue answer rfl
      rw [hgone] at hcached
      cases hcached

/-- In every sequence whose calls are clean, every `getSnapshot` answers the status and the tier
that the rows have. -/
theorem snapshot_follows {log : List Entry} {t : KycStore.Store}
    (hlog : Log (program config configured userId) s log t) (hs : Uncached userId s)
    (hclean : ∀ entry ∈ log, Clean config userId entry) : ∀ entry ∈ log, Follows userId entry := by
  have hstanding : Standing userId s := by
    intro cached hcached
    rw [hs] at hcached
    cases hcached
  refine (hlog.all hstanding hclean fun call s r t hok hs h => ?_).2
  obtain ⟨sys, thread, hrun, hthread, hresult, hstore⟩ := h
  exact standing_step hok hs hrun hthread hresult hstore

end Proofs

/-- A case of the first account, with the status. -/
def caseOf (status : String) : KycProfile :=
  { newKycProfile 1 "PAY" with
    status
    level := "FULL" }

/-- An account without a number, with a verified case. -/
def verified : KycStore.Store :=
  .of { Store.blank with
    users := .ofRows [{ SharedProfile.account 1 .consumer "VERIFIED" with phoneNumber := none }]
    kycProfiles := .ofRows [caseOf "VERIFIED"] }

theorem uncached_verified : Uncached 1 verified := rfl

def sampleProgram : Call → Review (Option IdentitySnapshot) := program sampleConfig true 1

/-- The store after a call of `n` statements. -/
def left (s : KycStore.Store) (call : Call) (n : ℕ) : KycStore.Store :=
  (Phases.after (solo call s (sampleProgram call)) (System.turns 0 0 n)).store

/-- The snapshot of the verified case. -/
def verifiedSnapshot : IdentitySnapshot := loaded 1 verified.person

def rejection : Call := .reject "blurred" "admin"

def approval : Call := .approve "admin"

/-- A snapshot is read, the case is decided in `n` statements, and a snapshot is read again. -/
theorem exists_log (call : Call) (n m : ℕ) (last : IdentitySnapshot)
    (hexec : (System.exec (fun _ _ => True) (solo call (left verified .getSnapshot 4)
      (sampleProgram call)) (System.turns 0 0 n)).isSome = true)
    (hresult : ((Phases.after (solo call (left verified .getSnapshot 4) (sampleProgram call))
      (System.turns 0 0 n)).threads.map fun thread => outcome thread.program) = [some (.ok none)])
    (hexec' : (System.exec (fun _ _ => True) (solo Call.getSnapshot
      (left (left verified .getSnapshot 4) call n) (sampleProgram .getSnapshot))
      (System.turns 0 0 m)).isSome = true)
    (hresult' : ((Phases.after (solo Call.getSnapshot (left (left verified .getSnapshot 4) call n)
      (sampleProgram .getSnapshot)) (System.turns 0 0 m)).threads.map fun thread =>
        outcome thread.program) = [some (.ok (some last))]) :
    ∃ t, Log sampleProgram verified
      [(⟨.getSnapshot, verified, left verified .getSnapshot 4⟩, .ok (some verifiedSnapshot)),
        (⟨call, left verified .getSnapshot 4, left (left verified .getSnapshot 4) call n⟩, .ok none),
        (⟨.getSnapshot, left (left verified .getSnapshot 4) call n, t⟩, .ok (some last))] t := by
  have hfirst : Log sampleProgram verified
      [(⟨.getSnapshot, verified, left verified .getSnapshot 4⟩, .ok (some verifiedSnapshot))]
      (left verified .getSnapshot 4) :=
    Log.nil.call Call.getSnapshot 4 (by decide +kernel) rfl
  exact ⟨_, (hfirst.call call n hexec hresult).call Call.getSnapshot m hexec' hresult'⟩

/-- An approval drops the snapshot, and the next one is read from the rows. -/
theorem snapshot_follows_approval : ∃ log t, Log sampleProgram verified log t ∧ log.length = 3 ∧
    ∀ entry ∈ log, Follows 1 entry := by
  obtain ⟨t, hlog⟩ := exists_log approval 10 4 { verifiedSnapshot with updatedAt := some 1 }
    (by decide +kernel) rfl (by decide +kernel) rfl
  refine ⟨_, t, hlog, rfl, snapshot_follows hlog uncached_verified fun entry hentry => ?_⟩
  simp only [List.mem_cons, List.not_mem_nil, or_false] at hentry
  obtain rfl | rfl | rfl := hentry
  · exact .inr (.inl trivial)
  · exact .inr (.inr ⟨trivial, _, rfl⟩)
  · exact .inr (.inl trivial)

/-- After a rejection the snapshot that was cached is still answered. -/
theorem rejected_snapshot_verified : ∃ log t, Log sampleProgram verified log t ∧
    Uncached 1 verified ∧ ∃ entry ∈ log, ¬Follows 1 entry := by
  obtain ⟨t, hlog⟩ := exists_log rejection 6 1 verifiedSnapshot (by decide +kernel) rfl
    (by decide +kernel) rfl
  refine ⟨_, t, hlog, uncached_verified, _, List.mem_cons_of_mem _ (List.mem_cons_of_mem _
    List.mem_cons_self), fun hfollows => ?_⟩
  have hsame := hfollows rfl verifiedSnapshot rfl
  have hdiff : decision verifiedSnapshot ≠
      decision (loaded 1 (left (left verified .getSnapshot 4) rejection 6).person) := by
    decide +kernel
  exact hdiff hsame

end NexaStays.SnapshotFreshness
