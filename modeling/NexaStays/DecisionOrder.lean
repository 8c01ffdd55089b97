import NexaStays.CriticalSections
import NexaStays.ProviderSync
import NexaStays.SumsubEffects

/-!
# Provider decisions and the calls that overlap them

A webhook commits its outcome behind the lock of the account. The other calls that write the
status read rows, or ask the provider, outside of it: one that is under way when the webhook
commits may write over the outcome what it knew before.
-/
namespace NexaStays.DecisionOrder

open NexaStays.KeyedTable NexaStays.Transactions NexaStays.Phases NexaStays.Snapshots
open NexaStays.EntitySave NexaStays.PersonStore NexaStays.Sumsub NexaStays.ProviderSync
open NexaStays.CriticalSections

/-- The calls about one user. The provider answers while a call is under way. -/
inductive Call where
  | processSumsubWebhook (d : Delivery)
  | syncSumsubStatus (source : String) (answers : ℕ → ProviderAnswers)
  | syncSumsubDossier (source : String) (answers : ℕ → ProviderAnswers)
  | createSumsubSdkToken (source : String) (answers : ℕ → Except String (Option String))

abbrev ProviderSystem := System Call Store Key Write PersonError Unit

section Calls

variable (config : WebhookConfig) (configured : Bool) (userId : ℕ)

def program : Call → Personal Unit
  | .processSumsubWebhook d => do
    let _ ← processSumsubWebhook config d
    pure ()
  | .syncSumsubStatus source answers => do
    let n ← Program.receive
    let _ ← syncSumsubStatus config configured userId source (answers n)
    pure ()
  | .syncSumsubDossier source answers => do
    let n ← Program.receive
    let _ ← syncSumsubDossier config configured userId source (answers n)
    pure ()
  | .createSumsubSdkToken source answers => createSumsubSdkToken userId source answers

/-- `kyc_profiles.status` and `users.kyc_status`. -/
def statuses (s : Store) : Option String × Option String :=
  ((s.kycProfiles.find? userId).map (·.status), (s.users.find? userId).map (·.kycStatus))

def Call.isWebhook : Call → Bool
  | .processSumsubWebhook _ => true
  | _ => false

/-- The next statement of the call is the commit of a webhook that leaves an outcome. -/
def Decides (sys : ProviderSystem) (i : ℕ) : Prop :=
  ∃ t k err, sys.threads[i]? = some t ∧ t.call.isWebhook = true ∧ t.program = .commit k err ∧
    (statuses userId (publish sys.store t.session.pending)).1 ∈ [some "VERIFIED", some "REJECTED"]

/-- After the commit of `i` no step of a call that had read before it changes the statuses. -/
def Kept (sys : ProviderSystem) (i : ℕ) : Prop :=
  ∀ n sys₂ sys₃ sys₄ b, sys.step (.run i n) = some sys₂ →
    System.Run (fun _ _ => True) sys₂ sys₃ → sys₃.step b = some sys₄ →
    statuses userId sys₄.store ≠ statuses userId sys₃.store →
    ∀ u, sys.threads[System.mover b]? = some u → Unread (program config configured userId) u

/-- No other call than a webhook is under way. -/
def Clear (sys : ProviderSystem) : Prop :=
  ∀ u ∈ sys.threads, u.call.isWebhook = true ∨ Unread (program config configured userId) u ∨
    Ended u.program

/-- The webhooks name the user by the one text. -/
def Named (text : String) (calls : List Call) : Prop :=
  ∀ d, Call.processSumsubWebhook d ∈ calls → d.event.userId = some text

end Calls

section Proofs

variable {config : WebhookConfig} {configured : Bool} {userId : ℕ}

/-- A view in which nothing is seen. -/
def nothing (_ : Store) : Option Unit := none

theorem spares_nothing (w : Write) : Spares nothing w := fun _ => rfl

theorem plain_update {ws : Store → List Write} : Plain nothing (Personal.update ws) :=
  Plain.writeRows fun _ w _ => spares_nothing w

theorem plain_save {ρ : Type} [DecidableEq ρ] [Columns ρ] {table : Saved Store Write ρ} {new : ρ} :
    Plain nothing (saveEntity table PersonError.database new : Personal Unit) :=
  plain_saveEntity fun row => spares_nothing (table.put row)

theorem plain_saveKyc {found : Option KycProfile} {kyc : KycProfile} :
    Plain nothing (saveKyc found kyc) := by
  cases found with
  | some _ => exact plain_save
  | none => exact plain_update.bind fun _ => Plain.require

theorem plain_approveIdentity {toDate : String → Option String} {user : User} {kyc : KycProfile} :
    Plain nothing (approveIdentity toDate user kyc) := by
  unfold approveIdentity
  cases user.unifiedIdentityId with
  | none => trivial
  | some identityId =>
    by_cases hverified : kyc.status = "VERIFIED"
    · simp only [if_pos hverified]
      exact Plain.ofExcept.bind fun _ => plain_update.bind fun _ => trivial
    · simp only [if_neg hverified]
      trivial

theorem plain_applySumsubReviewStatus {params : ReviewParams} :
    Plain nothing (applySumsubReviewStatus config.hashNationalId config.toDate params) := by
  refine Plain.query.bind fun found => Plain.receive.bind fun now => ?_
  refine Plain.query.bind fun user => Plain.receive.bind fun reviewedAt => ?_
  refine plain_saveKyc.bind fun _ => ?_
  cases user with
  | none => trivial
  | some user =>
    refine Plain.ofExcept.bind fun dateOfBirth => Plain.receive.bind fun lockedAt => ?_
    exact plain_save.bind fun _ => plain_approveIdentity.bind fun _ => trivial

/-- The reference of a profile is not its status. -/
theorem statuses_reference {s : Store} {account : ℕ} {row : KycProfile} (reference : Option String)
    (h : s.kycProfiles.find? account = some row) :
    statuses userId (s.write (.kycProfile { row with reference })) = statuses userId s := by
  have hkey : row.userId = account := Table.key_of_find? h
  have hput : ((s.kycProfiles.put { row with reference }).find? userId).map (·.status) =
      (s.kycProfiles.find? userId).map (·.status) := by
    rw [Table.find?_put]
    by_cases hid : userId = row.userId
    · rw [if_pos hid, hid, hkey, h]
      rfl
    · rw [if_neg hid]
  exact Prod.ext hput rfl

theorem statuses_references {s : Store} {account : ℕ} (p : KycProfile → Bool)
    (reference : Option String) :
    statuses userId (publish s (((s.kycProfiles.find? account).filter p).toList.map fun row =>
      .kycProfile { row with reference })) = statuses userId s := by
  cases hfound : s.kycProfiles.find? account with
  | none => rfl
  | some row =>
    by_cases hp : p row = true
    · rw [Option.filter_some, if_pos hp]
      exact statuses_reference reference hfound
    · rw [Option.filter_some, if_neg hp]
      rfl

theorem quiet_syncDossier {d : Delivery} {account : ℕ} {eventAt : ℤ} :
    Quiet (statuses userId) (syncDossier d account eventAt) := by
  unfold syncDossier
  cases Sumsub.truthy d.event.applicantId with
  | none => trivial
  | some applicantId =>
    by_cases hmedia : shouldSyncDossierMediaOnWebhook d.event.type = true
    · simp only [if_pos hmedia]
      refine Quiet.handle ?_ (fun _ => trivial) fun _ => trivial
      refine Quiet.query.bind fun found => ?_
      cases found with
      | none => trivial
      | some kyc => exact (Quiet.writeRows fun s => statuses_references _ _).bind fun _ => trivial
    · simp only [if_neg hmedia]
      trivial

theorem plain_appliedEvent {d : Delivery} {text : String} {eventAt : ℤ} :
    Plain nothing (do
      let userId ← Program.expect (config.readId text) .database
      let previous ← Personal.read fun s => s.kycProfiles.find? userId
      if isStale eventAt previous then pure none
      else do
        let applied ← applySumsubReviewStatus config.hashNationalId config.toDate (d.params userId)
        let _ ← Personal.update fun s => (s.kycProfiles.find? userId).toList.map fun kyc =>
          .kycProfile { kyc with lastProviderEventAt := some eventAt }
        pure (some applied) : Personal (Option ReviewAnswer)) := by
  refine Plain.expect.bind fun account => Plain.query.bind fun previous => ?_
  by_cases hstale : isStale eventAt previous = true
  · simp only [if_pos hstale]
    trivial
  · simp only [if_neg hstale]
    exact plain_applySumsubReviewStatus.bind fun _ => plain_update.bind fun _ => trivial

theorem sectioned_webhook {d : Delivery} {text : String} (htext : d.event.userId = some text) :
    Sectioned (statuses userId) (Key.advisory ("sumsub-kyc:" ++ text))
      (program config configured userId (.processSumsubWebhook d)) := by
  show Sectioned _ _ (processSumsubWebhook config d >>= fun _ => pure ())
  unfold processSumsubWebhook
  cases hdigest : d.digest with
  | error e => exact .inl trivial
  | ok _ =>
    rw [htext]
    cases hat : d.event.providerEventAt config.toTime with
    | none => exact .inl trivial
    | some eventAt =>
      refine .inr ⟨_, _, rfl, fun s => ?_, ?_⟩
      · refine Body.handle (Body.handle (Body.handle (Body.of_plain plain_appliedEvent
          (fun _ => ⟨trivial, trivial⟩) fun _ => trivial) (fun _ => trivial) fun _ => trivial)
          (fun result => ?_) fun _ => trivial) (fun _ => trivial) fun _ => trivial
        cases result with
        | none => trivial
        | some review => exact quiet_syncDossier.bind fun _ => trivial
      · trivial

/-- The calls of a run are those that were launched. -/
theorem calls_of_run {s : Store} {calls : List Call} {sys : ProviderSystem}
    (hrun : System.Run (fun _ _ => True)
      (launch (program config configured userId) s calls) sys) : ∀ t ∈ sys.threads, t.call ∈ calls := by
  induction hrun with
  | refl =>
    intro t ht
    obtain ⟨c, hc, rfl⟩ := List.mem_map.mp ht
    exact hc
  | tail _ _ hstep ih =>
    obtain ⟨t, p, ses, ws, ht, hmove, rfl⟩ := System.step_eq_some.mp hstep
    intro u hu
    obtain hmem | rfl := List.mem_or_eq_of_mem_set hu
    · exact ih u hmem
    · exact ih t (List.mem_of_getElem? ht)

/-- Where no other call than a webhook is under way, the outcome that is committed is changed
later by calls only that had read nothing before. -/
theorem kept_of_clear {s : Store} {calls : List Call} {text : String} {sys : ProviderSystem}
    {i : ℕ} (hnamed : Named text calls)
    (hrun : System.Run (fun _ _ => True) (launch (program config configured userId) s calls) sys)
    (hdecides : Decides userId sys i) (hclear : Clear config configured userId sys) :
    Kept config configured userId sys i := by
  obtain ⟨t, k, err, ht, hwebhook, hcommit, -⟩ := hdecides
  have hsection : ∀ u ∈ sys.threads, u.call.isWebhook = true → Sectioned (statuses userId)
      (Key.advisory ("sumsub-kyc:" ++ text)) (program config configured userId u.call) := by
    intro u hu hwebhook
    have hcall := calls_of_run hrun u hu
    cases hu' : u.call with
    | processSumsubWebhook d =>
      rw [hu'] at hcall
      exact sectioned_webhook (hnamed d hcall)
    | _ =>
      rw [hu'] at hwebhook
      cases hwebhook
  intro n sys₂ sys₃ sys₄ b hstep hrun' hstep' hchanged
  refine unread_of_change (fun _ => rfl) hrun ht hcommit
    (hsection t (List.mem_of_getElem? ht) hwebhook) (fun j u _ hu => ?_) hstep hrun' hstep' hchanged
  exact (hclear u (List.mem_of_getElem? hu)).imp_left (hsection u (List.mem_of_getElem? hu))

end Proofs

/-- An approval that tells the country. -/
def greenEvent : SumsubEvent :=
  { sampleEvent "2026-01-02T00:00:00Z" (some "GREEN") with applicant := some (applicantFrom "MAR") }

def mint : Call := .createSumsubSdkToken "PAY" fun _ => .ok none

def approvalEvent : Call := .processSumsubWebhook (deliver greenEvent)

/-- An account whose verification is pending. -/
def pendingAccount : Store :=
  { Store.blank with users := .ofRows [SharedProfile.account 1 .consumer "PENDING"] }

def sampleProgram : Call → Personal Unit := program sampleConfig true 1

/-- The account is read for the token, then the event is applied in `n` statements. -/
def overlapping (n : ℕ) : ProviderSystem :=
  after (launch sampleProgram pendingAccount [mint, approvalEvent])
    (System.turns 0 0 1 ++ System.turns 1 0 n)

/-- The event has committed, and the token is minted in `n` statements. -/
def minted (n : ℕ) : ProviderSystem :=
  after (after (overlapping 13) [.run 1 13]) (System.turns 0 0 n)

/-- The kind of the next statement, as far as it is told apart here. -/
def isCommit {α : Type} : Personal α → Bool
  | .commit _ _ => true
  | _ => false

def isChoose {α : Type} : Personal α → Bool
  | .choose _ => true
  | _ => false

def isStart {α : Type} : Personal α → Bool
  | .start _ => true
  | _ => false

theorem commit_of_isCommit {p : Personal Unit} (h : isCommit p = true) :
    ∃ k err, p = .commit k err := by
  cases p with
  | commit k err => exact ⟨k, err, rfl⟩
  | _ => cases h

theorem decides_of_check {sys : ProviderSystem} (h : (sys.threads[1]?.any fun t =>
    t.call.isWebhook && isCommit t.program &&
      decide ((statuses 1 (publish sys.store t.session.pending)).1 ∈
        [some "VERIFIED", some "REJECTED"])) = true) : Decides 1 sys 1 := by
  cases ht : sys.threads[1]? with
  | none =>
    rw [ht] at h
    cases h
  | some t =>
    rw [ht] at h
    simp only [Option.any_some, Bool.and_eq_true, decide_eq_true_eq] at h
    obtain ⟨⟨hwebhook, hcommit⟩, houtcome⟩ := h
    obtain ⟨k, err, hprogram⟩ := commit_of_isCommit hcommit
    exact ⟨t, k, err, ht, hwebhook, hprogram, houtcome⟩

theorem named_sample : Named "1" [mint, approvalEvent] := by
  intro d hd
  simp only [mint, approvalEvent, List.mem_cons, reduceCtorEq, Call.processSumsubWebhook.injEq,
    List.not_mem_nil, or_false, false_or] at hd
  subst hd
  rfl

/-- A token that is asked for after the commit. -/
theorem kept_before_mint : Kept sampleConfig true 1
    (after (launch sampleProgram pendingAccount [mint, approvalEvent]) (System.turns 1 0 13)) 1 := by
  have hrun : System.Run (fun _ _ => True) (launch sampleProgram pendingAccount [mint, approvalEvent])
      (after (launch sampleProgram pendingAccount [mint, approvalEvent]) (System.turns 1 0 13)) :=
    run_after (by decide +kernel)
  have hmint : (after (launch sampleProgram pendingAccount [mint, approvalEvent])
      (System.turns 1 0 13)).threads[0]? = some ⟨mint, .idle, sampleProgram mint⟩ := by
    rw [after_others fun a ha => ?_]
    · rfl
    · obtain ⟨n, rfl⟩ := eq_run_of_mem_turns ha
      exact Nat.one_ne_zero
  have hcalls : ((after (launch sampleProgram pendingAccount [mint, approvalEvent])
      (System.turns 1 0 13)).threads.tail.all fun t => t.call.isWebhook) = true := by
    decide +kernel
  refine kept_of_clear named_sample hrun (decides_of_check (by decide +kernel)) fun u hu => ?_
  obtain ⟨j, hj⟩ := List.mem_iff_getElem?.mp hu
  cases j with
  | zero =>
    obtain rfl := Option.some.inj (hmint.symm.trans hj)
    exact .inr (.inl (.inl rfl))
  | succ j =>
    refine .inl (List.all_eq_true.mp hcalls u (List.mem_of_getElem? (i := j) ?_))
    rw [List.getElem?_tail]
    exact hj

/-- A call that is about to choose a number has read, unless it starts with that. -/
theorem read_of_isChoose {u : Thread Call Store Key Write PersonError Unit}
    (hcheck : (isChoose u.program && !isChoose (sampleProgram u.call) &&
      !isStart (sampleProgram u.call)) = true) : ¬Unread sampleProgram u := by
  simp only [Bool.and_eq_true, Bool.not_eq_true'] at hcheck
  obtain ⟨⟨hchoose, hfirst⟩, hstart⟩ := hcheck
  rintro (hsame | hsame)
  · rw [← hsame, hchoose] at hfirst
    cases hfirst
  · rw [hsame] at hstart
    cases hstart

/-- The approval commits, and the token puts the account back to pending. -/
theorem approval_overwritten : ∃ sys i, System.Run (fun _ _ => True)
    (launch sampleProgram pendingAccount [mint, approvalEvent]) sys ∧
    Named "1" [mint, approvalEvent] ∧ Decides 1 sys i ∧ ¬Kept sampleConfig true 1 sys i := by
  refine ⟨overlapping 13, 1, run_after (by decide +kernel), named_sample,
    decides_of_check (by decide +kernel), fun hkept => ?_⟩
  have hchanged : statuses 1 (after (minted 4) [.run 0 4]).store ≠ statuses 1 (minted 4).store := by
    decide +kernel
  have hrun : System.Run (fun _ _ => True) (after (overlapping 13) [.run 1 13]) (minted 4) :=
    run_after (by decide +kernel)
  have hread : ((overlapping 13).threads[0]?.any fun u => isChoose u.program &&
      !isChoose (sampleProgram u.call) && !isStart (sampleProgram u.call)) = true := by
    decide +kernel
  obtain ⟨u, hu, hcheck⟩ := (Option.any_eq_true _ _).mp hread
  exact read_of_isChoose hcheck (hkept 13 _ _ _ (.run 0 4) (step_after (by decide +kernel)) hrun
    (step_after (by decide +kernel)) hchanged u hu)

end NexaStays.DecisionOrder
