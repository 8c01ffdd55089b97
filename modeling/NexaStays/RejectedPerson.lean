import NexaStays.SharedProfile
import NexaStays.SumsubEffects

/-!
# A rejected person

A final rejection is written to the profile and the account it is about. The unified identity
keeps its approval, and so do the other accounts of the person.
-/
namespace NexaStays.RejectedPerson

open NexaStays.KeyedTable NexaStays.Transactions NexaStays.EntitySave NexaStays.PersonStore
open NexaStays.Sequences NexaStays.Phases NexaStays.IdentityOnboarding NexaStays.Sumsub
open NexaStays.AccountDeletion (onboardingSource identityOf)

/-- What `getMe` tells of the verification of an account. -/
def onboardingOf (u : User) (s : Store) : IdentityVerificationStatus :=
  (deriveIdentityOnboardingState
    (onboardingSource u (identityOf u s) (s.kycProfiles.find? u.id))).status

/-- The account is linked to the identity. -/
def Linked (identityId : ℕ) (s : Store) (u : User) : Prop :=
  u ∈ s.users.rows ∧ u.unifiedIdentityId = some identityId

/-- The event is a final rejection. -/
def FinalRed (d : Delivery) : Prop :=
  ((d.event.result.bind (·.reviewAnswer)).getD "").toUpper = "RED"

/-- The latest delivery whose event has been applied. -/
def latest (log : List (Turn Delivery Store × WebhookAnswer)) : Option (Turn Delivery Store) :=
  ((log.filter fun entry => entry.2.updated).getLast?).map (·.1)

/-- No account of the person is approved. -/
def NoneApproved (identityId : ℕ) (s : Store) : Prop :=
  ∀ u, Linked identityId s u → onboardingOf u s ≠ .approved

/-- No account of the person is approved but for the one the event is about. -/
def OthersUnapproved (config : WebhookConfig) (identityId : ℕ) (d : Delivery) (s : Store) : Prop :=
  ∀ u, Linked identityId s u → accountOf config d ≠ some u.id → onboardingOf u s ≠ .approved

section Rejection

variable {config : WebhookConfig} {identityId : ℕ} {d : Delivery} {s t : Store} {u : User}

theorem decision_of_red (hred : FinalRed d) (userId : ℕ) :
    (d.params userId).decision = .rejected := by
  have hanswer : ((d.params userId).reviewAnswer.getD "").toUpper = "RED" := hred
  simp [ReviewParams.decision, mapSumsubEventToKycStatus, hanswer]

/-- A text without lower case letters. -/
theorem toUpper_eq_self {text : String} (h : text.toList.map Char.toUpper = text.toList) :
    text.toUpper = text := by
  rw [String.toUpper, ← String.toList_inj, String.toList_map, h]

theorem onboardingOf_of_rejected {k : KycProfile} (h : s.kycProfiles.find? u.id = some k)
    (hstatus : k.status = "REJECTED") : onboardingOf u s = .rejected := by
  rw [onboardingOf, deriveIdentityOnboardingState_status]
  refine onboardingStatus_rejected (by simp [onboardingSource, h]) ?_
  have hupper : ("REJECTED" : String).toUpper = "REJECTED" := toUpper_eq_self rfl
  simp [onboardingSource, h, hstatus, toIdentityVerificationStatus, hupper]

/-- The verification of an account depends on its row, its identity and its profile's status. -/
theorem onboardingOf_congr (hidentities : t.identities = s.identities)
    (hprofile : (t.kycProfiles.find? u.id).map (·.status) =
      (s.kycProfiles.find? u.id).map (·.status)) : onboardingOf u t = onboardingOf u s := by
  have hexists : (t.kycProfiles.find? u.id).isSome = (s.kycProfiles.find? u.id).isSome := by
    rw [← Option.isSome_map, hprofile, Option.isSome_map]
  simp only [onboardingOf, onboardingSource, identityOf, hidentities, hprofile, hexists]

theorem profiles_of_sameReviews (h : SameReviews s t) (userId : ℕ) :
    (t.kycProfiles.find? userId).map (·.status) = (s.kycProfiles.find? userId).map (·.status) := by
  have hsame := congrArg (Option.map KycProfile.status) (h.profiles userId)
  simpa [Option.map_map, Function.comp_def] using hsame

/-- The accounts after a rejection. -/
theorem noneApproved_iff_of_applied (h : Applied config d s t) (hred : FinalRed d) :
    NoneApproved identityId t ↔ OthersUnapproved config identityId d s := by
  obtain ⟨userId, providerEventAt, now, reviewedAt, kyc, haccount, -, -, hkyc, houtcome⟩ :=
    h.outcome
  have hstatus : kyc.status = "REJECTED" := by
    rw [hkyc]
    show profileStatus (d.params userId).decision _ = _
    rw [decision_of_red hred]
    rfl
  have hidentities : t.identities = s.identities := by
    refine houtcome.identities ?_
    rw [hstatus]
    decide
  have hothers : ∀ u : User, u.id ≠ userId → onboardingOf u t = onboardingOf u s := fun u hne =>
    onboardingOf_congr hidentities (by rw [houtcome.profiles u.id hne])
  have haccountOf : ∀ u : User, accountOf config d ≠ some u.id ↔ u.id ≠ userId := by
    intro u
    rw [haccount]
    exact ⟨fun hne heq => hne (by rw [heq]), fun hne heq => hne (Option.some.inj heq).symm⟩
  constructor
  · intro hnone u hu hne
    have hne' := (haccountOf u).mp hne
    rw [← hothers u hne']
    exact hnone u ⟨(houtcome.others u hne').mpr hu.1, hu.2⟩
  · intro hunapproved u hu
    by_cases heq : u.id = userId
    · have hprofile := houtcome.profile
      rw [← heq] at hprofile
      rw [onboardingOf_of_rejected hprofile hstatus]
      decide
    · rw [hothers u heq]
      exact hunapproved u ⟨(houtcome.others u heq).mp hu.1, hu.2⟩ ((haccountOf u).mpr heq)

theorem noneApproved_of_sameReviews (h : SameReviews s t) :
    NoneApproved identityId t ↔ NoneApproved identityId s := by
  have honboarding : ∀ u : User, onboardingOf u t = onboardingOf u s := fun u =>
    onboardingOf_congr h.identities (profiles_of_sameReviews h u.id)
  simp only [NoneApproved, Linked, h.users, honboarding]

/-- After the latest applied event of a sequence has rejected a person, no account of the person
is approved if and only if no other one was when the event came. -/
theorem rejected_everywhere_iff {log : List (Turn Delivery Store × WebhookAnswer)}
    (hrun : Deliveries config s log t) {turn : Turn Delivery Store} (hlatest : latest log = some turn)
    (hred : FinalRed turn.call) : NoneApproved identityId t ↔
      OthersUnapproved config identityId turn.call turn.before := by
  refine hrun.invariant (P := fun log t => latest log = some turn →
    (NoneApproved identityId t ↔ OthersUnapproved config identityId turn.call turn.before))
    (fun hnil => by cases hnil) (fun log t d a t' ih hprocessed hlatest => ?_) hlatest
  obtain ⟨hnot, rfl, -⟩ | ⟨hupdated, u, happlied, hsame⟩ := hprocessed
  · refine ih ?_
    simpa [latest, List.filter_append, hnot] using hlatest
  · have hturn : (⟨d, t, t'⟩ : Turn Delivery Store) = turn := by
      simpa [latest, List.filter_append, hupdated] using hlatest
    obtain rfl := hturn
    rw [noneApproved_of_sameReviews hsame]
    exact noneApproved_iff_of_applied happlied hred

end Rejection

/-- Neither the identity nor one of the accounts is verified. -/
def unverified : Store :=
  { Store.blank with
    users := .ofRows [SharedProfile.account 1 .consumer "PENDING",
      SharedProfile.account 2 .host "PENDING"]
    identities := .ofRows [{ SharedProfile.amal with
      identityVerified := false
      identityVerificationStatus := "PENDING" }] }

/-- The first account is approved, with a country. -/
def green : Delivery :=
  deliver { sampleEvent "2026-01-01T00:00:00Z" (some "GREEN") with
    applicant := some (applicantFrom "MAR") }

/-- Later it is rejected. -/
def red : Delivery := deliver (sampleEvent "2026-01-02T00:00:00Z" (some "RED"))

def approved : Store := (delivered sampleConfig unverified green 14).store

def answerOfRed : WebhookAnswer :=
  { received := true
    updated := true
    reason := none
    eventType := some "applicantReviewed"
    review := some
      { userId := 1
        source := some "PAY"
        reviewStatus := none
        reviewAnswer := some "RED"
        status := "REJECTED"
        kycProfileStatus := "REJECTED"
        onboarding := ⟨true, .rejected, some .registration⟩ } }

theorem finalRed_red : FinalRed red := by
  show ("RED" : String).toUpper = "RED"
  exact toUpper_eq_self rfl

/-- A rejection without an approval before it. -/
theorem rejected_everywhere_first :
    NoneApproved 1 (delivered sampleConfig unverified red 13).store := by
  have hrun : Deliveries sampleConfig unverified
      ([] ++ [(⟨red, unverified, (delivered sampleConfig unverified red 13).store⟩, answerOfRed)])
      (delivered sampleConfig unverified red 13).store :=
    Deliveries.nil.answer 13 (by decide +kernel) (by decide +kernel)
  refine (rejected_everywhere_iff hrun rfl finalRed_red).mpr fun u hu _ => ?_
  have hrows : ∀ u ∈ unverified.users.rows, onboardingOf u unverified ≠ .approved := by
    decide +kernel
  exact hrows u hu.1

/-- The other account is approved by the identity, which keeps the first approval. -/
theorem other_account_approved : ∃ log turn,
    Deliveries sampleConfig unverified log (delivered sampleConfig approved red 14).store ∧
      latest log = some turn ∧ FinalRed turn.call ∧
      ¬NoneApproved 1 (delivered sampleConfig approved red 14).store := by
  have hgreen : ((delivered sampleConfig unverified green 14).threads.any fun thread =>
      thread.program.result.isSome) = true := by decide +kernel
  obtain ⟨thread, hthread, hresult⟩ := List.any_eq_true.mp hgreen
  obtain ⟨a, ha⟩ := Option.isSome_iff_exists.mp hresult
  have hfirst : Deliveries sampleConfig unverified ([] ++ [(⟨green, unverified, approved⟩, a)])
      approved := .snoc .nil (run_after (by decide +kernel)) hthread (Program.result_eq_some.mp ha)
  have hboth : Deliveries sampleConfig unverified
      (([] ++ [(⟨green, unverified, approved⟩, a)]) ++
        [(⟨red, approved, (delivered sampleConfig approved red 14).store⟩, answerOfRed)])
      (delivered sampleConfig approved red 14).store :=
    hfirst.answer 14 (by decide +kernel) (by decide +kernel)
  refine ⟨_, ⟨red, approved, (delivered sampleConfig approved red 14).store⟩, hboth, ?_,
    finalRed_red, fun hnone => ?_⟩
  · simp [latest, answerOfRed]
  · have hhost : SharedProfile.account 2 .host "PENDING" ∈
        (delivered sampleConfig approved red 14).store.users.rows := by decide +kernel
    refine hnone _ ⟨hhost, rfl⟩ ?_
    decide +kernel

end NexaStays.RejectedPerson
