import NexaStays.Confinement
import NexaStays.KycReuse
import NexaStays.PhoneResolution
import NexaStays.SumsubEffects

/-!
# What a reused verification rests on

An approval by an administrator is copied to the row that the services reuse, without the date
until which the document is valid. No later decision takes the row back. The row rests on the
latest decision as long as no case of the identity is rejected after an approval, and on a valid
document as long as none of the approved ones runs out.
-/
namespace NexaStays.ReuseSoundness

open NexaStays.KeyedTable NexaStays.Transactions NexaStays.Completions NexaStays.Sequences
open NexaStays.Snapshots NexaStays.Embedding NexaStays.Confinement NexaStays.PersonStore
open NexaStays.IdentityPhones NexaStays.PhoneResolution NexaStays.Sumsub NexaStays.KycStore
open NexaStays.KycReview NexaStays.KycReuse
open NexaStays.ProfileSync (NexaService)

inductive Call where
  | approve (userId : ℕ) (reviewedBy : String)
  | reject (userId : ℕ) (reason reviewedBy : String)
  | processSumsubWebhook (d : Delivery)
  | useExistingKyc (identityId : ℕ) (service : NexaService) (today : ℤ)

inductive Answer where
  | success
  | webhook (answer : WebhookAnswer)
  | reuse (result : KycReuseResult)
  deriving DecidableEq, Repr

section Calls

variable (config : WebhookConfig) (toDay : String → Option ℤ)

def program : Call → Review Answer
  | .approve userId reviewedBy => do
    approve userId reviewedBy
    pure .success
  | .reject userId reason reviewedBy => do
    reject userId reason reviewedBy
    pure .success
  | .processSumsubWebhook d => do
    let answer ← Review.onPerson (processSumsubWebhook config d)
    pure (.webhook answer)
  | .useExistingKyc identityId service today => do
    let result ← useExistingKyc toDay today identityId service
    pure (.reuse result)

abbrev Entry := Turn Call KycStore.Store × Except PersonError Answer

/-- The identity that an account is linked with. -/
def identityOf (s : KycStore.Store) (userId : ℕ) : Option ℕ :=
  (s.person.users.find? userId).bind (·.unifiedIdentityId)

/-- The call decided the case of an account with the status. -/
def Decided (status : String) (userId : ℕ) (entry : Entry) : Prop :=
  ∃ answer review, entry.2 = .ok (.webhook answer) ∧ answer.review = some review ∧
    review.userId = userId ∧ review.kycProfileStatus = status

/-- The call approved the case of an account of the identity. -/
def Approves (identityId userId : ℕ) (entry : Entry) : Prop :=
  identityOf entry.1.before userId = some identityId ∧
    ((∃ reviewedBy, entry.1.call = .approve userId reviewedBy ∧ entry.2 = .ok .success) ∨
      Decided "VERIFIED" userId entry)

/-- The call rejected the case of an account of the identity; a rejection that is cut short counts,
too. -/
def Rejects (identityId userId : ℕ) (entry : Entry) : Prop :=
  identityOf entry.1.before userId = some identityId ∧
    ((∃ reason reviewedBy, entry.1.call = .reject userId reason reviewedBy ∧
      (entry.1.before.person.kycProfiles.find? userId).isSome = true) ∨
      Decided "REJECTED" userId entry)

/-- The latest decision on a case of the identity approved the case of the account. -/
def LatestApproval (log : List Entry) (identityId userId : ℕ) : Prop :=
  ∃ pre entry post, log = pre ++ entry :: post ∧ Approves identityId userId entry ∧
    ∀ later ∈ post, ∀ other, ¬Approves identityId other later ∧ ¬Rejects identityId other later

/-- The document of the case is valid on the day, or has no date. -/
def Valid (today : ℤ) (s : KycStore.Store) (userId : ℕ) : Prop :=
  ∀ kyc text day, s.person.kycProfiles.find? userId = some kyc →
    kyc.documentValidUntil = some text → toDay text = some day → today ≤ day

/-- A verification that is reused rests on the latest decision and on a valid document. -/
def Sound (log : List Entry) (entry : Entry) : Prop :=
  ∀ identityId service today result, entry.1.call = .useExistingKyc identityId service today →
    entry.2 = .ok (.reuse result) → result.useExistingKyc = true →
      ∃ userId, LatestApproval log identityId userId ∧ Valid toDay today entry.1.before userId

/-- The number of the account names no other identity than its own. -/
def OwnNumber (s : KycStore.Store) (userId : ℕ) : Prop :=
  ∀ phoneNumber identity, ((s.person.users.find? userId).bind (·.phoneNumber)) = some phoneNumber →
    PhoneResolution.Answer phoneNumber s.person identity →
    identityOf s userId = some identity.id

/-- An approval is of an account whose number is its own, nothing is rejected that is reused, and
no document of an approved case has run out where the reuse is asked for. -/
def Clean (log : List Entry) (entry : Entry) : Prop :=
  match entry.1.call with
  | .approve userId _ =>
    entry.1.before.person.kycProfiles.find? userId = none ∨
      entry.2 = .ok .success ∧ OwnNumber entry.1.before userId
  | .useExistingKyc identityId _ today =>
    ∀ earlier ∈ log, ∀ userId, Approves identityId userId earlier →
      Valid toDay today entry.1.before userId
  | _ => ∀ identityId userId, Rejects identityId userId entry →
    entry.1.before.reusable.find? identityId = none

end Calls

section Proofs

variable {config : WebhookConfig} {toDay : String → Option ℤ} {s : KycStore.Store}

/-- The rows that are written are of the identities. -/
def OfIdentities (own : ℕ → Prop) (w : KycStore.Write) : Prop :=
  ∀ row, w = .reusable row → own row.unifiedIdentityId

/-- The rows of other identities are as they were. -/
def OthersKept (own : ℕ → Prop) (s t : KycStore.Store) : Prop :=
  ∀ identityId, ¬own identityId → t.reusable.find? identityId = s.reusable.find? identityId

theorem othersKept_write {own : ℕ → Prop} (t : KycStore.Store) (w : KycStore.Write)
    (hw : OfIdentities own w) (h : OthersKept own s t) : OthersKept own s (Storage.write t w) := by
  intro identityId hnot
  cases w with
  | reusable row =>
    have hne : identityId ≠ row.unifiedIdentityId := by
      rintro rfl
      exact hnot (hw row rfl)
    exact (Table.find?_put_of_ne hne).trans (h identityId hnot)
  | person w | snapshot entry | forget userId => exact h identityId hnot

theorem confined_onPerson {α : Type} {own : ℕ → Prop} (p : Personal α) :
    Confined (OfIdentities own) (Review.onPerson p) :=
  confined_within personal (fun w row h => by cases h) p

theorem confined_forget {own : ℕ → Prop} {userId : ℕ} :
    Confined (OfIdentities own) (invalidate userId) :=
  Confined.send fun _ w hw => by
    rw [List.mem_singleton.mp hw]
    intro row h
    cases h

theorem confined_upsert {own : ℕ → Prop} {identityId : ℕ} (kyc : KycProfile) (h : own identityId) :
    Confined (OfIdentities own) (upsertFromKycProfile identityId kyc) := by
  refine Confined.receive.bind fun now => Confined.query.bind fun existing =>
    (Confined.writeRows fun _ w hw => ?_).bind fun _ => Confined.pure
  rw [List.mem_singleton.mp hw]
  intro row hrow
  obtain rfl := Write.reusable.inj hrow
  exact h

/-- What comes after the copy of an approval. -/
def settle (userId : ℕ) (user : Option User) : Review Unit := do
  Review.onPerson (approveAccount userId user)
  logAction
  invalidate userId
  Review.read fun _ => ()

theorem confined_settle {own : ℕ → Prop} {userId : ℕ} {user : Option User} :
    Confined (OfIdentities own) (settle userId user) :=
  (confined_onPerson _).bind fun _ => Confined.query.bind fun _ =>
    confined_forget.bind fun _ => Confined.query

/-- Calls that decide nothing for the services. -/
theorem confined_program {own : ℕ → Prop} {call : Call}
    (hcall : ∀ userId reviewedBy, call ≠ .approve userId reviewedBy) :
    Confined (OfIdentities own) (program config toDay call) := by
  cases call with
  | approve userId reviewedBy => exact absurd rfl (hcall userId reviewedBy)
  | reject userId reason reviewedBy =>
    refine Confined.bind ?_ fun _ => Confined.pure
    exact (confined_onPerson _).bind fun _ => (confined_onPerson _).bind fun _ => Confined.query
  | processSumsubWebhook d => exact (confined_onPerson _).bind fun _ => Confined.pure
  | useExistingKyc identityId service today =>
    exact (Confined.query.bind fun _ => Confined.pure).bind fun _ => Confined.pure

/-- The identities that the number of the account may name. -/
def Named (s : KycStore.Store) (userId : ℕ) (identityId : ℕ) : Prop :=
  ∃ phoneNumber identity, ((s.person.users.find? userId).bind (·.phoneNumber)) = some phoneNumber ∧
    PhoneResolution.Answer phoneNumber s.person identity ∧ identity.id = identityId

/-- What a decision leaves alone. -/
def aside (s : PersonStore.Store) : Option
    (Table User.id × Table UnifiedIdentity.id × Table IdentityPhoneNumber.normalizedPhoneNumber) :=
  some (s.users, s.identities, s.phones)

theorem plain_decide {status : String} {userId : ℕ} {reviewedBy : String} {reason : Option String} :
    Plain aside (decide status userId reviewedBy reason) := by
  refine Plain.query.bind fun found => Plain.expect.bind fun kyc => Plain.receive.bind fun now => ?_
  exact (EntitySave.plain_saveEntity fun row _ => rfl).bind fun _ => trivial

/-- The same of the tables of the reviews. -/
def review (s : KycStore.Store) : Option ((Table User.id × Table UnifiedIdentity.id ×
    Table IdentityPhoneNumber.normalizedPhoneNumber) ×
      Table ReusableIdentityVerification.unifiedIdentityId) :=
  some ((s.person.users, s.person.identities, s.person.phones), s.reusable)

theorem mustEnd_decide {status : String} {userId : ℕ} {reviewedBy : String}
    {reason : Option String} :
    MustEnd (fun _ ses t => ses = .idle ∧ review t = review s)
      (Review.onPerson (decide status userId reviewedBy reason)) .idle s := by
  refine mustEnd_of_plain (plain_within (fun w hw t => ?_) plain_decide) rfl
  have hsame := Option.some.inj (hw t.person)
  exact congrArg some (congrArg (fun tables => (tables, t.reusable)) hsame)

theorem answer_congr {person person' : PersonStore.Store} {phoneNumber : String}
    {identity : UnifiedIdentity} (hidentities : person'.identities = person.identities)
    (hphones : person'.phones = person.phones)
    (h : PhoneResolution.Answer phoneNumber person' identity) :
    PhoneResolution.Answer phoneNumber person identity := by
  obtain h | ⟨h, hfresh⟩ := h
  · exact .inl (h.congr hidentities.symm hphones.symm)
  · refine .inr ⟨h.congr hidentities.symm hphones.symm, ?_⟩
    rwa [← hidentities]

/-- What the rest of an approval keeps to. -/
def Keeps {α : Type} (own : ℕ → Prop) (s : KycStore.Store) (_ : Except PersonError α)
    (ses : Session KycStore.Key KycStore.Write) (t : KycStore.Store) : Prop :=
  (∀ w ∈ ses.pending, OfIdentities own w) ∧ OthersKept own s t

theorem keeps_of_confined {α β : Type} {own : ℕ → Prop} {p : Review α}
    {ses : Session KycStore.Key KycStore.Write} {t : KycStore.Store}
    (hp : Confined (OfIdentities own) p) {r : Except PersonError β} (h : Keeps own s r ses t) :
    MustEnd (Keeps own s) p ses t :=
  mustEnd_of_confined othersKept_write hp h.1 h.2

theorem keeps_idle {α : Type} {own : ℕ → Prop} {t : KycStore.Store} (r : Except PersonError α)
    (h : t.reusable = s.reusable) : Keeps own s r .idle t :=
  ⟨by simp [Session.idle], fun _ _ => by rw [h]⟩

/-- The copy of an approval is a row of an identity that the number names. -/
theorem keeps_syncReuse {userId : ℕ} {t : KycStore.Store} (kyc : KycProfile)
    (h : review t = review s) :
    MustEnd (Keeps (Named s userId) s)
      (syncReuse ((s.person.users.find? userId).bind (·.phoneNumber)) kyc) .idle t := by
  obtain ⟨htables, hreusable⟩ := Prod.mk.inj (Option.some.inj h)
  obtain ⟨-, hnumbers⟩ := Prod.mk.inj htables
  obtain ⟨hidentities, hphones⟩ := Prod.mk.inj hnumbers
  unfold syncReuse
  cases hphone : Sumsub.truthy ((s.person.users.find? userId).bind (·.phoneNumber)) with
  | none => exact keeps_idle _ hreusable
  | some phoneNumber =>
    have hnumber : (s.person.users.find? userId).bind (·.phoneNumber) = some phoneNumber :=
      (Option.filter_eq_some_iff.mp hphone).1
    have hfind : MustEnd (fun r ses u => (∀ identity, r = .ok identity →
        Named s userId identity.id) ∧ Keeps (Named s userId) s r ses u)
        (Review.onPerson (findOrCreateByPhone phoneNumber)) .idle t := by
      refine MustEnd.and ?_ (keeps_of_confined (confined_onPerson _) (keeps_idle (.ok ()) hreusable))
      refine (mustEnd_within (mustEnd_findOrCreate phoneNumber t.person)
        (Carries.idle : Carries personal .idle .idle)).mono fun r ses u hr identity heq => ?_
      obtain ⟨r', _, rfl, -, hanswer⟩ := hr
      cases r' with
      | error e => cases heq
      | ok identity' =>
        obtain rfl := Except.ok.inj heq
        exact ⟨phoneNumber, _, hnumber, answer_congr hidentities hphones (hanswer _ rfl), rfl⟩
    refine MustEnd.handle (MustEnd.handle hfind (fun identity ses u hu => ?_) fun e ses u hu => ?_)
      (fun _ ses u hu => hu) fun e ses u hu => hu
    · refine keeps_of_confined ?_ hu.2
      exact (confined_upsert kyc (hu.1 identity rfl)).bind fun _ => confined_onPerson _
    · exact hu.2

/-- An approval changes the row of an identity only that the number of the account names. -/
theorem approve_effect {userId : ℕ} {reviewedBy : String} :
    MustEnd (fun _ _ t => OthersKept (Named s userId) s t)
      (program config toDay (.approve userId reviewedBy)) .idle s := by
  have hrest : MustEnd (Keeps (Named s userId) s) (approve userId reviewedBy) .idle s := by
    refine MustEnd.handle mustEnd_decide (fun kyc ses t ht => ?_) fun e ses t ht => ?_
    · obtain ⟨rfl, hsame⟩ := ht
      have husers : t.person.users = s.person.users :=
        (Prod.mk.inj (Prod.mk.inj (Option.some.inj hsame)).1).1
      have hreusable : t.reusable = s.reusable := (Prod.mk.inj (Option.some.inj hsame)).2
      refine ⟨?_, keeps_idle _ hreusable⟩
      show MustEnd _ (syncReuse ((t.person.users.find? userId).bind (·.phoneNumber)) kyc >>=
        fun _ => settle userId (t.person.users.find? userId)) .idle t
      rw [husers]
      exact MustEnd.handle (keeps_syncReuse kyc hsame)
        (fun _ ses u hu => keeps_of_confined confined_settle hu) fun _ ses u hu => hu
    · obtain ⟨rfl, hsame⟩ := ht
      exact keeps_idle _ (Prod.mk.inj (Option.some.inj hsame)).2
  exact MustEnd.handle hrest (fun _ _ _ h => h.2) fun _ _ _ h => h.2

/-- An approval without a case is refused. -/
theorem approve_refused {userId : ℕ} {reviewedBy : String}
    (hnone : s.person.kycProfiles.find? userId = none) :
    MustEnd (fun r _ t => (∃ e, r = .error e) ∧ t.reusable = s.reusable)
      (program config toDay (.approve userId reviewedBy)) .idle s := by
  have hstops : MustEnd (fun r _ _ => ∃ e, r = .error e)
      (decide "VERIFIED" userId reviewedBy none) .idle s.person := by
    have hview : (Session.idle : Session PersonStore.Key PersonStore.Write).view s.person =
        s.person := rfl
    refine ⟨?_, _, rfl⟩
    simp only [hview, hnone]
    exact ⟨_, rfl⟩
  have hdecide := (mustEnd_within hstops (Carries.idle : Carries personal .idle .idle)).and
    mustEnd_decide
  have hthrows : MustEnd (fun r _ t => (∃ e, r = .error e) ∧ t.reusable = s.reusable)
      (approve userId reviewedBy) .idle s := by
    refine MustEnd.handle hdecide (fun kyc ses t ht => ?_) fun e ses t ht => ?_
    · obtain ⟨⟨r', -, heq, -, e, rfl⟩, -⟩ := ht
      cases heq
    · exact ⟨⟨e, rfl⟩, (Prod.mk.inj (Option.some.inj ht.2.2)).2⟩
  refine MustEnd.handle hthrows (fun _ _ _ h => ?_) fun e _ _ h => ⟨⟨e, rfl⟩, h.2⟩
  obtain ⟨⟨e, heq⟩, -⟩ := h
  cases heq

/-- What a service is told comes from the row of the identity. -/
theorem reuse_of_row {identityId : ℕ} {service : NexaService} {today : ℤ} :
    MustEnd (fun r _ _ => ∀ answer, r = .ok answer → answer = .reuse
      (reuseResult toDay today (s.reusable.find? identityId) service))
      (program config toDay (.useExistingKyc identityId service today)) .idle s := by
  refine ⟨fun answer h => ?_, fun answer h => (nomatch h)⟩
  exact (Except.ok.inj h).symm

theorem latest_of_approves {log : List Entry} {entry : Entry} {identityId userId : ℕ}
    (h : Approves identityId userId entry) : LatestApproval (log ++ [entry]) identityId userId :=
  ⟨log, entry, [], rfl, h, by simp⟩

theorem latest_snoc {log : List Entry} {last : Entry} {identityId userId : ℕ}
    (h : LatestApproval log identityId userId)
    (hlast : ∀ other, ¬Approves identityId other last ∧ ¬Rejects identityId other last) :
    LatestApproval (log ++ [last]) identityId userId := by
  obtain ⟨pre, entry, post, rfl, happroves, hlater⟩ := h
  refine ⟨pre, entry, post ++ [last], by simp, happroves, fun later hmem => ?_⟩
  obtain hmem | hmem := List.mem_append.mp hmem
  · exact hlater later hmem
  · rw [List.mem_singleton.mp hmem]
    exact hlast

/-- Every row that can be reused rests on an approval that is the latest decision. -/
def Rests (log : List Entry) (s : KycStore.Store) : Prop :=
  ∀ identityId row, s.reusable.find? identityId = some row →
    ∃ userId, LatestApproval log identityId userId

/-- A call that rejects nothing of an identity leaves its latest decision an approval. -/
theorem latest_after {log : List Entry} {last : Entry} {identityId : ℕ}
    (h : ∃ userId, LatestApproval log identityId userId)
    (hlast : ∀ other, ¬Rejects identityId other last) :
    ∃ userId, LatestApproval (log ++ [last]) identityId userId := by
  by_cases happroves : ∃ userId, Approves identityId userId last
  · obtain ⟨userId, happroves⟩ := happroves
    exact ⟨userId, latest_of_approves happroves⟩
  · obtain ⟨userId, hlatest⟩ := h
    exact ⟨userId, latest_snoc hlatest fun other =>
      ⟨fun h => happroves ⟨other, h⟩, hlast other⟩⟩

section Step

variable {log : List Entry} {call : Call} {t : KycStore.Store} {r : Except PersonError Answer}
  {sys : System Call KycStore.Store KycStore.Key KycStore.Write PersonError Answer}
  {thread : Thread Call KycStore.Store KycStore.Key KycStore.Write PersonError Answer}

theorem no_rejection_of_result (hcall : ∀ userId reason reviewedBy,
    call ≠ .reject userId reason reviewedBy) (hresult : ∀ answer, r ≠ .ok (.webhook answer))
    (identityId other : ℕ) : ¬Rejects identityId other (⟨call, s, t⟩, r) := by
  rintro ⟨-, ⟨reason, reviewedBy, heq, -⟩ | ⟨answer, review, heq, -⟩⟩
  · exact hcall other reason reviewedBy heq
  · exact hresult answer heq

/-- A clean call keeps the rows on their approvals. -/
theorem rests_step (hclean : Clean toDay log (⟨call, s, t⟩, r)) (hs : Rests log s)
    (hrun : System.Run (fun _ _ => True) (solo call s (program config toDay call)) sys)
    (hthread : thread ∈ sys.threads) (hresult : outcome thread.program = some r)
    (hstore : sys.store = t) : Rests (log ++ [(⟨call, s, t⟩, r)]) t := by
  subst hstore
  intro identityId row hrow
  by_cases happrove : ∃ userId reviewedBy, call = .approve userId reviewedBy
  · obtain ⟨userId, reviewedBy, rfl⟩ := happrove
    obtain hnone | ⟨rfl, hown⟩ := hclean
    · obtain ⟨_, ⟨e, rfl⟩, hsame⟩ := result_of_run (approve_refused hnone) hrun hthread hresult
      rw [hsame] at hrow
      refine latest_after (hs identityId row hrow) (no_rejection_of_result ?_ ?_ identityId)
      · exact fun _ _ _ h => (nomatch h)
      · exact fun _ h => (nomatch h)
    · by_cases hnamed : Named s userId identityId
      · obtain ⟨phoneNumber, identity, hphone, hanswer, rfl⟩ := hnamed
        refine ⟨userId, latest_of_approves ⟨hown phoneNumber identity hphone hanswer, .inl ?_⟩⟩
        exact ⟨reviewedBy, rfl, rfl⟩
      · obtain ⟨_, hkept⟩ := result_of_run approve_effect hrun hthread hresult
        rw [hkept identityId hnamed] at hrow
        refine latest_after (hs identityId row hrow) (no_rejection_of_result ?_ ?_ identityId)
        · exact fun _ _ _ h => (nomatch h)
        · exact fun _ h => (nomatch h)
  · have hsame : OthersKept (fun _ => False) s sys.store :=
      confined_solo othersKept_write
        (confined_program fun userId reviewedBy h => happrove ⟨userId, reviewedBy, h⟩)
        (fun _ _ => rfl) hrun
    rw [hsame identityId id] at hrow
    refine latest_after (hs identityId row hrow) fun other hrejects => ?_
    cases call with
    | approve userId reviewedBy => exact happrove ⟨userId, reviewedBy, rfl⟩
    | reject userId reason reviewedBy =>
      rw [hclean identityId other hrejects] at hrow
      cases hrow
    | processSumsubWebhook d =>
      rw [hclean identityId other hrejects] at hrow
      cases hrow
    | useExistingKyc identityId' service today =>
      obtain ⟨_, hanswer⟩ := result_of_run reuse_of_row hrun hthread hresult
      refine no_rejection_of_result ?_ (fun answer heq => ?_) identityId other hrejects
      · exact fun _ _ _ h => (nomatch h)
      · cases hanswer _ heq

/-- A service that is told to reuse a verification is told so by a row that rests on it. -/
theorem sound_step (hclean : Clean toDay log (⟨call, s, t⟩, r)) (hs : Rests log s)
    (hrun : System.Run (fun _ _ => True) (solo call s (program config toDay call)) sys)
    (hthread : thread ∈ sys.threads) (hresult : outcome thread.program = some r) :
    Sound toDay log (⟨call, s, t⟩, r) := by
  intro identityId service today result hcall hr huse
  obtain rfl : call = .useExistingKyc identityId service today := hcall
  obtain ⟨_, hanswer⟩ := result_of_run reuse_of_row hrun hthread hresult
  obtain rfl := Answer.reuse.inj (hanswer _ hr)
  obtain ⟨row, hrow⟩ := exists_of_useExistingKyc toDay today huse
  obtain ⟨userId, hlatest⟩ := hs identityId row hrow
  refine ⟨userId, hlatest, ?_⟩
  obtain ⟨pre, entry, post, rfl, happroves, -⟩ := hlatest
  exact hclean entry (List.mem_append_right _ List.mem_cons_self) userId happroves

end Step

/-- In every sequence whose calls are clean, every verification that is reused rests on the latest
decision on a case of the identity and on a valid document. -/
theorem reuse_sound {log : List Entry} {t : KycStore.Store}
    (hlog : Log (program config toDay) s log t)
    (hs : ∀ identityId, s.reusable.find? identityId = none) (hclean : Always (Clean toDay) log) :
    Always (Sound toDay) log := by
  have hrests : Rests [] s := by
    intro identityId row hrow
    rw [hs identityId] at hrow
    cases hrow
  refine (hlog.always hrests hclean fun log call s r t hok hinv h => ?_).2
  obtain ⟨sys, thread, hrun, hthread, hresult, hstore⟩ := h
  exact ⟨rests_step hok hinv hrun hthread hresult hstore,
    sound_step hok hinv hrun hthread hresult⟩

end Proofs

/-- An account with its number and its identity, and a case. -/
def openCase : KycStore.Store :=
  .of { Store.blank with
    users := .ofRows [SharedProfile.account 1 .consumer "PENDING"]
    identities := .ofRows [SharedProfile.amal]
    phones := .ofRows [{
      identityId := 1
      phoneNumber := "+212600000001"
      normalizedPhoneNumber := "+212600000001"
      isPrimary := true
      isVerified := true
      verifiedAt := none }]
    kycProfiles := .ofRows [newKycProfile 1 "PAY"] }

/-- No text is a date. -/
def noDay (_ : String) : Option ℤ := none

def sampleProgram : Call → Review Answer := program sampleConfig noDay

def approval : Call := .approve 1 "admin"

def rejection : Call := .reject 1 "forged" "admin"

def question : Call := .useExistingKyc 1 .pay 0

/-- The store after a call of `n` statements. -/
def left (s : KycStore.Store) (call : Call) (n : ℕ) : KycStore.Store :=
  (Phases.after (solo call s (sampleProgram call)) (System.turns 0 0 n)).store

theorem nothing_reused (identityId : ℕ) : openCase.reusable.find? identityId = none := rfl

/-- The row that the approval leaves is reused. -/
def approvedResult : KycReuseResult :=
  reuseResult noDay 0 ((left openCase approval 24).reusable.find? 1) .pay

theorem log_approved : Log sampleProgram openCase
    [(⟨approval, openCase, left openCase approval 24⟩, .ok .success)] (left openCase approval 24) :=
  Log.nil.call approval 24 (by decide +kernel) rfl

/-- The number of the account names its own identity. -/
theorem ownNumber_openCase : OwnNumber openCase 1 := by
  intro phoneNumber identity hphone hanswer
  obtain rfl : "+212600000001" = phoneNumber := Option.some.inj hphone
  have hcandidates : PhoneNumbers.phoneLookupCandidates "+212600000001".toList =
      "+212600000001".toList :: (PhoneNumbers.phoneLookupCandidates "+212600000001".toList).tail := by
    decide +kernel
  have htable : identityByPhone "+212600000001".toList openCase.person = some SharedProfile.amal := by
    decide +kernel
  obtain h | ⟨h, -⟩ := hanswer
  · rw [Resolves, hcandidates] at h
    obtain rfl := Option.some.inj (h.of_table htable)
    rfl
  · rw [Resolves, hcandidates] at h
    cases h.of_table htable

/-- The identity is asked for after the approval. -/
theorem reuse_sound_approved : ∃ log t, Log sampleProgram openCase log t ∧ log.length = 2 ∧
    Always (Sound noDay) log := by
  have hlog := log_approved.call question 1 (r := .ok (.reuse approvedResult))
    (by decide +kernel) rfl
  refine ⟨_, _, hlog, rfl, reuse_sound hlog nothing_reused ?_⟩
  have hfirst : Clean noDay [] (⟨approval, openCase, left openCase approval 24⟩, .ok .success) :=
    .inr ⟨rfl, ownNumber_openCase⟩
  refine always_snoc.mpr ⟨always_snoc.mpr ⟨always_nil, hfirst⟩, ?_⟩
  intro earlier _ userId _ kyc text day _ _ hday
  cases hday

/-- What is rejected after its approval is reused. -/
theorem rejected_reused : ∃ log t, Log sampleProgram openCase log t ∧
    (∀ identityId, openCase.reusable.find? identityId = none) ∧ ¬Always (Sound noDay) log := by
  have hlog := (log_approved.call rejection 6 (r := .ok .success) (by decide +kernel) rfl).call
    question 1 (r := .ok (.reuse approvedResult)) (by decide +kernel) rfl
  refine ⟨_, _, hlog, nothing_reused, fun hsound => ?_⟩
  have huse : approvedResult.useExistingKyc = true := by decide +kernel
  obtain ⟨userId, ⟨pre, entry, post, hsplit, happroves, hlater⟩, -⟩ :=
    (always_snoc.mp hsound).2 1 .pay 0 approvedResult rfl rfl huse
  cases pre with
  | nil =>
    obtain ⟨-, rfl⟩ := List.cons.inj hsplit
    refine (hlater _ (List.mem_singleton.mpr rfl) 1).2 ⟨by decide +kernel, .inl ⟨_, _, rfl, ?_⟩⟩
    decide +kernel
  | cons first pre =>
    obtain ⟨-, hrest⟩ := List.cons.inj hsplit
    cases pre with
    | nil =>
      obtain ⟨rfl, -⟩ := List.cons.inj hrest
      obtain ⟨-, ⟨reviewedBy, hcall, -⟩ | ⟨answer, review, hresult, -⟩⟩ := happroves
      · cases hcall
      · cases hresult
    | cons second pre =>
      obtain ⟨-, hrest⟩ := List.cons.inj hrest
      simp at hrest

end NexaStays.ReuseSoundness
