import NexaStays.Sumsub

/-!
# What the deliveries of events leave

A delivery that is answered has applied its event or has changed nothing. A sequence of
deliveries is a log with the stores before and after each of them.
-/
namespace NexaStays.Sumsub

open NexaStays.KeyedTable NexaStays.Transactions NexaStays.EntitySave NexaStays.PersonStore
open NexaStays.Sequences NexaStays.Phases

section Effects

variable (config : WebhookConfig)

/-- The write of the identity, if the account has one and is verified. -/
def identityWrites (user : User) (kyc : KycProfile) (dateOfBirth : Option String) (s : Store) :
    List Write :=
  if kyc.status = "VERIFIED" then
    (user.unifiedIdentityId.bind s.identities.find?).toList.map fun i =>
      .identity (approvedIdentity user dateOfBirth i)
  else []

/-- What `applySumsubReviewStatus` leaves when it returns. -/
inductive Reviewed (params : ReviewParams) (s : Store) : ReviewAnswer → Store → Prop where
  | profile {now reviewedAt : ℤ} {kyc : KycProfile}
      (noUser : s.users.find? params.userId = none)
      (reviewed : kyc = reviewedKyc config.hashNationalId params now reviewedAt
        (s.kycProfiles.find? params.userId) none) :
      Reviewed params s (answerFor params kyc) (publish s [.kycProfile kyc])
  | account {now reviewedAt lockedAt : ℤ} {kyc : KycProfile} {user : User}
      {phone dob identityDob : Option String}
      (found : s.users.find? params.userId = some user)
      (reviewed : kyc = reviewedKyc config.hashNationalId params now reviewedAt
        (s.kycProfiles.find? params.userId) (some user)) :
      Reviewed params s (answerFor params kyc) (publish s (.kycProfile kyc ::
        .user (reviewedUser kyc phone dob lockedAt user) ::
        identityWrites (reviewedUser kyc phone dob lockedAt user) kyc identityDob s))

variable {config} {s : Store} {ws : List Write} {kyc : KycProfile}

theorem reviewedKyc_userId (hash : String → String) (params : ReviewParams) (now reviewedAt : ℤ)
    (found : Option KycProfile) (user : Option User)
    (hfound : ∀ k, found = some k → k.userId = params.userId) :
    (reviewedKyc hash params now reviewedAt found user).userId = params.userId := by
  cases found with
  | none => rfl
  | some k => exact hfound k rfl

theorem identityWrites_congr {t : Store} {user : User} {dob : Option String}
    (h : s.identities = t.identities) :
    identityWrites user kyc dob s = identityWrites user kyc dob t := by
  rw [identityWrites, identityWrites, h]

theorem stages_saveKyc {found : Option KycProfile}
    (hfound : (publish s ws).kycProfiles.find? kyc.userId = found) :
    Stages (fun _ ws' => publish s ws' = publish (publish s ws) [.kycProfile kyc])
      (saveKyc found kyc) ws s := by
  cases found with
  | some old =>
    refine stages_saveEntity hfound ?_ fun _ h => h
    have hput : (publish s ws).kycProfiles.put old = (publish s ws).kycProfiles :=
      Table.put_self (Table.key_of_find? hfound ▸ hfound)
    simp only [savedKycProfile, publish_cons, publish_nil, storage_write, Store.write, hput]
  | none =>
    refine Stages.bind (S := fun written ws' => written ≠ [] →
      publish s ws' = publish (publish s ws) [.kycProfile kyc]) (Stages.writeRows ?_)
      fun written ws' hws => Stages.require fun h => hws h
    split_ifs with hinsert
    · exact fun _ => publish_append s ws _
    · exact fun h => absurd rfl h

theorem stages_saveUser {user new : User} (hfound : (publish s ws).users.find? user.id = some user) :
    Stages (fun _ ws' => publish s ws' = publish (publish s ws) [.user new])
      (saveEntity (savedUser user.id) .database new : Personal Unit) ws s := by
  refine stages_saveEntity hfound ?_ fun _ h => h
  have hput : (publish s ws).users.put user = (publish s ws).users := Table.put_self hfound
  simp only [savedUser, publish_cons, publish_nil, storage_write, Store.write, hput]

theorem stages_approveIdentity {user : User} {toDate : String → Option String} :
    Stages (fun _ ws' => ∃ dob, publish s ws' =
      publish (publish s ws) (identityWrites user kyc dob (publish s ws)))
      (approveIdentity toDate user kyc) ws s := by
  unfold approveIdentity identityWrites
  cases user.unifiedIdentityId with
  | none => exact Stages.pure ⟨none, by simp⟩
  | some identityId =>
    by_cases hverified : kyc.status = "VERIFIED"
    · simp only [if_pos hverified, Option.bind_some]
      refine Stages.bind (S := fun _ ws' => ws' = ws) (Stages.ofExcept fun _ _ => rfl)
        fun dob ws' hws => ?_
      obtain rfl := hws
      refine Stages.bind (S := fun _ ws'' => publish s ws'' = publish (publish s ws')
        (((publish s ws').identities.find? identityId).toList.map fun i =>
          .identity (approvedIdentity user dob i))) (Stages.writeRows (publish_append s ws' _))
        fun _ ws'' hws => Stages.pure ⟨dob, hws⟩
    · simp only [if_neg hverified]
      exact Stages.pure ⟨none, rfl⟩

theorem stages_applySumsubReviewStatus (params : ReviewParams) :
    Stages (fun a ws => Reviewed config params s a (publish s ws))
      (applySumsubReviewStatus config.hashNationalId config.toDate params) [] s := by
  refine Stages.bind (S := fun found ws => found = s.kycProfiles.find? params.userId ∧ ws = [])
    (Stages.query ⟨rfl, rfl⟩) fun found ws hws => ?_
  obtain ⟨rfl, rfl⟩ := hws
  refine Stages.bind (S := fun _ ws => ws = []) (Stages.receive fun _ => rfl) fun now ws hws => ?_
  obtain rfl := hws
  refine Stages.bind (S := fun user ws => user = s.users.find? params.userId ∧ ws = [])
    (Stages.query ⟨rfl, rfl⟩) fun user ws hws => ?_
  obtain ⟨rfl, rfl⟩ := hws
  refine Stages.bind (S := fun _ ws => ws = []) (Stages.receive fun _ => rfl)
    fun reviewedAt ws hws => ?_
  obtain rfl := hws
  have hid : ∀ user, (reviewedKyc config.hashNationalId params now reviewedAt
      (s.kycProfiles.find? params.userId) user).userId = params.userId := fun user =>
    reviewedKyc_userId _ params _ _ _ user fun k hk => Table.key_of_find? hk
  refine Stages.bind (stages_saveKyc (by rw [hid]; rfl)) fun _ ws hws => ?_
  cases huser : s.users.find? params.userId with
  | none =>
    refine Stages.pure ?_
    rw [hws, huser]
    exact .profile huser rfl
  | some user =>
    have huserId : user.id = params.userId := Table.key_of_find? huser
    refine Stages.bind (S := fun _ ws' => ws' = ws) (Stages.ofExcept fun _ _ => rfl)
      fun dob ws' hws' => ?_
    obtain rfl := hws'
    refine Stages.bind (S := fun _ ws'' => ws'' = ws') (Stages.receive fun _ => rfl)
      fun lockedAt ws'' hws'' => ?_
    obtain rfl := hws''
    rw [huser] at hws
    have hfound : (publish s ws'').users.find? user.id = some user := by
      rw [hws, huserId]
      exact huser
    refine Stages.bind (stages_saveUser hfound) fun _ ws₂ hws₂ => ?_
    refine Stages.bind stages_approveIdentity fun _ ws₃ hws₃ => Stages.pure ?_
    obtain ⟨identityDob, hws₃⟩ := hws₃
    have hidentities : (publish s ws₂).identities = s.identities := by
      rw [hws₂, hws]
      rfl
    rw [hws₃, identityWrites_congr hidentities, hws₂, hws]
    simp only [← publish_append, publish_nil, List.cons_append, List.nil_append]
    exact .account huser rfl

variable (config)

/-- The account that the event is about. -/
def accountOf (d : Delivery) : Option ℕ := d.event.userId.bind config.readId

/-- The profile gets the time of the event. -/
def stamps (userId : ℕ) (providerEventAt : ℤ) (s : Store) : List Write :=
  (s.kycProfiles.find? userId).toList.map fun kyc =>
    .kycProfile { kyc with lastProviderEventAt := some providerEventAt }

/-- The event of the delivery has been applied, and the transaction is committed. -/
def Applied (d : Delivery) (s t : Store) : Prop :=
  ∃ text userId providerEventAt review u, d.event.userId = some text ∧
    config.readId text = some userId ∧
    d.event.providerEventAt config.toTime = some providerEventAt ∧
    isStale providerEventAt (s.kycProfiles.find? userId) = false ∧
    Reviewed config (d.params userId) s review u ∧ t = publish u (stamps userId providerEventAt u)

/-- The stores differ in nothing but the references of the profiles. -/
structure SameReviews (s t : Store) : Prop where
  users : t.users = s.users
  identities : t.identities = s.identities
  profiles : ∀ userId, (t.kycProfiles.find? userId).map (fun k => { k with reference := none }) =
    (s.kycProfiles.find? userId).map fun k => { k with reference := none }

/-- The event is about no account, or it is stale. -/
def Ignored (d : Delivery) (s : Store) : Prop :=
  ∀ userId providerEventAt, accountOf config d = some userId →
    d.event.providerEventAt config.toTime = some providerEventAt →
      isStale providerEventAt (s.kycProfiles.find? userId) = true

/-- What a delivery leaves when it has been answered. -/
def Processed (d : Delivery) (s : Store) (a : WebhookAnswer) (t : Store) : Prop :=
  a.updated = false ∧ t = s ∧ Ignored config d s ∨
    a.updated = true ∧ ∃ u, Applied config d s u ∧ SameReviews u t

variable {config} {law : Store → Store → Prop} {d : Delivery}

theorem sameReviews_reference {k : KycProfile} {userId : ℕ} (reference : Option String)
    (h : s.kycProfiles.find? userId = some k) :
    SameReviews s (publish s [.kycProfile { k with reference }]) := by
  refine ⟨rfl, rfl, fun id => ?_⟩
  have hfind : (publish s [.kycProfile { k with reference }]).kycProfiles.find? id =
      if id = k.userId then some { k with reference } else s.kycProfiles.find? id :=
    Table.find?_put s.kycProfiles { k with reference } id
  by_cases hid : id = k.userId
  · have hk : s.kycProfiles.find? id = some k := by
      rw [hid, Table.key_of_find? h]
      exact h
    rw [hfind, if_pos hid, hk]
    rfl
  · rw [hfind, if_neg hid]

theorem SameReviews.refl (s : Store) : SameReviews s s := ⟨rfl, rfl, fun _ => rfl⟩

theorem sameReviews_dossier {userId : ℕ} {test : KycProfile → Bool} {reference : Option String} :
    SameReviews s (publish s (((s.kycProfiles.find? userId).filter test).toList.map fun row =>
      .kycProfile { row with reference })) := by
  cases hfound : (s.kycProfiles.find? userId).filter test with
  | none => exact .refl s
  | some k => exact sameReviews_reference reference (Option.filter_eq_some_iff.mp hfound).1

theorem returns_syncDossier {userId : ℕ} {providerEventAt : ℤ}
    (hlaw : ∀ t, SameReviews s t → law s t) :
    Returns law (fun _ t => SameReviews s t) (syncDossier d userId providerEventAt) s := by
  unfold syncDossier
  cases truthy d.event.applicantId with
  | none => exact Returns.pure (.refl s)
  | some applicantId =>
    dsimp only
    split_ifs
    · intro α ctx
      have hkept : ∀ b : Unit, Except.ok (ε := PersonError) () = .ok b →
          (Session.idle : Session Key Write) = .idle ∧ ∃ t, some s = some t ∧ SameReviews s t :=
        fun _ _ => ⟨rfl, s, rfl, .refl s⟩
      refine ⟨trivial, fun t ht => .stay ?_, .stay hkept⟩
      obtain rfl := ht s rfl
      cases hfound : s.kycProfiles.find? userId with
      | none =>
        simp only [Session.view, Session.idle, publish_nil, hfound]
        exact hkept
      | some k =>
        simp only [Session.view, Session.idle, publish_nil, hfound]
        refine ⟨trivial, fun t ht => ?_, .stay hkept⟩
        obtain rfl := ht s rfl
        exact .step ⟨hlaw _ sameReviews_dossier, rfl⟩ fun _ _ => ⟨rfl, _, rfl, sameReviews_dossier⟩
    · exact Returns.pure (.refl s)

theorem stages_applyEvent {text : String} {providerEventAt : ℤ} (htext : d.event.userId = some text)
    (hat : d.event.providerEventAt config.toTime = some providerEventAt) :
    Stages (fun a ws => (a = none ∧ publish s ws = s ∧ Ignored config d s) ∨
        a.isSome = true ∧ Applied config d s (publish s ws))
      (applyEvent config d text providerEventAt) [] s := by
  refine Stages.bind (S := fun _ ws => ws = []) (Stages.lockRow rfl) fun _ ws hws => ?_
  obtain rfl := hws
  refine Stages.bind (S := fun userId ws => config.readId text = some userId ∧ ws = [])
    (Stages.expect fun _ h => ⟨h, rfl⟩) fun userId ws hws => ?_
  obtain ⟨hid, rfl⟩ := hws
  refine Stages.bind (S := fun previous ws => previous = s.kycProfiles.find? userId ∧ ws = [])
    (Stages.query ⟨rfl, rfl⟩) fun previous ws hws => ?_
  obtain ⟨rfl, rfl⟩ := hws
  cases hstale : isStale providerEventAt (s.kycProfiles.find? userId) with
  | true =>
    refine Stages.pure (.inl ⟨rfl, rfl, fun userId' at' haccount hat' => ?_⟩)
    rw [accountOf, htext, Option.bind_some, hid] at haccount
    obtain rfl := Option.some.inj haccount
    obtain rfl := Option.some.inj (hat.symm.trans hat')
    exact hstale
  | false =>
    simp only [Bool.false_eq_true, if_false]
    refine (stages_applySumsubReviewStatus (d.params userId)).bind fun review ws hreview => ?_
    refine Stages.bind (S := fun _ ws' => publish s ws' =
      publish (publish s ws) (stamps userId providerEventAt (publish s ws)))
      (Stages.writeRows (publish_append s ws _)) fun _ ws' hws => Stages.pure (.inr ⟨rfl, ?_⟩)
    exact ⟨text, userId, providerEventAt, review, _, htext, hid, hat, hstale, hreview, hws⟩

theorem returns_processSumsubWebhook (hlaw : ∀ t, Applied config d s t → law s t)
    (hsame : law s s) (hdossier : ∀ t t', SameReviews t t' → law t t') :
    Returns law (Processed config d s) (processSumsubWebhook config d) s := by
  refine Returns.bind (P := fun _ t => t = s) (Returns.ofExcept fun _ _ => rfl) fun _ t ht => ?_
  obtain rfl := ht
  cases htext : d.event.userId with
  | none =>
    refine Returns.pure (.inl ⟨rfl, rfl, fun userId at' haccount _ => ?_⟩)
    rw [accountOf, htext] at haccount
    cases haccount
  | some text =>
    refine Returns.bind (P := fun at' t' =>
      d.event.providerEventAt config.toTime = some at' ∧ t' = t)
      (Returns.expect fun _ h => ⟨h, rfl⟩) fun providerEventAt t' ht => ?_
    obtain ⟨hat, rfl⟩ := ht
    refine Returns.bind (P := fun (a : Option ReviewAnswer) u =>
      (a = none ∧ u = t' ∧ Ignored config d t') ∨ a.isSome = true ∧ Applied config d t' u)
      (Returns.attempt (Returns.transaction ((stages_applyEvent htext hat).mono fun a ws h => ?_))) fun a u hu => ?_
    · obtain ⟨ha, hws, hignored⟩ | ⟨ha, happlied⟩ := h
      · exact ⟨by rwa [hws], .inl ⟨ha, hws, hignored⟩⟩
      · exact ⟨hlaw _ happlied, .inr ⟨ha, happlied⟩⟩
    · obtain ⟨rfl, rfl, hignored⟩ | ⟨ha, happlied⟩ := hu
      · exact Returns.pure (.inl ⟨rfl, rfl, hignored⟩)
      · obtain ⟨review, rfl⟩ := Option.isSome_iff_exists.mp ha
        exact (returns_syncDossier fun t h => hdossier u t h).bind fun _ t h =>
          Returns.pure (.inr ⟨rfl, u, happlied, h⟩)

end Effects

section Rows

variable (config : WebhookConfig)

/-- What an applied event leaves of the rows of an account and of those of the others. -/
structure Outcome (userId : ℕ) (providerEventAt : ℤ) (kyc : KycProfile) (s t : Store) : Prop where
  profile : t.kycProfiles.find? userId =
    some { kyc with lastProviderEventAt := some providerEventAt }
  profiles : ∀ id, id ≠ userId → t.kycProfiles.find? id = s.kycProfiles.find? id
  user : ∃ phone dob lockedAt,
    t.users.find? userId = (s.users.find? userId).map (reviewedUser kyc phone dob lockedAt)
  others : ∀ u : User, u.id ≠ userId → (u ∈ t.users.rows ↔ u ∈ s.users.rows)
  identities : kyc.status ≠ "VERIFIED" → t.identities = s.identities

variable {config} {d : Delivery} {s t u : Store} {kyc : KycProfile} {userId : ℕ}
  {providerEventAt : ℤ}

theorem find_stamped (h : u.kycProfiles.find? userId = some kyc) (id : ℕ) :
    (publish u (stamps userId providerEventAt u)).kycProfiles.find? id =
      if id = userId then some { kyc with lastProviderEventAt := some providerEventAt }
      else u.kycProfiles.find? id := by
  rw [stamps, h, ← Table.key_of_find? h]
  exact Table.find?_put u.kycProfiles { kyc with lastProviderEventAt := some providerEventAt } id

theorem publish_identityWrites (s w : Store) (user : User) (kyc : KycProfile)
    (dob : Option String) :
    (publish w (identityWrites user kyc dob s)).kycProfiles = w.kycProfiles ∧
      (publish w (identityWrites user kyc dob s)).users = w.users ∧
      (kyc.status ≠ "VERIFIED" →
        (publish w (identityWrites user kyc dob s)).identities = w.identities) := by
  unfold identityWrites
  by_cases hverified : kyc.status = "VERIFIED"
  · rw [if_pos hverified]
    cases user.unifiedIdentityId.bind s.identities.find? with
    | none => exact ⟨rfl, rfl, fun _ => rfl⟩
    | some i => exact ⟨rfl, rfl, fun h => absurd hverified h⟩
  · rw [if_neg hverified]
    exact ⟨rfl, rfl, fun _ => rfl⟩

theorem outcome_of_put {w : Store} (hid : kyc.userId = userId)
    (hprofiles : w.kycProfiles = s.kycProfiles.put kyc)
    (huser : ∃ phone dob lockedAt,
      w.users.find? userId = (s.users.find? userId).map (reviewedUser kyc phone dob lockedAt))
    (hothers : ∀ u : User, u.id ≠ userId → (u ∈ w.users.rows ↔ u ∈ s.users.rows))
    (hidentities : kyc.status ≠ "VERIFIED" → w.identities = s.identities) :
    Outcome userId providerEventAt kyc s (publish w (stamps userId providerEventAt w)) := by
  have hput : ∀ id, w.kycProfiles.find? id =
      if id = userId then some kyc else s.kycProfiles.find? id := by
    intro id
    rw [hprofiles, ← hid]
    exact Table.find?_put s.kycProfiles kyc id
  have hfind : w.kycProfiles.find? userId = some kyc := (hput userId).trans (if_pos rfl)
  have hstores : (publish w (stamps userId providerEventAt w)).users = w.users ∧
      (publish w (stamps userId providerEventAt w)).identities = w.identities := by
    rw [stamps, hfind]
    exact ⟨rfl, rfl⟩
  refine ⟨(find_stamped hfind userId).trans (if_pos rfl), fun id hne => ?_, ?_, ?_, ?_⟩
  · rw [find_stamped hfind, if_neg hne, hput, if_neg hne]
  · rwa [hstores.1]
  · rwa [hstores.1]
  · rwa [hstores.2]

theorem mem_put_other (s : Store) {user v : User} (h : v.id ≠ user.id) :
    v ∈ (s.users.put user).rows ↔ v ∈ s.users.rows := by
  rw [Table.mem_put]
  constructor
  · rintro (rfl | ⟨hv, -⟩)
    · exact absurd rfl h
    · exact hv
  · exact fun hv => .inr ⟨hv, h⟩

theorem Applied.outcome (h : Applied config d s t) :
    ∃ userId providerEventAt now reviewedAt kyc, accountOf config d = some userId ∧
      d.event.providerEventAt config.toTime = some providerEventAt ∧
      isStale providerEventAt (s.kycProfiles.find? userId) = false ∧
      kyc = reviewedKyc config.hashNationalId (d.params userId) now reviewedAt
        (s.kycProfiles.find? userId) (s.users.find? userId) ∧
      Outcome userId providerEventAt kyc s t := by
  obtain ⟨text, userId, providerEventAt, review, u, htext, hid, hat, hstale, hreview, rfl⟩ := h
  have haccount : accountOf config d = some userId := by
    rw [accountOf, htext, Option.bind_some, hid]
  have hkey : ∀ now reviewedAt user, (reviewedKyc config.hashNationalId (d.params userId) now
      reviewedAt (s.kycProfiles.find? userId) user).userId = userId := fun now reviewedAt user =>
    reviewedKyc_userId _ (d.params userId) _ _ _ _ fun k hk => Table.key_of_find? hk
  cases hreview with
  | @profile now reviewedAt kyc noUser reviewed =>
    have hnone : s.users.find? userId = none := noUser
    have hkyc : kyc.userId = userId := by
      rw [reviewed]
      exact hkey _ _ _
    refine ⟨userId, providerEventAt, now, reviewedAt, kyc, haccount, hat, hstale, ?_, ?_⟩
    · rw [hnone]
      exact reviewed
    · refine outcome_of_put hkyc rfl ⟨none, none, 0, ?_⟩ (fun _ _ => Iff.rfl) fun _ => rfl
      rw [hnone]
      exact hnone
  | @account now reviewedAt lockedAt kyc user phone dob identityDob found reviewed =>
    have hsome : s.users.find? userId = some user := found
    have hkyc : kyc.userId = userId := by
      rw [reviewed]
      exact hkey _ _ _
    have huser : user.id = userId := Table.key_of_find? hsome
    have hnew : (reviewedUser kyc phone dob lockedAt user).id = userId := huser
    obtain ⟨hprofiles, husers, hidentities⟩ := publish_identityWrites s
      (publish s [.kycProfile kyc, .user (reviewedUser kyc phone dob lockedAt user)])
      (reviewedUser kyc phone dob lockedAt user) kyc identityDob
    refine ⟨userId, providerEventAt, now, reviewedAt, kyc, haccount, hat, hstale, ?_, ?_⟩
    · rw [hsome]
      exact reviewed
    · refine outcome_of_put hkyc hprofiles ⟨phone, dob, lockedAt, ?_⟩ (fun v hv => ?_) hidentities
      · rw [hsome]
        refine (congrArg (fun users => Table.find? users userId) husers).trans ?_
        refine (Table.find?_put s.users (reviewedUser kyc phone dob lockedAt user) userId).trans ?_
        exact if_pos hnew.symm
      · have hne : v.id ≠ (reviewedUser kyc phone dob lockedAt user).id := by rwa [hnew]
        rw [← mem_put_other s hne]
        exact iff_of_eq (congrArg (fun users => v ∈ Table.rows users) husers)

end Rows

section Sequences

variable (config : WebhookConfig)

/-- Deliveries that are answered, one after the other. -/
inductive Deliveries (s : Store) : List (Turn Delivery Store × WebhookAnswer) → Store → Prop where
  | nil : Deliveries s [] s
  | snoc {log t d sys thread a} (before : Deliveries s log t)
    (run : System.Run (fun _ _ => True) (launch (processSumsubWebhook config) t [d]) sys)
    (ended : thread ∈ sys.threads) (answered : thread.program = .pure a) :
    Deliveries s (log ++ [(⟨d, t, sys.store⟩, a)]) sys.store

variable {config} {s t : Store} {d : Delivery}

theorem processed_of_run {sys : System Delivery Store Key Write PersonError WebhookAnswer}
    (run : System.Run (fun _ _ => True) (launch (processSumsubWebhook config) s [d]) sys)
    {thread : Thread Delivery Store Key Write PersonError WebhookAnswer}
    (ended : thread ∈ sys.threads) {a : WebhookAnswer} (answered : thread.program = .pure a) :
    Processed config d s a sys.store := by
  have hreturns : Returns (fun _ _ => True) (Processed config d s)
      (processSumsubWebhook config d) s :=
    returns_processSumsubWebhook (fun _ _ => trivial) trivial fun _ _ _ => trivial
  exact (chain_and_return hreturns run).2 thread ended a answered

/-- A property of the log and the store that each answered delivery keeps. -/
theorem Deliveries.invariant {log : List (Turn Delivery Store × WebhookAnswer)}
    {P : List (Turn Delivery Store × WebhookAnswer) → Store → Prop}
    (hrun : Deliveries config s log t) (hnil : P [] s)
    (hstep : ∀ log t d a t', P log t → Processed config d t a t' →
      P (log ++ [(⟨d, t, t'⟩, a)]) t') : P log t := by
  induction hrun with
  | nil => exact hnil
  | snoc before run ended answered ih =>
    exact hstep _ _ _ _ _ ih (processed_of_run run ended answered)

variable (config) in
/-- The delivery has run for `n` statements. -/
def delivered (s : Store) (d : Delivery) (n : ℕ) :
    System Delivery Store Key Write PersonError WebhookAnswer :=
  after (launch (processSumsubWebhook config) s [d]) (System.turns 0 0 n)

/-- A delivery that is answered after `n` statements. -/
theorem Deliveries.answer {log : List (Turn Delivery Store × WebhookAnswer)}
    (before : Deliveries config s log t) (n : ℕ) {a : WebhookAnswer}
    (hexec : (System.exec (fun _ _ => True) (launch (processSumsubWebhook config) t [d])
      (System.turns 0 0 n)).isSome = true)
    (hanswer : ((delivered config t d n).threads.any fun thread =>
      thread.program.result = some a) = true) :
    Deliveries config s (log ++ [(⟨d, t, (delivered config t d n).store⟩, a)])
      (delivered config t d n).store := by
  obtain ⟨thread, hthread, hresult⟩ := List.any_eq_true.mp hanswer
  exact .snoc before (run_after hexec) hthread
    (Program.result_eq_some.mp (of_decide_eq_true hresult))

end Sequences

/-- Two times, in milliseconds from the epoch. -/
def sampleTimes : List (String × ℤ) :=
  [("2026-01-01T00:00:00Z", 1767225600000), ("2026-01-02T00:00:00Z", 1767312000000)]

def sampleConfig : WebhookConfig :=
  { readId := fun text => [("1", 1), ("2", 2)].lookup text
    toTime := fun text => sampleTimes.lookup text
    toDate := some
    hashNationalId := id }

/-- An event about the first account, without data of the person. -/
def sampleEvent (createdAt : String) (reviewAnswer : Option String) : SumsubEvent :=
  { externalUserId := some "PAY_1"
    type := some "applicantReviewed"
    reviewStatus := none
    applicantId := none
    applicant := none
    reviewResult := some ⟨reviewAnswer, none, ""⟩
    review := none
    levelName := none
    inspectionId := none
    createdAtMs := none
    createdAt := some (some createdAt) }

def deliver (event : SumsubEvent) : Delivery := ⟨event, .ok (), none⟩

/-- An applicant with nothing but a country. -/
def applicantFrom (country : String) : SumsubApplicant :=
  { externalUserId := none
    dob := none
    email := none
    phone := none
    levelName := none
    inspectionId := none
    info := some ⟨none, some country, none, none, none, none, none, []⟩
    fixedInfo := none
    review := none }

end NexaStays.Sumsub
