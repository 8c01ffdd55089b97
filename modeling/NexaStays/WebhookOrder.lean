import NexaStays.SharedProfile
import NexaStays.SumsubEffects

/-!
# The order of the deliveries

An event that is not newer than the last applied one is dropped, with what it tells of the
person. So the events that are applied depend on the order of the deliveries; the newest one is
always among them, and the last of them.
-/
namespace NexaStays.WebhookOrder

open NexaStays.KeyedTable NexaStays.Transactions NexaStays.EntitySave NexaStays.PersonStore
open NexaStays.Sequences NexaStays.Phases NexaStays.Sumsub
open NexaStays.SqlText (trim)

/-- What decides the country of the issuer; `account` is the nationality of the account, if
there is one. -/
structure Known where
  country : Option String
  nationality : Option String
  account : Option (Option String)
  deriving DecidableEq, Repr

/-- What an event tells if a column is blank. -/
def carried (params : ReviewParams) : SumsubIdentityFields :=
  if hasIdentityPii (payloadIdentity params) ∨ str params.applicantId = none then
    payloadIdentity params
  else
    match params.fetched with
    | some applicant => richer (extractSumsubIdentity (some applicant)) (payloadIdentity params)
    | none => payloadIdentity params

def received (params : ReviewParams) (k : Known) : Known :=
  { k with
    country := fill k.country (carried params).documentCountry
    nationality := fill k.nationality (carried params).nationality }

def issuerOf (k : Known) : Option String :=
  ((k.country.bind alpha2).or (k.account.join.bind alpha2)).or (k.nationality.bind alpha2)

def statusAfter (params : ReviewParams) (k : Known) : String :=
  profileStatus params.decision (issuerOf (received params k))

def knownAfter (params : ReviewParams) (k : Known) : Known :=
  let r := received params k
  { country := if params.decision = .approved then fill r.country (issuerOf r) else r.country
    nationality := r.nationality
    account := r.account.map fun nationality =>
      fill nationality ((str r.nationality).map (slice 10)) }

/-- The columns that the deliveries are compared by. -/
structure Record where
  status : Option String
  country : Option String
  providerEventAt : Option ℤ
  userStatus : Option String
  deriving DecidableEq, Repr

def recordAfter (params : ReviewParams) (providerEventAt : ℤ) (k : Known) : Record :=
  { status := some (statusAfter params k)
    country := (knownAfter params k).country
    providerEventAt := some providerEventAt
    userStatus := k.account.map fun _ => statusAfter params k }

section Rows

variable (userId : ℕ)

def knownOf (s : Store) : Known :=
  { country := (s.kycProfiles.find? userId).bind (·.documentCountry)
    nationality := (s.kycProfiles.find? userId).bind (·.nationality)
    account := (s.users.find? userId).map (·.nationality) }

def recordOf (s : Store) : Record :=
  { status := (s.kycProfiles.find? userId).map (·.status)
    country := (s.kycProfiles.find? userId).bind (·.documentCountry)
    providerEventAt := (s.kycProfiles.find? userId).bind (·.lastProviderEventAt)
    userStatus := (s.users.find? userId).map (·.kycStatus) }

variable {userId} {config : WebhookConfig} {d : Delivery} {s t : Store}

theorem fill_of_filled {column : Option String} (h : filled column = true) (value : Option String) :
    fill column value = column := if_pos h

theorem resolve_of_incomplete {params : ReviewParams} {kyc : KycProfile}
    (h : kycIdentityIsComplete kyc = false) : resolveSumsubIdentity params kyc = carried params := by
  unfold resolveSumsubIdentity carried
  by_cases hpayload : hasIdentityPii (payloadIdentity params) = true ∨ str params.applicantId = none
  · rw [if_pos (.inr hpayload), if_pos hpayload]
  · have hnot : ¬(kycIdentityIsComplete kyc = true ∨ hasIdentityPii (payloadIdentity params) = true ∨
        str params.applicantId = none) := by
      rintro (hcomplete | hrest)
      · rw [h] at hcomplete
        cases hcomplete
      · exact hpayload hrest
    refine (if_neg hnot).trans (Eq.trans ?_ (if_neg hpayload).symm)
    cases params.fetched <;> rfl

/-- A complete profile is not filled, whatever the provider tells. -/
theorem fill_resolved (params : ReviewParams) (kyc : KycProfile) :
    fill kyc.documentCountry (resolveSumsubIdentity params kyc).documentCountry =
        fill kyc.documentCountry (carried params).documentCountry ∧
      fill kyc.nationality (resolveSumsubIdentity params kyc).nationality =
        fill kyc.nationality (carried params).nationality := by
  cases hcomplete : kycIdentityIsComplete kyc with
  | true =>
    simp only [kycIdentityIsComplete, decide_eq_true_eq] at hcomplete
    obtain ⟨-, -, hnationality, -, hcountry, -⟩ := hcomplete
    simp only [fill_of_filled hcountry, fill_of_filled hnationality, and_self]
  | false =>
    rw [resolve_of_incomplete hcomplete]
    exact ⟨rfl, rfl⟩

/-- The country and the nationality of the profile once the event has filled it. -/
theorem provider_columns (hash : String → String) (params : ReviewParams) (now : ℤ) (s : Store) :
    (providerKyc hash params now (s.kycProfiles.find? userId)).documentCountry =
        (received params (knownOf userId s)).country ∧
      (providerKyc hash params now (s.kycProfiles.find? userId)).nationality =
        (received params (knownOf userId s)).nationality := by
  obtain ⟨hcountry, hnationality⟩ :=
    fill_resolved params (receivedKyc params now (s.kycProfiles.find? userId))
  have hcolumns : (receivedKyc params now (s.kycProfiles.find? userId)).documentCountry =
      (knownOf userId s).country ∧
        (receivedKyc params now (s.kycProfiles.find? userId)).nationality =
          (knownOf userId s).nationality := by
    unfold knownOf
    cases s.kycProfiles.find? userId with
    | none => exact ⟨rfl, rfl⟩
    | some k => exact ⟨rfl, rfl⟩
  rw [hcolumns.1] at hcountry
  rw [hcolumns.2] at hnationality
  refine ⟨?_, ?_⟩
  · rw [received, ← hcountry, ← hcolumns.1]
    rfl
  · rw [received, ← hnationality, ← hcolumns.2]
    rfl

theorem issuer_eq {kyc : KycProfile} {user : Option User} {k : Known}
    (hcountry : kyc.documentCountry = k.country) (hnationality : kyc.nationality = k.nationality)
    (huser : k.account = user.map (·.nationality)) :
    resolveIssuerCountryCode kyc user = issuerOf k := by
  rw [resolveIssuerCountryCode, issuerOf, hcountry, hnationality, huser]
  cases user <;> rfl

/-- What an applied event leaves of the compared columns. -/
theorem record_of_applied (h : Applied config d s t) (hone : accountOf config d = some userId) :
    ∃ providerEventAt, d.event.providerEventAt config.toTime = some providerEventAt ∧
      isStale providerEventAt (s.kycProfiles.find? userId) = false ∧
      recordOf userId t = recordAfter (d.params userId) providerEventAt (knownOf userId s) ∧
      knownOf userId t = knownAfter (d.params userId) (knownOf userId s) := by
  obtain ⟨id, providerEventAt, now, reviewedAt, kyc, haccount, hat, hstale, hkyc, houtcome⟩ :=
    h.outcome
  obtain rfl := Option.some.inj (hone.symm.trans haccount)
  obtain ⟨phone, dob, lockedAt, huser⟩ := houtcome.user
  obtain ⟨hcountry, hnationality⟩ :=
    provider_columns config.hashNationalId (d.params userId) now s
  have hissuer : resolveIssuerCountryCode (providerKyc config.hashNationalId (d.params userId) now
      (s.kycProfiles.find? userId)) (s.users.find? userId) =
        issuerOf (received (d.params userId) (knownOf userId s)) :=
    issuer_eq hcountry hnationality rfl
  have hstatus : kyc.status = statusAfter (d.params userId) (knownOf userId s) := by
    rw [hkyc]
    exact congrArg (profileStatus _) hissuer
  have hkycCountry : kyc.documentCountry =
      (knownAfter (d.params userId) (knownOf userId s)).country := by
    rw [hkyc, knownAfter, ← hissuer, ← hcountry]
    rfl
  have hkycNationality : kyc.nationality =
      (knownAfter (d.params userId) (knownOf userId s)).nationality := by
    rw [hkyc]
    exact hnationality
  refine ⟨providerEventAt, hat, hstale, ?_, ?_⟩
  · rw [recordOf, recordAfter, houtcome.profile, huser, ← hstatus, ← hkycCountry, Option.map_map]
    simp only [Option.map_some, Option.bind_some, knownOf, Option.map_map]
    rfl
  · have haccountAfter : (s.users.find? userId).map (fun u =>
        fill u.nationality ((str kyc.nationality).map (slice 10))) =
          (knownAfter (d.params userId) (knownOf userId s)).account := by
      rw [hkycNationality]
      show _ = Option.map _ ((s.users.find? userId).map _)
      rw [Option.map_map]
      rfl
    rw [knownOf, houtcome.profile, huser, Option.map_map]
    simp only [Option.bind_some, hkycCountry, hkycNationality]
    rw [hkycNationality] at haccountAfter
    simp only [Function.comp_def, reviewedUser, hkycNationality, haccountAfter]

theorem columns_of_sameReviews (h : SameReviews s t) :
    recordOf userId t = recordOf userId s ∧ knownOf userId t = knownOf userId s := by
  have hprofile := h.profiles userId
  have hcolumn : ∀ {β : Type} (f : KycProfile → β), (∀ k, f { k with reference := none } = f k) →
      (t.kycProfiles.find? userId).map f = (s.kycProfiles.find? userId).map f := by
    intro β f hf
    have hmapped := congrArg (Option.map f) hprofile
    simpa [Option.map_map, Function.comp_def, hf] using hmapped
  have hbind : ∀ f : KycProfile → Option String, (∀ k, f { k with reference := none } = f k) →
      (t.kycProfiles.find? userId).bind f = (s.kycProfiles.find? userId).bind f := by
    intro f hf
    have hbound := congrArg (fun o => Option.bind o f) hprofile
    simpa [Option.bind_map, Function.comp_def, hf] using hbound
  refine ⟨?_, ?_⟩
  · rw [recordOf, recordOf, hcolumn _ fun _ => rfl, hbind _ fun _ => rfl, h.users]
    have htime := congrArg (fun o => Option.bind o KycProfile.lastProviderEventAt) hprofile
    simp only [Option.bind_map, Function.comp_def] at htime
    rw [htime]
  · rw [knownOf, knownOf, hbind _ fun _ => rfl, hbind _ fun _ => rfl, h.users]

end Rows

/-- The log has a delivery of the event. -/
def Delivered (log : List (Turn Delivery Store × WebhookAnswer)) (event : SumsubEvent) : Prop :=
  ∃ entry ∈ log, entry.1.call.event = event

section Logs

variable (config : WebhookConfig) (fetch : SumsubEvent → Option SumsubApplicant) (userId : ℕ)

/-- What an event calls `applySumsubReviewStatus` with, if the provider answers with `fetch`. -/
def paramsOf (event : SumsubEvent) : ReviewParams :=
  Delivery.params ⟨event, .ok (), fetch event⟩ userId

/-- The deliveries are about the account, and the provider's answer to a request for the
applicant depends on the event alone. -/
def About (log : List (Turn Delivery Store × WebhookAnswer)) : Prop :=
  ∀ entry ∈ log, accountOf config entry.1.call = some userId ∧
    entry.1.call.fetched = fetch entry.1.call.event

/-- The event is newer than the last one that was applied. -/
def Newer (s : Store) (event : SumsubEvent) : Prop :=
  ∃ at', event.providerEventAt config.toTime = some at' ∧
    isStale at' (s.kycProfiles.find? userId) = false

/-- `P` is kept by the events that are newer than the record, but for the newest of them. -/
def KeptBy (s : Store) (E : SumsubEvent → Prop) (P : Known → Prop) : Prop :=
  ∀ e e' at' at'', E e → E e' → Newer config userId s e →
    e.providerEventAt config.toTime = some at' → e'.providerEventAt config.toTime = some at'' →
      at' < at'' → ∀ k, P k → P (knownAfter (paramsOf fetch userId e) k)

/-- What a log has left: the record of before, or what the newest event has made of a state with
the property `P`. -/
def Reached (s : Store) (P : Known → Prop) (log : List (Turn Delivery Store × WebhookAnswer))
    (t : Store) : Prop :=
  (recordOf userId t = recordOf userId s ∧ knownOf userId t = knownOf userId s ∧
    ∀ event, Delivered log event → ¬Newer config userId s event) ∨
  ∃ newest at' k, Delivered log newest ∧ Newer config userId s newest ∧
    newest.providerEventAt config.toTime = some at' ∧ P k ∧
    recordOf userId t = recordAfter (paramsOf fetch userId newest) at' k ∧
    knownOf userId t = knownAfter (paramsOf fetch userId newest) k ∧
    ∀ event at'', Delivered log event → event.providerEventAt config.toTime = some at'' →
      at'' ≤ at'

variable {config fetch userId} {s t t' : Store} {d : Delivery} {a : WebhookAnswer}
  {log log' : List (Turn Delivery Store × WebhookAnswer)} {P : Known → Prop}
  {E : SumsubEvent → Prop}

theorem delivered_append {turn : Turn Delivery Store} {event : SumsubEvent} :
    Delivered (log ++ [(turn, a)]) event ↔ Delivered log event ∨ turn.call.event = event := by
  simp [Delivered, or_and_right, exists_or]

/-- Staleness depends on the time of the last applied event. -/
theorem isStale_iff {at' : ℤ} {s : Store} :
    isStale at' (s.kycProfiles.find? userId) = true ↔
      ∃ last, (recordOf userId s).providerEventAt = some last ∧ at' ≤ last := by
  simp [isStale, recordOf, Option.any_eq_true]

theorem reached_step (hkept : KeptBy config fetch userId s E P) (hP : P (knownOf userId s))
    (hlog : ∀ event, Delivered log event → E event) (hE : E d.event)
    (hone : accountOf config d = some userId) (hfetch : d.fetched = fetch d.event)
    (h : Reached config fetch userId s P log t) (hprocessed : Processed config d t a t') :
    Reached config fetch userId s P (log ++ [(⟨d, t, t'⟩, a)]) t' := by
  have hparams : d.params userId = paramsOf fetch userId d.event := by
    simp only [paramsOf, Delivery.params, hfetch]
  obtain ⟨-, rfl, hignored⟩ | ⟨-, u, happlied, hsame⟩ := hprocessed
  · obtain ⟨hrecord, hknown, hold⟩ | ⟨newest, at', k, hdelivered, hnewer, hat, hk, hrecord, hknown,
      hbound⟩ := h
    · refine .inl ⟨hrecord, hknown, fun event hevent => ?_⟩
      obtain hevent | rfl := delivered_append.mp hevent
      · exact hold event hevent
      · rintro ⟨at', hat, hfresh⟩
        have hstale := isStale_iff.mp (hignored userId at' hone hat)
        rw [hrecord, ← isStale_iff, hfresh] at hstale
        cases hstale
    · refine .inr ⟨newest, at', k, delivered_append.mpr (.inl hdelivered), hnewer, hat, hk, hrecord,
        hknown, fun event at'' hevent hat'' => ?_⟩
      obtain hevent | rfl := delivered_append.mp hevent
      · exact hbound event at'' hevent hat''
      · obtain ⟨last, hlast, hle⟩ := isStale_iff.mp (hignored userId at'' hone hat'')
        rw [hrecord] at hlast
        obtain rfl := Option.some.inj hlast
        exact hle
  · obtain ⟨at₂, hat₂, hfresh, hrecord', hknown'⟩ := record_of_applied happlied hone
    rw [← (columns_of_sameReviews hsame).1, hparams] at hrecord'
    rw [← (columns_of_sameReviews hsame).2, hparams] at hknown'
    have hlater : ∀ last, (recordOf userId t).providerEventAt = some last → last < at₂ := by
      intro last hlast
      by_contra hnot
      have hstale := isStale_iff.mpr ⟨last, hlast, not_lt.mp hnot⟩
      rw [hfresh] at hstale
      cases hstale
    have hdelivered' : Delivered (log ++ [(⟨d, t, t'⟩, a)]) d.event :=
      delivered_append.mpr (.inr rfl)
    obtain ⟨hrecord, hknown, hold⟩ | ⟨newest, at', k, hdelivered, hnewer, hat, hk, hrecord, hknown,
      hbound⟩ := h
    · have hnewer : Newer config userId s d.event := by
        refine ⟨at₂, hat₂, ?_⟩
        rw [← Bool.not_eq_true, isStale_iff, ← hrecord, ← isStale_iff, hfresh]
        exact Bool.false_ne_true
      rw [hknown] at hrecord' hknown'
      refine .inr ⟨d.event, at₂, knownOf userId s, hdelivered', hnewer, hat₂, hP, hrecord', hknown',
        fun event at'' hevent hat'' => ?_⟩
      obtain hevent | rfl := delivered_append.mp hevent
      · by_contra hgt
        refine hold event hevent ⟨at'', hat'', ?_⟩
        rw [← Bool.not_eq_true, isStale_iff, ← hrecord]
        rintro ⟨last, hlast, hle⟩
        have hlt := hlater last hlast
        omega
      · exact le_of_eq (Option.some.inj (hat''.symm.trans hat₂))
    · have hlt : at' < at₂ := by
        refine hlater at' ?_
        rw [hrecord]
        rfl
      have hnewer' : Newer config userId s d.event := by
        obtain ⟨at₁, hat₁, hfresh₁⟩ := hnewer
        obtain rfl := Option.some.inj (hat₁.symm.trans hat)
        refine ⟨at₂, hat₂, ?_⟩
        rw [← Bool.not_eq_true, isStale_iff]
        rintro ⟨last, hlast, hle⟩
        have hstale := isStale_iff.mpr ⟨last, hlast, show at₁ ≤ last by omega⟩
        rw [hfresh₁] at hstale
        cases hstale
      rw [hknown] at hrecord' hknown'
      refine .inr ⟨d.event, at₂, _, hdelivered', hnewer', hat₂,
        hkept newest d.event at' at₂ (hlog newest hdelivered) hE hnewer hat hat₂ hlt k hk, hrecord',
        hknown', fun event at'' hevent hat'' => ?_⟩
      obtain hevent | rfl := delivered_append.mp hevent
      · have hle := hbound event at'' hevent hat''
        omega
      · exact le_of_eq (Option.some.inj (hat''.symm.trans hat₂))

theorem reached (hkept : KeptBy config fetch userId s E P) (hP : P (knownOf userId s))
    (hrun : Deliveries config s log t) (habout : About config fetch userId log)
    (hlog : ∀ event, Delivered log event → E event) :
    Reached config fetch userId s P log t := by
  refine hrun.invariant (P := fun log t => About config fetch userId log →
    (∀ event, Delivered log event → E event) → Reached config fetch userId s P log t)
    (fun _ _ => .inl ⟨rfl, rfl, fun event hevent => ?_⟩)
    (fun log t d a t' ih hprocessed habout hlog => ?_) habout hlog
  · obtain ⟨entry, hentry, -⟩ := hevent
    cases hentry
  · obtain ⟨hone, hfetch⟩ := habout (⟨d, t, t'⟩, a) (by simp)
    have hbefore : ∀ event, Delivered log event → E event := fun event hevent =>
      hlog event (delivered_append.mpr (.inl hevent))
    refine reached_step hkept hP hbefore (hlog d.event (delivered_append.mpr (.inr rfl))) hone hfetch
      (ih (fun entry hentry => habout entry (List.mem_append_left _ hentry)) hbefore) hprocessed

/-- The logs have the same events, and each event has its own time. -/
structure SameEvents (config : WebhookConfig)
    (log log' : List (Turn Delivery Store × WebhookAnswer)) : Prop where
  same : ∀ event, Delivered log event ↔ Delivered log' event
  distinct : ∀ e e', Delivered log e → Delivered log e' →
    e.providerEventAt config.toTime = e'.providerEventAt config.toTime → e = e'

/-- Two logs with the same events agree in what the newest event leaves of all states with the
property. -/
theorem agree_of_kept {β : Type} {f : Record → β}
    (hkept : KeptBy config fetch userId s (Delivered log) P) (hP : P (knownOf userId s))
    (hrun : Deliveries config s log t) (hrun' : Deliveries config s log' t')
    (habout : About config fetch userId log) (habout' : About config fetch userId log')
    (hevents : SameEvents config log log')
    (hagree : ∀ e at', Delivered log e → Newer config userId s e → ∀ k, P k →
      f (recordAfter (paramsOf fetch userId e) at' k) =
        f (recordAfter (paramsOf fetch userId e) at' (knownOf userId s))) :
    f (recordOf userId t) = f (recordOf userId t') := by
  have hreached := reached hkept hP hrun habout fun _ h => h
  have hreached' := reached hkept hP hrun' habout' fun event h => (hevents.same event).mpr h
  obtain ⟨hrecord, -, hold⟩ | ⟨e, at', k, he, hnewer, hat, hk, hrecord, -, hbound⟩ := hreached
  · obtain ⟨hrecord', -, -⟩ | ⟨e', -, -, he', hnewer', -⟩ := hreached'
    · rw [hrecord, hrecord']
    · exact absurd hnewer' (hold e' ((hevents.same e').mpr he'))
  · obtain ⟨-, -, hold'⟩ | ⟨e', at'', k', he', hnewer', hat', hk', hrecord', -, hbound'⟩ := hreached'
    · exact absurd hnewer (hold' e ((hevents.same e).mp he))
    · have hle := hbound e' at'' ((hevents.same e').mpr he') hat'
      have hle' := hbound' e at' ((hevents.same e).mp he) hat
      have htime : at' = at'' := by omega
      subst htime
      obtain rfl := hevents.distinct e e' he ((hevents.same e').mpr he') (hat.trans hat'.symm)
      rw [hrecord, hrecord', hagree e at' he hnewer k hk, hagree e at' he hnewer k' hk']

/-- The country is known, or all events tell it alike, or none but the newest tells anything. -/
def Settled (config : WebhookConfig) (fetch : SumsubEvent → Option SumsubApplicant) (userId : ℕ)
    (s : Store) (E : SumsubEvent → Prop) : Prop :=
  ((knownOf userId s).country.bind alpha2).isSome = true ∨
    (filled (knownOf userId s).country = false ∧ ∃ code, alpha2 code = some code ∧
      ∀ e, E e → Newer config userId s e →
        (carried (paramsOf fetch userId e)).documentCountry = some code) ∨
    ∀ e e' at' at'', E e → E e' → Newer config userId s e →
      e.providerEventAt config.toTime = some at' → e'.providerEventAt config.toTime = some at'' →
        at' < at'' → knownAfter (paramsOf fetch userId e) (knownOf userId s) = knownOf userId s

theorem filled_of_alpha2 {country : Option String} (h : (country.bind alpha2).isSome = true) :
    filled country = true := by
  cases country with
  | none => cases h
  | some text =>
    simp only [filled, Option.map_some, Option.any_some, decide_eq_true_eq]
    intro hblank
    simp only [Option.bind_some, alpha2, hblank] at h
    revert h
    decide +kernel

/-- The country decides what an event leaves, but for the presence of the account. -/
theorem recordAfter_congr {params : ReviewParams} {k k' : Known} (code : String) (at' : ℤ)
    (hcountry : (received params k).country = (received params k').country)
    (hcode : (received params k').country.bind alpha2 = some code)
    (haccount : k.account.isSome = k'.account.isSome) :
    recordAfter params at' k = recordAfter params at' k' := by
  have hissuer : issuerOf (received params k) = issuerOf (received params k') := by
    simp only [issuerOf, hcountry, hcode, Option.some_or]
  have hstatus : statusAfter params k = statusAfter params k' := by
    rw [statusAfter, statusAfter, hissuer]
  have hafter : (knownAfter params k).country = (knownAfter params k').country := by
    simp only [knownAfter, hissuer, hcountry]
  have huser : (k.account.map fun _ => statusAfter params k') =
      k'.account.map fun _ => statusAfter params k' := by
    cases hk : k.account <;> cases hk' : k'.account <;> simp_all
  rw [recordAfter, recordAfter, hstatus, hafter, huser]

theorem account_knownAfter (params : ReviewParams) (k : Known) :
    (knownAfter params k).account.isSome = k.account.isSome := by
  simp [knownAfter, received]

theorem country_knownAfter {params : ReviewParams} {k : Known}
    (h : filled (received params k).country = true) :
    (knownAfter params k).country = (received params k).country := by
  simp only [knownAfter, fill_of_filled h, ite_self]

/-- Two logs with the same events leave the same record, where the order does not matter. -/
theorem agree_of_settled (hrun : Deliveries config s log t) (hrun' : Deliveries config s log' t')
    (habout : About config fetch userId log) (habout' : About config fetch userId log')
    (hevents : SameEvents config log log')
    (hsettled : Settled config fetch userId s (Delivered log)) :
    recordOf userId t = recordOf userId t' := by
  obtain hknown | ⟨hblank, code, hcode, hcarried⟩ | hnothing := hsettled
  · have hfilled := filled_of_alpha2 hknown
    have hreceived : ∀ (params : ReviewParams) (k : Known),
        k.country = (knownOf userId s).country →
          (received params k).country = (knownOf userId s).country := by
      intro params k hk
      rw [received, hk, fill_of_filled hfilled]
    refine agree_of_kept (P := fun k => k.country = (knownOf userId s).country ∧
      k.account.isSome = (knownOf userId s).account.isSome) (f := id) ?_ ⟨rfl, rfl⟩ hrun hrun' habout
      habout' hevents fun e at' _ _ k hk => ?_
    · intro e e' at' at'' _ _ _ _ _ _ k hk
      refine ⟨?_, (account_knownAfter _ k).trans hk.2⟩
      rw [country_knownAfter (by rwa [hreceived _ k hk.1]), hreceived _ k hk.1]
    · obtain ⟨code, hcode⟩ := Option.isSome_iff_exists.mp hknown
      refine recordAfter_congr code at' ?_ ?_ hk.2
      · rw [hreceived _ k hk.1, hreceived _ _ rfl]
      · rwa [hreceived _ _ rfl]
  · have hfilled : filled (some code) = true := filled_of_alpha2 (by simp [hcode])
    have hreceived : ∀ e, Delivered log e → Newer config userId s e → ∀ k : Known,
        filled k.country = false ∨ k.country = some code →
          (received (paramsOf fetch userId e) k).country = some code := by
      intro e he hnewer k hk
      rw [received, hcarried e he hnewer]
      obtain hk | hk := hk
      · simp [fill, hk]
      · rw [hk, fill_of_filled hfilled]
    refine agree_of_kept (P := fun k => (filled k.country = false ∨ k.country = some code) ∧
      k.account.isSome = (knownOf userId s).account.isSome) (f := id) ?_ ⟨.inl hblank, rfl⟩ hrun
      hrun' habout habout' hevents fun e at' he hnewer k hk => ?_
    · intro e e' at' at'' he _ hnewer _ _ _ k hk
      refine ⟨.inr ?_, (account_knownAfter _ k).trans hk.2⟩
      have hcountry := hreceived e he hnewer k hk.1
      have hknown : filled (received (paramsOf fetch userId e) k).country = true := by
        rw [hcountry]
        exact hfilled
      rw [country_knownAfter hknown, hcountry]
    · refine recordAfter_congr code at' ?_ ?_ hk.2
      · rw [hreceived e he hnewer k hk.1, hreceived e he hnewer _ (.inl hblank)]
      · rw [hreceived e he hnewer _ (.inl hblank)]
        exact hcode
  · refine agree_of_kept (P := fun k => k = knownOf userId s) (f := id) ?_ rfl hrun hrun' habout
      habout' hevents fun e at' _ _ k hk => by rw [hk]
    intro e e' at' at'' he he' hnewer hat hat' hlt k hk
    rw [hk]
    exact hnothing e e' at' at'' he he' hnewer hat hat' hlt

/-- An answered delivery does not take the time of the last applied event back. -/
theorem time_of_processed (h : Processed config d s a t) (hone : accountOf config d = some userId)
    {last : ℤ} (hlast : (recordOf userId s).providerEventAt = some last) :
    ∃ last', (recordOf userId t).providerEventAt = some last' ∧ last ≤ last' := by
  obtain ⟨-, rfl, -⟩ | ⟨-, u, happlied, hsame⟩ := h
  · exact ⟨last, hlast, le_refl last⟩
  · obtain ⟨at', -, hfresh, hrecord, -⟩ := record_of_applied happlied hone
    refine ⟨at', by rw [(columns_of_sameReviews hsame).1, hrecord]; rfl, ?_⟩
    by_contra hnot
    have hstale := isStale_iff.mpr ⟨last, hlast, show at' ≤ last by omega⟩
    rw [hfresh] at hstale
    cases hstale

theorem times_never_decrease (hrun : Deliveries config s log t)
    (habout : About config fetch userId log) : ∀ entry ∈ log, ∀ last,
      (recordOf userId entry.1.before).providerEventAt = some last →
        ∃ last', (recordOf userId entry.1.after).providerEventAt = some last' ∧ last ≤ last' := by
  refine hrun.invariant (P := fun log _ => About config fetch userId log → ∀ entry ∈ log, ∀ last,
    (recordOf userId entry.1.before).providerEventAt = some last →
      ∃ last', (recordOf userId entry.1.after).providerEventAt = some last' ∧ last ≤ last')
    (fun _ _ h => by cases h) (fun log t d a t' ih hprocessed habout entry hentry last hlast => ?_)
    habout
  obtain hentry | hentry := List.mem_append.mp hentry
  · exact ih (fun x hx => habout x (List.mem_append_left _ hx)) entry hentry last hlast
  · obtain rfl := List.mem_singleton.mp hentry
    exact time_of_processed hprocessed (habout (⟨d, t, t'⟩, a) (by simp)).1 hlast

/-- The deliveries of a set of events leave the same time of the last applied event in any two
orders, and the same record where the order of the others does not matter for the newest. -/
theorem deliveries_converge (hrun : Deliveries config s log t)
    (hrun' : Deliveries config s log' t') (habout : About config fetch userId log)
    (habout' : About config fetch userId log') (hevents : SameEvents config log log') :
    (∀ entry ∈ log, ∀ last, (recordOf userId entry.1.before).providerEventAt = some last →
        ∃ last', (recordOf userId entry.1.after).providerEventAt = some last' ∧ last ≤ last') ∧
      (recordOf userId t).providerEventAt = (recordOf userId t').providerEventAt ∧
      (Settled config fetch userId s (Delivered log) → recordOf userId t = recordOf userId t') := by
  refine ⟨times_never_decrease hrun habout, ?_, agree_of_settled hrun hrun' habout habout' hevents⟩
  refine agree_of_kept (P := fun _ => True) (f := Record.providerEventAt) ?_ trivial hrun hrun' habout
    habout' hevents fun _ _ _ _ _ _ => rfl
  intro _ _ _ _ _ _ _ _ _ _ _ _
  trivial

end Logs

/-- A new person. -/
def newcomer : Store :=
  { Store.blank with
    users := .ofRows [{ SharedProfile.account 1 .consumer "PENDING" with
      unifiedIdentityId := none }] }

/-- An event that is not decided, with a country. -/
def started : SumsubEvent :=
  { sampleEvent "2026-01-01T00:00:00Z" none with applicant := some (applicantFrom "MAR") }

/-- A later approval, with nothing else. -/
def greenAlone : SumsubEvent := sampleEvent "2026-01-02T00:00:00Z" (some "GREEN")

/-- A later approval, with the same country. -/
def greenFrom : SumsubEvent := { greenAlone with applicant := some (applicantFrom "MAR") }

def noAnswer (_ : SumsubEvent) : Option SumsubApplicant := none

/-- The first event is delivered in `n` statements, the second one in `m`. -/
def bothDelivered (e e' : SumsubEvent) (n m : ℕ) : Store :=
  (delivered sampleConfig (delivered sampleConfig newcomer (deliver e) n).store (deliver e') m).store

theorem exists_deliveries (e e' : SumsubEvent) (n m : ℕ)
    (hexec : (System.exec (fun _ _ => True) (launch (processSumsubWebhook sampleConfig) newcomer
      [deliver e]) (System.turns 0 0 n)).isSome = true)
    (hanswer : ((delivered sampleConfig newcomer (deliver e) n).threads.any fun thread =>
      thread.program.result.isSome) = true)
    (hexec' : (System.exec (fun _ _ => True) (launch (processSumsubWebhook sampleConfig)
      (delivered sampleConfig newcomer (deliver e) n).store [deliver e'])
      (System.turns 0 0 m)).isSome = true)
    (hanswer' : ((delivered sampleConfig (delivered sampleConfig newcomer (deliver e) n).store
      (deliver e') m).threads.any fun thread => thread.program.result.isSome) = true)
    (hone : e.userId = some "1" ∧ e'.userId = some "1") :
    ∃ log, Deliveries sampleConfig newcomer log (bothDelivered e e' n m) ∧
      About sampleConfig noAnswer 1 log ∧ ∀ event, Delivered log event ↔ event = e ∨ event = e' := by
  obtain ⟨thread, hthread, hresult⟩ := List.any_eq_true.mp hanswer
  obtain ⟨a, ha⟩ := Option.isSome_iff_exists.mp hresult
  obtain ⟨thread', hthread', hresult'⟩ := List.any_eq_true.mp hanswer'
  obtain ⟨a', ha'⟩ := Option.isSome_iff_exists.mp hresult'
  have hfirst := Deliveries.snoc .nil (run_after hexec) hthread (Program.result_eq_some.mp ha)
  have hboth := hfirst.snoc (run_after hexec') hthread' (Program.result_eq_some.mp ha')
  refine ⟨_, hboth, fun entry hentry => ?_, fun event => ?_⟩
  · have hread : sampleConfig.readId "1" = some 1 := by decide +kernel
    simp only [List.nil_append, List.mem_append, List.mem_singleton] at hentry
    obtain rfl | rfl := hentry
    · exact ⟨by simp only [accountOf, deliver, hone.1, Option.bind_some, hread], rfl⟩
    · exact ⟨by simp only [accountOf, deliver, hone.2, Option.bind_some, hread], rfl⟩
  · rw [delivered_append, delivered_append]
    simp [Delivered, deliver, eq_comm]

theorem sameEvents_swapped {e e' : SumsubEvent} {log log' : List (Turn Delivery Store × WebhookAnswer)}
    (hlog : ∀ event, Delivered log event ↔ event = e ∨ event = e')
    (hlog' : ∀ event, Delivered log' event ↔ event = e' ∨ event = e)
    (htimes : e.providerEventAt sampleConfig.toTime ≠ e'.providerEventAt sampleConfig.toTime) :
    SameEvents sampleConfig log log' := by
  refine ⟨fun event => ?_, fun x y hx hy htime => ?_⟩
  · rw [hlog, hlog', or_comm]
  · obtain rfl | rfl := (hlog x).mp hx
    · obtain rfl | rfl := (hlog y).mp hy
      · rfl
      · exact absurd htime htimes
    · obtain rfl | rfl := (hlog y).mp hy
      · exact absurd htime.symm htimes
      · rfl

/-- Both events tell the country. -/
theorem deliveries_converge_sample :
    recordOf 1 (bothDelivered started greenFrom 13 14) =
      recordOf 1 (bothDelivered greenFrom started 13 4) := by
  obtain ⟨log, hrun, habout, hlog⟩ := exists_deliveries started greenFrom 13 14
    (by decide +kernel) (by decide +kernel) (by decide +kernel) (by decide +kernel)
    (by decide +kernel)
  obtain ⟨log', hrun', habout', hlog'⟩ := exists_deliveries greenFrom started 13 4
    (by decide +kernel) (by decide +kernel) (by decide +kernel) (by decide +kernel)
    (by decide +kernel)
  have hevents := sameEvents_swapped hlog hlog' (by decide +kernel)
  refine (deliveries_converge hrun hrun' habout habout' hevents).2.2
    (.inr (.inl ⟨by decide +kernel, "MA", by decide +kernel, fun event hevent _ => ?_⟩))
  obtain rfl | rfl := (hlog event).mp hevent
  · decide +kernel
  · decide +kernel

/-- The event that tells the country is dropped where the approval comes before it. -/
theorem country_dropped : ∃ log log',
    Deliveries sampleConfig newcomer log (bothDelivered started greenAlone 13 14) ∧
      Deliveries sampleConfig newcomer log' (bothDelivered greenAlone started 13 4) ∧
      About sampleConfig noAnswer 1 log ∧ About sampleConfig noAnswer 1 log' ∧
      SameEvents sampleConfig log log' ∧
      (recordOf 1 (bothDelivered started greenAlone 13 14)).status = some "VERIFIED" ∧
      (recordOf 1 (bothDelivered greenAlone started 13 4)).status = some "UNDER_REVIEW" := by
  obtain ⟨log, hrun, habout, hlog⟩ := exists_deliveries started greenAlone 13 14
    (by decide +kernel) (by decide +kernel) (by decide +kernel) (by decide +kernel)
    (by decide +kernel)
  obtain ⟨log', hrun', habout', hlog'⟩ := exists_deliveries greenAlone started 13 4
    (by decide +kernel) (by decide +kernel) (by decide +kernel) (by decide +kernel)
    (by decide +kernel)
  exact ⟨log, log', hrun, hrun', habout, habout',
    sameEvents_swapped hlog hlog' (by decide +kernel), by decide +kernel, by decide +kernel⟩

end NexaStays.WebhookOrder
