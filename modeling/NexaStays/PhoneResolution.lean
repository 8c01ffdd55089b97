import Mathlib.Data.Fintype.EquivFin
import NexaStays.Completions
import NexaStays.PhoneChange
import NexaStays.SharedProfile

/-!
# Whose number it is after a change

`findOrCreateByPhone` returns the identity that the tables of numbers and identities name for
a number, or a new one. `changePhone` writes to neither table, so whom the new number and the
old one name afterwards is decided by what the tables held before.
-/
namespace NexaStays.PhoneResolution

open NexaStays.KeyedTable NexaStays.Transactions NexaStays.EntitySave NexaStays.Sequences
open NexaStays.Phases NexaStays.Completions NexaStays.PersonStore NexaStays.IdentityPhones
open NexaStays.PhoneChange
open NexaStays.IdentityStore (OtpCode)
open NexaStays.PhoneNumbers (normalizePhoneNumber phoneLookupCandidates)

/-- `findByCandidates` may answer so. -/
inductive Found (s : Store) : List (List Char) → Option UnifiedIdentity → Prop where
  | none : Found s [] none
  | table {candidate candidates identity} (h : identityByPhone candidate s = some identity) :
      Found s (candidate :: candidates) (some identity)
  | legacy {candidate candidates identity} (h : identityByPhone candidate s = Option.none)
      (hmem : identity ∈ legacyIdentities candidate s) :
      Found s (candidate :: candidates) (some identity)
  | later {candidate candidates found} (h : identityByPhone candidate s = Option.none)
      (hempty : legacyIdentities candidate s = []) (rest : Found s candidates found) :
      Found s (candidate :: candidates) found

/-- The number names the identity, or none. -/
def Resolves (phoneNumber : String) (s : Store) (found : Option UnifiedIdentity) : Prop :=
  Found s (phoneLookupCandidates phoneNumber.toList) found

theorem Found.congr {s t : Store} (hidentities : t.identities = s.identities)
    (hphones : t.phones = s.phones) {candidates : List (List Char)}
    {found : Option UnifiedIdentity} (h : Found s candidates found) : Found t candidates found := by
  have htable : ∀ candidate, identityByPhone candidate t = identityByPhone candidate s := by
    intro candidate
    rw [identityByPhone, identityByPhone, hidentities, hphones]
  have hlegacy : ∀ candidate, legacyIdentities candidate t = legacyIdentities candidate s := by
    intro candidate
    rw [legacyIdentities, legacyIdentities, hidentities]
  induction h with
  | none => exact .none
  | table h => exact .table (by rw [htable, h])
  | legacy h hmem => exact .legacy (by rw [htable, h]) (by rw [hlegacy]; exact hmem)
  | later h hempty _ ih => exact .later (by rw [htable, h]) (by rw [hlegacy, hempty]) ih

/-- An identity that is named is stored. -/
theorem Found.stored {s : Store} {candidates : List (List Char)} {identity : UnifiedIdentity}
    {found : Option UnifiedIdentity} (h : Found s candidates found) (hfound : found = some identity) :
    s.identities.find? identity.id = some identity := by
  induction h with
  | none => cases hfound
  | @table candidate candidates identity h =>
    obtain rfl := Option.some.inj hfound
    obtain ⟨normalized, -, h⟩ := Option.bind_eq_some_iff.mp h
    obtain ⟨row, -, h⟩ := Option.bind_eq_some_iff.mp h
    have hid : identity.id = row.identityId := Table.key_of_find? h
    rw [hid]
    exact h
  | legacy h hmem =>
    obtain rfl := Option.some.inj hfound
    exact Table.find?_key (List.mem_of_mem_filter hmem)
  | later _ _ _ ih => exact ih hfound

theorem Found.of_table {s : Store} {candidate : List Char} {candidates : List (List Char)}
    {identity : UnifiedIdentity} {found : Option UnifiedIdentity}
    (h : Found s (candidate :: candidates) found)
    (htable : identityByPhone candidate s = some identity) : found = some identity := by
  cases h with
  | table h => exact h.symm.trans htable
  | legacy h | later h =>
    rw [h] at htable
    cases htable

theorem Found.candidate {s : Store} {candidates : List (List Char)} {identity : UnifiedIdentity}
    {found : Option UnifiedIdentity} (h : Found s candidates found)
    (hfound : found = some identity) : ∃ candidate ∈ candidates,
      identityByPhone candidate s = some identity ∨ identity ∈ legacyIdentities candidate s := by
  induction h with
  | none => cases hfound
  | table h => exact ⟨_, List.mem_cons_self, .inl (h.trans hfound)⟩
  | legacy _ hmem =>
    obtain rfl := Option.some.inj hfound
    exact ⟨_, List.mem_cons_self, .inr hmem⟩
  | later _ _ _ ih =>
    obtain ⟨candidate, hmem, h⟩ := ih hfound
    exact ⟨candidate, List.mem_cons_of_mem _ hmem, h⟩

section Search

variable {ses : Session Key Write} {s : Store}

/-- The search answers with what the number names. -/
theorem mustEnd_search (hpending : ses.pending = []) (candidates : List (List Char)) :
    MustEnd (Value fun found ses' t => ses' = ses ∧ t = s ∧ Found s candidates found)
      (findByCandidates candidates) ses s := by
  have hview : ses.view s = s := by
    rw [Session.view, hpending, publish_nil]
  induction candidates with
  | nil => exact MustEnd.pure ⟨rfl, rfl, .none⟩
  | cons candidate candidates ih =>
    refine (MustEnd.query (P := fun found ses' t => found = identityByPhone candidate s ∧
      ses' = ses ∧ t = s) ⟨by rw [hview], rfl, rfl⟩).bind fun found ses' t hfound => ?_
    obtain ⟨rfl, rfl, rfl⟩ := hfound
    cases htable : identityByPhone candidate t with
    | some identity => exact MustEnd.pure ⟨rfl, rfl, .table htable⟩
    | none =>
      refine (MustEnd.findOne (P := fun found ses t' =>
        (∃ n, found = Program.pick n (legacyIdentities candidate t)) ∧ ses = ses' ∧ t' = t)
        fun n => ⟨⟨n, by rw [hview]⟩, rfl, rfl⟩).bind fun found ses t' hfound => ?_
      obtain ⟨⟨n, rfl⟩, rfl, rfl⟩ := hfound
      cases hpick : Program.pick n (legacyIdentities candidate t') with
      | some identity => exact MustEnd.pure ⟨rfl, rfl, .legacy htable (Program.mem_of_pick hpick)⟩
      | none =>
        have hempty := Program.pick_eq_none hpick
        exact ih.mono fun r ses' u h a ha =>
          ⟨(h a ha).1, (h a ha).2.1, .later htable hempty (h a ha).2.2⟩

/-- The search may answer with all that the number may name. -/
theorem mayEnd_search (hpending : ses.pending = []) {candidates : List (List Char)}
    {found : Option UnifiedIdentity} (h : Found s candidates found) :
    MayEnd (Reaches fun a ses' t => a = found ∧ ses' = ses ∧ t = s)
      (findByCandidates candidates) ses s := by
  have hview : ses.view s = s := by
    rw [Session.view, hpending, publish_nil]
  have htable : ∀ {candidate : List Char} {found : Option UnifiedIdentity},
      identityByPhone candidate s = found →
      MayEnd (Reaches fun a ses' t => a = found ∧ ses' = ses ∧ t = s)
        (Personal.read (identityByPhone candidate)) ses s := by
    intro candidate found h
    exact MayEnd.query ⟨by rw [hview, h], rfl, rfl⟩
  induction h with
  | none => exact MayEnd.pure ⟨rfl, rfl, rfl⟩
  | table h =>
    refine (htable h).bind fun a ses' t ha => ?_
    obtain ⟨rfl, rfl, rfl⟩ := ha
    exact MayEnd.pure ⟨rfl, rfl, rfl⟩
  | @legacy candidate candidates identity h hmem =>
    obtain ⟨n, hn⟩ := exists_pick hmem
    refine (htable h).bind fun a ses' t ha => ?_
    obtain ⟨rfl, rfl, rfl⟩ := ha
    refine (MayEnd.findOne (P := fun a ses t' => a = some identity ∧ ses = ses' ∧ t' = t) n
      ⟨by rw [hview, hn], rfl, rfl⟩).bind fun a ses t' ha => ?_
    obtain ⟨rfl, rfl, rfl⟩ := ha
    exact MayEnd.pure ⟨rfl, rfl, rfl⟩
  | @later candidate candidates found h hempty rest ih =>
    refine (htable h).bind fun a ses' t ha => ?_
    obtain ⟨rfl, rfl, rfl⟩ := ha
    refine (MayEnd.findOne (P := fun a ses t' => a = none ∧ ses = ses' ∧ t' = t) 0
      ⟨by rw [hview, hempty]; rfl, rfl, rfl⟩).bind fun a ses t' ha => ?_
    obtain ⟨rfl, rfl, rfl⟩ := ha
    exact ih

end Search

/-- An identity that the number names, or a new one where it names none. -/
def Answer (phoneNumber : String) (s : Store) (identity : UnifiedIdentity) : Prop :=
  Resolves phoneNumber s (some identity) ∨
    Resolves phoneNumber s none ∧ s.identities.find? identity.id = none

section Answers

variable {ses : Session Key Write} {s : Store} {phoneNumber : String}

theorem mustEnd_create (hview : (ses.view s).identities = s.identities) :
    MustEnd (Value fun identity _ _ => s.identities.find? identity.id = none)
      (createIdentity phoneNumber) ses s := by
  have hfresh : ∀ {n : ℕ}, Storage.present (ses.view s) (Key.identity n) = false →
      s.identities.find? n = none := by
    intro n hn
    rw [storage_present, Store.present, hview] at hn
    simpa using hn
  refine (MustEnd.query (P := fun _ ses' t => ses' = ses ∧ t = s) ⟨rfl, rfl⟩).bind
    fun users ses' t ht => ?_
  obtain ⟨rfl, rfl⟩ := ht
  cases users with
  | nil =>
    refine (MustEnd.insertRow (P := fun n _ _ => t.identities.find? n = none)
      fun n hn => hfresh hn).bind fun n _ _ hn => ?_
    exact (MustEnd.any _).bind fun _ _ _ _ => MustEnd.pure hn
  | cons best rest =>
    refine (MustEnd.insertRow (P := fun n _ _ => t.identities.find? n = none)
      fun n hn => hfresh hn).bind fun n _ _ hn => ?_
    exact (MustEnd.any _).bind fun _ _ _ _ => (MustEnd.any _).bind fun _ _ _ _ =>
      MustEnd.pure hn

theorem mustEnd_findOrCreate (phoneNumber : String) (s : Store) :
    MustEnd (Value fun identity _ _ => Answer phoneNumber s identity)
      (findOrCreateByPhone phoneNumber) .idle s := by
  refine MustEnd.transaction ?_
  refine MustEnd.bind (P := fun _ ses t => ses.pending = [] ∧ t = s) ?_ fun _ ses t ht => ?_
  · exact ⟨MustEnd.pure ⟨rfl, rfl⟩, fun _ ha => nomatch ha⟩
  obtain ⟨hpending, rfl⟩ := ht
  refine (mustEnd_search hpending _).bind fun found ses' u hfound => ?_
  obtain ⟨rfl, rfl, hfound⟩ := hfound
  cases found with
  | some identity =>
    exact (MustEnd.any _).bind fun _ _ _ _ => (MustEnd.any _).bind fun _ _ _ _ =>
      MustEnd.pure (.inl hfound)
  | none =>
    have hview : (ses'.view u).identities = u.identities := by
      rw [Session.view, hpending, publish_nil]
    exact (mustEnd_create hview).mono fun r _ _ h a ha => .inr ⟨hfound, h a ha⟩

end Answers

section Completed

variable {ses : Session Key Write} {s : Store} {phoneNumber : String} {identityId : ℕ}

/-- In a transaction that sees the identity, the number is attached or is another's. -/
theorem mayEnd_attach
    (hid : ((ses.view s).identities.find? identityId).isSome = true) {normalized : String}
    (hnormal : normalizedOrError phoneNumber = .ok normalized) :
    MayEnd (fun r _ _ => (∃ row, r = .ok row) ∨ r = .error alreadyLinked)
      (attachPhoneNumberToIdentity true identityId phoneNumber ⟨none, some true⟩) ses s := by
  obtain ⟨identity, hidentity⟩ := Option.isSome_iff_exists.mp hid
  refine (MayEnd.query (P := fun found ses' t => found = some identity ∧ ses' = ses ∧ t = s)
    ⟨hidentity, rfl, rfl⟩).bind fun found ses' t ht => ?_
  obtain ⟨rfl, rfl, rfl⟩ := ht
  refine (MayEnd.expect (P := fun _ ses t' => ses = ses' ∧ t' = t) rfl ⟨rfl, rfl⟩).bind
    fun _ ses t' ht => ?_
  obtain ⟨rfl, rfl⟩ := ht
  refine (MayEnd.ofExcept (P := fun a ses' t => a = normalized ∧ ses' = ses ∧ t = t') hnormal
    ⟨rfl, rfl, rfl⟩).bind fun a ses' t ht => ?_
  obtain ⟨rfl, rfl, rfl⟩ := ht
  refine (MayEnd.query (P := fun found ses t' => found = (ses'.view t).phones.find? a ∧
    ses = ses' ∧ t' = t) ⟨rfl, rfl, rfl⟩).bind fun found ses t' ht => ?_
  obtain ⟨hfound, rfl, rfl⟩ := ht
  cases found with
  | some existing =>
    by_cases hsame : existing.identityId = identityId
    · simp only [attachExisting, Program.require, if_pos hsame]
      exact .inl ⟨existing, rfl⟩
    · simp only [attachExisting, Program.require, if_neg hsame]
      exact .inr rfl
  | none =>
    refine (MayEnd.query (P := fun count ses' t => count = (phonesOf identityId
      (ses.view t')).length ∧ ses' = ses ∧ t = t') ⟨rfl, rfl, rfl⟩).bind fun count ses' t ht => ?_
    obtain ⟨rfl, rfl, rfl⟩ := ht
    refine (MayEnd.receive (P := fun _ ses t' => ses = ses' ∧ t' = t) 0 ⟨rfl, rfl⟩).bind
      fun now ses t' ht => ?_
    obtain ⟨rfl, rfl⟩ := ht
    have hsave : ∀ (ses : Session Key Write) (row : IdentityPhoneNumber),
        (ses.view t').phones.find? row.normalizedPhoneNumber = none →
        MayEnd (fun r _ _ => (∃ row, r = .ok row) ∨ r = .error alreadyLinked)
          (saveNumber true row) ses t' := by
      intro ses row hnone
      refine (MayEnd.writeRows (P := fun written _ _ => written = [.phone row]) ?_).bind
        fun written _ _ hwritten => ?_
      · simp [hnone]
      · subst hwritten
        exact .inl ⟨row, rfl⟩
    unfold insertNumber
    split
    case isTrue hprimary =>
      have hnone : phonesOf identityId (ses.view t') = [] := by
        simpa [newNumber] using hprimary
      refine MayEnd.bind (P := fun _ ses' t => ses' = ses.stage (σ := Store) [] ∧ t = t') ?_
        fun _ ses' t ht => ?_
      · refine (MayEnd.writeRows (P := fun _ ses' t => ses' = ses.stage (σ := Store) [] ∧ t = t')
          ?_).bind fun _ _ _ h => MayEnd.pure h
        simp [newNumber, hnone, Session.visible]
      · obtain ⟨rfl, rfl⟩ := ht
        refine hsave _ _ ?_
        rw [show (ses.stage (σ := Store) []).view t = ses.view t by
          simp [Session.stage, Session.view]]
        exact hfound.symm
    case isFalse => exact hsave ses _ hfound.symm

theorem mayEnd_ensure
    (hid : ((ses.view s).identities.find? identityId).isSome = true) {normalized : String}
    (hnormal : normalizedOrError phoneNumber = .ok normalized) :
    MayEnd (Reaches fun _ _ _ => True) (ensurePhoneAttached identityId phoneNumber) ses s := by
  refine MayEnd.attempt (MayEnd.handle (mayEnd_attach hid hnormal) ?_ ?_)
  · intro a ses s _
    exact .inl ⟨(), rfl, trivial⟩
  · intro e ses s he
    obtain ⟨row, hrow⟩ | he := he
    · cases hrow
    · obtain rfl := Except.error.inj he
      exact .inr ⟨_, rfl, MayEnd.pure trivial⟩

/-- No write takes an identity away. -/
theorem stored_publish (ws : List Write) (s : Store) (h : (s.identities.find? identityId).isSome) :
    ((publish s ws).identities.find? identityId).isSome := by
  induction ws generalizing s with
  | nil => exact h
  | cons w ws ih =>
    refine ih _ ?_
    cases w with
    | identity row =>
      rw [storage_write, Store.write, Table.find?_put]
      split
      · rfl
      · exact h
    | _ => exact h

theorem mayEnd_link (created : Bool) :
    MayEnd (Reaches fun _ ses' t => ses' = ses ∧
      ∀ i, (s.identities.find? i).isSome → (t.identities.find? i).isSome)
      (linkUsersToIdentity created phoneNumber identityId) ses s := by
  have hother : ∀ (ws : Store → List Write) (s : Store),
      MayEnd (Reaches fun _ ses' t => ses' = ses ∧
        ∀ i, (s.identities.find? i).isSome → (t.identities.find? i).isSome)
        (onOtherConnection ws) ses s := by
    intro ws s
    refine (MayEnd.query (P := fun _ ses' t => ses' = ses ∧ t = s) ⟨rfl, rfl⟩).bind
      fun _ ses' t ht => ?_
    obtain ⟨rfl, rfl⟩ := ht
    exact MayEnd.send ⟨rfl, fun i hi => stored_publish _ t hi⟩
  unfold linkUsersToIdentity
  split
  · exact MayEnd.pure ⟨rfl, fun _ h => h⟩
  · refine (hother _ s).bind fun _ ses' t ht => ?_
    obtain ⟨rfl, hkeep⟩ := ht
    refine (hother _ t).mono fun r ses u h => ?_
    obtain ⟨a, ha, hses, hkeep'⟩ := h
    exact ⟨a, ha, hses, fun i hi => hkeep' i (hkeep i hi)⟩

theorem mayEnd_use {identity : UnifiedIdentity} (hpending : ses.pending = [])
    (hstored : (s.identities.find? identity.id).isSome = true) {normalized : String}
    (hnormal : normalizedOrError phoneNumber = .ok normalized) :
    MayEnd (Reaches fun a _ _ => a = identity) (useIdentity phoneNumber identity) ses s := by
  refine (mayEnd_link false).bind fun _ ses' t ht => ?_
  obtain ⟨rfl, hkeep⟩ := ht
  refine (mayEnd_ensure ?_ hnormal).bind fun _ _ _ _ => MayEnd.pure rfl
  rw [Session.view, hpending, publish_nil]
  exact hkeep _ hstored

theorem mayEnd_create (hactive : ses.active = true) (hpending : ses.pending = [])
    {normalized : String} (hnormal : normalizedOrError phoneNumber = .ok normalized) :
    MayEnd (Reaches fun identity _ _ => s.identities.find? identity.id = none)
      (createIdentity phoneNumber) ses s := by
  obtain ⟨n, hn⟩ := s.identities.exists_absent
  have hfresh : Storage.present (ses.view s) (Key.identity n) = false := by
    rw [Session.view, hpending, publish_nil, storage_present, Store.present, hn]
    rfl
  have hsees : ∀ {row : UnifiedIdentity} {t : Store}, row.id = n →
      (((ses.stage (σ := Store) [Write.identity row]).view t).identities.find? n).isSome = true := by
    intro row t hrow
    subst hrow
    simp [Session.stage, Session.view, hactive, hpending, Store.write]
  refine (MayEnd.query (P := fun _ ses' t => ses' = ses ∧ t = s) ⟨rfl, rfl⟩).bind
    fun users ses' t ht => ?_
  obtain ⟨rfl, rfl⟩ := ht
  cases users with
  | nil =>
    refine (MayEnd.insertRow (P := fun id ses _ => id = n ∧
      ses = ses'.stage (σ := Store) [.identity (emptyIdentity phoneNumber n)]) n hfresh
      ⟨rfl, rfl⟩).bind fun id ses u hu => ?_
    obtain ⟨rfl, rfl⟩ := hu
    exact (mayEnd_ensure (hsees rfl) hnormal).bind fun _ _ _ _ => MayEnd.pure hn
  | cons best rest =>
    refine (MayEnd.insertRow (P := fun id ses _ => id = n ∧ ses = ses'.stage (σ := Store)
      [.identity (identityOfUsers phoneNumber best (best :: rest) n)]) n hfresh
      ⟨rfl, rfl⟩).bind fun id ses u hu => ?_
    obtain ⟨rfl, rfl⟩ := hu
    refine (mayEnd_link true).bind fun _ ses u hu => ?_
    obtain ⟨rfl, -⟩ := hu
    exact (mayEnd_ensure (hsees rfl) hnormal).bind fun _ _ _ _ => MayEnd.pure hn

theorem mayEnd_underLock {normalized : String}
    (hnormal : normalizedOrError phoneNumber = .ok normalized) {found : Option UnifiedIdentity}
    (h : Resolves phoneNumber s found) :
    MayEnd (Reaches fun identity _ _ => found = some identity ∨
      found = none ∧ s.identities.find? identity.id = none)
      (findOrCreateUnderLock phoneNumber) .opened s := by
  refine MayEnd.bind (P := fun _ ses t => ses.pending = [] ∧ ses.active = true ∧ t = s) ?_
    fun _ ses t ht => ?_
  · exact ⟨(), rfl, rfl, rfl, rfl⟩
  obtain ⟨hpending, hactive, rfl⟩ := ht
  refine (mayEnd_search hpending h).bind fun a ses' u ha => ?_
  obtain ⟨rfl, rfl, rfl⟩ := ha
  cases a with
  | some identity =>
    have hstored : (u.identities.find? identity.id).isSome = true := by
      rw [Found.stored h rfl]
      rfl
    exact (mayEnd_use hpending hstored hnormal).mono fun r _ _ ⟨b, hr, hb⟩ =>
      ⟨b, hr, .inl (congrArg some hb.symm)⟩
  | none =>
    exact (mayEnd_create hactive hpending hnormal).mono fun r _ _ ⟨b, hr, hb⟩ =>
      ⟨b, hr, .inr ⟨rfl, hb⟩⟩

theorem mayEnd_findOrCreate {normalized : String}
    (hnormal : normalizedOrError phoneNumber = .ok normalized) {found : Option UnifiedIdentity}
    (h : Resolves phoneNumber s found) :
    MayEnd (Reaches fun identity _ _ => found = some identity ∨
      found = none ∧ s.identities.find? identity.id = none)
      (findOrCreateByPhone phoneNumber) .idle s :=
  MayEnd.transaction (mayEnd_underLock hnormal h)

theorem exists_found (s : Store) (candidates : List (List Char)) : ∃ found, Found s candidates found := by
  induction candidates with
  | nil => exact ⟨none, .none⟩
  | cons candidate candidates ih =>
    cases htable : identityByPhone candidate s with
    | some identity => exact ⟨some identity, .table htable⟩
    | none =>
      cases hlegacy : legacyIdentities candidate s with
      | cons identity rest => exact ⟨some identity, .legacy htable (by rw [hlegacy]; simp)⟩
      | nil =>
        obtain ⟨found, hfound⟩ := ih
        exact ⟨found, .later htable hlegacy hfound⟩

/-- The identity of a number in its normal form can always be found or created. -/
theorem canEnd_findOrCreate {normalized : String}
    (hnormal : normalizedOrError phoneNumber = .ok normalized) :
    CanEnd (findOrCreateByPhone phoneNumber) := by
  intro ses s _
  obtain ⟨found, hfound⟩ := exists_found s (phoneLookupCandidates phoneNumber.toList)
  refine MayEnd.transaction ((mayEnd_underLock hnormal hfound).mono fun r ses t hr => ?_)
  obtain ⟨identity, hr, -⟩ := hr
  exact ⟨identity, hr, outside_idle⟩

end Completed

/-- The tables that say whose a number is are the same. -/
def SameNumbers (s t : Store) : Prop := t.identities = s.identities ∧ t.phones = s.phones

theorem returns_consumeOtp {phones : List String} {now : ℤ} {otp invalid wrong : String}
    (s : Store) : Returns (fun _ _ => True) (fun _ t => SameNumbers s t)
      (consumeOtp phones now otp invalid wrong) s := by
  refine (Returns.findOne (P := fun found t =>
    (∃ n, found = Program.pick n (otpsOf phones s)) ∧ t = s) fun n => ⟨⟨n, rfl⟩, rfl⟩).bind
    fun found t ht => ?_
  obtain ⟨⟨n, rfl⟩, rfl⟩ := ht
  refine (Returns.ofExcept (P := fun record u => record ∈ otpsOf phones t ∧ u = t)
    fun record hrecord => ⟨Program.mem_of_pick (checkOtp_accepts.mp hrecord).1, rfl⟩).bind
    fun record u hu => ?_
  obtain ⟨hmem, rfl⟩ := hu
  have hrow : u.otps.find? record.id = some record :=
    Table.find?_key (List.mem_of_mem_filter (List.mem_of_mem_filter hmem))
  refine returns_saveEntity hrow ?_ trivial ⟨rfl, rfl⟩
  simp [savedOtp, Store.write, Table.put_self hrow]

theorem returns_savePhone {userId : ℕ} {phoneNumber : String} (s : Store) :
    Returns (fun _ _ => True) (fun _ t => SameNumbers s t) (savePhone userId phoneNumber) s := by
  refine (Returns.query (P := fun _ t => t = s) rfl).bind fun found t ht => ?_
  subst ht
  refine (Returns.expect (P := fun _ u => u = t) fun _ _ => rfl).bind fun _ u hu => ?_
  subst hu
  refine (Returns.writeRows (P := fun _ t => SameNumbers u t) trivial ?_).bind
    fun _ _ h => Returns.pure h
  cases u.users.find? userId with
  | none => exact ⟨rfl, rfl⟩
  | some row => exact ⟨rfl, rfl⟩

/-- A change returns a normal form and leaves both tables as they are. -/
theorem returns_changePhone (c : ChangeCall) (s : Store) :
    Returns (fun _ _ => True) (fun p t => SameNumbers s t ∧
      normalizedOrThrow c.newPhoneNumber = .ok p) (changePhone c) s := by
  refine (Returns.query (P := fun _ t => t = s) rfl).bind fun found t ht => ?_
  subst ht
  refine (Returns.expect (P := fun _ u => u = t) fun _ _ => rfl).bind fun user u hu => ?_
  subst hu
  refine (Returns.ofExcept (P := fun numbers v =>
    normalizedOrThrow c.newPhoneNumber = .ok numbers.2 ∧ v = u) fun numbers hnumbers => ?_).bind
    fun numbers v hv => ?_
  · refine ⟨?_, rfl⟩
    unfold checkRequest at hnumbers
    split at hnumbers
    · cases hnumbers
    · split at hnumbers
      · cases hnumbers
      · split at hnumbers
        · cases hnumbers
        · obtain rfl := Except.ok.inj hnumbers
          assumption
  obtain ⟨hnormal, rfl⟩ := hv
  refine (returns_consumeOtp v).bind fun _ t ht => ?_
  refine (returns_consumeOtp t).bind fun _ u hu => ?_
  refine (Returns.findOne (P := fun _ w => w = u) fun _ => rfl).bind fun existing w hw => ?_
  subst hw
  refine (Returns.require (P := fun _ u => u = w) fun _ => rfl).bind fun _ x hx => ?_
  subst hx
  refine (returns_savePhone x).bind fun _ y hy => Returns.pure ⟨⟨?_, ?_⟩, hnormal⟩
  · rw [hy.1, hu.1, ht.1]
  · rw [hy.2, hu.2, ht.2]

/-- A valid number has a normal form. -/
theorem normalize_of_valid {raw : List Char}
    (h : (PhoneNumbers.validatePhoneNumber raw).valid = true) :
    ∃ n, (PhoneNumbers.validatePhoneNumber raw).normalized = some n ∧
      normalizePhoneNumber (PhoneNumbers.trimmed raw) = .ok n := by
  unfold PhoneNumbers.validatePhoneNumber at h ⊢
  simp only at h ⊢
  split_ifs at h ⊢
  all_goals try cases h
  cases hn : normalizePhoneNumber (PhoneNumbers.trimmed raw) with
  | ok n => exact ⟨n, rfl, rfl⟩
  | error message =>
    rw [hn] at h
    cases h

/-- A normal form is normal. -/
theorem normal_of_normalized {raw p : String} (h : normalizedOrThrow raw = .ok p) :
    normalizedOrError p = .ok p := by
  unfold normalizedOrThrow PhoneNumbers.normalizePhoneOrThrow at h
  by_cases hvalid : (PhoneNumbers.validatePhoneNumber raw.toList).valid = true
  · obtain ⟨n, hnormalized, hn⟩ := normalize_of_valid hvalid
    simp only [if_pos hvalid, hnormalized, Option.getD_some, Except.ok.injEq] at h
    subst h
    rw [normalizedOrError, String.toList_ofList, PhoneNumbers.normalize_normalized hn]
  · simp only [if_neg hvalid] at h
    cases h

/-- The account's number is `p` now: it names the identity of the person, and the number it
had before does not. -/
def KeepsPerson (identityId : ℕ) (old p : String) (t : Store) : Prop :=
  (∀ sys identity, System.Run (fun _ _ => True) (launch findOrCreateByPhone t [p]) sys →
    answerOf sys 0 = some identity → identity.id = identityId) ∧
    ∀ identity, Resolves old t (some identity) → identity.id ≠ identityId

/-- The user has a number and a unified identity. -/
structure Person (userId identityId : ℕ) (old : String) (s : Store) : Prop where
  user : ∃ user, s.users.find? userId = some user ∧ user.phoneNumber = some old ∧
    user.unifiedIdentityId = some identityId
  stored : (s.identities.find? identityId).isSome = true

/-- A change keeps the person exactly if the new number, and it alone, named the identity of
the person before. -/
theorem change_keeps_person_iff {c : ChangeCall} {s : Store} {identityId : ℕ} {old p : String}
    {sys : System ChangeCall Store Key Write PersonError String}
    (hperson : Person c.userId identityId old s)
    (hrun : System.Run (fun _ _ => True) (launch changePhone s [c]) sys)
    (hanswer : answerOf sys 0 = some p) :
    KeepsPerson identityId old p sys.store ↔
      (∀ found, Resolves p s found → ∃ identity, found = some identity ∧
        identity.id = identityId) ∧
      ∀ identity, Resolves old s (some identity) → identity.id ≠ identityId := by
  obtain ⟨t, ht, hprogram⟩ := answerOf_eq_some.mp hanswer
  obtain ⟨⟨hidentities, hphones⟩, hnormal⟩ := (chain_and_return (returns_changePhone c s) hrun).2 t
    (List.mem_of_getElem? ht) p hprogram
  have hafter : ∀ {phone : String} {found : Option UnifiedIdentity},
      Resolves phone sys.store found ↔ Resolves phone s found :=
    ⟨Found.congr hidentities.symm hphones.symm, Found.congr hidentities hphones⟩
  constructor
  · rintro ⟨hown, hother⟩
    refine ⟨fun found hfound => ?_, fun identity h => hother identity (hafter.mpr h)⟩
    obtain ⟨sys', identity, hrun', hanswer', hcase⟩ := run_of_mayEnd (c := p)
      (mayEnd_findOrCreate (normal_of_normalized hnormal) (hafter.mpr hfound))
    have hid := hown sys' identity hrun' hanswer'
    obtain rfl | ⟨-, hnew⟩ := hcase
    · exact ⟨identity, rfl, hid⟩
    · rw [hid, hidentities] at hnew
      have hstored := hperson.stored
      rw [hnew] at hstored
      cases hstored
  · rintro ⟨hown, hother⟩
    refine ⟨fun sys' identity hrun' hanswer' => ?_, fun identity h =>
      hother identity (hafter.mp h)⟩
    obtain ⟨ses, hfound | ⟨hnone, -⟩⟩ := value_of_run (mustEnd_findOrCreate p sys.store) hrun' hanswer'
    · obtain ⟨i, hi, hid⟩ := hown _ (hafter.mp hfound)
      obtain rfl := Option.some.inj hi
      exact hid
    · obtain ⟨i, hi, -⟩ := hown _ (hafter.mp hnone)
      cases hi

/-- A code that was stored as it is. -/
def plainCode (id : ℕ) (phoneNumber code : String) : OtpCode :=
  { id
    phoneNumber
    code
    expiresAt := 300000
    attempts := 0
    consumedAt := none
    createdAt := 0 }

def attached (phoneNumber : String) : IdentityPhoneNumber :=
  ⟨1, phoneNumber, phoneNumber, true, true, some 0⟩

/-- An account under the first number, whose person has `stored` as number. -/
def person (stored : String) : Store :=
  { Store.blank with
    users := .ofRows [SharedProfile.account 1 .consumer "VERIFIED"]
    identities := .ofRows [{ SharedProfile.amal with phoneNumber := some stored }]
    phones := .ofRows [attached stored]
    otps := .ofRows [plainCode 1 "+212600000001" "111111", plainCode 2 "+212600000002" "222222"] }

def toSecond : ChangeCall := ⟨1, "111111", "+212600000002", "222222", 1000⟩

/-- The whole run of the call. -/
def changed (s : Store) : System ChangeCall Store Key Write PersonError String :=
  after (launch changePhone s [toSecond]) (System.turns 0 0 13)

theorem keeps_person_attached : KeepsPerson 1 "+212600000001" "+212600000002"
    (changed (person "+212600000002")).store := by
  have hperson : Person toSecond.userId 1 "+212600000001" (person "+212600000002") :=
    ⟨⟨SharedProfile.account 1 .consumer "VERIFIED", by decide +kernel⟩, by decide +kernel⟩
  refine (change_keeps_person_iff hperson (run_after (by decide +kernel))
    (by decide +kernel)).mpr ⟨fun found hfound => ?_, fun identity hfound => ?_⟩
  · have hcandidates : ∃ rest, phoneLookupCandidates "+212600000002".toList =
        "+212600000002".toList :: rest := ⟨_, rfl⟩
    obtain ⟨rest, hrest⟩ := hcandidates
    have htable : identityByPhone "+212600000002".toList (person "+212600000002") =
        some { SharedProfile.amal with phoneNumber := some "+212600000002" } := by decide +kernel
    rw [Resolves, hrest] at hfound
    exact ⟨_, hfound.of_table htable, rfl⟩
  · have hnone : ∀ candidate ∈ phoneLookupCandidates "+212600000001".toList,
        identityByPhone candidate (person "+212600000002") = none ∧
          legacyIdentities candidate (person "+212600000002") = [] := by decide +kernel
    obtain ⟨candidate, hmem, htable | hlegacy⟩ := hfound.candidate rfl
    · rw [(hnone candidate hmem).1] at htable
      cases htable
    · rw [(hnone candidate hmem).2] at hlegacy
      cases hlegacy

/-- After an ordinary change the old number still names the person. -/
theorem old_number_resolves :
    Person toSecond.userId 1 "+212600000001" (person "+212600000001") ∧
      System.Run (fun _ _ => True) (launch changePhone (person "+212600000001") [toSecond])
        (changed (person "+212600000001")) ∧
      answerOf (changed (person "+212600000001")) 0 = some "+212600000002" ∧
      ¬KeepsPerson 1 "+212600000001" "+212600000002" (changed (person "+212600000001")).store := by
  refine ⟨⟨⟨SharedProfile.account 1 .consumer "VERIFIED", by decide +kernel⟩, by decide +kernel⟩,
    run_after (by decide +kernel), by decide +kernel, fun hkeeps => ?_⟩
  have hresolves : Resolves "+212600000001" (changed (person "+212600000001")).store
      (some { SharedProfile.amal with phoneNumber := some "+212600000001" }) := by
    refine Found.table ?_
    decide +kernel
  exact hkeeps.2 _ hresolves rfl

end NexaStays.PhoneResolution
