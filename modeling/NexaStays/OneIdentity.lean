import NexaStays.IdentityPhones
import NexaStays.Phases
import NexaStays.RelyGuarantee

/-!
# One identity for a number

Calls of `findOrCreateByPhone` whose texts have the same normal form wait for one advisory
lock. Until its transaction ends, the call that has it is the only one that may store the
number, so the number gets one owner, which is never changed: every identity that is created
and every identity that is returned is that owner.
-/
namespace NexaStays.OneIdentity

open NexaStays.KeyedTable NexaStays.Transactions NexaStays.PersonStore NexaStays.IdentityPhones
open NexaStays.RelyGuarantee NexaStays.RelyGuarantee.Discipline
open NexaStays.PhoneNumbers (normalizePhoneNumber tryNormalizePhoneNumber phoneLookupCandidates)

/-- The identity that has the number. -/
def owner (number : String) (s : Store) : Option ℕ :=
  (s.phones.find? number).map (·.identityId)

def Stored (id : ℕ) (s : Store) : Prop := (s.identities.find? id).isSome = true

/-- What a call that holds the locks `held` may make visible. -/
structure Effect (number : String) (held : List Key) (s t : Store) : Prop where
  stored : ∀ id, Stored id s → Stored id t
  owned : ∀ id, owner number s = some id → owner number t = some id
  locked : .advisory number ∈ held ∨ owner number t = owner number s
  created : ∀ id, ¬Stored id s → Stored id t → owner number t = some id
  owner_stored : ∀ id, owner number t = some id → Stored id t

/-- The owner is stored, and no identity but the owner is new. -/
structure Owned (number : String) (s₀ s : Store) : Prop where
  stored : ∀ id, owner number s = some id → Stored id s
  created : ∀ id, ¬Stored id s₀ → Stored id s → owner number s = some id

variable {number : String} {s₀ : Store}

theorem Owned.effect {s t : Store} {held : List Key} (h : Owned number s₀ s)
    (heffect : Effect number held s t) : Owned number s₀ t := by
  refine ⟨heffect.owner_stored, fun id hnew hid => ?_⟩
  by_cases hs : Stored id s
  · exact heffect.owned id (h.created id hnew hs)
  · exact heffect.created id hs hid

/-- The discipline of the calls for one number. -/
def discipline (number : String) (s₀ : Store) :
    Discipline String Store Key Write UnifiedIdentity where
  Inv := Owned number s₀
  Legal _ held s ws := Effect number held s (publish s ws)
  Post _ identity s := owner number s = some identity.id
  Guard _ _ _ := True
  Apart _ _ _ _ := True
  inv_legal h heffect := h.effect heffect

theorem persistent_owner {n : String} (id : ℕ) :
    (discipline n s₀).Persistent fun s => owner n s = some id :=
  fun _ _ _ _ _ heffect h => heffect.owned id h

theorem persistent_stored (id : ℕ) : (discipline number s₀).Persistent (Stored id) :=
  fun _ _ _ _ _ heffect h => heffect.stored id h

/-- Under the lock a number without an owner stays so. -/
theorem stable_free {c : String} {held : List Key} (hheld : .advisory number ∈ held) :
    (discipline number s₀).Stable c held fun s => owner number s = none := by
  rintro s s' h ⟨c', held', ws, heffect, hdisjoint, -, -, -, rfl⟩
  obtain hlocked | hsame := heffect.locked
  · exact absurd hlocked (hdisjoint hheld)
  · exact hsame.trans h

/-- The writes change neither numbers nor which identities there are. -/
def Neutral (s : Store) (ws : List Write) : Prop :=
  (publish s ws).phones = s.phones ∧ ∀ id, Stored id (publish s ws) ↔ Stored id s

theorem Neutral.effect {s : Store} {ws : List Write} {held : List Key} (h : Neutral s ws)
    (hs : Owned number s₀ s) : Effect number held s (publish s ws) := by
  have howner : owner number (publish s ws) = owner number s := by
    rw [owner, owner, h.1]
  refine ⟨fun id => (h.2 id).mpr, fun id hid => howner.trans hid, .inr howner, ?_, ?_⟩
  · intro id hno hyes
    exact absurd ((h.2 id).mp hyes) hno
  · intro id hid
    exact (h.2 id).mpr (hs.stored id (howner.symm.trans hid))

theorem neutral_users (rows : List User) (s : Store) : Neutral s (rows.map .user) := by
  induction rows generalizing s with
  | nil => exact ⟨rfl, fun _ => .rfl⟩
  | cons u rows ih => exact ih (s.write (.user u))

theorem stored_put {s : Store} {identity : UnifiedIdentity} {id : ℕ} :
    Stored id (s.write (.identity identity)) ↔ id = identity.id ∨ Stored id s := by
  rw [Stored, Stored, Store.write, Table.find?_put]
  by_cases h : id = identity.id
  · simp [h]
  · simp [h]

theorem neutral_services (identityId : ℕ) (s : Store) : Neutral s (serviceWrites identityId s) := by
  unfold serviceWrites
  cases hfound : s.identities.find? identityId with
  | none => exact ⟨rfl, fun _ => .rfl⟩
  | some identity =>
    refine ⟨rfl, fun id => stored_put.trans ⟨?_, .inr⟩⟩
    rintro (rfl | h)
    · have hid : identity.id = identityId := Table.key_of_find? hfound
      rw [Stored, hid, hfound]
      rfl
    · exact h

/-- Rows of other numbers. -/
def OtherNumbers (number : String) (ws : List Write) : Prop :=
  ∀ w ∈ ws, ∃ p, w = .phone p ∧ p.normalizedPhoneNumber ≠ number

theorem publish_others {ws : List Write} (h : OtherNumbers number ws) (s : Store) :
    (publish s ws).identities = s.identities ∧
      (publish s ws).phones.find? number = s.phones.find? number := by
  induction ws generalizing s with
  | nil => exact ⟨rfl, rfl⟩
  | cons w ws ih =>
    obtain ⟨p, rfl, hp⟩ := h w List.mem_cons_self
    obtain ⟨hidentities, hphones⟩ :=
      ih (fun w hw => h w (List.mem_cons_of_mem _ hw)) (s.write (.phone p))
    exact ⟨hidentities, hphones.trans (Table.find?_put_of_ne (Ne.symm hp))⟩

/-- What a transaction that stores the number has written: the identity, if it is a new one,
rows of other numbers, and the row of the number. -/
structure Attaches (number : String) (id : ℕ) (base ws : List Write) : Prop where
  rows : ∃ others row, ws = base ++ others ++ [.phone row] ∧ OtherNumbers number others ∧
    row.normalizedPhoneNumber = number ∧ row.identityId = id

/-- The identity is stored, or this transaction creates it. -/
def Base (id : ℕ) (base : List Write) (s : Store) : Prop :=
  base = [] ∧ Stored id s ∨ ∃ identity, base = [.identity identity] ∧ identity.id = id

theorem Attaches.effect {id : ℕ} {base ws : List Write} {s : Store} {held : List Key}
    (h : Attaches number id base ws) (hbase : Base id base s)
    (hheld : .advisory number ∈ held) (hfree : owner number s = none) :
    Effect number held s (publish s ws) ∧ owner number (publish s ws) = some id := by
  obtain ⟨others, row, rfl, hothers, hrow, hid⟩ := h.rows
  have howner : owner number (publish s (base ++ others ++ [.phone row])) = some id := by
    rw [publish_append, owner, publish_cons, publish_nil, storage_write, Store.write, ← hrow]
    simp [hid]
  have hidentities : (publish s (base ++ others ++ [.phone row])).identities =
      (publish s base).identities := by
    rw [publish_append, publish_append]
    exact (publish_others hothers _).1
  have hstored : ∀ i, Stored i (publish s (base ++ others ++ [.phone row])) ↔
      i = id ∨ Stored i s := by
    intro i
    rw [Stored, hidentities]
    obtain ⟨rfl, hs⟩ | ⟨identity, rfl, rfl⟩ := hbase
    · refine ⟨.inr, ?_⟩
      rintro (rfl | h)
      · exact hs
      · exact h
    · exact stored_put
  refine ⟨⟨fun i hi => (hstored i).mpr (.inr hi), ?_, .inl hheld, ?_, ?_⟩, howner⟩
  · intro i hi
    rw [hfree] at hi
    cases hi
  · intro i hno hyes
    obtain rfl | hs := (hstored i).mp hyes
    · exact howner
    · exact absurd hs hno
  · intro i hi
    rw [howner] at hi
    obtain rfl := Option.some.inj hi
    exact (hstored _).mpr (.inl rfl)

/-- What the search has found, for a number that has no owner or this one. -/
def Outcome (number : String) (found : Option UnifiedIdentity) (s : Store) : Prop :=
  match found with
  | some identity => Stored identity.id s ∧
    (owner number s = some identity.id ∨ owner number s = none)
  | none => owner number s = none

section Search

variable {c : String} {held : List Key} {s : Store}

theorem stable_outcome (hheld : .advisory number ∈ held) (found : Option UnifiedIdentity) :
    (discipline number s₀).Stable c held (Outcome number found) := by
  cases found with
  | none => exact stable_free hheld
  | some identity =>
    rintro s s' ⟨hstored, howner⟩ hstep
    refine ⟨(persistent_stored identity.id).stable hstored hstep, ?_⟩
    obtain hown | hfree := howner
    · exact .inl ((persistent_owner identity.id).stable hown hstep)
    · exact .inr (stable_free hheld hfree hstep)

theorem wp_found {found : Option UnifiedIdentity} {ses : Session Key Write}
    (hheld : .advisory number ∈ ses.held) (h : Outcome number found s) :
    (discipline number s₀).wp c (fun found ses' t => ses' = ses ∧ Outcome number found t)
      (fun _ _ _ => True) (.pure found : Personal (Option UnifiedIdentity)) ses s :=
  wp_pure (stable_const.and (stable_outcome hheld found)) ⟨rfl, h⟩

/-- One candidate, where what the table of the numbers says of it is right. -/
theorem wp_candidate {candidate : List Char} {candidates : List (List Char)} {P : Store → Prop}
    (hheld : .advisory number ∈ held) (hP : (discipline number s₀).Stable c held P) (hs : P s)
    (htable : ∀ s', Owned number s₀ s' → P s' →
      (∀ identity, identityByPhone candidate s' = some identity →
        Outcome number (some identity) s') ∧
      (identityByPhone candidate s' = none → owner number s' = none))
    (hrest : ∀ s', owner number s' = none →
      (discipline number s₀).wp c (fun found ses' t => ses' = ⟨held, [], true⟩ ∧
        Outcome number found t) (fun _ _ _ => True) (findByCandidates candidates)
        ⟨held, [], true⟩ s') :
    (discipline number s₀).wp c (fun found ses' t => ses' = ⟨held, [], true⟩ ∧
      Outcome number found t) (fun _ _ _ => True) (findByCandidates (candidate :: candidates))
      ⟨held, [], true⟩ s := by
  refine wp_query hP hs fun s' hinv hs' => ?_
  show (discipline number s₀).wp c _ _ (match identityByPhone candidate s' with
    | some identity => pure (some identity)
    | none => _) _ _
  cases hfound : identityByPhone candidate s' with
  | some identity => exact wp_found hheld ((htable s' hinv hs').1 identity hfound)
  | none =>
    refine wp_findOne (stable_free hheld) ((htable s' hinv hs').2 hfound)
      fun t legacy _ hfree hmem _ => ?_
    cases legacy with
    | some identity =>
      have hrow : identity ∈ t.identities.rows := List.mem_of_mem_filter (hmem identity rfl)
      refine wp_found hheld ⟨?_, .inr hfree⟩
      rw [Stored, Table.find?_key hrow]
      rfl
    | none => exact hrest t hfree

theorem stored_of_table {candidate : List Char} {identity : UnifiedIdentity}
    (h : identityByPhone candidate s = some identity) : Stored identity.id s := by
  obtain ⟨normalized, -, h⟩ := Option.bind_eq_some_iff.mp h
  obtain ⟨row, -, h⟩ := Option.bind_eq_some_iff.mp h
  have hid : identity.id = row.identityId := Table.key_of_find? h
  rw [Stored, hid, h]
  rfl

theorem wp_rest (hheld : .advisory number ∈ held) (candidates : List (List Char))
    (hs : owner number s = none) :
    (discipline number s₀).wp c (fun found ses' t => ses' = ⟨held, [], true⟩ ∧
      Outcome number found t) (fun _ _ _ => True) (findByCandidates candidates)
      ⟨held, [], true⟩ s := by
  induction candidates generalizing s with
  | nil => exact wp_found hheld hs
  | cons candidate candidates ih =>
    refine wp_candidate hheld (stable_free hheld) hs (fun s' _ hfree => ⟨?_, fun _ => hfree⟩)
      fun s' hfree => ih hfree
    exact fun identity h => ⟨stored_of_table h, .inr hfree⟩

/-- The first candidate is the text itself, so the owner of the number is found at once. -/
theorem wp_search {phoneNumber : String}
    (hnormal : normalizePhoneNumber phoneNumber.toList = .ok number.toList)
    (hheld : .advisory number ∈ held) :
    (discipline number s₀).wp c (fun found ses' t => ses' = ⟨held, [], true⟩ ∧
      Outcome number found t) (fun _ _ _ => True) (findIdentityByPhoneOrLegacy phoneNumber)
      ⟨held, [], true⟩ s := by
  have htrimmed : normalizePhoneNumber (PhoneNumbers.trimmed phoneNumber.toList) =
      .ok number.toList := PhoneNumbers.normalize_trimmed.mpr hnormal
  have hcandidates : ∃ rest, phoneLookupCandidates phoneNumber.toList =
      PhoneNumbers.trimmed phoneNumber.toList :: rest := by
    have hne : PhoneNumbers.trimmed phoneNumber.toList ≠ [] := by
      intro hempty
      rw [hempty] at htrimmed
      cases htrimmed
    unfold phoneLookupCandidates
    simp only [if_neg hne, List.cons_append, List.nil_append, List.eraseDups_cons]
    exact ⟨_, rfl⟩
  obtain ⟨rest, hrest⟩ := hcandidates
  rw [findIdentityByPhoneOrLegacy, hrest]
  refine wp_candidate hheld Stable.true trivial (fun s' hinv _ => ?_)
    fun s' hfree => wp_rest hheld rest hfree
  have htable : identityByPhone (PhoneNumbers.trimmed phoneNumber.toList) s' =
      (s'.phones.find? number).bind fun row => s'.identities.find? row.identityId := by
    rw [identityByPhone, tryNormalized, tryNormalizePhoneNumber, htrimmed]
    simp [Except.toOption]
  constructor
  · intro identity hidentity
    refine ⟨stored_of_table hidentity, .inl ?_⟩
    rw [htable] at hidentity
    obtain ⟨row, hrow, hfound⟩ := Option.bind_eq_some_iff.mp hidentity
    have hid : identity.id = row.identityId := Table.key_of_find? hfound
    rw [owner, hrow, Option.map_some, hid]
  · intro hnone
    rw [htable] at hnone
    cases hrow : s'.phones.find? number with
    | none => rw [owner, hrow, Option.map_none]
    | some row =>
      rw [hrow, Option.bind_some] at hnone
      have hstored := hinv.stored row.identityId (by rw [owner, hrow, Option.map_some])
      rw [Stored, hnone] at hstored
      cases hstored

end Search

section Attach

variable {c phoneNumber : String} {s : Store} {id : ℕ}

/-- A statement on another connection. -/
theorem wp_other {P : Store → Prop} {ses : Session Key Write} {ws : Store → List Write}
    (hP : (discipline number s₀).Stable c ses.held P) (hs : P s)
    (hneutral : ∀ s', Neutral s' (ws (ses.view s')))
    (hkeep : ∀ s', P s' → P (publish s' (ws (ses.view s')))) :
    (discipline number s₀).wp c (fun _ ses' t => ses' = ses ∧ P t) (fun _ _ _ => True)
      (onOtherConnection ws) ses s := by
  refine wp_query hP hs fun s' _ hs' => fun t hl hi => ?_
  have ht := hP.later hs' hl
  refine ⟨.inr ((hneutral t).effect hi), wp_pure (stable_const.and hP) ⟨rfl, hkeep t ht⟩⟩

/-- What is thrown is not caught. -/
def Uncaught (e : PersonError) (_ : Session Key Write) (_ : Store) : Prop :=
  e ≠ .uniqueViolation ∧ e ≠ alreadyLinked

theorem database_uncaught {ses : Session Key Write} {s : Store} : Uncaught .database ses s :=
  ⟨by decide, by decide⟩

/-- The number is the identity's already. -/
theorem wp_attach_owned {held : List Key}
    (hnormal : normalizedOrError phoneNumber = .ok number) (hs : owner number s = some id) :
    (discipline number s₀).wp c (fun _ ses' t => ses' = ⟨held, [], true⟩ ∧
      owner number t = some id) Uncaught
      (attachPhoneNumberToIdentity true id phoneNumber ⟨none, some true⟩) ⟨held, [], true⟩ s := by
  have hP : (discipline number s₀).Stable c held fun t => owner number t = some id :=
    (persistent_owner id).stable
  refine wp_query hP hs (fun s' _ hs' => ?_) fun _ _ _ => database_uncaught
  refine wp_expect hP hs' (fun _ _ => ?_) fun _ _ _ => ⟨by decide, by decide⟩
  rw [hnormal]
  show (discipline number s₀).wp c _ _ (Personal.read (fun s => s.phones.find? number) >>= _) _ _
  refine wp_query hP hs' (fun t _ ht => ?_) fun _ _ _ => database_uncaught
  obtain ⟨row, hrow, hid⟩ := Option.map_eq_some_iff.mp ht
  have hread : ((⟨held, [], true⟩ : Session Key Write).view t).phones.find? number = some row := hrow
  simp only [hread, attachExisting, Program.require, if_pos hid]
  exact wp_pure (stable_const.and hP) ⟨rfl, ht⟩

/-- The number has no owner. -/
theorem wp_attach_free {held : List Key} {base : List Write}
    (hnormal : normalizedOrError phoneNumber = .ok number) (hheld : .advisory number ∈ held)
    (hbase : ∀ s' : Store, (publish s' base).phones = s'.phones) (hs : owner number s = none) :
    (discipline number s₀).wp c (fun _ ses' t => .advisory number ∈ ses'.held ∧
      Attaches number id base ses'.pending ∧ owner number t = none) Uncaught
      (attachPhoneNumberToIdentity true id phoneNumber ⟨none, some true⟩)
      ⟨held, base, true⟩ s := by
  have hP : (discipline number s₀).Stable c held fun t => owner number t = none :=
    stable_free hheld
  have hnone : ∀ (t : Store) (others : List Write), owner number t = none →
      OtherNumbers number others → (publish t (base ++ others)).phones.find? number = none := by
    intro t others ht hothers
    rw [publish_append, (publish_others hothers _).2, hbase]
    exact Option.map_eq_none_iff.mp ht
  refine wp_query hP hs (fun s' _ hs' => ?_) fun _ _ _ => database_uncaught
  refine wp_expect hP hs' (fun _ _ => ?_) fun _ _ _ => ⟨by decide, by decide⟩
  rw [hnormal]
  show (discipline number s₀).wp c _ _ (Personal.read (fun s => s.phones.find? number) >>= _) _ _
  refine wp_query hP hs' (fun t _ ht => ?_) fun _ _ _ => database_uncaught
  have hview : (Session.view ⟨held, base, true⟩ t).phones.find? number = none := by
    have h := hnone t [] ht (by simp [OtherNumbers])
    rwa [List.append_nil] at h
  rw [hview]
  refine wp_query hP ht (fun u _ hu => ?_) fun _ _ _ => database_uncaught
  refine wp_receive hP hu fun v now _ hv => ?_
  -- The row is written after the rows of other numbers that lose the mark of the primary one.
  have hsave : ∀ (held' : List Key) (others : List Write) (row : IdentityPhoneNumber) (w : Store),
      .advisory number ∈ held' → OtherNumbers number others → row.normalizedPhoneNumber = number →
      row.identityId = id → owner number w = none →
      (discipline number s₀).wp c (fun _ ses' t => .advisory number ∈ ses'.held ∧
        Attaches number id base ses'.pending ∧ owner number t = none) Uncaught
        (saveNumber true row) ⟨held', base ++ others, true⟩ w := by
    intro held' others row w hheld' hothers hrow hid hw
    refine wp_stage (stable_free hheld') hw (fun x _ hx => ?_) fun _ _ _ => database_uncaught
    have hfree : ((publish x (base ++ others)).phones.find? row.normalizedPhoneNumber) = none := by
      rw [hrow]
      exact hnone x others hx hothers
    simp only [hfree, Option.isSome_none, Bool.false_eq_true, if_false, List.cons_ne_nil]
    refine wp_pure ?_ ⟨?_, ⟨others, row, rfl, hothers, hrow, hid⟩, hx⟩
    · exact stable_const.and (stable_const.and (stable_free (List.mem_append_right _ hheld')))
    · exact List.mem_append_right _ hheld'
  unfold insertNumber
  split
  case isTrue =>
    intro w hl _
    have hw := hP.later hv hl
    have hothers : OtherNumbers number ((phonesOf id (Session.view ⟨held, base, true⟩ w)).map
        fun p => Write.phone { p with isPrimary := false }) := by
      intro write hwrite
      obtain ⟨p, hp, rfl⟩ := List.mem_map.mp hwrite
      refine ⟨_, rfl, fun heq => ?_⟩
      have hfind := Table.find?_key (List.mem_of_mem_filter hp)
      have hfree := hnone w [] hw (by simp [OtherNumbers])
      rw [List.append_nil] at hfree
      rw [show p.normalizedPhoneNumber = number from heq] at hfind
      exact absurd (hfree.symm.trans hfind) (by simp)
    exact ⟨.inl rfl, hsave _ _ _ w (List.mem_append_right _ hheld) hothers rfl rfl hw,
      wp_throw stable_const database_uncaught⟩
  case isFalse =>
    have h := fun row hrow hid => hsave held [] row v hheld (by simp [OtherNumbers]) hrow hid hv
    rw [List.append_nil] at h
    exact h _ rfl rfl

theorem wp_ensure {R : Session Key Write → Store → Prop} {ses : Session Key Write}
    (hR : ∀ ses, (discipline number s₀).Stable c ses.held (R ses))
    (h : (discipline number s₀).wp c (fun _ => R) Uncaught
      (attachPhoneNumberToIdentity true id phoneNumber ⟨none, some true⟩) ses s) :
    (discipline number s₀).wp c (fun _ => R) (fun _ _ _ => True)
      (ensurePhoneAttached id phoneNumber) ses s := by
  refine wp_attempt (wp_bind (wp_mono (fun a ses t _ ht => ?_) (fun e ses t _ he => ?_) h))
  · exact wp_pure (stable_wp rfl) (wp_pure (hR ses) ht)
  · refine wp_throw (stable_wp rfl) ?_
    rw [if_neg (not_or.mpr he)]
    exact wp_throw stable_const trivial

theorem wp_link {P : Store → Prop} {ses : Session Key Write} (created : Bool)
    (hP : (discipline number s₀).Stable c ses.held P) (hs : P s)
    (hpending : created = false → ses.pending = [])
    (hkeep : ∀ s' ws, Neutral s' ws → P s' → P (publish s' ws)) :
    (discipline number s₀).wp c (fun _ ses' t => ses' = ses ∧ P t) (fun _ _ _ => True)
      (linkUsersToIdentity created phoneNumber id) ses s := by
  have hneutral : ∀ s', Neutral s' (linkWrites phoneNumber id (ses.view s')) := by
    intro s'
    have hrows : linkWrites phoneNumber id (ses.view s') =
        (((usersByPhone phoneNumber (ses.view s')).filter fun u => u.unifiedIdentityId = none).map
          fun u => { u with unifiedIdentityId := some id }).map Write.user := by
      rw [List.map_map]
      rfl
    rw [hrows]
    exact neutral_users _ s'
  have hservices : ∀ s', Neutral s' (if created then [] else serviceWrites id (ses.view s')) := by
    intro s'
    cases created with
    | true => exact ⟨rfl, fun _ => .rfl⟩
    | false =>
      rw [Session.view, hpending rfl, publish_nil]
      exact neutral_services id s'
  unfold linkUsersToIdentity
  split
  · exact wp_pure (stable_const.and hP) ⟨rfl, hs⟩
  · refine wp_bind (wp_mono (fun _ ses' t _ ht => ?_) (fun e ses' t _ _ => ?_)
      (wp_other hP hs hneutral fun s' => hkeep s' _ (hneutral s')))
    · obtain ⟨rfl, ht⟩ := ht
      exact wp_other hP ht hservices fun s' => hkeep s' _ (hservices s')
    · exact wp_throw stable_const trivial

end Attach

section Call

variable {c phoneNumber : String} {s : Store}

/-- What a call returns is the owner. -/
abbrev Returned (number : String) (identity : UnifiedIdentity) (s : Store) : Prop :=
  owner number s = some identity.id

theorem normalizedOrError_of_normal
    (hnormal : normalizePhoneNumber phoneNumber.toList = .ok number.toList) :
    normalizedOrError phoneNumber = .ok number := by
  simp [normalizedOrError, hnormal]

theorem lockText_of_normal
    (hnormal : normalizePhoneNumber phoneNumber.toList = .ok number.toList) :
    lockText phoneNumber = number := by
  rw [lockText, tryNormalized, tryNormalizePhoneNumber, hnormal]
  simp [Except.toOption]

/-- The transaction that attaches the number commits. -/
theorem inside_attached {identity : UnifiedIdentity} {base : List Write} {held : List Key}
    (hnormal : normalizedOrError phoneNumber = .ok number) (hheld : .advisory number ∈ held)
    (hphones : ∀ s' : Store, (publish s' base).phones = s'.phones)
    (hbase : (discipline number s₀).Persistent (Base identity.id base)) (hb : Base identity.id base s)
    (hfree : owner number s = none) :
    (discipline number s₀).Inside c (Returned number) .database
      (ensurePhoneAttached identity.id phoneNumber >>= fun _ => pure identity)
      ⟨held, base, true⟩ s := by
  have hensure : (discipline number s₀).wp c (fun _ ses' t => .advisory number ∈ ses'.held ∧
      Attaches number identity.id base ses'.pending ∧ owner number t = none) (fun _ _ _ => True)
      (ensurePhoneAttached identity.id phoneNumber) ⟨held, base, true⟩ s := by
    refine wp_ensure (fun ses => ?_) (wp_attach_free hnormal hheld hphones hfree)
    rintro t t' ⟨hheld', hattaches, hfree'⟩ hstep
    exact ⟨hheld', hattaches, stable_free hheld' hfree' hstep⟩
  refine wp_bind (wp_mono (fun _ ses t _ ht => ?_) (fun _ _ _ _ _ => ?_)
    (wp_frame hbase hb hensure))
  · obtain ⟨⟨hheld', hattaches, hfree'⟩, hb'⟩ := ht
    refine Inside.return ((stable_free hheld').and hbase.stable) ⟨hfree', hb'⟩
      (persistent_owner _) fun s' _ hs' => ?_
    obtain ⟨heffect, howner⟩ := hattaches.effect hs'.2 hheld' hs'.1
    exact ⟨.inr heffect, howner⟩
  · exact wp_throw stable_const trivial

theorem inside_owned {identity : UnifiedIdentity} {held : List Key}
    (hnormal : normalizedOrError phoneNumber = .ok number)
    (hs : owner number s = some identity.id) :
    (discipline number s₀).Inside c (Returned number) .database
      (ensurePhoneAttached identity.id phoneNumber >>= fun _ => pure identity)
      ⟨held, [], true⟩ s := by
  have hensure : (discipline number s₀).wp c (fun _ ses' t => ses' = ⟨held, [], true⟩ ∧
      owner number t = some identity.id) (fun _ _ _ => True)
      (ensurePhoneAttached identity.id phoneNumber) ⟨held, [], true⟩ s :=
    wp_ensure (fun ses => stable_const.and (persistent_owner _).stable)
      (wp_attach_owned hnormal hs)
  refine wp_bind (wp_mono (fun _ ses t _ ht => ?_) (fun _ _ _ _ _ => ?_) hensure)
  · obtain ⟨rfl, ht⟩ := ht
    exact Inside.return (persistent_owner _).stable ht (persistent_owner _)
      fun s' _ hs' => ⟨.inl rfl, hs'⟩
  · exact wp_throw stable_const trivial

theorem persistent_base_stored (id : ℕ) : (discipline number s₀).Persistent fun s =>
    Base id [] s := by
  rintro c held s ws _ heffect (⟨h, hs⟩ | ⟨identity, h, -⟩)
  · exact .inl ⟨h, heffect.stored id hs⟩
  · cases h

theorem persistent_base_created (identity : UnifiedIdentity) :
    (discipline number s₀).Persistent fun s => Base identity.id [.identity identity] s :=
  fun _ _ _ _ _ _ _ => .inr ⟨identity, rfl, rfl⟩

theorem inside_use {identity : UnifiedIdentity} {held : List Key}
    (hnormal : normalizedOrError phoneNumber = .ok number) (hheld : .advisory number ∈ held)
    (hs : Outcome number (some identity) s) :
    (discipline number s₀).Inside c (Returned number) .database
      (useIdentity phoneNumber identity) ⟨held, [], true⟩ s := by
  have hkeep : ∀ s' ws, Neutral s' ws → Outcome number (some identity) s' →
      Outcome number (some identity) (publish s' ws) := by
    intro s' ws hneutral ⟨hstored, howner⟩
    refine ⟨(hneutral.2 _).mpr hstored, ?_⟩
    rwa [owner, hneutral.1]
  refine wp_bind (wp_mono (fun _ ses t _ ht => ?_) (fun _ _ _ _ _ => ?_)
    (wp_link false (stable_outcome hheld _) hs (fun _ => rfl) hkeep))
  · obtain ⟨rfl, hstored, hown | hfree⟩ := ht
    · exact inside_owned hnormal hown
    · exact inside_attached hnormal hheld (fun _ => rfl) (persistent_base_stored _)
        (.inl ⟨rfl, hstored⟩) hfree
  · exact wp_throw stable_const trivial

theorem inside_create {held : List Key} (hnormal : normalizedOrError phoneNumber = .ok number)
    (hheld : .advisory number ∈ held) (hs : owner number s = none) :
    (discipline number s₀).Inside c (Returned number) .database
      (createIdentity phoneNumber) ⟨held, [], true⟩ s := by
  have hattached : ∀ (identity : UnifiedIdentity) (t : Store), owner number t = none →
      (discipline number s₀).Inside c (Returned number) .database
        (ensurePhoneAttached identity.id phoneNumber >>= fun _ => pure identity)
        ⟨.identity identity.id :: held, [.identity identity], true⟩ t := by
    intro identity t ht
    exact inside_attached hnormal (List.mem_cons_of_mem _ hheld) (fun _ => rfl)
      (persistent_base_created identity) (.inr ⟨identity, rfl, rfl⟩) ht
  refine wp_query (stable_free hheld) hs fun t _ ht => ?_
  generalize (usersByPhone phoneNumber (Session.view ⟨held, [], true⟩ t)).mergeSort beforeUser =
    users
  cases users with
  | nil =>
    refine wp_stageInsert (stable_free hheld) ht fun u n _ hu _ => ?_
    exact hattached (emptyIdentity phoneNumber n) u hu
  | cons best rest =>
    refine wp_stageInsert (stable_free hheld) ht fun u n _ hu _ => ?_
    have hfree : (discipline number s₀).Stable c (.identity n :: held)
        fun t => owner number t = none := stable_free (List.mem_cons_of_mem _ hheld)
    refine wp_bind (wp_mono (fun _ ses v _ hv => ?_) (fun _ _ _ _ _ => ?_)
      (wp_link true hfree hu (fun h => by cases h) fun s' ws hneutral h => ?_))
    · obtain ⟨rfl, hv⟩ := hv
      exact hattached (identityOfUsers phoneNumber best (best :: rest) n) v hv
    · exact wp_throw stable_const trivial
    · rwa [owner, hneutral.1]

/-- From any store that satisfies the invariant, a call keeps to the discipline. -/
theorem outside_findOrCreate
    (hnormal : normalizePhoneNumber phoneNumber.toList = .ok number.toList) :
    (discipline number s₀).Outside c (Returned number) (findOrCreateByPhone phoneNumber) s := by
  refine Outside.transaction ?_
  have herror := normalizedOrError_of_normal hnormal
  rw [findOrCreateUnderLock, lockText_of_normal hnormal]
  refine wp_lockRow_opened Stable.true trivial (fun s' _ _ habsent => by cases habsent)
    fun s' _ _ _ _ => ?_
  have hheld : Key.advisory number ∈ [Key.advisory number] := List.mem_cons_self
  refine wp_bind (wp_mono (fun found ses t _ ht => ?_) (fun _ _ _ _ _ => ?_)
    (wp_search hnormal hheld))
  · obtain ⟨rfl, hfound⟩ := ht
    cases found with
    | some identity => exact inside_use herror hheld hfound
    | none => exact inside_create herror hheld hfound
  · exact wp_throw stable_const trivial

end Call

/-- Every number belongs to an identity that is stored, as the foreign key says. -/
def NumbersOwned (s : Store) : Prop := ∀ row ∈ s.phones.rows, Stored row.identityId s

/-- Of calls for one number, in any interleaving and with statements that fail and calls that
are killed anywhere, at most one creates an identity, and all that return return one: the stored
identity to which the number belongs. -/
theorem one_identity {number : String} {s : Store} {calls : List String}
    {sys : System String Store Key Write PersonError UnifiedIdentity}
    (hs : NumbersOwned s)
    (hcalls : ∀ raw ∈ calls, normalizePhoneNumber raw.toList = .ok number.toList)
    (hrun : System.Run (fun _ _ => True) (Phases.launch findOrCreateByPhone s calls) sys) :
    ∃ id, (∀ identity ∈ sys.store.identities.rows, s.identities.find? identity.id = none →
      identity.id = id ∧ owner number sys.store = some id) ∧
      ∀ t ∈ sys.threads, ∀ identity, t.program = .pure identity →
        identity.id = id ∧ owner number sys.store = some id ∧ Stored id sys.store := by
  have hinv : Owned number s s := by
    refine ⟨fun id hid => ?_, fun id hnew hid => absurd hid hnew⟩
    obtain ⟨row, hrow, rfl⟩ := Option.map_eq_some_iff.mp hid
    exact hs row (Table.mem_of_find? hrow)
  have hsound : (discipline number s).Sound sys := by
    refine Sound.run (fun _ _ _ => ⟨fun _ _ _ _ _ => trivial, fun _ _ _ => trivial⟩) hrun
      (Sound.initial hinv (fun t ht => ?_) fun t ht => ?_)
    · obtain ⟨c, -, rfl⟩ := List.mem_map.mp ht
      rfl
    · obtain ⟨c, hc, rfl⟩ := List.mem_map.mp ht
      exact wp_mono (fun _ _ _ _ h => h.2) (fun _ _ _ _ _ => trivial)
        (outside_findOrCreate (hcalls c hc))
  have hpost : ∀ t ∈ sys.threads, ∀ identity, t.program = .pure identity →
      owner number sys.store = some identity.id :=
    fun t ht identity hp => hsound.post ht (Program.result_eq_some.mpr hp)
  have hcreated : ∀ identity ∈ sys.store.identities.rows, s.identities.find? identity.id = none →
      owner number sys.store = some identity.id := by
    intro identity hmem hnew
    refine hsound.inv.created identity.id (by simp [Stored, hnew]) ?_
    rw [Stored, Table.find?_key hmem]
    rfl
  cases howner : owner number sys.store with
  | none =>
    refine ⟨0, fun identity hmem hnew => ?_, fun t ht identity hp => ?_⟩
    · rw [hcreated identity hmem hnew] at howner
      cases howner
    · rw [hpost t ht identity hp] at howner
      cases howner
  | some id =>
    refine ⟨id, fun identity hmem hnew => ⟨?_, rfl⟩, fun t ht identity hp => ⟨?_, rfl, ?_⟩⟩
    · exact Option.some.inj ((hcreated identity hmem hnew).symm.trans howner)
    · exact Option.some.inj ((hpost t ht identity hp).symm.trans howner)
    · exact hsound.inv.stored id howner

/-- Two spellings of one number; the second call has begun when the first one locks. -/
def twoSpellings : System String Store Key Write PersonError UnifiedIdentity :=
  Phases.after (Phases.launch findOrCreateByPhone Store.blank ["0612345678", "+212612345678"])
    (.run 1 0 :: System.turns 0 0 23 ++ System.turns 1 0 9)

theorem one_identity_twoSpellings :
    (twoSpellings.threads.all fun t => t.program.result.isSome) = true ∧
      ∃ id, (∀ identity ∈ twoSpellings.store.identities.rows,
        Store.blank.identities.find? identity.id = none →
          identity.id = id ∧ owner "+212612345678" twoSpellings.store = some id) ∧
        ∀ t ∈ twoSpellings.threads, ∀ identity, t.program = .pure identity →
          identity.id = id ∧ owner "+212612345678" twoSpellings.store = some id ∧
            Stored id twoSpellings.store := by
  have hcalls : ∀ raw ∈ ["0612345678", "+212612345678"],
      normalizePhoneNumber raw.toList = .ok "+212612345678".toList := by decide +kernel
  refine ⟨by decide +kernel, ?_⟩
  exact one_identity (fun row hrow => (by cases hrow)) hcalls (Phases.run_after (by decide +kernel))

end NexaStays.OneIdentity
