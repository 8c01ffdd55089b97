import NexaStays.IdentityStore
import NexaStays.Phases

/-!
# The authorization version of a user

A process keeps what it has read of a user's privileges for a while. `bump` raises the
version in the database and drops the entry; `getAuthzState` answers from the entry, or
reads the row and keeps it.
-/
namespace NexaStays.AuthzVersion

open NexaStays.KeyedTable NexaStays.Transactions NexaStays.IdentityStore NexaStays.Phases

/-- `CACHE_TTL_MS`. -/
def cacheTtlMs : ℤ := 30000

structure AuthzState where
  authzVersion : ℤ
  status : String
  accountType : Option AccountType
  staffRole : StaffRole
  deriving DecidableEq, Repr

/-- What is answered about a user that does not exist. -/
def unknownState : AuthzState :=
  { authzVersion := -1, status := "UNKNOWN", accountType := some .consumer, staffRole := .admin }

/-- What a cache entry answers. -/
def stateOf (entry : CacheEntry) : AuthzState :=
  { authzVersion := entry.version
    status := entry.status
    accountType := entry.accountType
    staffRole := entry.staffRole }

def invalidate (userId : ℕ) : Identity Unit := Identity.memorise [.uncache userId]

/-- `increment({ id }, 'authz_version', 1)`. -/
def incrementVersion (userId : ℕ) (s : Store) : List Write :=
  (s.users.find? userId).toList.map fun u => .user { u with authzVersion := u.authzVersion + 1 }

/-- The version that `bump` returns, `1` without a row. -/
def readVersion (userId : ℕ) : Identity ℤ := do
  let row ← Identity.read fun s => s.users.find? userId
  pure ((row.map (·.authzVersion)).getD 1)

def bump (userId : ℕ) : Identity ℤ := do
  let _ ← Identity.update (incrementVersion userId)
  invalidate userId
  readVersion userId

/-- The entry of a row that was read. -/
def cacheEntry (userId : ℕ) (user : User) (now : ℕ) : CacheEntry :=
  { userId
    version := user.authzVersion
    status := user.status
    accountType := user.accountType
    staffRole := user.staffRole
    expiresAt := now + cacheTtlMs }

def cacheState (userId : ℕ) (user : User) : Identity AuthzState := do
  let now ← Identity.now
  Identity.memorise [.cache (cacheEntry userId user now)]
  pure (stateOf (cacheEntry userId user now))

def getAuthzState (userId : ℕ) : Identity AuthzState := do
  let cached ← Identity.remembered fun s => s.authzCache.find? userId
  let now ← Identity.now
  match cached.filter fun entry => (now : ℤ) < entry.expiresAt with
  | some entry => pure (stateOf entry)
  | none => do
    let user ← Identity.read fun s => s.users.find? userId
    match user with
    | none => pure unknownState
    | some user => cacheState userId user

inductive AuthzCall where
  | bump (userId : ℕ)
  | getAuthzState (userId : ℕ)
  deriving DecidableEq, Repr

inductive AuthzAnswer where
  | version (version : ℤ)
  | state (state : AuthzState)
  deriving DecidableEq, Repr

def AuthzCall.program : AuthzCall → Identity AuthzAnswer
  | .bump userId => .version <$> AuthzVersion.bump userId
  | .getAuthzState userId => .state <$> AuthzVersion.getAuthzState userId

abbrev AuthzSystem := System AuthzCall Store Key Write IdentityError AuthzAnswer

/-- The version of a user in the database. -/
def HasVersion (s : Store) (userId : ℕ) (version : ℤ) : Prop :=
  (s.users.find? userId).map (·.authzVersion) = some version

instance (s : Store) (userId : ℕ) (version : ℤ) : Decidable (HasVersion s userId version) :=
  inferInstanceAs (Decidable (_ = _))

theorem hasVersion_iff {s : Store} {userId : ℕ} {version : ℤ} : HasVersion s userId version ↔
    ∃ row, s.users.find? userId = some row ∧ row.authzVersion = version :=
  Option.map_eq_some_iff

/-- When a bump drops the entry, nobody has an older row that is not yet in the cache. -/
def FillsFresh (sys : AuthzSystem) (a : Action) : Prop :=
  ∀ t userId version, sys.threads[System.mover a]? = some t →
    Inside (invalidate userId) t.program → HasVersion sys.store userId version →
    ∀ j u row, j ≠ System.mover a → sys.threads[j]? = some u →
      Inside (cacheState userId row) u.program → version ≤ row.authzVersion

/-- When a bump reads the version it returns, no other bump of the user has yet to drop
the entry. -/
def BumpsApart (sys : AuthzSystem) (a : Action) : Prop :=
  ∀ t userId, sys.threads[System.mover a]? = some t → Inside (readVersion userId) t.program →
    ∀ j u, j ≠ System.mover a → sys.threads[j]? = some u → ¬Inside (invalidate userId) u.program

/-- The calls of a process end with it; fills are fresh, and bumps apart if `strict`. -/
structure Meets (strict : Prop) (sys : AuthzSystem) (a : Action) : Prop where
  alive : ∀ i, a ≠ .crash i
  fresh : FillsFresh sys a
  apart : strict → BumpsApart sys a

/-- `floor` is a version that a call has to answer with at least. -/
inductive Phase where
  | quiet
  | asking (userId : ℕ) (floor : Option ℤ)
  | fetched (userId : ℕ) (version : ℤ) (floor : Option ℤ)
  | answered (floor : Option ℤ)
  | bumping (userId : ℕ) (version : ℤ)
  | cleared (userId : ℕ) (version : ℤ)
  | returned (userId : ℕ) (version : ℤ) (answer : ℤ)
  | failed

/-- Where the call of a phase stands. -/
def Phase.At (p : Identity AuthzAnswer) : Phase → Prop
  | .fetched userId version floor => (∀ v ∈ floor, v ≤ version) ∧
    ∃ row : User, row.authzVersion = version ∧ Inside (cacheState userId row) p
  | .answered floor => ∀ state, p = .pure (.state state) → ∀ v ∈ floor, v ≤ state.authzVersion
  | .bumping userId _ => Inside (invalidate userId) p
  | .cleared userId _ => Inside (readVersion userId) p
  | .returned _ _ answer => p = .pure (.version answer)
  | .asking _ _ => Active p
  | .failed => ∃ e, p = .throw e
  | .quiet => True

inductive AuthzStep : Phase → Store → List Write → Phase → Prop where
  | answer {userId floor s} : AuthzStep (.asking userId floor) s [] (.answered floor)
  | fetch {userId floor s row} (found : s.users.find? userId = some row) :
    AuthzStep (.asking userId floor) s [] (.fetched userId row.authzVersion floor)
  | keep {userId version floor s entry} (user : entry.userId = userId)
      (ofRow : entry.version = version) :
    AuthzStep (.fetched userId version floor) s [.cache entry] (.answered floor)
  | increment {s row} (found : s.users.find? row.id = some row) :
    AuthzStep .quiet s [.user { row with authzVersion := row.authzVersion + 1 }]
      (.bumping row.id (row.authzVersion + 1))
  | drop {userId s} : AuthzStep .quiet s [.uncache userId] .quiet
  | invalidate {userId version s} :
    AuthzStep (.bumping userId version) s [.uncache userId] (.cleared userId version)
  | read {userId version s row} (found : s.users.find? userId = some row) :
    AuthzStep (.cleared userId version) s [] (.returned userId version row.authzVersion)

/-- The user exists, with this version or a later one, and no older one is in the cache. -/
structure Known (s : Store) (userId : ℕ) (floor : ℤ) : Prop where
  row : ∃ row, s.users.find? userId = some row ∧ floor ≤ row.authzVersion
  cache : ∀ entry, s.authzCache.find? userId = some entry → floor ≤ entry.version

def Phase.Knows (s : Store) : Phase → Prop
  | .asking userId floor => ∀ v ∈ floor, Known s userId v
  | .cleared userId _ => ∃ row, s.users.find? userId = some row
  | _ => True

/-- The protocol of the two calls. -/
def authz : Protocol Store Key Write IdentityError AuthzAnswer Phase where
  At g p := g.At p
  Knows g s := g.Knows s
  Step := AuthzStep
  Fail g g' := g' = .failed ∧ ∀ userId version, g ≠ .bumping userId version
  dead := .failed

open Protocol

theorem fails_failed {g : Phase} {R : Phase → Prop}
    (hg : ∀ userId version, g ≠ .bumping userId version) (h : R .failed) : authz.Fails g R :=
  Fails.step ⟨rfl, hg⟩ h

/-- `cacheState` keeps a row that is recent enough. -/
theorem cacheState_refines {userId : ℕ} {row : User} {floor : Option ℤ}
    (hfloor : ∀ v ∈ floor, v ≤ row.authzVersion) :
    authz.Refines (fun q => AuthzAnswer.state <$> q)
      (fun r => match r with
        | .ok state => authz.Done (.ok (AuthzAnswer.state state))
        | .error e => authz.Done (.error e))
      (cacheState userId row) .idle (.fetched userId row.authzVersion floor) := by
  have hinside : ∀ {q : Identity AuthzState}, Residue (cacheState userId row) q → Active q →
      Phase.At (AuthzAnswer.state <$> q) (.fetched userId row.authzVersion floor) :=
    fun hres hq => ⟨hfloor, row, rfl, inside_of_residue hres hq⟩
  refine Refines.receive (hinside .refl trivial) fun s now _ => Goes.stay ?_
  refine Refines.send (hinside (.single (Or.inl ?_)) trivial) fun s _ =>
    Goes.step (.keep rfl rfl) ?_
  · exact ⟨fun _ => true, now, s, .idle, .idle, [], rfl⟩
  · intro state hstate
    obtain rfl : stateOf (cacheEntry userId row now) = state := by simpa using hstate
    exact hfloor

theorem getAuthzState_refines (userId : ℕ) (floor : Option ℤ) :
    authz.Refines id authz.Done (AuthzCall.getAuthzState userId).program .idle
      (.asking userId floor) := by
  refine Refines.map ?_
  refine Refines.send trivial fun s hs => Goes.stay ?_
  refine Refines.receive trivial fun s' now _ => ?_
  cases hcached : (s.authzCache.find? userId).filter
      fun entry => (now : ℤ) < entry.expiresAt with
  | some entry =>
    refine Goes.step .answer ?_
    have hentry : s.authzCache.find? userId = some entry := by
      simp only [Option.filter_eq_some_iff] at hcached
      exact hcached.1
    intro state hstate v hv
    obtain rfl : stateOf entry = state := by simpa using hstate
    exact (hs v hv).cache entry hentry
  | none =>
    refine Goes.stay (Refines.query trivial (fun s hs => ?_)
      (fails_failed (by simp) ⟨_, rfl⟩))
    cases huser : s.users.find? userId with
    | none =>
      refine Goes.step .answer ?_
      intro state _ v hv
      obtain ⟨row, hrow, -⟩ := (hs v hv).row
      rw [huser] at hrow
      exact absurd hrow (by simp)
    | some row =>
      refine Goes.step (.fetch huser) (cacheState_refines fun v hv => ?_)
      obtain ⟨row', hrow, hle⟩ := (hs v hv).row
      rw [huser] at hrow
      obtain rfl := Option.some.inj hrow
      exact hle

/-- What is left of a bump whose row was not there. -/
theorem bump_refines_absent (userId : ℕ) :
    authz.Refines (fun q => AuthzAnswer.version <$> q)
      (fun r => match r with
        | .ok version => authz.Done (.ok (AuthzAnswer.version version))
        | .error e => authz.Done (.error e))
      (invalidate userId >>= fun _ => readVersion userId) .idle .quiet := by
  refine Refines.send trivial fun s _ => Goes.step .drop ?_
  refine Refines.query trivial (fun s _ => Goes.stay trivial) (fails_failed (by simp) ⟨_, rfl⟩)

theorem bump_refines (userId : ℕ) :
    authz.Refines id authz.Done (AuthzCall.bump userId).program .idle .quiet := by
  refine Refines.map ?_
  refine Refines.writeRows trivial (fun s _ => ?_) (fails_failed (by simp) ⟨_, rfl⟩)
  cases huser : s.users.find? userId with
  | none =>
    rw [incrementVersion, huser]
    exact Goes.stay (bump_refines_absent userId)
  | some row =>
    obtain rfl := Table.key_of_find? huser
    rw [incrementVersion, huser]
    refine Goes.step (.increment huser) ?_
    refine Refines.send (inside_start (invalidate row.id) trivial).handle
      fun s' _ => Goes.step .invalidate ?_
    refine Refines.query (inside_start (readVersion row.id) trivial) (fun s' hs => ?_)
      (fails_failed (by simp) ⟨_, rfl⟩)
    obtain ⟨row', hrow'⟩ := hs
    rw [hrow']
    exact Goes.step (.read hrow') rfl

/-- The phase of a call before it starts. -/
def initialPhase : AuthzCall → Phase
  | .bump _ => .quiet
  | .getAuthzState userId => .asking userId none

theorem program_refines (c : AuthzCall) :
    authz.Refines id authz.Done c.program .idle (initialPhase c) := by
  cases c with
  | bump userId => exact bump_refines userId
  | getAuthzState userId => exact getAuthzState_refines userId none

/-- Whatever a process answers about the user from now on has at least this version. -/
structure Reliable (gs : List Phase) (s : Store) (userId : ℕ) (floor : ℤ) : Prop where
  known : Known s userId floor
  fetched : ∀ version f, .fetched userId version f ∈ gs → floor ≤ version

/-- The versions that later answers must not fall below: what a call was asked for, and
what a bump that has dropped the entry made it. The answer of a bump is one if `strict`. -/
def Phase.Floor (strict : Prop) (userId : ℕ) (floor : ℤ) : Phase → Prop
  | .asking user f => user = userId ∧ f = some floor
  | .cleared user version => user = userId ∧ version = floor
  | .returned user version answer => user = userId ∧ (version = floor ∨ strict ∧ answer = floor)
  | _ => False

structure Invariant (strict : Prop) (gs : List Phase) (s : Store) : Prop where
  floors : ∀ g ∈ gs, ∀ userId floor, g.Floor strict userId floor → Reliable gs s userId floor
  bumped : ∀ userId version, .bumping userId version ∈ gs →
    ∃ row, s.users.find? userId = some row ∧ version ≤ row.authzVersion
  current : ∀ userId row, s.users.find? userId = some row →
    (∀ version, .bumping userId version ∉ gs) → Reliable gs s userId row.authzVersion

variable {strict : Prop} {gs : List Phase} {s : Store} {g g' : Phase} {ws : List Write} {i : ℕ}
  {userId : ℕ} {floor : ℤ}

/-- No step takes a version of a user back. -/
theorem row_step (hstep : AuthzStep g s ws g')
    (h : ∃ row, s.users.find? userId = some row ∧ floor ≤ row.authzVersion) :
    ∃ row, (publish s ws).users.find? userId = some row ∧ floor ≤ row.authzVersion := by
  obtain ⟨row, hrow, hle⟩ := h
  cases hstep with
  | @increment _ user found =>
    by_cases huser : userId = user.id
    · subst huser
      rw [found] at hrow
      obtain rfl := Option.some.inj hrow
      refine ⟨{ user with authzVersion := user.authzVersion + 1 }, by simp [Store.write], ?_⟩
      simp only
      omega
    · exact ⟨row, by simp [Store.write, huser, hrow], hle⟩
  | answer | fetch | keep | drop | invalidate | read => exact ⟨row, hrow, hle⟩

/-- What can be relied on stays so. -/
theorem Reliable.step (h : Reliable gs s userId floor) (hg : gs[i]? = some g)
    (hstep : AuthzStep g s ws g') : Reliable (gs.set i g') (publish s ws) userId floor := by
  refine ⟨⟨row_step hstep h.known.row, ?_⟩, fun version f hf => ?_⟩
  · intro entry hentry
    cases hstep with
    | @keep user version f _ kept hkept hversion =>
      by_cases huser : userId = user
      · subst huser
        obtain rfl : kept = entry := by simpa [Store.write, hkept] using hentry
        rw [hversion]
        exact h.fetched version f (List.mem_of_getElem? hg)
      · have hold : s.authzCache.find? userId = some entry := by
          simpa [Store.write, hkept, huser] using hentry
        exact h.known.cache entry hold
    | increment | answer | fetch | read => exact h.known.cache entry hentry
    | @drop user | @invalidate user =>
      by_cases huser : userId = user
      · simp [Store.write, huser] at hentry
      · have hold : s.authzCache.find? userId = some entry := by
          simpa [Store.write, huser] using hentry
        exact h.known.cache entry hold
  · obtain heq | ⟨j, -, hj⟩ := mem_set_cases hf
    · cases hstep <;> simp at heq
      case fetch user f' row found =>
        obtain ⟨rfl, rfl, rfl⟩ := heq
        obtain ⟨row', hrow', hle⟩ := h.known.row
        rw [found] at hrow'
        obtain rfl := Option.some.inj hrow'
        exact hle
    · exact h.fetched version f (List.mem_of_getElem? hj)

/-- A call that has ended or failed takes nothing from what can be relied on. -/
theorem Reliable.failed (h : Reliable gs s userId floor) (i : ℕ) :
    Reliable (gs.set i .failed) s userId floor := by
  refine ⟨h.known, fun version f hf => ?_⟩
  obtain heq | ⟨j, -, hj⟩ := mem_set_cases hf
  · simp at heq
  · exact h.fetched version f (List.mem_of_getElem? hj)

/-- After a bump has dropped the entry, every answer is as new as the row. -/
theorem reliable_of_invalidate {sys sys' : AuthzSystem} {n : ℕ} {version : ℤ} {row : User}
    (hmeets : Meets strict sys (.run i n))
    (hmoved : authz.Moved sys sys' (.run i n) gs (.bumping userId version) [.uncache userId]
      (.cleared userId version)) (hrow : sys.store.users.find? userId = some row) :
    Reliable (gs.set i (.cleared userId version)) (publish sys.store [.uncache userId]) userId
      row.authzVersion := by
  refine ⟨⟨⟨row, hrow, Int.le_refl _⟩, by simp [Store.write]⟩, fun v f hf => ?_⟩
  obtain heq | ⟨j, hji, hj⟩ := mem_set_cases hf
  · simp at heq
  · obtain ⟨t, ht, hat⟩ := hmoved.before.call hmoved.phase
    obtain ⟨u, hu, huat⟩ := hmoved.before.call hj
    obtain hinside | ⟨-, hdead⟩ := hat
    · obtain ⟨-, fetched, hversion, hfetched⟩ | ⟨-, hdead⟩ := huat
      · have hle := hmeets.fresh t userId row.authzVersion ht hinside
          (hasVersion_iff.mpr ⟨row, hrow, rfl⟩) j u fetched
          hji hu hfetched
        omega
      · simp [authz] at hdead
    · simp [authz] at hdead

/-- A phase that is not a bump's before the step is not one after it, unless the step raises
the version. -/
theorem bumping_of_set {version : ℤ} (hg : gs[i]? = some g)
    (hnot : ∀ version, g ≠ .bumping userId version)
    (h : .bumping userId version ∈ gs) : .bumping userId version ∈ gs.set i g' := by
  obtain ⟨j, hj⟩ := List.mem_iff_getElem?.mp h
  have hji : j ≠ i := by
    rintro rfl
    exact hnot version (Option.some.inj (hg.symm.trans hj))
  refine List.mem_iff_getElem?.mpr ⟨j, ?_⟩
  rw [List.getElem?_set_ne (Ne.symm hji), hj]

/-- What a call that fails, or is cut off, leaves of the invariant. -/
theorem Invariant.failed (h : Invariant strict gs s) (hg : gs[i]? = some g)
    (hnot : ∀ userId version, g ≠ .bumping userId version) : Invariant strict (gs.set i .failed) s := by
  refine ⟨fun x hx userId floor hfloor => ?_, fun userId version hb => ?_,
    fun userId row hrow hb => ?_⟩
  · obtain rfl | ⟨j, -, hj⟩ := mem_set_cases hx
    · exact hfloor.elim
    · exact (h.floors x (List.mem_of_getElem? hj) userId floor hfloor).failed i
  · obtain heq | ⟨j, -, hj⟩ := mem_set_cases hb
    · simp at heq
    · exact h.bumped userId version (List.mem_of_getElem? hj)
  · refine (h.current userId row hrow fun version hmem => hb version ?_).failed i
    exact bumping_of_set hg (hnot userId) hmem

/-- The row of a user before a step that raises no version of the user. -/
theorem row_before {row : User} (hstep : AuthzStep g s ws g')
    (hnot : ∀ version, g' ≠ .bumping userId version)
    (h : (publish s ws).users.find? userId = some row) : s.users.find? userId = some row := by
  cases hstep with
  | @increment _ user found =>
    have huser : userId ≠ user.id := fun h => hnot (user.authzVersion + 1) (by rw [h])
    simpa [Store.write, huser] using h
  | answer | fetch | keep | drop | invalidate | read => exact h

theorem keeps (strict : Prop) : authz.Keeps (Meets strict) (Invariant strict) where
  knows := by
    intro gs s g h hg
    cases g with
    | asking userId floor => exact fun v hv => (h.floors _ hg userId v ⟨rfl, hv⟩).known
    | cleared userId version =>
      obtain ⟨row, hrow, -⟩ := (h.floors _ hg userId version ⟨rfl, rfl⟩).known.row
      exact ⟨row, hrow⟩
    | quiet | fetched | answered | bumping | returned | failed => trivial
  step := by
    intro sys sys' i n gs g ws g' hmeets h hmoved hstep
    have hg : gs[i]? = some g := hmoved.phase
    refine ⟨fun x hx userId floor hfloor => ?_, fun userId version hb => ?_,
      fun userId row hrow hb => ?_⟩
    · obtain rfl | ⟨j, -, hj⟩ := mem_set_cases hx
      · cases hstep with
        | answer | fetch | keep | increment | drop => exact hfloor.elim
        | @invalidate _ version =>
          obtain ⟨rfl, rfl⟩ := hfloor
          obtain ⟨row, hrow, hle⟩ := h.bumped _ version (List.mem_of_getElem? hg)
          have hreliable := reliable_of_invalidate hmeets hmoved hrow
          refine ⟨⟨⟨row, hrow, hle⟩, by simp [Store.write]⟩, fun v f hf => ?_⟩
          exact Int.le_trans hle (hreliable.fetched v f hf)
        | @read _ version _ row found =>
          obtain ⟨rfl, rfl | ⟨hstrict, rfl⟩⟩ := hfloor
          · have hold := h.floors _ (List.mem_of_getElem? hg) _ version ⟨rfl, rfl⟩
            exact hold.step hg (.read found)
          · refine (h.current _ row found fun version hb => ?_).step hg (.read found)
            obtain ⟨j, hj⟩ := List.mem_iff_getElem?.mp hb
            have hji : j ≠ i := by
              rintro rfl
              simp [hg] at hj
            obtain ⟨t, ht, hat⟩ := hmoved.before.call hmoved.phase
            obtain ⟨u, hu, huat⟩ := hmoved.before.call hj
            obtain hinside | ⟨-, hdead⟩ := hat
            · obtain hbump | ⟨-, hdead⟩ := huat
              · exact hmeets.apart hstrict t _ ht hinside j u hji hu hbump
              · simp [authz] at hdead
            · simp [authz] at hdead
      · exact (h.floors x (List.mem_of_getElem? hj) userId floor hfloor).step hg hstep
    · obtain rfl | ⟨j, -, hj⟩ := mem_set_cases hb
      · cases hstep with
        | @increment _ row found =>
          exact ⟨{ row with authzVersion := row.authzVersion + 1 }, by simp [Store.write],
            Int.le_refl _⟩
      · exact row_step hstep (h.bumped userId version (List.mem_of_getElem? hj))
    · have hnot : ∀ version, g' ≠ .bumping userId version := by
        rintro version rfl
        exact hb version (List.mem_set (List.getElem?_eq_some_iff.mp hg).1 _)
      have hbefore := row_before hstep hnot hrow
      by_cases hbumping : ∃ version, g = .bumping userId version
      · obtain ⟨version, rfl⟩ := hbumping
        cases hstep with
        | invalidate => exact reliable_of_invalidate hmeets hmoved hbefore
      · refine (h.current userId row hbefore fun version hmem => hb version ?_).step hg hstep
        exact bumping_of_set hg (fun v hv => hbumping ⟨v, hv⟩) hmem
  fail := by
    intro sys sys' i gs g g' _ h hmoved hfail
    obtain ⟨rfl, hnot⟩ := hfail
    exact h.failed hmoved.phase hnot
  crash := fun hmeets _ _ => absurd rfl (hmeets.alive _)

/-- Nothing follows a memory access. -/
theorem residue_memorise {ws : List Write} {q : Identity Unit}
    (h : Residue (Identity.memorise ws) q) (hq : Active q) : q = Identity.memorise ws := by
  obtain rfl | ⟨v, h⟩ := residue_emit h
  · rfl
  · obtain rfl := residue_pure h
    exact hq.elim

/-- A call that has not started is not about to drop an entry. -/
theorem not_inside_invalidate (c : AuthzCall) (userId : ℕ) :
    ¬Inside (invalidate userId) c.program := by
  rintro ⟨q, f, g, hres, hq, hp⟩
  obtain rfl := residue_memorise hres hq
  cases c with
  | bump userId' => cases hp
  | getAuthzState userId' =>
    have hws := (Program.emit.inj hp).1
    simpa using congrFun hws Store.blank

/-- The phase of a call that has not started may be taken to be any from which it follows the
protocol and of which nothing is asked but what can be relied on. -/
theorem Invariant.restart {c : AuthzCall} {sys : AuthzSystem} (h : Invariant strict gs sys.store)
    (hgs : authz.Consistent sys gs) (hi : sys.threads[i]? = some ⟨c, .idle, c.program⟩)
    (g' : Phase) (hg' : ∀ userId version f, g' ≠ .bumping userId version ∧ g' ≠ .fetched userId version f)
    (hfloor : ∀ userId floor, g'.Floor strict userId floor → Reliable gs sys.store userId floor)
    (hfollows : authz.Refines id authz.Done c.program .idle g') :
    authz.Consistent sys (gs.set i g') ∧ Invariant strict (gs.set i g') sys.store := by
  obtain ⟨g, hg, hfollowsg⟩ := hgs.phase hi
  have hnot : ∀ userId version, g ≠ .bumping userId version := by
    rintro userId version rfl
    obtain hat | ⟨hhalt, -⟩ := hfollowsg.at
    · exact not_inside_invalidate c userId hat
    · cases c <;> cases hhalt
  have hreliable : ∀ {userId floor}, Reliable gs sys.store userId floor →
      Reliable (gs.set i g') sys.store userId floor := by
    intro userId floor hr
    refine ⟨hr.known, fun version f hf => ?_⟩
    obtain heq | ⟨j, -, hj⟩ := mem_set_cases hf
    · exact absurd heq.symm (hg' userId version f).2
    · exact hr.fetched version f (List.mem_of_getElem? hj)
  refine ⟨?_, fun x hx userId floor hx' => ?_, fun userId version hb => ?_,
    fun userId row hrow hb => ?_⟩
  · have hstarted : authz.Follows (⟨c, .idle, c.program⟩ : Thread _ _ _ _ _ _) g' := hfollows
    have hset := forall₂_set hgs i hstarted
    have hsame : sys.threads.set i ⟨c, .idle, c.program⟩ = sys.threads := by
      obtain ⟨hlt, heq⟩ := List.getElem?_eq_some_iff.mp hi
      rw [← heq]
      exact List.set_getElem_self hlt
    rwa [hsame] at hset
  · obtain rfl | ⟨j, -, hj⟩ := mem_set_cases hx
    · exact hreliable (hfloor userId floor hx')
    · exact hreliable (h.floors x (List.mem_of_getElem? hj) userId floor hx')
  · obtain heq | ⟨j, -, hj⟩ := mem_set_cases hb
    · exact absurd heq.symm (hg' userId version none).1
    · exact h.bumped userId version (List.mem_of_getElem? hj)
  · refine hreliable (h.current userId row hrow fun version hmem => hb version ?_)
    exact bumping_of_set hg (hnot userId) hmem

theorem initial (calls : List AuthzCall) {s : Store} (hcache : s.authzCache = .empty) :
    Invariant strict (calls.map initialPhase) s := by
  have hquiet : ∀ g ∈ calls.map initialPhase, ∀ userId version f,
      g ≠ .bumping userId version ∧ g ≠ .fetched userId version f ∧
        ∀ floor, ¬g.Floor strict userId floor := by
    intro g hg userId version f
    obtain ⟨c, -, rfl⟩ := List.mem_map.mp hg
    cases c <;> simp [initialPhase, Phase.Floor]
  refine ⟨fun g hg userId floor hfloor => ?_, fun userId version hb => ?_,
    fun userId row hrow _ => ⟨⟨⟨row, hrow, Int.le_refl _⟩, ?_⟩, fun version f hf => ?_⟩⟩
  · exact absurd hfloor ((hquiet g hg userId 0 none).2.2 floor)
  · exact absurd rfl (hquiet _ hb userId version none).1
  · simp [hcache]
  · exact absurd rfl (hquiet _ hf userId version f).2.1

/-- A `getAuthzState` that starts when a version can be relied on answers with at least it. -/
theorem answer_of_reliable {sys sys' : AuthzSystem} {state : AuthzState}
    (h : Invariant strict gs sys.store)
    (hgs : authz.Consistent sys gs) (hreliable : Reliable gs sys.store userId floor)
    (hstart : sys.threads[i]? = some ⟨.getAuthzState userId, .idle,
      (AuthzCall.getAuthzState userId).program⟩)
    (hrun : System.Run (Meets strict) sys sys') (hresult : answerOf sys' i = some (.state state)) :
    floor ≤ state.authzVersion := by
  obtain ⟨t, ht, hprogram⟩ := answerOf_eq_some.mp hresult
  obtain ⟨hgs', h'⟩ := h.restart hgs hstart (.asking userId (some floor)) (by simp)
    (fun user f hf => by
      obtain ⟨rfl, hf⟩ := hf
      obtain rfl := Option.some.inj hf
      exact hreliable) (getAuthzState_refines userId (some floor))
  have htrack := (keeps strict).track (fun g => g = .asking userId (some floor) ∨
      (∃ v, g = .fetched userId v (some floor)) ∨ g = .answered (some floor) ∨ g = .failed)
    (by
      rintro g s ws g' (rfl | ⟨v, rfl⟩ | rfl | rfl) hstep
      · cases hstep <;> simp
      · cases hstep
        simp
      · cases hstep
      · cases hstep)
    (by
      rintro g g' - ⟨rfl, -⟩
      simp)
    (by simp [authz]) i
  obtain ⟨gs₂, hgs₂, -, htracked⟩ := htrack.run hrun hgs' ⟨h', fun g hg => by
    obtain ⟨g₀, hg₀, -⟩ := hgs.phase hstart
    rw [List.getElem?_set_self (List.getElem?_eq_some_iff.mp hg₀).1] at hg
    exact Or.inl (Option.some.inj hg).symm⟩
  obtain ⟨g₂, hg₂, hfollows⟩ := hgs₂.phase ht
  obtain hat | ⟨hhalt, -⟩ := hfollows.at
  · rw [hprogram] at hat
    obtain rfl | ⟨v, rfl⟩ | rfl | rfl := htracked g₂ hg₂
    · exact hat.elim
    · obtain ⟨-, row, -, hinside⟩ := hat
      exact hinside.active.elim
    · exact hat state rfl floor rfl
    · obtain ⟨e, he⟩ := hat
      cases he
  · rw [hprogram] at hhalt
    cases hhalt

/-- In a run whose steps meet `ok`, a bump of the user made the version `version` and
returned `answer`; a `getAuthzState` that started afterwards answered `state`. -/
inductive Observed (ok : AuthzSystem → Action → Prop) (s : Store) (calls : List AuthzCall)
    (userId : ℕ) (version answer : ℤ) (state : AuthzState) : Prop where
  | intro {sys₁ sys₂ sys₃ sys₄ : AuthzSystem} {i n j : ℕ}
      (run₁ : System.Run ok (launch AuthzCall.program s calls) sys₁)
      (bump : sys₁.threads[i]? = some ⟨.bump userId, .idle, (AuthzCall.bump userId).program⟩)
      (meets : ok sys₁ (.run i n)) (step : sys₁.step (.run i n) = some sys₂)
      (made : HasVersion sys₂.store userId version) (run₂ : System.Run ok sys₂ sys₃)
      (returned : answerOf sys₃ i = some (.version answer))
      (start : sys₃.threads[j]? = some ⟨.getAuthzState userId, .idle,
        (AuthzCall.getAuthzState userId).program⟩)
      (run₃ : System.Run ok sys₃ sys₄) (answered : answerOf sys₄ j = some (.state state)) :
      Observed ok s calls userId version answer state

theorem phase_of_increment {row : User} (hstep : AuthzStep .quiet s ws g')
    (hws : ws = [.user row]) : g' = .bumping row.id row.authzVersion := by
  cases hstep with
  | increment found =>
    simp only [List.cons.injEq, Write.user.injEq, and_true] at hws
    rw [← hws]
  | drop => simp at hws

/-- The increment of a bump. -/
theorem bump_increments {sys sys' : AuthzSystem} {n : ℕ} {version : ℤ}
    (h : Invariant strict gs sys.store) (hgs : authz.Consistent sys gs)
    (hbump : sys.threads[i]? = some ⟨.bump userId, .idle, (AuthzCall.bump userId).program⟩)
    (hmeets : Meets strict sys (.run i n)) (hstep : sys.step (.run i n) = some sys')
    (hmade : HasVersion sys'.store userId version) :
    ∃ gs', authz.Consistent sys' gs' ∧ Invariant strict gs' sys'.store ∧
      gs'[i]? = some (.bumping userId version) := by
  obtain ⟨hgs', h'⟩ := h.restart hgs hbump .quiet (by simp) (fun _ _ hf => hf.elim)
    (bump_refines userId)
  obtain ⟨t, p, ses, ws, ht, hmove, rfl⟩ := System.step_eq_some.mp hstep
  obtain rfl := Option.some.inj (hbump.symm.trans ht)
  have hlt : i < gs.length := by
    obtain ⟨g, hg, -⟩ := hgs.phase hbump
    exact (List.getElem?_eq_some_iff.mp hg).1
  have hwrites : ws = incrementVersion userId sys.store := by
    simp only [System.move, AuthzCall.program, AuthzVersion.bump] at hmove
    simp only [Functor.map, bind, Program.handle, Program.writeRows, advance] at hmove
    simp only [Option.ite_none_right_eq_some, Option.some.injEq, Prod.mk.injEq] at hmove
    exact hmove.2.2.2.symm
  obtain ⟨row, hrow, rfl⟩ := hasVersion_iff.mp hmade
  cases hold : sys.store.users.find? userId with
  | none =>
    rw [hwrites, incrementVersion, hold] at hrow
    simp [hold] at hrow
  | some old =>
    obtain rfl := Table.key_of_find? hold
    have hws : ws = [.user { old with authzVersion := old.authzVersion + 1 }] := by
      rw [hwrites, incrementVersion, hold]
      rfl
    have hversion : row.authzVersion = old.authzVersion + 1 := by
      rw [hws] at hrow
      simp only [publish_cons, publish_nil, storage_write, Store.write, Table.find?_put,
        if_true, Option.some.injEq] at hrow
      rw [← hrow]
    have hquiet : (gs.set i .quiet)[i]? = some .quiet := List.getElem?_set_self hlt
    have hadvance : advance (sys.free i) n sys.store .idle (AuthzCall.bump old.id).program =
        some (p, ses, ws) := hmove
    obtain ⟨hnil, -⟩ | ⟨g', hgo, hrest⟩ :=
      Refines.advance (g := Phase.quiet) (bump_refines old.id) trivial hadvance
    · simp [hws] at hnil
    · have hphase : g' = .bumping old.id row.authzVersion := by
        rw [hversion]
        exact phase_of_increment hgo hws
      have hafter := forall₂_set hgs' i (t := ⟨.bump old.id, ses, p⟩) hrest
      refine ⟨_, hafter, ?_, ?_⟩
      · exact (keeps strict).step hmeets h' ⟨hstep, hgs', hquiet, rfl, hafter⟩ hgo
      · rw [List.getElem?_set_self (by simpa using hlt), hphase]

/-- A bump keeps to the phases that follow its increment, and has returned in the last. -/
theorem bump_returns {sys sys' : AuthzSystem} {version answer : ℤ}
    (h : Invariant strict gs sys.store) (hgs : authz.Consistent sys gs)
    (hi : gs[i]? = some (.bumping userId version)) (hrun : System.Run (Meets strict) sys sys')
    (hresult : answerOf sys' i = some (.version answer)) :
    ∃ gs', authz.Consistent sys' gs' ∧ Invariant strict gs' sys'.store ∧
      .returned userId version answer ∈ gs' := by
  have htrack := (keeps strict).track (fun g => g = .bumping userId version ∨
      g = .cleared userId version ∨ (∃ a, g = .returned userId version a) ∨ g = .failed)
    (by
      rintro g s ws g' (rfl | rfl | ⟨a, rfl⟩ | rfl) hstep
      · cases hstep
        simp
      · cases hstep
        simp
      · cases hstep
      · cases hstep)
    (by
      rintro g g' - ⟨rfl, -⟩
      simp)
    (by simp [authz]) i
  obtain ⟨gs', hgs', h', htracked⟩ := htrack.run hrun hgs ⟨h, fun g hg => by
    rw [hi] at hg
    exact Or.inl (Option.some.inj hg).symm⟩
  obtain ⟨t, ht, hprogram⟩ := answerOf_eq_some.mp hresult
  obtain ⟨g', hg', hfollows⟩ := hgs'.phase ht
  refine ⟨gs', hgs', h', ?_⟩
  obtain hat | ⟨hhalt, -⟩ := hfollows.at
  · rw [hprogram] at hat
    obtain rfl | rfl | ⟨a, rfl⟩ | rfl := htracked g' hg'
    · exact (Inside.active hat).elim
    · exact (Inside.active hat).elim
    · obtain rfl : answer = a := by simpa [authz, Phase.At] using hat
      exact List.mem_of_getElem? hg'
    · obtain ⟨e, he⟩ := hat
      cases he
  · rw [hprogram] at hhalt
    cases hhalt

/-- In a process whose steps meet the condition, a `getAuthzState` that starts after a bump
has returned answers with the version that the bump made or a later one, and if `strict`
with the version that the bump returned or a later one. -/
theorem bump_seen {strict : Prop} {calls : List AuthzCall} {s : Store}
    (hcache : s.authzCache = .empty) {userId : ℕ} {version answer : ℤ} {state : AuthzState}
    (h : Observed (Meets strict) s calls userId version answer state) :
    version ≤ state.authzVersion ∧ (strict → answer ≤ state.authzVersion) := by
  cases h with
  | intro run₁ bump meets step made run₂ returned start run₃ answered =>
    obtain ⟨gs₁, hgs₁, h₁⟩ := (keeps strict).run run₁ (consistent_launch s program_refines)
      (initial calls hcache)
    obtain ⟨gs₂, hgs₂, h₂, hi₂⟩ := bump_increments h₁ hgs₁ bump meets step made
    obtain ⟨gs₃, hgs₃, h₃, hmem⟩ := bump_returns h₂ hgs₂ hi₂ run₂ returned
    constructor
    · have hreliable := h₃.floors _ hmem userId version ⟨rfl, Or.inl rfl⟩
      exact answer_of_reliable h₃ hgs₃ hreliable start run₃ answered
    · intro hstrict
      have hreliable := h₃.floors _ hmem userId answer ⟨rfl, Or.inr ⟨hstrict, rfl⟩⟩
      exact answer_of_reliable h₃ hgs₃ hreliable start run₃ answered

/-- A member of the staff. -/
def sampleUser : User :=
  { id := 1
    phoneNumber := none
    unifiedIdentityId := none
    accountType := some .admin
    staffRole := .admin
    pinHash := ""
    status := "ACTIVE"
    authzVersion := 1
    lastLoginAt := none }

def sampleStore : Store := publish .blank [.user sampleUser]

/-- A call that has not started has no row to put into the cache. -/
theorem not_inside_cacheState (c : AuthzCall) (userId : ℕ) (row : User) :
    ¬Inside (cacheState userId row) c.program := by
  rintro ⟨q, f, g, hres, hq, hp⟩
  obtain rfl | ⟨now, hres⟩ := residue_choose hres
  · cases c <;> cases hp
  obtain rfl | ⟨v, hres⟩ := residue_emit hres
  · cases c with
    | bump userId' => cases hp
    | getAuthzState userId' => simpa using congrFun (Program.emit.inj hp).1 Store.blank
  · obtain rfl := residue_pure hres
    exact hq.elim

/-- A step of a call that runs while every other has not started or is over. -/
theorem meets_of_others {strict : Prop} {sys : AuthzSystem} {a : Action}
    (halive : ∀ i, a ≠ .crash i) (h : ∀ j u, j ≠ System.mover a → sys.threads[j]? = some u →
      (∃ c : AuthzCall, u.program = c.program) ∨ ¬Active u.program) : Meets strict sys a := by
  refine ⟨halive, fun t userId version _ _ _ j u row hj hu hinside => ?_,
    fun _ t userId _ _ j u hj hu hinside => ?_⟩
  · obtain ⟨c, hc⟩ | hover := h j u hj hu
    · rw [hc] at hinside
      exact absurd hinside (not_inside_cacheState c userId row)
    · exact absurd hinside.active hover
  · obtain ⟨c, hc⟩ | hover := h j u hj hu
    · rw [hc] at hinside
      exact absurd hinside (not_inside_invalidate c userId)
    · exact absurd hinside.active hover

/-- The state of the user after a bump. -/
def bumpedState : AuthzState :=
  { authzVersion := 2, status := "ACTIVE", accountType := some .admin, staffRole := .admin }

/-- A bump, and then a `getAuthzState`. -/
theorem bump_seen_after : 2 ≤ bumpedState.authzVersion ∧ (True → 2 ≤ bumpedState.authzVersion) := by
  let sys₁ := launch AuthzCall.program sampleStore [.bump 1, .getAuthzState 1]
  let sys₂ := after sys₁ [.run 0 0]
  let sys₃ := after sys₂ (System.turns 0 0 2)
  have hothers₂ : ∀ j, j ≠ 0 → sys₂.threads[j]? = sys₁.threads[j]? :=
    fun j hj => after_others (by simp [System.mover]; omega)
  have hothers₃ : ∀ j, j ≠ 0 → sys₃.threads[j]? = sys₁.threads[j]? := fun j hj =>
    (after_others (by simp [System.turns, System.mover]; omega)).trans (hothers₂ j hj)
  have hrun₂ : System.Run (Meets True) sys₂ sys₃ := by
    refine run_solo (i := 0) (by decide +kernel) (by decide) fun sys' a ha hsame => ?_
    obtain ⟨n, rfl⟩ := eq_run_of_mem_turns ha
    refine meets_of_others (by simp) fun j u hj hu => Or.inl ⟨u.call, ?_⟩
    rw [hsame j hj, hothers₂ j hj] at hu
    exact program_of_launch hu
  have hreturned : answerOf sys₃ 0 = some (.version 2) := by decide +kernel
  have hrun₃ : System.Run (Meets True) sys₃ (after sys₃ (System.turns 1 0 5)) := by
    refine run_solo (i := 1) (by decide +kernel) (by decide) fun sys' a ha hsame => ?_
    obtain ⟨n, rfl⟩ := eq_run_of_mem_turns ha
    refine meets_of_others (by simp) fun j u hj hu => ?_
    rw [hsame j hj] at hu
    by_cases hj0 : j = 0
    · subst hj0
      obtain ⟨t, ht, hpure⟩ := answerOf_eq_some.mp hreturned
      obtain rfl := Option.some.inj (ht.symm.trans hu)
      right
      rw [hpure]
      exact fun h => h
    · rw [hothers₃ j hj0] at hu
      exact Or.inl ⟨u.call, program_of_launch hu⟩
  have hmeets : Meets True sys₁ (.run 0 0) :=
    meets_of_others (by simp) fun j u _ hu => Or.inl ⟨u.call, program_of_launch hu⟩
  have hget : sys₃.threads[1]? =
      some ⟨.getAuthzState 1, .idle, (AuthzCall.getAuthzState 1).program⟩ :=
    (hothers₃ 1 (by decide)).trans rfl
  exact bump_seen rfl (.intro (.refl _) rfl hmeets (step_after (by decide +kernel))
    (by decide +kernel) hrun₂ hreturned hget hrun₃ (by decide +kernel))

/-- The state of the user before the bump. -/
def staleState : AuthzState :=
  { authzVersion := 1, status := "ACTIVE", accountType := some .admin, staffRole := .admin }

def sampleCalls : List AuthzCall := [.getAuthzState 1, .bump 1, .getAuthzState 1]

/-- The cache is filled with the row that was read before the bump. -/
theorem stale_fill : Observed (fun _ _ => True) sampleStore sampleCalls 1 2 2 staleState ∧
    staleState.authzVersion < 2 := by
  refine ⟨?_, by decide⟩
  let sys₁ := after (launch AuthzCall.program sampleStore sampleCalls) (System.turns 0 0 3)
  let sys₂ := after sys₁ [.run 1 0]
  let sys₃ := after sys₂ (System.turns 1 0 2 ++ System.turns 0 0 2)
  have hlast : System.Run (fun _ _ => True) sys₃ (after sys₃ (System.turns 2 0 2)) :=
    run_after (by decide +kernel)
  have hbump : sys₁.threads[1]? = some ⟨.bump 1, .idle, (AuthzCall.bump 1).program⟩ :=
    (after_others (by decide)).trans rfl
  have hget : sys₃.threads[2]? =
      some ⟨.getAuthzState 1, .idle, (AuthzCall.getAuthzState 1).program⟩ :=
    (after_others (by decide)).trans ((after_others (by decide)).trans
      ((after_others (by decide)).trans rfl))
  exact .intro (run_after (by decide +kernel)) hbump trivial (step_after (by decide +kernel))
    (by decide +kernel) (run_after (by decide +kernel)) (by decide +kernel) hget hlast
    (by decide +kernel)

end NexaStays.AuthzVersion
