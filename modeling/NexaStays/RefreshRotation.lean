import NexaStays.RestrictedAccounts

/-!
# A rotation that fails

`rotateRefreshToken` revokes the token that was presented before it stores the next one and
before it knows the identity of the account. A call that throws after that leaves the token
revoked, and the next attempt with it counts as a reuse.
-/
namespace NexaStays.RefreshRotation

open NexaStays.KeyedTable NexaStays.Transactions NexaStays.EntitySave NexaStays.Completions
open NexaStays.Sequences NexaStays.Snapshots NexaStays.Phases NexaStays.SessionStore
open NexaStays.OtpLogin
open NexaStays.AccountGuards
open NexaStays.IdentityStore (RefreshToken)
open NexaStays.LoginStore (LoginError)
open NexaStays.StaffLogin (StaffConfig)
open NexaStays.Sumsub (truthy)

theorem outcome_eq_error {σ κ ω ε α : Type} {p : Program σ κ ω ε α} {e : ε} :
    outcome p = some (.error e) ↔ p = .throw e := by
  cases p <;> simp [outcome]

/-- What the caller sends. -/
structure Presented where
  refreshTokenPlain : String
  deviceId : Option String
  userAgent : Option String
  ip : Option String

/-- The token is unknown, was revoked before or has expired. -/
def tokenRefusals : List LoginError :=
  [refreshUnauthorized "Invalid refresh token",
    refreshUnauthorized "Refresh token was reused; all sessions revoked",
    refreshUnauthorized "Refresh token expired"]

section Calls

variable (config : SessionConfig) (staff : StaffConfig) (call : Presented)

/-- The call of `refresh`. -/
def rotation : Access RefreshAnswer :=
  refresh config staff call.refreshTokenPlain call.deviceId call.userAgent call.ip

/-- The rows of the token that are not revoked. -/
def activeTokens (s : Store) : List RefreshToken :=
  s.refreshTokens.rows.filter fun t =>
    t.tokenHash = hashRefreshToken config call.refreshTokenPlain ∧ t.revokedAt = none

/-- A call that throws for another reason than the state of the token leaves it active. -/
def KeepsToken (s : Store) : Prop :=
  ∀ sys e, System.Run (fun _ _ => True) (solo () s (rotation config staff call)) sys →
    (∃ t ∈ sys.threads, t.program = .throw e) → e ∉ tokenRefusals →
      ∀ row ∈ activeTokens config call s, row ∈ activeTokens config call sys.store

/-- An active token, not of another device, whose account is there: the call revokes it. The
clock may show any time from the epoch on. -/
def Rotates (s : Store) : Prop :=
  ∃ row ∈ activeTokens config call s, 0 ≤ row.expiresAt ∧
    (truthy call.deviceId = none ∨ truthy row.deviceId = none ∨ row.deviceId = call.deviceId) ∧
    (s.users.find? row.userId).isSome = true

end Calls

variable {config : SessionConfig} {staff : StaffConfig} {call : Presented} {s : Store}

/-- The store is left as it was, unless the exception is about the token. -/
def Spared (s : Store) (r : Except LoginError RefreshAnswer) (_ : Session Key Write) (t : Store) :
    Prop :=
  ∀ e, r = .error e → e ∉ tokenRefusals → t = s

theorem spared_refusal {e : LoginError} {ses : Session Key Write} {t : Store}
    (h : e ∈ tokenRefusals) : Spared s (.error e) ses t := by
  intro e' he hno
  obtain rfl := Except.error.inj he
  exact absurd h hno

theorem spared_same {r : Except LoginError RefreshAnswer} {ses : Session Key Write} :
    Spared s r ses s := fun _ _ _ => rfl

/-- The revocation of all tokens either fails or is answered by the refusal. -/
theorem mustEnd_reused (userId : ℕ) :
    MustEnd (Spared s) (do
      revokeAllForUser userId
      Program.throw (refreshUnauthorized "Refresh token was reused; all sessions revoked"))
      .idle s := by
  intro now
  exact ⟨spared_refusal (by simp [tokenRefusals]), spared_same⟩

theorem spared_of_require {p : Prop} [Decidable p] {e : LoginError}
    {k : Unit → Access RefreshAnswer} {ses : Session Key Write}
    (hgo : p → MustEnd (Spared s) (k ()) ses s) (hthrow : Spared s (.error e) ses s) :
    MustEnd (Spared s) (Program.require p e >>= k) ses s := by
  by_cases hp : p
  · rw [Program.require, if_pos hp]
    exact hgo hp
  · rw [Program.require, if_neg hp]
    exact hthrow

theorem mem_activeTokens {row : RefreshToken} : row ∈ activeTokens config call s ↔
    row ∈ s.refreshTokens.rows ∧ row.tokenHash = hashRefreshToken config call.refreshTokenPlain ∧
      row.revokedAt = none := by
  simp [activeTokens]

/-- Without a token to rotate, a call that throws has written nothing or refuses the token. -/
theorem mustEnd_rotation (h : ¬Rotates config call s) :
    MustEnd (Spared s) (rotation config staff call) .idle s := by
  unfold rotation refresh
  intro n
  refine ⟨?_, spared_same⟩
  change MustEnd (Spared s) (Program.expect (Program.pick n (s.refreshTokens.rows.filter fun t =>
    t.tokenHash = hashRefreshToken config call.refreshTokenPlain)) _ >>= _) .idle s
  cases hfound : Program.pick n (s.refreshTokens.rows.filter fun t =>
    t.tokenHash = hashRefreshToken config call.refreshTokenPlain) with
  | none => exact spared_refusal (by simp [tokenRefusals])
  | some row =>
    rw [expect_some]
    by_cases hrevoked : row.revokedAt.isSome = true
    · rw [if_pos hrevoked]
      exact mustEnd_reused row.userId
    · rw [if_neg hrevoked]
      intro now
      refine spared_of_require (fun hexpires => ?_) (spared_refusal (by simp [tokenRefusals]))
      refine spared_of_require (fun hdevice => ?_) spared_same
      refine ⟨?_, spared_same⟩
      change MustEnd (Spared s) (Program.expect (s.users.find? row.userId) _ >>= _) .idle s
      cases huser : s.users.find? row.userId with
      | none => exact spared_same
      | some user =>
        obtain ⟨hmem, hhash⟩ := List.mem_filter.mp (Program.mem_of_pick hfound)
        have hactive : row.revokedAt = none := by simpa using hrevoked
        have hrow := mem_activeTokens.mpr ⟨hmem, of_decide_eq_true hhash, hactive⟩
        refine absurd ⟨row, hrow, ?_, hdevice, by simp [huser]⟩ h
        omega

/-- A run of the call in which a statement fails, or none. -/
def Throws (p : Access RefreshAnswer) (s t : Store) : Prop :=
  ∃ sys e, System.Run (fun _ _ => True) (solo () s p) sys ∧ sys.store = t ∧
    (∃ thread ∈ sys.threads, thread.program = .throw e) ∧ e ∉ tokenRefusals

theorem Throws.of_run {p q : Access RefreshAnswer} {s t u : Store}
    (hrun : System.Run (fun _ _ => True) (solo () s p) (solo () t q)) (h : Throws q t u) :
    Throws p s u := by
  obtain ⟨sys, e, hnext, hend⟩ := h
  exact ⟨sys, e, hrun.trans hnext, hend⟩

theorem solo_receive {c : Unit} (n : ℕ) (k : ℕ → Access RefreshAnswer) :
    System.Run (fun _ _ => True) (solo c s (Program.receive >>= k)) (solo c s (k n)) :=
  .tail (a := .run 0 n) (.refl _) trivial rfl

/-- The insertion of the next token fails. -/
theorem throws_issue (userId : ℕ) (deviceId userAgent ip : Option String) (replaces : Option ℕ)
    (k : String → Access RefreshAnswer) :
    Throws (issueRefreshToken config userId deviceId userAgent ip replaces >>= k) s s := by
  refine ⟨solo () s (.throw .database), .database, ?_, rfl, ⟨_, List.mem_singleton_self _, rfl⟩,
    by decide⟩
  exact .tail (a := .fail 0) (.tail (a := .run 0 0) (.tail (a := .run 0 0) (.refl _) trivial rfl)
    trivial rfl) trivial rfl

theorem require_true {p : Prop} [Decidable p] {e : LoginError} {k : Unit → Access RefreshAnswer}
    (h : p) : (Program.require p e >>= k) = k () := by
  rw [Program.require, if_pos h]
  rfl

theorem throws_of_rotates (staff : StaffConfig) (h : Rotates config call s) :
    ∃ row ∈ activeTokens config call s, Throws (rotation config staff call) s
      (publish s [.refreshToken { row with revokedAt := some 0 }]) := by
  obtain ⟨row, hrow, hexpires, hdevice, huser⟩ := h
  obtain ⟨hmem, hhash, hactive⟩ := mem_activeTokens.mp hrow
  obtain ⟨user, huser⟩ := Option.isSome_iff_exists.mp huser
  have hmatch : row ∈ s.refreshTokens.rows.filter fun t =>
      t.tokenHash = hashRefreshToken config call.refreshTokenPlain :=
    List.mem_filter.mpr ⟨hmem, decide_eq_true hhash⟩
  obtain ⟨n, hn⟩ := exists_pick hmatch
  refine ⟨row, hrow, ?_⟩
  unfold rotation refresh
  refine Throws.of_run (solo_findOne n _ _) ?_
  rw [hn, expect_some, if_neg (by simp [hactive])]
  refine Throws.of_run (solo_receive 0 _) ?_
  rw [require_true (by omega), require_true hdevice]
  refine Throws.of_run (solo_query _ _) ?_
  rw [huser, expect_some]
  refine Throws.of_run (solo_receive 0 _) ?_
  have hfound : (savedRefreshToken row.id).find s = some row := Table.find?_eq_some.mpr ⟨hmem, rfl⟩
  have hsame : publish s [(savedRefreshToken row.id).put row] = s := by
    have hput : s.refreshTokens.put row = s.refreshTokens := Table.put_self hfound
    simp [savedRefreshToken, Store.write, hput]
  refine Throws.of_run (solo_saveEntity hfound hsame _) ?_
  exact throws_issue ..

theorem not_keepsToken (h : Rotates config call s) : ¬KeepsToken config staff call s := by
  intro hkeeps
  obtain ⟨row, hrow, sys, e, hrun, hstore, hthrown, hother⟩ := throws_of_rotates staff h
  have hafter := (mem_activeTokens.mp (hkeeps sys e hrun hthrown hother row hrow)).1
  have hactive := (mem_activeTokens.mp hrow).2.2
  rw [hstore] at hafter
  obtain hsame | ⟨-, hne⟩ := Table.mem_put.mp hafter
  · have hrevoked := congrArg RefreshToken.revokedAt hsame
    rw [hactive] at hrevoked
    cases hrevoked
  · exact hne rfl

/-- The token stays active where the call throws, just when there is no active token to rotate. -/
theorem refresh_keeps_token_iff (config : SessionConfig) (staff : StaffConfig) (call : Presented)
    (s : Store) : KeepsToken config staff call s ↔ ¬Rotates config call s := by
  constructor
  · intro hkeeps hrotates
    exact not_keepsToken hrotates hkeeps
  · intro h sys e hrun hthrown hother row hrow
    obtain ⟨thread, hthread, hprogram⟩ := hthrown
    obtain ⟨ses, hspared⟩ := result_of_run (mustEnd_rotation h) hrun hthread
      (r := .error e) (by rw [hprogram, outcome])
    rw [hspared e rfl hother]
    exact hrow

/-- A consumer account without a number and without an identity. -/
def nameless : PersonStore.User :=
  { SharedProfile.account 1 .consumer "PENDING" with
    phoneNumber := none
    unifiedIdentityId := none }

def sampleToken : RefreshToken :=
  { id := 1
    userId := 1
    tokenHash := hashRefreshToken RestrictedAccounts.sampleSessions "token"
    deviceId := none
    userAgent := none
    ip := none
    revokedAt := none
    expiresAt := 1000000
    replaces := none }

def sampleStore : Store :=
  { Store.of { PersonStore.Store.blank with users := .ofRows [nameless] } with
    refreshTokens := .ofRows [sampleToken] }

def presented : Presented := ⟨"token", none, none, none⟩

/-- The call, which runs to its end without a failing statement. -/
def rotated : System Unit Store Key Write LoginError RefreshAnswer :=
  after (solo () sampleStore
    (rotation RestrictedAccounts.sampleSessions StaffPassword.sampleConfig presented))
    (System.turns 0 0 10)

/-- The token is revoked, and the call is refused as the account has no identity. -/
theorem token_lost : ¬∀ config staff call s, KeepsToken config staff call s := by
  intro h
  have hrun : System.Run (fun _ _ => True) _ rotated := run_after (by decide +kernel)
  have hthrown : (rotated.threads.any fun thread => decide (outcome thread.program =
      some (.error (refreshUnauthorized "User identity not found")))) = true := by
    decide +kernel
  obtain ⟨thread, hthread, houtcome⟩ := List.any_eq_true.mp hthrown
  have hprogram := outcome_eq_error.mp (of_decide_eq_true houtcome)
  have hkept := h _ _ _ _ rotated _ hrun ⟨thread, hthread, hprogram⟩ (by decide) sampleToken
    (by decide +kernel)
  revert hkept
  decide +kernel

end NexaStays.RefreshRotation
