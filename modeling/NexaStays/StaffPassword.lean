import NexaStays.StaffLogin

/-!
# Which passwords log a member of the staff in

A password passes exactly when it is admitted by an account that is stored under the email. A
blank behind a password makes no difference, so no password is the only one that passes; and a
password that was stored with blanks around it never passes.
-/
namespace NexaStays.StaffPassword

open NexaStays.KeyedTable NexaStays.Transactions NexaStays.EntitySave NexaStays.PersonStore
open NexaStays.Sequences NexaStays.Completions NexaStays.Snapshots NexaStays.Embedding
open NexaStays.LoginStore NexaStays.AccessTokens NexaStays.Secrets NexaStays.StaffLogin
open NexaStays.Phases
open NexaStays.SqlText (trim)

variable (config : StaffConfig)

/-- Some login with the password is answered with a session. -/
def Passes (email password ip : String) (s : LoginStore.Store) : Prop :=
  ∃ sys session, System.Run (fun _ _ => True) (solo () s (adminLogin config email password ip))
    sys ∧ answerOf sys 0 = some (some session)

/-- The password passes, and no other one does. -/
def OnlyPasses (email password ip : String) (s : LoginStore.Store) : Prop :=
  Passes config email password ip s ∧
    ∀ other, other ≠ password → ¬Passes config email other ip s

theorem admitted_space (password : String) :
    admitted config (password ++ " ") = admitted config password := by
  funext user
  simp only [admitted, verifyPasswordSecret_space]

theorem adminLogin_space (email password ip : String) :
    adminLogin config email (password ++ " ") ip = adminLogin config email password ip := by
  have hprovisioned : ∀ email key, loginProvisionedStaff config email (password ++ " ") key ip =
      loginProvisionedStaff config email password key ip := by
    intro email key
    rw [loginProvisionedStaff, loginProvisionedStaff, admitted_space]
  have hbootstrap : ∀ email key, loginBootstrap config email (password ++ " ") key ip =
      loginBootstrap config email password key ip := by
    intro email key
    simp only [loginBootstrap, verifyPasswordSecret_space]
  rw [adminLogin, adminLogin]
  simp only [hprovisioned, hbootstrap]

theorem append_space_ne (password : String) : password ++ " " ≠ password := by
  intro h
  have hlength := congrArg (fun text => text.toList.length) h
  simp at hlength

/-- Whatever was stored for the account, and whatever happened since. -/
theorem never_only_passes (email password ip : String) (s : LoginStore.Store) :
    ¬OnlyPasses config email password ip s := by
  rintro ⟨hpasses, hother⟩
  apply hother (password ++ " ") (append_space_ne password)
  rw [Passes, adminLogin_space]
  exact hpasses

/-- The tables of the persons. -/
def personView (s : LoginStore.Store) : Option PersonStore.Store := some s.person

theorem plain_getOrCreateAttempt (key ip : String) : Plain personView (getOrCreateAttempt key ip) := by
  refine Plain.findOne.bind fun found => ?_
  cases found with
  | some record => trivial
  | none => exact Plain.receive.bind fun now => (Plain.insertRow fun _ _ => rfl).bind fun _ => trivial

theorem plain_isLockedOut (key ip : String) : Plain personView (isLockedOut key ip) := by
  refine (plain_getOrCreateAttempt key ip).bind fun record => ?_
  cases record.lockedUntil with
  | none => trivial
  | some lockedUntil =>
    refine Plain.receive.bind fun now => ?_
    by_cases hexpired : lockedUntil ≤ now
    · simp only [if_pos hexpired]
      refine Plain.bind (plain_saveEntity ?_) fun _ => trivial
      exact fun _ _ => rfl
    · simp only [if_neg hexpired]
      trivial

/-- A password that no account admits is refused. -/
theorem refused_of_not_admitted (ip : String) {email password : String} {s : LoginStore.Store}
    (hemail : normalizedEmail config email ∉ config.adminEmails)
    (h : ∀ user ∈ accountsByEmail (normalizedEmail config email) s.person,
      admitted config password user = false) :
    MustEnd (Value fun answer _ _ => answer = none) (adminLogin config email password ip) .idle s := by
  refine MustEnd.bind (P := fun _ ses t => ses = .idle ∧ personView t = personView s) ?_
    fun locked ses t ht => ?_
  · exact (mustEnd_of_plain (plain_isLockedOut _ _) rfl).mono fun _ _ _ hr _ _ => hr
  obtain ⟨rfl, hperson⟩ := ht
  refine (MustEnd.require (P := fun _ ses u => ses = .idle ∧ u = t) fun _ => ⟨rfl, rfl⟩).bind
    fun _ ses u hu => ?_
  obtain ⟨rfl, rfl⟩ := hu
  rw [if_neg hemail]
  have hfound : ∀ n, (Program.pick n (accountsByEmail (normalizedEmail config email) u.person)).filter
      (admitted config password) = none := by
    intro n
    rw [Option.some.inj hperson]
    cases hpick : Program.pick n (accountsByEmail (normalizedEmail config email) s.person) with
    | none => rfl
    | some user => simp [Option.filter, h user (Program.mem_of_pick hpick)]
  refine (MustEnd.findOne (P := fun found _ _ => found.filter (admitted config password) = none)
    hfound).bind fun found _ _ hnone => ?_
  simp only [hnone]
  exact (MustEnd.any _).bind fun _ _ _ _ => MustEnd.pure rfl

/-- What passes is admitted by an account that is stored under the email. -/
theorem admitted_of_passes {email password ip : String} {s : LoginStore.Store}
    (hemail : normalizedEmail config email ∉ config.adminEmails)
    (h : Passes config email password ip s) :
    ∃ user ∈ accountsByEmail (normalizedEmail config email) s.person,
      admitted config password user = true := by
  by_contra hnone
  obtain ⟨sys, session, hrun, hanswer⟩ := h
  have hrefused := refused_of_not_admitted config ip hemail fun user huser =>
    Bool.eq_false_iff.mpr fun hadmitted => hnone ⟨user, huser, hadmitted⟩
  obtain ⟨ses, hvalue⟩ := value_of_run hrefused hrun hanswer
  cases hvalue

/-- Hashes that show the text, and an installation without administrators of its own. -/
def sampleConfig : StaffConfig :=
  { hashes :=
      { argon2Hash := fun _ text => "$argon2id$" ++ text ++ "$"
        argon2Verify := fun hash text => hash = "$argon2id$" ++ text ++ "$"
        argon2NeedsRehash := fun _ => false
        bcryptCompare := fun _ _ => false }
    toLowerCase := String.toLower
    adminEmails := []
    adminPasswordHash := ""
    adminPassword := ""
    production := true
    digest := id }

def sampleAgent : CreateSupportAgentDto := ⟨"Agent@example.com", "Agent", "correct horse "⟩

/-- The creation of the account, which runs to its end. -/
def created : System Unit PersonStore.Store PersonStore.Key PersonStore.Write PersonError User :=
  after (solo () PersonStore.Store.blank (createSupportAgent sampleConfig sampleAgent))
    (System.turns 0 1 10)

def agentStore : LoginStore.Store := { LoginStore.Store.blank with person := created.store }

/-- The password is accepted, and does not log its owner in. -/
theorem own_password_refused :
    System.Run (fun _ _ => True)
        (solo () PersonStore.Store.blank (createSupportAgent sampleConfig sampleAgent)) created ∧
      (answerOf created 0).isSome = true ∧
      ¬OnlyPasses sampleConfig sampleAgent.email sampleAgent.password "127.0.0.1" agentStore := by
  refine ⟨run_after (by decide +kernel), by decide +kernel, fun honly => ?_⟩
  obtain ⟨user, huser, hadmitted⟩ := admitted_of_passes sampleConfig (by decide +kernel) honly.1
  have hnone : (accountsByEmail (normalizedEmail sampleConfig sampleAgent.email)
      agentStore.person).all (fun user => !admitted sampleConfig sampleAgent.password user) =
      true := by decide +kernel
  have hrefused := List.all_eq_true.mp hnone user huser
  rw [hadmitted] at hrefused
  cases hrefused

end NexaStays.StaffPassword
