import NexaStays.Exceptions
import NexaStays.FixedWindow
import NexaStays.PinAccount
import NexaStays.RowInvariants

/-!
# Guessing a PIN

Logins by PIN that follow each other, for any accounts. The failures of an account are counted in
fixed windows until a lockout or the right PIN ends the count, and each lockout lasts twice as
long as the one before it.
-/
namespace NexaStays.PinGuesses

open NexaStays.KeyedTable NexaStays.Transactions NexaStays.EntitySave
open NexaStays.Sequences NexaStays.Completions NexaStays.Snapshots NexaStays.Embedding
open NexaStays.Phases NexaStays.LoginStore NexaStays.Secrets NexaStays.PinLogin NexaStays.Exceptions
open NexaStays.RowInvariants NexaStays.FixedWindow NexaStays.PinAccount
open NexaStays.PersonStore (User Personal PersonError)
open NexaStays.PhoneChange (normalizedOrThrow)
open NexaStays.IdentityStore (AccountType PinAttempt TrustedDevice)

/-- The counter of an account: the window of its failures, the lockouts since the last right PIN,
and the end of the last one. -/
structure Lockout where
  window : Option Window
  level : ℕ
  lockedUntil : Option ℤ
  deriving DecidableEq, Repr

namespace Lockout

def clear : Lockout := ⟨none, 0, none⟩

/-- After the end of the lockout. -/
def reopened (l : Lockout) : Lockout :=
  if l.lockedUntil = none then l else ⟨none, l.level, none⟩

/-- Nothing is counted on from before a lockout. -/
def Sound (l : Lockout) : Prop := l.lockedUntil ≠ none → l.window = none

variable {l : Lockout}

@[simp] theorem level_reopened : l.reopened.level = l.level := by
  unfold reopened
  split <;> rfl

@[simp] theorem lockedUntil_reopened : l.reopened.lockedUntil = none := by
  unfold reopened
  split_ifs with h
  · exact h
  · rfl

theorem Sound.window_reopened (h : l.Sound) : l.reopened.window = l.window := by
  unfold reopened
  split_ifs with hopen
  · rfl
  · exact (h hopen).symm

theorem sound_of_open (h : l.lockedUntil = none) : l.Sound := fun hlocked => absurd h hlocked

end Lockout

variable (config : PinConfig)

/-- The length of a window, with its last millisecond. -/
def width : ℤ := config.attemptWindowMinutes * 60 * 1000 + 1

def windowOfRow (attempt : PinAttempt) : Option Window :=
  attempt.firstFailedAt.map fun first => ⟨attempt.failedCount, first + width config⟩

def lockoutOf : Option PinAttempt → Lockout
  | none => .clear
  | some attempt => ⟨windowOfRow config attempt, attempt.lockoutLevel, attempt.lockoutUntil⟩

/-- The counter after a wrong PIN that is counted. -/
def Counts (now : ℤ) (l l' : Lockout) : Prop :=
  0 < config.maxAttempts - 1 ∧ ∃ w,
    Window.bump (config.maxAttempts - 1) (width config) now l.window = some w ∧
      l' = { l with window := some w }

/-- The counter after a wrong PIN that locks the account. -/
def locked (now : ℤ) (l : Lockout) : Lockout :=
  ⟨none, l.level + 1, some (now + lockoutSeconds config (l.level + 1) * 1000)⟩

/-- The failure that `recordFailure` counts without a lockout. -/
theorem counts_of_room {now : ℤ} {attempt : PinAttempt}
    (hroom : ¬config.maxAttempts ≤ (windowOf config now attempt).1 + 1) :
    Counts config now (lockoutOf config (some attempt))
      (lockoutOf config (some { attempt with
        failedCount := (windowOf config now attempt).1 + 1
        firstFailedAt := (windowOf config now attempt).2
        updatedAt := now })) := by
  refine ⟨by omega, ?_⟩
  cases hfirst : attempt.firstFailedAt with
  | none =>
    refine ⟨⟨1, now + width config⟩, ?_, ?_⟩
    · simp [lockoutOf, windowOfRow, hfirst, Window.bump]
    · simp [lockoutOf, windowOfRow, windowOf, hfirst]
  | some first =>
    by_cases hover : config.attemptWindowMinutes * 60 * 1000 < now - first
    · have hwindow : windowOf config now attempt = (0, some now) := by
        simp only [windowOf, hfirst, if_pos hover]
      have hreset : first + width config ≤ now := by
        rw [width]
        omega
      refine ⟨⟨1, now + width config⟩, ?_, ?_⟩
      · simp [lockoutOf, windowOfRow, hfirst, Window.bump, hreset]
      · simp [lockoutOf, windowOfRow, hwindow]
    · have hwindow : windowOf config now attempt = (attempt.failedCount, some first) := by
        simp only [windowOf, hfirst, if_neg hover]
      have hopen : ¬first + width config ≤ now := by
        rw [width]
        omega
      have hcount : ¬config.maxAttempts - 1 ≤ attempt.failedCount := by
        rw [hwindow] at hroom
        omega
      refine ⟨⟨attempt.failedCount + 1, first + width config⟩, ?_, ?_⟩
      · simp only [lockoutOf, windowOfRow, hfirst, Option.map_some, Window.bump, if_neg hopen,
          if_neg hcount]
      · simp [lockoutOf, windowOfRow, hwindow]

/-- The answer that a PIN of the account is wrong. -/
def wrongFor (userId : ℕ) : LoginError → Bool
  | .refused body => body.code = "PIN_INVALID" ∧ body.accountId = some userId
  | .person _ => false

/-- The answer that the account is locked. -/
def lockedFor (userId : ℕ) : LoginError → Bool
  | .refused body => body.code = "PIN_LOCKED_OUT" ∧ body.accountId = some userId
  | .person _ => false

/-- What a call throws, if it does. -/
def thrown {ε α : Type} : Except ε α → Option ε
  | .ok _ => none
  | .error e => some e

variable (userId : ℕ)

/-- What one login does to the counter of an account, with what it throws; `right` is that the
account has the PIN of the call. -/
inductive Moves (right : Prop) (l : Lockout) (row : Option PinAttempt) : Option LoginError → Prop
  | stays {e} (same : lockoutOf config row = l ∨ lockoutOf config row = l.reopened)
      (other : ∀ x ∈ e, wrongFor userId x = false) : Moves right l row e
  | resets {e} (opens : right) (cleared : lockoutOf config row = .clear)
      (other : ∀ x ∈ e, wrongFor userId x = false) : Moves right l row e
  | counts {attempt remaining} (found : row = some attempt)
      (counted : Counts config attempt.updatedAt l.reopened (lockoutOf config row)) :
      Moves right l row (some (pinInvalid userId remaining))
  | locks {attempt status} (found : row = some attempt)
      (lockedNow : lockoutOf config row = locked config attempt.updatedAt l.reopened) :
      Moves right l row (some (lockedOut userId status))

variable {config userId}

/-- The steps after the PIN leave the counter as it is. -/
theorem Moves.andThen {right : Prop} {l : Lockout} {row : Option PinAttempt} {e : Option LoginError}
    (h : Moves config userId right l row none) (he : ∀ x ∈ e, wrongFor userId x = false) :
    Moves config userId right l row e := by
  cases h with
  | stays same _ => exact .stays same he
  | resets opens cleared _ => exact .resets opens cleared he

section Ends

variable {α β : Type} {R : Except LoginError β → Session Key Write → Store → Prop}
  {k : α → Login β} {e : LoginError} {s : Store}

theorem mustEnd_then {Q : Except LoginError α → Session Key Write → Store → Prop} {p : Login α}
    {ses : Session Key Write} (h : MustEnd Q p ses s)
    (hok : ∀ a ses t, Q (.ok a) ses t → MustEnd R (k a) ses t)
    (herror : ∀ e ses t, Q (.error e) ses t → R (.error e) ses t) :
    MustEnd R (p >>= k) ses s :=
  MustEnd.handle h hok herror

theorem mustEnd_query {f : Store → α} (hok : ∀ a, f s = a → MustEnd R (k a) .idle s)
    (herror : R (.error e) .idle s) : MustEnd R (Program.query e f >>= k) .idle s :=
  ⟨hok _ rfl, herror⟩

theorem mustEnd_receive {k : ℕ → Login β} (h : ∀ n, MustEnd R (k n) .idle s) :
    MustEnd R (Program.receive >>= k) .idle s := h

theorem mustEnd_write {ws : Store → List Write} {k : List Write → Login β}
    (hok : MustEnd R (k (ws s)) .idle (publish s (ws s))) (herror : R (.error e) .idle s) :
    MustEnd R (Program.writeRows e ws >>= k) .idle s :=
  ⟨hok, herror⟩

attribute [local semireducible] Throws in
/-- What a program throws, at its end. -/
theorem mustEnd_of_throws {E : LoginError → Prop} {p : Login α} {ses : Session Key Write}
    (h : Throws E p) : MustEnd (fun r _ _ => ∀ x ∈ thrown r, E x) p ses s := by
  induction p generalizing ses s with
  | pure a => simp [MustEnd, thrown]
  | throw x =>
    intro y hy
    obtain rfl := Option.mem_some.mp hy
    exact h
  | halt => trivial
  | select k err ihk iherr | lock key k err ihk iherr | update ws k err ihk iherr =>
    exact ⟨ihk _ (h.1 _), iherr h.2⟩
  | insert row k err ihk iherr => exact ⟨fun n _ => ihk n (h.1 n), iherr h.2⟩
  | choose k ih => exact fun n => ih n (h n)
  | emit ws k ih => exact ih _ (h _)
  | start k ih | rollback k ih => exact ih h
  | commit k err ihk iherr => exact ⟨ihk h.1, iherr h.2⟩

end Ends

/-- The row of the account, outside of a transaction. -/
def Holds (userId : ℕ) (row : Option PinAttempt) (ses : Session Key Write) (s : Store) : Prop :=
  ses = .idle ∧ s.pinAttempts.find? userId = row

/-- The row after it was saved, or was not. -/
def AfterSave (new : PinAttempt) (old row : Option PinAttempt) : Except LoginError Unit → Prop
  | .ok _ => row = some new
  | .error e => e = .database ∧ row = old

theorem mustEnd_saveAttempt {s : Store} {new : PinAttempt} {old : Option PinAttempt}
    (hid : new.userId = userId) (hold : s.pinAttempts.find? userId = old) :
    MustEnd (fun r ses t => ∃ row, Holds userId row ses t ∧ AfterSave new old row r)
      (saveEntity (savedAttempt userId) .database new) .idle s := by
  have hput : (s.pinAttempts.put new).find? userId = some new := by
    rw [Table.find?_put, if_pos hid.symm]
  refine mustEnd_query (fun found hfound => ?_) ⟨_, ⟨rfl, hold⟩, rfl, rfl⟩
  cases found with
  | none => exact mustEnd_write ⟨_, ⟨rfl, hput⟩, rfl⟩ ⟨_, ⟨rfl, hold⟩, rfl, rfl⟩
  | some row =>
    by_cases hsame : row = new
    · simp only [if_pos hsame]
      exact ⟨_, ⟨rfl, hfound⟩, congrArg some hsame⟩
    · simp only [if_neg hsame]
      refine mustEnd_write ⟨_, ⟨rfl, ?_⟩, rfl⟩ ⟨_, ⟨rfl, hold⟩, rfl, rfl⟩
      simp only [hfound, Option.toList_some, List.map_cons, List.map_nil, Columns.merge_self]
      exact hput

variable (config)

/-- The row that was found or created. -/
def Found (userId : ℕ) (l : Lockout) (row : Option PinAttempt) : Except LoginError PinAttempt → Prop
  | .ok attempt => row = some attempt ∧ attempt.userId = userId ∧ lockoutOf config row = l
  | .error e => e = .database ∧ lockoutOf config row = l

theorem mustEnd_getOrCreate {s : Store} {old : Option PinAttempt}
    (hold : s.pinAttempts.find? userId = old) :
    MustEnd (fun r ses t => ∃ row, Holds userId row ses t ∧
      Found config userId (lockoutOf config old) row r) (getOrCreate userId) .idle s := by
  unfold getOrCreate
  refine mustEnd_query (fun found hfound => ?_) ⟨_, ⟨rfl, hold⟩, rfl, rfl⟩
  obtain rfl : old = found := hold.symm.trans hfound
  cases old with
  | some attempt => exact ⟨_, ⟨rfl, hold⟩, rfl, Table.key_of_find? hold, rfl⟩
  | none =>
    refine mustEnd_receive fun now => ?_
    refine mustEnd_then (mustEnd_saveAttempt rfl hold) (fun _ ses t ht => ?_) fun e ses t ht => ?_
    · obtain ⟨row, hheld, rfl⟩ := ht
      exact ⟨_, hheld, rfl, rfl, rfl⟩
    · obtain ⟨row, hheld, rfl, rfl⟩ := ht
      exact ⟨_, hheld, rfl, rfl⟩

/-- What the caller is told of a lockout. -/
def Told (l : Lockout) (row : Option PinAttempt) : Except LoginError PinLockoutStatus → Prop
  | .ok status => status.locked = true ∧ lockoutOf config row = l ∨
      status.locked = false ∧ lockoutOf config row = l.reopened
  | .error e => e = .database ∧ lockoutOf config row = l

theorem mustEnd_getStatus {s : Store} {old : Option PinAttempt}
    (hold : s.pinAttempts.find? userId = old) :
    MustEnd
      (fun r ses t => ∃ row, Holds userId row ses t ∧ Told config (lockoutOf config old) row r)
      (getStatus userId) .idle s := by
  unfold getStatus
  refine mustEnd_then (mustEnd_getOrCreate config hold) (fun attempt ses t ht => ?_)
    fun e ses t ht => ?_
  · obtain ⟨row, ⟨rfl, hrow⟩, rfl, hid, hsame⟩ := ht
    refine mustEnd_receive fun now => ?_
    rw [← hsame]
    cases huntil : attempt.lockoutUntil with
    | none =>
      refine ⟨_, ⟨rfl, hrow⟩, .inr ⟨rfl, ?_⟩⟩
      simp [Lockout.reopened, lockoutOf, huntil]
    | some lockoutUntil =>
      by_cases hover : lockoutUntil - now ≤ 0
      · simp only [if_pos hover]
        refine mustEnd_then (mustEnd_saveAttempt hid hrow) (fun _ ses v hv => ?_)
          fun e ses v hv => ?_
        · obtain ⟨row, hheld, rfl⟩ := hv
          refine ⟨_, hheld, .inr ⟨rfl, ?_⟩⟩
          simp [Lockout.reopened, lockoutOf, windowOfRow, huntil]
        · obtain ⟨row, hheld, rfl, rfl⟩ := hv
          exact ⟨_, hheld, rfl, rfl⟩
      · simp only [if_neg hover]
        exact ⟨_, ⟨rfl, hrow⟩, .inl ⟨rfl, rfl⟩⟩
  · obtain ⟨row, hheld, rfl, hsame⟩ := ht
    exact ⟨_, hheld, rfl, hsame⟩

/-- A wrong PIN that was counted or has locked the account. -/
def Recorded (l : Lockout) (row : Option PinAttempt) : Except LoginError PinFailureResult → Prop
  | .ok failure => ∃ attempt, row = some attempt ∧
      (failure.locked = true ∧ lockoutOf config row = locked config attempt.updatedAt l ∨
        failure.locked = false ∧ Counts config attempt.updatedAt l (lockoutOf config row))
  | .error e => e = .database ∧ lockoutOf config row = l

theorem mustEnd_recordFailure {s : Store} {old : Option PinAttempt}
    (hold : s.pinAttempts.find? userId = old) :
    MustEnd (fun r ses t => ∃ row, Holds userId row ses t ∧
      Recorded config (lockoutOf config old) row r) (recordFailure config userId) .idle s := by
  unfold recordFailure
  refine mustEnd_then (mustEnd_getOrCreate config hold) (fun attempt ses t ht => ?_)
    fun e ses t ht => ?_
  · obtain ⟨row, ⟨rfl, hrow⟩, rfl, hid, hsame⟩ := ht
    refine mustEnd_receive fun now => ?_
    rw [← hsame]
    by_cases hlock : config.maxAttempts ≤ (windowOf config now attempt).1 + 1
    · simp only [if_pos hlock]
      refine mustEnd_then (mustEnd_saveAttempt hid hrow) (fun _ ses v hv => ?_)
        fun e ses v hv => ?_
      · obtain ⟨row, hheld, rfl⟩ := hv
        exact ⟨_, hheld, _, rfl, .inl ⟨rfl, rfl⟩⟩
      · obtain ⟨row, hheld, rfl, rfl⟩ := hv
        exact ⟨_, hheld, rfl, rfl⟩
    · simp only [if_neg hlock]
      refine mustEnd_then (mustEnd_saveAttempt hid hrow) (fun _ ses v hv => ?_)
        fun e ses v hv => ?_
      · obtain ⟨row, hheld, rfl⟩ := hv
        exact ⟨_, hheld, _, rfl, .inr ⟨rfl, counts_of_room config hlock⟩⟩
      · obtain ⟨row, hheld, rfl, rfl⟩ := hv
        exact ⟨_, hheld, rfl, rfl⟩
  · obtain ⟨row, hheld, rfl, hsame⟩ := ht
    exact ⟨_, hheld, rfl, hsame⟩

theorem mustEnd_recordSuccess {s : Store} {old : Option PinAttempt}
    (hold : s.pinAttempts.find? userId = old) :
    MustEnd (fun r ses t => ∃ row, Holds userId row ses t ∧
      (lockoutOf config row = lockoutOf config old ∨ lockoutOf config row = .clear) ∧
        ∀ e ∈ thrown r, e = .database) (recordSuccess userId) .idle s := by
  unfold recordSuccess
  refine mustEnd_query (fun found hfound => ?_) ⟨_, ⟨rfl, hold⟩, .inl rfl, by simp [thrown]⟩
  cases found with
  | none => exact ⟨_, ⟨rfl, hold⟩, .inl rfl, by simp [thrown]⟩
  | some attempt =>
    have hid : attempt.userId = userId := Table.key_of_find? hfound
    refine mustEnd_receive fun now => ?_
    refine MustEnd.mono (fun r ses t ht => ?_)
      (mustEnd_saveAttempt hid hold)
    obtain ⟨row, hheld, hafter⟩ := ht
    cases r with
    | ok => exact ⟨row, hheld, .inr (by rw [hafter]; rfl), by simp [thrown]⟩
    | error e => exact ⟨row, hheld, .inl (by rw [hafter.2]), by simp [thrown, hafter.1]⟩

/-- The row of the account in the table. -/
def attemptView (userId : ℕ) (s : Store) : Option (Option PinAttempt) :=
  some (s.pinAttempts.find? userId)

theorem mustEnd_renewHash {s : Store} {old : Option PinAttempt} {account : User} {pin : String}
    (hold : s.pinAttempts.find? userId = old) :
    MustEnd (fun r ses t => Holds userId old ses t ∧ ∀ e ∈ thrown r, e = .database)
      (renewHash config account pin) .idle s := by
  have hplain : Plain (attemptView userId) (renewHash config account pin) := by
    unfold renewHash
    split
    · refine Plain.receive.bind fun salt => (Plain.writeRows fun s w hw => ?_).bind fun _ => trivial
      obtain ⟨u, -, rfl⟩ := List.mem_map.mp hw
      exact fun _ => rfl
    · trivial
  have hthrows : Throws (fun e => e = LoginError.database) (renewHash config account pin) := by
    unfold renewHash
    split
    · exact Throws.receive.bind fun salt => Throws.bind
        (Throws.writeRows (E := fun e => e = LoginError.database) (e := LoginError.database) rfl)
        fun _ => Throws.pure
    · exact Throws.pure
  refine ((mustEnd_of_plain hplain rfl).and (mustEnd_of_throws hthrows)).mono
    fun r ses t ht => ⟨⟨ht.1.1, ?_⟩, ht.2⟩
  rw [← hold]
  exact Option.some.inj ht.1.2

/-- The PIN of the account is checked. -/
theorem mustEnd_checkOwn {s : Store} {old : Option PinAttempt} {account : User} {pin : String}
    (hid : account.id = userId) (hold : s.pinAttempts.find? userId = old) :
    MustEnd (fun r ses t => ∃ row, Holds userId row ses t ∧
      Moves config userId ((verifyPinHash config.hashes pin account.pinHash).valid = true)
        (lockoutOf config old) row (thrown r)) (checkPin config account pin) .idle s := by
  subst hid
  have hdatabase : ∀ e ∈ some LoginError.database, wrongFor account.id e = false := by
    simp [wrongFor, LoginError.database]
  unfold checkPin
  refine mustEnd_then (mustEnd_getStatus config hold)
    (fun status ses t ht => ?_) fun e ses t ht => ?_
  · obtain ⟨row, ⟨rfl, hrow⟩, ⟨hlocked, hsame⟩ | ⟨hopen, hsame⟩⟩ := ht
    · rw [Program.require, if_neg (by simp [hlocked])]
      refine ⟨row, ⟨rfl, hrow⟩, .stays (.inl hsame) ?_⟩
      simp [thrown, wrongFor, lockedOut, Refusal.of]
    rw [Program.require, if_pos hopen]
    show MustEnd _ (if (verifyPinHash config.hashes pin account.pinHash).valid = true then
      renewHash config account pin >>= fun _ => recordSuccess account.id
      else refusePin config account.id) .idle t
    by_cases hvalid : (verifyPinHash config.hashes pin account.pinHash).valid = true
    · rw [if_pos hvalid]
      refine mustEnd_then (mustEnd_renewHash config hrow)
        (fun _ ses v hv => ?_) fun e ses v hv => ?_
      · obtain ⟨⟨rfl, hrow⟩, -⟩ := hv
        refine (mustEnd_recordSuccess config hrow).mono fun r ses w hw => ?_
        obtain ⟨row', hheld, hafter, hthrown⟩ := hw
        have hother : ∀ e ∈ thrown r, wrongFor account.id e = false := fun e he => by
          rw [hthrown e he]
          rfl
        obtain hkept | hcleared := hafter
        · exact ⟨row', hheld, .stays (.inr (hkept.trans hsame)) hother⟩
        · exact ⟨row', hheld, .resets hvalid hcleared hother⟩
      · obtain ⟨hheld, hthrown⟩ := hv
        obtain rfl := hthrown e rfl
        exact ⟨row, hheld, .stays (.inr hsame) hdatabase⟩
    · rw [if_neg hvalid]
      unfold refusePin
      refine mustEnd_then (mustEnd_recordFailure config hrow) (fun failure ses v hv => ?_)
        fun e ses v hv => ?_
      · obtain ⟨row', hheld, attempt, hfound, ⟨hlocked, hafter⟩ | ⟨hcounted, hafter⟩⟩ := hv
        · rw [if_pos hlocked]
          exact ⟨row', hheld, .locks hfound (by rw [← hsame]; exact hafter)⟩
        · rw [if_neg (by simp [hcounted])]
          exact ⟨row', hheld, .counts hfound (by rw [← hsame]; exact hafter)⟩
      · obtain ⟨row', hheld, rfl, hkept⟩ := hv
        exact ⟨row', hheld, .stays (.inr (hkept.trans hsame)) hdatabase⟩
  · obtain ⟨row, hheld, rfl, hsame⟩ := ht
    exact ⟨row, hheld, .stays (.inl hsame) hdatabase⟩

/-- The write leaves the row of the account as it is. -/
def SparesRow (userId : ℕ) (w : Write) : Prop :=
  ∀ s : Store, (s.write w).pinAttempts.find? userId = s.pinAttempts.find? userId

theorem sparesRow_person (w : PersonStore.Write) : SparesRow userId (.person w) := fun _ => rfl

theorem sparesRow_device (d : TrustedDevice) : SparesRow userId (.trustedDevice d) := fun _ => rfl

theorem sparesRow_attempt {attempt : PinAttempt} (h : attempt.userId ≠ userId) :
    SparesRow userId (.pinAttempt attempt) :=
  fun _ => Table.find?_put_of_ne h.symm

/-- No answer that a PIN of the account is wrong. -/
def NotWrong (userId : ℕ) (e : LoginError) : Prop := wrongFor userId e = false

theorem notWrong_database : NotWrong userId .database := rfl

/-- A program that leaves the row of the account as it is and calls no PIN of it wrong. -/
def Quiet (userId : ℕ) {α : Type} (Q : α → Prop) (p : Login α) : Prop :=
  ∀ ses s, (∀ w ∈ ses.pending, SparesRow userId w) →
    MustEnd (fun r ses' t => (∀ w ∈ ses'.pending, SparesRow userId w) ∧
      t.pinAttempts.find? userId = s.pinAttempts.find? userId ∧
        (∀ a, r = .ok a → Q a) ∧ ∀ e ∈ thrown r, NotWrong userId e) p ses s

namespace Quiet

variable {α β : Type} {Q : α → Prop} {R : β → Prop} {e : LoginError}

theorem of {p : Login α} (hwrites : ∀ row, Upholds (fun s : Store =>
      s.pinAttempts.find? userId = row) (SparesRow userId) Q p)
    (hthrows : Throws (NotWrong userId) p) : Quiet userId Q p := by
  intro ses s hses
  refine ((mustEnd_of_upholds (fun t w hw ht => ?_) (hwrites _) hses rfl).and
    (mustEnd_of_throws hthrows)).mono fun r ses' t ht => ⟨ht.1.2.1, ht.1.2.2, ht.1.1, ht.2⟩
  exact (hw t).trans ht

theorem bind {p : Login α} {k : α → Login β} (h : Quiet userId Q p)
    (hk : ∀ a, Q a → Quiet userId R (k a)) : Quiet userId R (p >>= k) := by
  intro ses s hses
  refine mustEnd_then (h ses s hses) (fun a ses' t ht => ?_) fun x ses' t ht => ?_
  · obtain ⟨hpending, hrow, hvalue, -⟩ := ht
    exact (hk a (hvalue a rfl) ses' t hpending).mono fun r ses'' u hu =>
      ⟨hu.1, hu.2.1.trans hrow, hu.2.2⟩
  · obtain ⟨hpending, hrow, -, hthrown⟩ := ht
    exact ⟨hpending, hrow, by simp, hthrown⟩

theorem pure {a : α} (h : Q a) : Quiet userId Q (Pure.pure a : Login α) :=
  of (fun _ => Upholds.pure h) Throws.pure

theorem throw (he : NotWrong userId e) : Quiet userId Q (.throw e : Login α) :=
  of (fun _ => Upholds.throw) (Throws.throw he)

theorem query {f : Store → α} (h : ∀ s, Q (f s)) : Quiet userId Q (Login.read f) :=
  of (fun _ => Upholds.query fun s _ => h s) (Throws.query notWrong_database)

theorem findOne {f : Store → List α} : Quiet userId (fun _ => True) (Login.findOne f) :=
  of (fun _ => Upholds.findOne trivial fun _ _ _ _ => trivial) (Throws.findOne notWrong_database)

theorem receive : Quiet userId (fun _ => True) (Program.receive : Login ℕ) :=
  of (fun _ => Upholds.receive) Throws.receive

theorem require {p : Prop} [Decidable p] (he : NotWrong userId e) :
    Quiet userId (fun _ => True) (Program.require p e : Login Unit) :=
  of (fun _ => Upholds.require.mono fun _ _ => trivial) (Throws.require fun _ => he)

theorem expect {o : Option α} (he : NotWrong userId e) :
    Quiet userId (fun _ => True) (Program.expect o e : Login α) :=
  of (fun _ => Upholds.expect.mono fun _ _ => trivial) (Throws.expect he)

theorem update {ws : Store → List Write} (h : ∀ s, ∀ w ∈ ws s, SparesRow userId w) :
    Quiet userId (fun _ => True) (Login.update ws) :=
  of (fun _ => Upholds.writeRows fun s _ => h s) (Throws.writeRows notWrong_database)

theorem insert {row : ℕ → Write} (h : ∀ n, SparesRow userId (row n)) :
    Quiet userId (fun _ => True) (Login.insert row) :=
  of (fun _ => Upholds.insertRow fun _ n _ _ => h n) (Throws.insertRow notWrong_database)

theorem onPerson (p : Personal α) : Quiet userId (fun _ => True) (Login.onPerson p) :=
  of (fun _ => upholds_within personal (fun _ _ => trivial) (fun w _ => sparesRow_person w)
      (upholds_any (I := fun _ => True) (W := fun _ => True) (fun _ => trivial) p))
    (throws_within personal (fun _ => rfl) p)

/-- The save of an entity none of whose forms is the row of the account. -/
theorem save {ρ : Type} [DecidableEq ρ] [Columns ρ] {table : Saved Store Write ρ} {new : ρ}
    (hnew : SparesRow userId (table.put new)) (hmerge : ∀ s row old, table.find s = some row →
      SparesRow userId (table.put (Columns.merge old new row))) :
    Quiet userId (fun _ => True) (saveEntity table .database new) :=
  of (fun _ => upholds_saveEntity hnew fun s row old _ hrow => hmerge s row old hrow)
    (Throws.saveEntity notWrong_database)

/-- What such a program leaves, where no transaction is open. -/
theorem mustEnd {p : Login α} (h : Quiet userId Q p) (s : Store) :
    MustEnd (fun r _ t => t.pinAttempts.find? userId = s.pinAttempts.find? userId ∧
      ∀ e ∈ thrown r, NotWrong userId e) p .idle s :=
  (h .idle s (by simp [Session.idle])).mono fun _ _ _ ht => ⟨ht.2.1, ht.2.2.2⟩

end Quiet

-- a statement about a long program is not to be unfolded into its steps
attribute [irreducible] Quiet

theorem quiet_updateUser {id : ℕ} {f : User → User} :
    Quiet userId (fun _ => True) (Login.update fun s =>
      (s.person.users.find? id).toList.map fun u => .person (.user (f u))) := by
  refine Quiet.update fun s w hw => ?_
  obtain ⟨u, -, rfl⟩ := List.mem_map.mp hw
  exact sparesRow_person _

theorem quiet_checkDevice {id : ℕ} {ctx : RefreshTokenContext} :
    Quiet userId (fun _ => True) (checkDevice id ctx) := by
  have htrusted : Quiet userId (fun _ => True) (isTrustedDevice id ctx.deviceId) := by
    rw [isTrustedDevice]
    split_ifs
    · exact Quiet.pure trivial
    · exact Quiet.findOne.bind fun _ _ => Quiet.pure trivial
  refine htrusted.bind fun trusted _ => ?_
  have hdevice : Quiet userId (fun _ => True) (upsertTrustedDevice id ctx trusted) := by
    rw [upsertTrustedDevice]
    split_ifs
    · exact Quiet.pure trivial
    · refine Quiet.receive.bind fun now _ => Quiet.findOne.bind fun existing _ => ?_
      cases existing with
      | none => exact (Quiet.insert fun _ => sparesRow_device _).bind fun _ _ => Quiet.pure trivial
      | some device => exact Quiet.save (sparesRow_device _) fun _ _ _ _ => sparesRow_device _
  refine hdevice.bind fun _ _ => Quiet.require ?_
  simp [NotWrong, wrongFor, newDevice, Refusal.of]

theorem quiet_issueTokens {account : User} {selected : ℕ × AccountType} {normalized : String} :
    Quiet userId (fun _ => True) (issueTokens account selected normalized) := by
  have hlogin : Quiet userId (fun _ => True) (recordLogin selected.1) :=
    Quiet.receive.bind fun now _ => Quiet.bind quiet_updateUser fun _ _ => Quiet.pure trivial
  have hidentity : Quiet userId (fun _ => True) (identityOf account normalized) := by
    rw [identityOf.eq_def]
    cases account.unifiedIdentityId with
    | some identityId => exact Quiet.pure trivial
    | none => exact (Quiet.onPerson _).bind fun _ _ => Quiet.pure trivial
  exact hlogin.bind fun _ _ => hidentity.bind fun _ _ => (Quiet.onPerson _).bind fun _ _ =>
    (Quiet.onPerson _).bind fun _ _ => Quiet.pure trivial

theorem quiet_loginSelected {account : User} {normalized : String} {requested : AccountType}
    {ctx : RefreshTokenContext} {riskDecision : Option AdaptiveRiskDecision} :
    Quiet userId (fun _ => True)
      (loginSelected account normalized requested ctx riskDecision) := by
  have haccounts : Quiet userId (fun _ => True) (findAccountsByPhone normalized) :=
    (Quiet.of (Q := fun _ => True) (fun _ => Upholds.findAll fun _ _ _ => trivial)
      (Throws.choose fun _ => Throws.query notWrong_database)).bind fun _ _ => Quiet.pure trivial
  have hnone : ∀ accounts, NotWrong userId (noSelected requested accounts) := fun _ => rfl
  refine haccounts.bind fun accounts _ => (Quiet.expect (hnone _)).bind fun selected _ => ?_
  refine Quiet.bind quiet_checkDevice fun _ _ => ?_
  refine Quiet.bind (Q := fun _ => True) ?_ fun _ _ => quiet_issueTokens
  cases riskDecision with
  | none => exact Quiet.pure trivial
  | some decision =>
    refine Quiet.require ?_
    simp [NotWrong, wrongFor, riskReview, Refusal.of]

section Others

variable {id : ℕ}

theorem quiet_saveAttempt (hid : id ≠ userId) {attempt : PinAttempt} (hrow : attempt.userId = id) :
    Quiet userId (fun _ => True) (saveEntity (savedAttempt id) .database attempt) := by
  refine Quiet.save (sparesRow_attempt (by rwa [hrow])) fun s row old hfound =>
    sparesRow_attempt ?_
  have hkey : row.userId = id := Table.key_of_find? hfound
  show column old.userId attempt.userId row.userId ≠ userId
  rw [hrow, hkey, column]
  split_ifs <;> exact hid

theorem quiet_findAttempt : Quiet userId (fun found => ∀ attempt, found = some attempt →
    attempt.userId = id) (Login.read fun s => s.pinAttempts.find? id) :=
  Quiet.query fun _ _ hfound => Table.key_of_find? hfound

theorem quiet_getOrCreate (hid : id ≠ userId) :
    Quiet userId (fun attempt => attempt.userId = id) (getOrCreate id) := by
  refine Quiet.bind quiet_findAttempt fun found hfound => ?_
  cases found with
  | some attempt => exact Quiet.pure (hfound attempt rfl)
  | none =>
    exact Quiet.receive.bind fun now _ => Quiet.bind (quiet_saveAttempt hid rfl) fun _ _ =>
      Quiet.pure rfl

theorem quiet_getStatus (hid : id ≠ userId) : Quiet userId (fun _ => True) (getStatus id) := by
  refine Quiet.bind (quiet_getOrCreate hid) fun attempt hrow => Quiet.receive.bind fun now _ => ?_
  cases attempt.lockoutUntil with
  | none => exact Quiet.pure trivial
  | some lockoutUntil =>
    by_cases hover : lockoutUntil - now ≤ 0
    · simp only [if_pos hover]
      exact Quiet.bind (quiet_saveAttempt hid hrow) fun _ _ => Quiet.pure trivial
    · simp only [if_neg hover]
      exact Quiet.pure trivial

theorem quiet_recordFailure (hid : id ≠ userId) :
    Quiet userId (fun _ => True) (recordFailure config id) := by
  refine Quiet.bind (quiet_getOrCreate hid) fun attempt hrow => Quiet.receive.bind fun now _ => ?_
  by_cases hlock : config.maxAttempts ≤ (windowOf config now attempt).1 + 1
  · simp only [if_pos hlock]
    exact Quiet.bind (quiet_saveAttempt hid hrow) fun _ _ => Quiet.pure trivial
  · simp only [if_neg hlock]
    exact Quiet.bind (quiet_saveAttempt hid hrow) fun _ _ => Quiet.pure trivial

theorem quiet_recordSuccess (hid : id ≠ userId) :
    Quiet userId (fun _ => True) (recordSuccess id) := by
  refine Quiet.bind quiet_findAttempt fun found hfound => ?_
  cases found with
  | none => exact Quiet.pure trivial
  | some attempt =>
    exact Quiet.receive.bind fun now _ => quiet_saveAttempt hid (hfound attempt rfl)

/-- The PIN of another account is checked. -/
theorem quiet_checkOther {account : User} {pin : String} (hid : account.id ≠ userId) :
    Quiet userId (fun _ => True) (checkPin config account pin) := by
  have hlocked : ∀ status, NotWrong userId (lockedOut account.id status) := fun status => by
    simp [NotWrong, wrongFor, lockedOut, Refusal.of]
  have hrenew : Quiet userId (fun _ => True) (renewHash config account pin) := by
    rw [renewHash]
    split_ifs
    · exact Quiet.receive.bind fun salt _ => Quiet.bind quiet_updateUser fun _ _ =>
        Quiet.pure trivial
    · exact Quiet.pure trivial
  refine Quiet.bind (quiet_getStatus hid) fun status _ =>
    (Quiet.require (hlocked status)).bind fun _ _ => ?_
  split_ifs
  · exact hrenew.bind fun _ _ => quiet_recordSuccess hid
  · refine Quiet.bind (quiet_recordFailure config hid) fun failure _ => ?_
    split_ifs
    · exact Quiet.throw (hlocked _)
    · refine Quiet.throw ?_
      simp [NotWrong, wrongFor, pinInvalid, Refusal.of, hid]

end Others

/-- A call of `verifyPin`. -/
structure Attempt where
  phoneNumber : String
  pin : String
  accountType : Option AccountType
  ctx : RefreshTokenContext
  riskDecision : Option AdaptiveRiskDecision
  deriving DecidableEq, Repr

def program (attempt : Attempt) : Login PinAnswer :=
  verifyPin config attempt.phoneNumber attempt.pin attempt.accountType attempt.ctx
    attempt.riskDecision

/-- The PIN is the one of the account. -/
def Opens (userId : ℕ) (pin : String) (users : List User) : Prop :=
  ∃ account ∈ users, account.id = userId ∧
    (verifyPinHash config.hashes pin account.pinHash).valid = true

instance (pin : String) (users : List User) : Decidable (Opens config userId pin users) :=
  inferInstanceAs (Decidable (∃ account ∈ users, _ ∧ _))

variable {config}

theorem Moves.mono {right right' : Prop} {l : Lockout} {row : Option PinAttempt}
    {e : Option LoginError} (hright : right → right') (h : Moves config userId right l row e) :
    Moves config userId right' l row e := by
  cases h with
  | stays same other => exact .stays same other
  | resets opens cleared other => exact .resets (hright opens) cleared other
  | counts found counted => exact .counts found counted
  | locks found lockedNow => exact .locks found lockedNow

variable (config)

theorem mustEnd_afterAccount {s : Store} {account : User} {normalized : String}
    {requested : AccountType} {attempt : Attempt} (hmem : account ∈ s.person.users.rows) :
    MustEnd (fun r _ t => Moves config userId (Opens config userId attempt.pin s.person.users.rows)
      (lockoutOf config (s.pinAttempts.find? userId)) (t.pinAttempts.find? userId) (thrown r))
      (checkPin config account attempt.pin >>= fun _ =>
        loginSelected account normalized requested attempt.ctx attempt.riskDecision) .idle s := by
  have hselected : Quiet userId (fun _ => True)
      (loginSelected account normalized requested attempt.ctx attempt.riskDecision) :=
    quiet_loginSelected
  by_cases hid : account.id = userId
  · refine mustEnd_then (mustEnd_checkOwn config hid rfl)
      (fun _ ses t ht => ?_) fun e ses t ht => ?_
    · obtain ⟨row, ⟨rfl, rfl⟩, hmoves⟩ := ht
      refine (hselected.mustEnd t).mono fun r ses u hu => ?_
      obtain ⟨hrow, hthrown⟩ := hu
      rw [hrow]
      exact (hmoves.mono fun hvalid => ⟨account, hmem, hid, hvalid⟩).andThen hthrown
    · obtain ⟨row, ⟨-, rfl⟩, hmoves⟩ := ht
      exact hmoves.mono fun hvalid => ⟨account, hmem, hid, hvalid⟩
  · have hquiet : Quiet userId (fun _ => True) (checkPin config account attempt.pin >>= fun _ =>
        loginSelected account normalized requested attempt.ctx attempt.riskDecision) :=
      Quiet.bind (quiet_checkOther config hid) fun _ _ => hselected
    refine (hquiet.mustEnd s).mono fun r ses t ht => ?_
    exact .stays (.inl (by rw [ht.1])) ht.2

/-- What one login does to the counter of an account. -/
theorem mustEnd_program (attempt : Attempt) (s : Store) :
    MustEnd (fun r _ t => Moves config userId (Opens config userId attempt.pin s.person.users.rows)
      (lockoutOf config (s.pinAttempts.find? userId)) (t.pinAttempts.find? userId) (thrown r))
      (program config attempt) .idle s := by
  have hstays : ∀ {e : LoginError}, NotWrong userId e →
      Moves config userId (Opens config userId attempt.pin s.person.users.rows)
        (lockoutOf config (s.pinAttempts.find? userId)) (s.pinAttempts.find? userId)
        (thrown (.error e : Except LoginError PinAnswer)) := fun he =>
    .stays (.inl rfl) fun x hx => by rwa [← Option.mem_some.mp hx]
  unfold program verifyPin
  refine mustEnd_then (Q := fun r ses t => ses = .idle ∧ t = s ∧
    ∀ e ∈ thrown r, NotWrong userId e) ?_ (fun normalized ses t ht => ?_) fun e ses t ht => ?_
  · rw [normalizedPhone]
    cases normalizedOrThrow attempt.phoneNumber with
    | ok n => exact ⟨rfl, rfl, by simp [thrown]⟩
    | error e => exact ⟨rfl, rfl, fun x hx => by rw [← Option.mem_some.mp hx]; rfl⟩
  · obtain ⟨rfl, rfl, -⟩ := ht
    have hplain : Plain (some : Store → Option Store) (findAccount attempt.phoneNumber normalized
        (attempt.accountType.getD .consumer)) := by
      refine Plain.findOne.bind fun found => ?_
      split_ifs
      · exact Plain.findOne
      · trivial
    have hthrows : Throws (NotWrong userId) (findAccount attempt.phoneNumber normalized
        (attempt.accountType.getD .consumer)) := by
      refine (Throws.findOne notWrong_database).bind fun found => ?_
      split_ifs
      · exact Throws.findOne notWrong_database
      · exact Throws.pure
    refine mustEnd_then (((mustEnd_of_plain hplain rfl).and (mustEnd_of_throws hthrows)).and
      (mustEnd_findAccount _ _ _)) (fun found ses u hu => ?_) fun e ses u hu => ?_
    · obtain ⟨⟨⟨rfl, hsame⟩, -⟩, hvalue⟩ := hu
      obtain rfl := Option.some.inj hsame
      obtain ⟨-, -, hchecked⟩ := hvalue found rfl
      cases found with
      | none => exact hstays rfl
      | some account =>
        refine mustEnd_afterAccount config ?_
        obtain hstored | ⟨-, -, hstored⟩ := hchecked account rfl
        · exact (List.mem_filter.mp hstored).1
        · exact (List.mem_filter.mp hstored).1
    · obtain ⟨⟨⟨rfl, hsame⟩, hthrown⟩, -⟩ := hu
      obtain rfl := Option.some.inj hsame
      exact hstays (hthrown e rfl)
  · obtain ⟨rfl, rfl, hthrown⟩ := ht
    exact hstays (hthrown e rfl)

abbrev Entry := Turn Attempt Store × Except LoginError PinAnswer

variable (userId)

def rowBefore (entry : Entry) : Option PinAttempt := entry.1.before.pinAttempts.find? userId

def rowAfter (entry : Entry) : Option PinAttempt := entry.1.after.pinAttempts.find? userId

/-- The time at which a wrong PIN of the account was counted. -/
def wrongAt (row : Option PinAttempt) (e : Option LoginError) : List ℤ :=
  if e.any (wrongFor userId) = true then (row.map (·.updatedAt)).toList else []

def wrongTimes (log : List Entry) : List ℤ :=
  log.flatMap fun entry => wrongAt userId (rowAfter userId entry) (thrown entry.2)

theorem wrongTimes_append (log log' : List Entry) :
    wrongTimes userId (log ++ log') = wrongTimes userId log ++ wrongTimes userId log' :=
  List.flatMap_append

theorem wrongTimes_single (entry : Entry) :
    wrongTimes userId [entry] = wrongAt userId (rowAfter userId entry) (thrown entry.2) :=
  List.flatMap_singleton ..

/-- The wrong PINs of the account since its count began. -/
def countedAfter (counted : List ℤ) (row : Option PinAttempt) (e : Option LoginError) : List ℤ :=
  if (lockoutOf config row).window = none then [] else counted ++ wrongAt userId row e

def counted (log : List Entry) : List ℤ :=
  log.foldl (fun earlier entry =>
    countedAfter config userId earlier (rowAfter userId entry) (thrown entry.2)) []

theorem counted_snoc (log : List Entry) (entry : Entry) :
    counted config userId (log ++ [entry]) = countedAfter config userId (counted config userId log)
      (rowAfter userId entry) (thrown entry.2) := by
  rw [counted, List.foldl_append]
  rfl

theorem counted_subset (log : List Entry) :
    counted config userId log ⊆ wrongTimes userId log := by
  induction log using List.reverseRecOn with
  | nil => exact List.Subset.refl _
  | append_singleton log entry ih =>
    rw [counted_snoc, countedAfter, wrongTimes_append, wrongTimes_single]
    split_ifs
    · exact List.nil_subset _
    · exact List.append_subset.mpr ⟨fun time htime => List.mem_append_left _ (ih htime),
        List.subset_append_right _ _⟩

/-- The counter is a fixed window of the wrong PINs since the count began. -/
structure Tracked (times : List ℤ) (l : Lockout) : Prop where
  sound : l.Sound
  events : ∃ events now, events.map Counted.time = times ∧
    Tracks (config.maxAttempts - 1) (width config) now events l.window

theorem tracks_retime {limit : ℕ} {wide earlier now : ℤ} {events : List Counted}
    {win : Option Window} (h : Tracks limit wide earlier events win)
    (hbefore : ∀ c ∈ events, c.time ≤ now) : Tracks limit wide now events win := by
  cases win with
  | none => exact h
  | some w => exact ⟨h.1, h.2.1, h.2.2.1, fun c hc => ⟨(h.2.2.2 c hc).1, hbefore c hc⟩⟩

section Steps

variable {config userId} {right : Prop} {l : Lockout} {row : Option PinAttempt}
  {e : Option LoginError} {times : List ℤ}

theorem wrongAt_of_other (other : ∀ x ∈ e, wrongFor userId x = false) :
    wrongAt userId row e = [] := by
  cases e with
  | none => rfl
  | some x => simp [wrongAt, other x rfl]

theorem wrongAt_pinInvalid {attempt : PinAttempt} {remaining : ℕ} :
    wrongAt userId (some attempt) (some (pinInvalid userId remaining)) = [attempt.updatedAt] := by
  simp [wrongAt, wrongFor, pinInvalid, Refusal.of]

theorem Tracked.times_of_none (h : Tracked config times l) (hnone : l.window = none) :
    times = [] := by
  obtain ⟨events, now, rfl, htracks⟩ := h.events
  rw [hnone] at htracks
  have hnil : events = [] := htracks
  rw [hnil, List.map_nil]

theorem tracked_of_none (hsound : l.Sound) (hnone : l.window = none) : Tracked config [] l := by
  refine ⟨hsound, [], 0, rfl, ?_⟩
  rw [hnone]
  rfl

/-- A login that neither counts, resets nor locks. -/
theorem Tracked.of_same (h : Tracked config times l)
    (same : lockoutOf config row = l ∨ lockoutOf config row = l.reopened) :
    (lockoutOf config row).window = l.window ∧ (lockoutOf config row).Sound := by
  obtain hrow | hrow := same
  · rw [hrow]
    exact ⟨rfl, h.sound⟩
  · rw [hrow]
    exact ⟨h.sound.window_reopened, Lockout.sound_of_open Lockout.lockedUntil_reopened⟩

/-- Every login keeps the counter a fixed window, if the clock does not go back. -/
theorem Tracked.step (h : Tracked config times l) (hmoves : Moves config userId right l row e)
    (hclock : ∀ time ∈ wrongAt userId row e, ∀ earlier ∈ times, earlier ≤ time) :
    Tracked config (countedAfter config userId times row e) (lockoutOf config row) := by
  by_cases hnone : (lockoutOf config row).window = none
  · rw [countedAfter, if_pos hnone]
    refine tracked_of_none ?_ hnone
    exact fun _ => hnone
  · rw [countedAfter, if_neg hnone]
    cases hmoves with
    | stays same other =>
      obtain ⟨hwindow, hsound⟩ := h.of_same same
      rw [wrongAt_of_other other, List.append_nil]
      refine ⟨hsound, ?_⟩
      rw [hwindow]
      exact h.events
    | resets opens cleared other =>
      rw [cleared] at hnone
      exact absurd rfl hnone
    | locks found lockedNow =>
      rw [lockedNow] at hnone
      exact absurd rfl hnone
    | @counts attempt remaining found counted =>
      subst found
      obtain ⟨hroom, w, hbump, hafter⟩ := counted
      obtain ⟨events, now, htimes, htracks⟩ := h.events
      rw [h.sound.window_reopened] at hbump
      have hbefore : ∀ c ∈ events, c.time ≤ attempt.updatedAt := fun c hc =>
        hclock _ (by rw [wrongAt_pinInvalid]; exact List.mem_singleton_self _) _
          (htimes ▸ List.mem_map_of_mem hc)
      have hwidth : 0 < width config := by
        rw [width]
        omega
      obtain ⟨c, hc, hnext⟩ := (tracks_retime htracks hbefore).bump hroom hwidth le_rfl hbump
      rw [wrongAt_pinInvalid, hafter]
      refine ⟨Lockout.sound_of_open Lockout.lockedUntil_reopened, events ++ [c],
        attempt.updatedAt, ?_, hnext⟩
      rw [List.map_append, htimes, List.map_singleton, hc]

/-- Without the right PIN and without a lockout every wrong PIN adds to the count. -/
theorem Tracked.guess (h : Tracked config times l) (hmoves : Moves config userId right l row e)
    (hright : ¬right) (hlock : e.any (lockedFor userId) = false) :
    countedAfter config userId times row e = times ++ wrongAt userId row e := by
  cases hmoves with
  | stays same other =>
    obtain ⟨hwindow, -⟩ := h.of_same same
    rw [countedAfter, hwindow]
    split_ifs with hnone
    · rw [wrongAt_of_other other, h.times_of_none hnone, List.append_nil]
    · rfl
  | resets opens cleared other => exact absurd opens hright
  | locks found lockedNow => simp [lockedFor, lockedOut, Refusal.of] at hlock
  | counts found counted =>
    obtain ⟨-, w, -, hafter⟩ := counted
    rw [countedAfter, if_neg (by rw [hafter]; simp)]

/-- Without the right PIN the level stays or goes up by one. -/
theorem Moves.level (hmoves : Moves config userId right l row e) (hright : ¬right) :
    (lockoutOf config row).level = l.level ∨ (lockoutOf config row).level = l.level + 1 := by
  cases hmoves with
  | stays same other =>
    obtain hrow | hrow := same
    · exact .inl (by rw [hrow])
    · exact .inl (by rw [hrow, Lockout.level_reopened])
  | resets opens cleared other => exact absurd opens hright
  | counts found counted =>
    obtain ⟨-, w, -, hafter⟩ := counted
    exact .inl (by rw [hafter]; exact Lockout.level_reopened)
  | locks found lockedNow =>
    refine .inr ?_
    rw [lockedNow]
    exact congrArg (· + 1) Lockout.level_reopened

/-- The level goes up with a lockout only. -/
theorem Moves.lockout (hmoves : Moves config userId right l row e)
    (hup : l.level < (lockoutOf config row).level) :
    (lockoutOf config row).level = l.level + 1 ∧ ∃ attempt, row = some attempt ∧
      attempt.lockoutUntil =
        some (attempt.updatedAt + lockoutSeconds config (l.level + 1) * 1000) := by
  cases hmoves with
  | stays same other =>
    obtain hrow | hrow := same
    · rw [hrow] at hup
      exact absurd hup (lt_irrefl _)
    · rw [hrow, Lockout.level_reopened] at hup
      exact absurd hup (lt_irrefl _)
  | resets opens cleared other =>
    rw [cleared] at hup
    exact absurd hup (Nat.not_lt_zero _)
  | counts found counted =>
    obtain ⟨-, w, -, hafter⟩ := counted
    rw [hafter] at hup
    exact absurd hup (by simp)
  | @locks attempt status found lockedNow =>
    subst found
    have huntil : attempt.lockoutUntil = (locked config attempt.updatedAt l.reopened).lockedUntil :=
      congrArg Lockout.lockedUntil lockedNow
    refine ⟨?_, attempt, rfl, ?_⟩
    · rw [lockedNow]
      exact congrArg (· + 1) Lockout.level_reopened
    · rw [huntil, locked, Lockout.level_reopened]

end Steps

section Logs

variable {config userId} {s t : Store} {log : List Entry} {entry : Entry}

variable (userId) in
/-- The last login of a log, and the log before it. -/
theorem log_last (h : Log (program config) s (log ++ [entry]) t) :
    Log (program config) s log entry.1.before ∧ entry.1.after = t ∧
      Moves config userId (Opens config userId entry.1.call.pin entry.1.before.person.users.rows)
        (lockoutOf config (rowBefore userId entry)) (rowAfter userId entry) (thrown entry.2) := by
  generalize hl : log ++ [entry] = l at h
  cases h with
  | nil => simp at hl
  | @snoc log' u call sys thread r before run ended result =>
    obtain ⟨rfl, hentry⟩ := List.append_inj' hl rfl
    obtain rfl := List.singleton_inj.mp hentry
    obtain ⟨ses, hmoves⟩ := result_of_run (mustEnd_program config call u) run ended result
    exact ⟨before, rfl, hmoves⟩

/-- Every part from the start is a log. -/
theorem log_prefix {log' : List Entry} (h : Log (program config) s (log ++ log') t) :
    ∃ u, Log (program config) s log u := by
  induction log' using List.reverseRecOn generalizing t with
  | nil => exact ⟨t, by rwa [List.append_nil] at h⟩
  | append_singleton log' entry ih =>
    rw [← List.append_assoc] at h
    exact ih (log_last 0 h).1

theorem tracked_of_log (h : Log (program config) s log t)
    (hnew : s.pinAttempts.find? userId = none)
    (hclock : (wrongTimes userId log).Pairwise (· ≤ ·)) :
    Tracked config (counted config userId log) (lockoutOf config (t.pinAttempts.find? userId)) := by
  induction log using List.reverseRecOn generalizing t with
  | nil =>
    obtain rfl : t = s := by
      generalize hl : ([] : List Entry) = l at h
      cases h with
      | nil => rfl
      | snoc => simp at hl
    rw [hnew]
    exact tracked_of_none (Lockout.sound_of_open rfl) rfl
  | append_singleton log entry ih =>
    obtain ⟨hbefore, rfl, hmoves⟩ := log_last userId h
    rw [wrongTimes_append, wrongTimes_single, List.pairwise_append] at hclock
    obtain ⟨hearlier, -, hlater⟩ := hclock
    rw [counted_snoc]
    exact (ih hbefore hearlier).step hmoves fun time htime earlier hmem =>
      hlater earlier (counted_subset config userId log hmem) time htime

end Logs

/-- A login without the right PIN of the account that is not answered by a lockout of it. -/
def Guess (entry : Entry) : Prop :=
  ¬Opens config userId entry.1.call.pin entry.1.before.person.users.rows ∧
    (thrown entry.2).any (lockedFor userId) = false

instance (entry : Entry) : Decidable (Guess config userId entry) :=
  inferInstanceAs (Decidable (¬_ ∧ _))

variable {config userId} in
theorem counted_stretch {s t : Store} {pre mid : List Entry}
    (h : Log (program config) s (pre ++ mid) t) (hnew : s.pinAttempts.find? userId = none)
    (hclock : (wrongTimes userId (pre ++ mid)).Pairwise (· ≤ ·))
    (hmid : ∀ entry ∈ mid, Guess config userId entry) :
    counted config userId (pre ++ mid) = counted config userId pre ++ wrongTimes userId mid := by
  induction mid using List.reverseRecOn generalizing t with
  | nil => rw [List.append_nil, wrongTimes, List.flatMap_nil, List.append_nil]
  | append_singleton mid entry ih =>
    rw [← List.append_assoc] at h hclock ⊢
    obtain ⟨hbefore, rfl, hmoves⟩ := log_last userId h
    obtain ⟨hright, hlock⟩ := hmid entry (List.mem_append_right _ (List.mem_singleton_self _))
    rw [wrongTimes_append, List.pairwise_append] at hclock
    have htracked := tracked_of_log hbefore hnew hclock.1
    have hstretch := ih hbefore hclock.1 fun entry hentry =>
      hmid entry (List.mem_append_left _ hentry)
    rw [counted_snoc, htracked.guess hmoves hright hlock, hstretch, wrongTimes_append,
      wrongTimes_single, List.append_assoc]

/-- The wrong PINs of an account in one interval of the length of a window, while the right PIN is
not given and the account is not locked: twice as many as one window holds, at most. -/
theorem wrong_pins_bounded {s t : Store} (pre mid : List Entry)
    (hlog : Log (program config) s (pre ++ mid) t)
    (hnew : s.pinAttempts.find? userId = none)
    (hclock : (wrongTimes userId (pre ++ mid)).Pairwise (· ≤ ·))
    (hmid : ∀ entry ∈ mid, Guess config userId entry) (start : ℤ) :
    ((wrongTimes userId mid).filter fun time => start ≤ time ∧
      time ≤ start + config.attemptWindowMinutes * 60 * 1000).length ≤
        2 * (config.maxAttempts - 1) := by
  obtain ⟨events, now, htimes, htracks⟩ := (tracked_of_log hlog hnew hclock).events
  rw [counted_stretch hlog hnew hclock hmid] at htimes
  have hsublist : (wrongTimes userId mid).Sublist (events.map Counted.time) := by
    rw [htimes]
    exact List.sublist_append_right _ _
  have hinside : (events.filter ((fun time => decide (start ≤ time ∧
      time ≤ start + config.attemptWindowMinutes * 60 * 1000)) ∘ Counted.time)).length ≤
        (inInterval start (width config) events).length := by
    refine (List.monotone_filter_right events fun c hc => ?_).length_le
    simp only [Function.comp_apply, decide_eq_true_eq] at hc ⊢
    rw [width]
    omega
  calc _ ≤ ((events.map Counted.time).filter fun time => decide (start ≤ time ∧
        time ≤ start + config.attemptWindowMinutes * 60 * 1000)).length :=
        (hsublist.filter _).length_le
    _ ≤ (inInterval start (width config) events).length := by
        rw [List.filter_map, List.length_map]
        exact hinside
    _ ≤ 2 * (config.maxAttempts - 1) := htracks.windows.length_inInterval_le start

/-- The lockouts of the account since its last right PIN. -/
def levelOf (row : Option PinAttempt) : ℕ := (lockoutOf config row).level

/-- The login has locked the account. -/
def Locks (entry : Entry) : Prop :=
  levelOf config (rowBefore userId entry) < levelOf config (rowAfter userId entry)

instance (entry : Entry) : Decidable (Locks config userId entry) :=
  inferInstanceAs (Decidable (_ < _))

/-- The login has locked the account for so many seconds. -/
def LockedFor (entry : Entry) (seconds : ℕ) : Prop :=
  ∃ attempt, rowAfter userId entry = some attempt ∧
    attempt.lockoutUntil = some (attempt.updatedAt + seconds * 1000)

theorem lockoutSeconds_add {level : ℕ} (hlevel : 0 < level) (more : ℕ) :
    lockoutSeconds config (level + more) =
      min (2 ^ more * lockoutSeconds config level) config.maxLockoutSeconds := by
  have hpow : 2 ^ (level + more - 1) = 2 ^ more * 2 ^ (level - 1) := by
    rw [← pow_add]
    congr 1
    omega
  have hcap : config.maxLockoutSeconds ≤ 2 ^ more * config.maxLockoutSeconds :=
    Nat.le_mul_of_pos_left _ (Nat.two_pow_pos more)
  rw [lockoutSeconds, lockoutSeconds, ← Nat.mul_min_mul_left, min_assoc, min_eq_right hcap, hpow]
  congr 1
  exact Nat.mul_left_comm _ _ _

variable {config userId} in
/-- While the right PIN is not given, the level counts the lockouts. -/
theorem level_stretch {s t : Store} {pre mid : List Entry} {first : Entry}
    (h : Log (program config) s (pre ++ first :: mid) t)
    (hright : ∀ entry ∈ mid,
      ¬Opens config userId entry.1.call.pin entry.1.before.person.users.rows) :
    levelOf config (t.pinAttempts.find? userId) = levelOf config (rowAfter userId first) +
      (mid.filter fun entry => Locks config userId entry).length := by
  induction mid using List.reverseRecOn generalizing t with
  | nil =>
    obtain ⟨-, rfl, -⟩ := log_last userId h
    rfl
  | append_singleton mid entry ih =>
    have hsplit : pre ++ first :: (mid ++ [entry]) = (pre ++ first :: mid) ++ [entry] := by simp
    rw [hsplit] at h
    obtain ⟨hbefore, rfl, hmoves⟩ := log_last userId h
    have hlevel : levelOf config (rowBefore userId entry) = _ :=
      ih hbefore fun entry hentry => hright entry (List.mem_append_left _ hentry)
    have hentry := hright entry (List.mem_append_right _ (List.mem_singleton_self _))
    have hstep : levelOf config (rowAfter userId entry) = levelOf config (rowBefore userId entry) ∨
        levelOf config (rowAfter userId entry) = levelOf config (rowBefore userId entry) + 1 :=
      hmoves.level hentry
    rw [List.filter_append, List.length_append]
    by_cases hlocks : Locks config userId entry
    · have hup : levelOf config (rowBefore userId entry) < levelOf config (rowAfter userId entry) :=
        hlocks
      rw [List.filter_singleton, decide_eq_true hlocks]
      show levelOf config (rowAfter userId entry) = _ + (_ + 1)
      omega
    · have hsame : ¬levelOf config (rowBefore userId entry) <
          levelOf config (rowAfter userId entry) := hlocks
      rw [List.filter_singleton, decide_eq_false hlocks]
      show levelOf config (rowAfter userId entry) = _ + (_ + 0)
      omega

/-- A lockout lasts twice as long as the one before it, up to the longest; with more lockouts in
between, twice as long for each. -/
theorem lockouts_double {s t : Store} (pre mid : List Entry) (first last : Entry)
    (hlog : Log (program config) s (pre ++ first :: (mid ++ [last])) t)
    (hfirst : Locks config userId first) (hlast : Locks config userId last)
    (hright : ∀ entry ∈ mid,
      ¬Opens config userId entry.1.call.pin entry.1.before.person.users.rows) :
    ∃ seconds ≤ config.maxLockoutSeconds, LockedFor userId first seconds ∧
      LockedFor userId last (min (2 ^ ((mid.filter fun entry =>
        Locks config userId entry).length + 1) * seconds) config.maxLockoutSeconds) := by
  have hsplit : pre ++ first :: (mid ++ [last]) = (pre ++ first :: mid) ++ [last] := by simp
  have hstart : pre ++ first :: mid = (pre ++ [first]) ++ mid := by simp
  rw [hsplit] at hlog
  obtain ⟨hbefore, -, hmoves⟩ := log_last userId hlog
  have hlevel : levelOf config (rowBefore userId last) = _ := level_stretch hbefore hright
  rw [hstart] at hbefore
  obtain ⟨u, hpre⟩ := log_prefix hbefore
  obtain ⟨-, -, hmoves'⟩ := log_last userId hpre
  obtain ⟨hup, attempt, hrow, huntil⟩ := hmoves'.lockout hfirst
  obtain ⟨-, attempt', hrow', huntil'⟩ := hmoves.lockout hlast
  refine ⟨lockoutSeconds config (levelOf config (rowAfter userId first)), min_le_right _ _,
    ⟨attempt, hrow, ?_⟩, attempt', hrow', ?_⟩
  · rw [huntil, levelOf, hup]
  · rw [huntil', ← lockoutSeconds_add config (by rw [levelOf, hup]; omega), ← add_assoc, ← hlevel]
    rfl

/-- One consumer account. -/
def sampleStore : Store := storeWith (.ofRows [storedAs 1 "+212612345678" "1111"]) 1

def wrongPin : Attempt := ⟨"+212612345678", "9999", some .consumer, sampleContext, none⟩

/-- What the login leaves whose answers from outside are the numbers from `start` on. -/
def loggedIn (config : PinConfig) (s : Store) (start n : ℕ) :
    System Attempt Store Key Write LoginError PinAnswer :=
  after (solo wrongPin s (program config wrongPin)) (System.turns 0 start n)

section Samples

variable {config}

theorem log_wrong {s t : Store} {log : List Entry} (before : Log (program config) s log t)
    (start n : ℕ) (e : LoginError)
    (hexec : (System.exec (fun _ _ => True) (solo wrongPin t (program config wrongPin))
      (System.turns 0 start n)).isSome = true)
    (hthrown : ((loggedIn config t start n).threads.map fun thread => outcome thread.program) =
      [some (.error e)]) :
    Log (program config) s (log ++ [(⟨wrongPin, t, (loggedIn config t start n).store⟩, .error e)])
      (loggedIn config t start n).store := by
  have hmem : some (.error e) ∈ (loggedIn config t start n).threads.map fun thread =>
      outcome thread.program := by
    rw [hthrown]
    exact List.mem_singleton_self _
  obtain ⟨thread, hthread, hresult⟩ := List.mem_map.mp hmem
  exact before.snoc (run_after hexec) hthread hresult

end Samples

/-- Two wrong PINs in one window. -/
theorem wrong_pins_bounded_twice : ∃ log t, Log (program sampleConfig) sampleStore log t ∧
    (wrongTimes 1 log).length = 2 ∧
    ((wrongTimes 1 log).filter fun time => 0 ≤ time ∧ time ≤ 0 + 15 * 60 * 1000).length ≤ 8 := by
  have hfirst := log_wrong (.nil : Log (program sampleConfig) sampleStore [] sampleStore) 0 11
    (pinInvalid 1 4) (by decide +kernel) (by decide +kernel)
  have hsecond := log_wrong hfirst 100 8 (pinInvalid 1 3) (by decide +kernel) (by decide +kernel)
  refine ⟨_, _, hsecond, by decide +kernel, ?_⟩
  exact wrong_pins_bounded sampleConfig 1 [] _ hsecond rfl (by decide +kernel) (by decide +kernel) 0

/-- The second wrong PIN locks the account for twice as long as the first one. -/
theorem lockouts_double_twice : ∃ log t,
    Log (program { sampleConfig with maxAttempts := 1 }) sampleStore log t ∧ ∃ first ∈ log,
      ∃ last ∈ log, ∃ seconds ≤ 3600, LockedFor 1 first seconds ∧
        LockedFor 1 last (min (2 * seconds) 3600) := by
  have hfirst := log_wrong (.nil : Log (program { sampleConfig with maxAttempts := 1 })
    sampleStore [] sampleStore) 0 11 (lockedOut 1 ⟨true, 60, some 60008⟩) (by decide +kernel)
    (by decide +kernel)
  have hlast := log_wrong hfirst 100000 10 (lockedOut 1 ⟨true, 120, some 220007⟩)
    (by decide +kernel) (by decide +kernel)
  refine ⟨_, _, hlast, _, List.mem_cons_self, _, List.mem_cons_of_mem _ List.mem_cons_self, ?_⟩
  exact lockouts_double { sampleConfig with maxAttempts := 1 } 1 [] [] _ _ hlast
    (by decide +kernel) (by decide +kernel) (fun _ h => absurd h List.not_mem_nil)

end NexaStays.PinGuesses
