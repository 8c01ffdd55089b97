import Mathlib.Data.List.Basic
import Mathlib.Data.List.Nodup

/-!
# Database programs under read committed isolation

A `Program` is a tree of database statements; its continuations receive what a
statement returns. Any number of programs run against one committed store. A
statement sees the committed store together with the writes of its own open
transaction; a write outside a transaction is published at once, the writes of a
transaction are published together when it commits. `SELECT … FOR UPDATE` and
every write take row locks, held to the end of the transaction; nothing else
serialises two programs. Every statement may fail instead, and a caller may die
between any two statements.
-/
namespace NexaStays.Transactions

/-- A store that is changed one row at a time, each row under a key. -/
class Storage (σ : Type) (κ ω : outParam Type) where
  write : σ → ω → σ
  keyOf : ω → κ
  present : σ → κ → Bool

section Store

variable {σ κ ω : Type} [Storage σ κ ω]

/-- The store after a list of row writes, first to last. -/
def publish (s : σ) (ws : List ω) : σ := ws.foldl Storage.write s

@[simp] theorem publish_nil (s : σ) : publish s ([] : List ω) = s := rfl

@[simp] theorem publish_cons (s : σ) (w : ω) (ws : List ω) :
    publish s (w :: ws) = publish (Storage.write s w) ws := rfl

theorem publish_append (s : σ) (us ws : List ω) :
    publish s (us ++ ws) = publish (publish s us) ws := List.foldl_append

end Store

/-- Database statements with their continuations. `choose` is an answer from
outside the store (a clock, a remote service); `emit` records at once, transaction or
not, what is exchanged with the outside world; the last argument of a statement is
what runs when the statement fails. -/
inductive Program (σ κ ω ε α : Type) where
  | pure (a : α)
  | throw (e : ε)
  | halt
  | select (k : σ → Program σ κ ω ε α) (err : Program σ κ ω ε α)
  | lock (key : κ) (k : σ → Program σ κ ω ε α) (err : Program σ κ ω ε α)
  | update (ws : σ → List ω) (k : σ → Program σ κ ω ε α) (err : Program σ κ ω ε α)
  | insert (row : ℕ → ω) (k : ℕ → Program σ κ ω ε α) (err : Program σ κ ω ε α)
  | choose (k : ℕ → Program σ κ ω ε α)
  | emit (ws : σ → List ω) (k : σ → Program σ κ ω ε α)
  | start (k : Program σ κ ω ε α)
  | commit (k : Program σ κ ω ε α) (err : Program σ κ ω ε α)
  | rollback (k : Program σ κ ω ε α)

namespace Program

variable {σ κ ω ε α β : Type}

/-- Continue a program with `f` where it returns and with `g` where it throws. -/
def handle (f : α → Program σ κ ω ε β) (g : ε → Program σ κ ω ε β) :
    Program σ κ ω ε α → Program σ κ ω ε β
  | .pure a => f a
  | .throw e => g e
  | .halt => .halt
  | .select k err => .select (fun s => (k s).handle f g) (err.handle f g)
  | .lock key k err => .lock key (fun s => (k s).handle f g) (err.handle f g)
  | .update ws k err => .update ws (fun s => (k s).handle f g) (err.handle f g)
  | .insert row k err => .insert row (fun n => (k n).handle f g) (err.handle f g)
  | .choose k => .choose fun n => (k n).handle f g
  | .emit ws k => .emit ws fun s => (k s).handle f g
  | .start k => .start (k.handle f g)
  | .commit k err => .commit (k.handle f g) (err.handle f g)
  | .rollback k => .rollback (k.handle f g)

instance : Monad (Program σ κ ω ε) where
  pure := Program.pure
  bind p f := p.handle f .throw

/-- A read; `e` is what a failing statement throws. -/
def query (e : ε) (f : σ → α) : Program σ κ ω ε α := .select (fun s => .pure (f s)) (.throw e)

/-- `SELECT … FOR UPDATE` of one row, with what is read under the lock. -/
def lockRow (e : ε) (key : κ) (f : σ → α) : Program σ κ ω ε α :=
  .lock key (fun s => .pure (f s)) (.throw e)

/-- One writing statement, which returns the rows it wrote. -/
def writeRows (e : ε) (ws : σ → List ω) : Program σ κ ω ε (List ω) :=
  .update ws (fun s => .pure (ws s)) (.throw e)

/-- The insertion of one row under a fresh number. -/
def insertRow (e : ε) (row : ℕ → ω) : Program σ κ ω ε ℕ := .insert row .pure (.throw e)

/-- An answer from outside the store. -/
def receive : Program σ κ ω ε ℕ := .choose .pure

/-- A message to or from the outside world, with what is told of it. -/
def send (ws : σ → List ω) (f : σ → α) : Program σ κ ω ε α := .emit ws fun s => .pure (f s)

/-- One of the rows a query without an order matches; the answer says which. -/
def pick (n : ℕ) (rows : List α) : Option α := rows[n % rows.length]?

/-- `findOne`: some row of those a query matches, if it matches any. -/
def findOne (e : ε) (f : σ → List α) : Program σ κ ω ε (Option α) :=
  .choose fun n => query e fun s => pick n (f s)

theorem mem_of_pick {n : ℕ} {rows : List α} {a : α} (h : pick n rows = some a) : a ∈ rows :=
  List.mem_of_getElem? h

theorem pick_eq_none {n : ℕ} {rows : List α} (h : pick n rows = none) : rows = [] := by
  have hlen : rows.length ≤ n % rows.length := by simpa [pick] using h
  by_contra hne
  have hpos : 0 < rows.length := List.length_pos_of_ne_nil hne
  exact absurd (Nat.mod_lt n hpos) (by omega)

theorem pick_map {β : Type} (n : ℕ) (rows : List α) (f : α → β) :
    pick n (rows.map f) = (pick n rows).map f := by
  rw [pick, pick, List.length_map, List.getElem?_map]

/-- Of the rows with one value of a unique column there is no choice. -/
theorem pick_filter {β : Type} [DecidableEq β] {rows : List α} {f : α → β}
    (hunique : (rows.map f).Nodup) (n : ℕ) (b : β) :
    pick n (rows.filter fun r => f r = b) = rows.find? fun r => f r = b := by
  cases hpick : pick n (rows.filter fun r => f r = b) with
  | none =>
    have hnone := List.filter_eq_nil_iff.mp (pick_eq_none hpick)
    exact (List.find?_eq_none.mpr hnone).symm
  | some r =>
    obtain ⟨hr, hkey⟩ := List.mem_filter.mp (mem_of_pick hpick)
    cases hfind : rows.find? fun r => f r = b with
    | none => exact absurd hkey (List.find?_eq_none.mp hfind r hr)
    | some r' =>
      have hkey' := List.find?_some hfind
      have heq := (of_decide_eq_true hkey).trans (of_decide_eq_true hkey').symm
      rw [List.inj_on_of_nodup_map hunique hr (List.mem_of_find?_eq_some hfind) heq]

/-- Go on if `p` holds. -/
def require (p : Prop) [Decidable p] (e : ε) : Program σ κ ω ε Unit :=
  if p then .pure () else .throw e

/-- Go on with the value that is there. -/
def expect (o : Option α) (e : ε) : Program σ κ ω ε α :=
  match o with
  | some a => .pure a
  | none => .throw e

/-- Go on with the value a check returns. -/
def ofExcept : Except ε α → Program σ κ ω ε α
  | .ok a => .pure a
  | .error e => .throw e

/-- What a program returns that has nothing left to do. -/
def result : Program σ κ ω ε α → Option α
  | .pure a => some a
  | _ => none

theorem result_eq_some {p : Program σ κ ω ε α} {a : α} : p.result = some a ↔ p = .pure a := by
  cases p <;> simp [result]

/-- `try p catch h`. -/
def attempt (p : Program σ κ ω ε α) (h : ε → Program σ κ ω ε α) : Program σ κ ω ε α :=
  p.handle .pure h

/-- Run `p` in a transaction: commit what it returns, roll back what it throws. -/
def transaction (e : ε) (p : Program σ κ ω ε α) : Program σ κ ω ε α :=
  .start (p.handle (fun a => .commit (.pure a) (.throw e)) fun e => .rollback (.throw e))

/-- Run `f` on the members of a list, first to last. -/
def forEach (f : β → Program σ κ ω ε Unit) : List β → Program σ κ ω ε Unit
  | [] => .pure ()
  | x :: xs => (f x).handle (fun _ => forEach f xs) .throw

end Program

/-- The locks a caller holds and the writes of its open transaction. -/
structure Session (κ ω : Type) where
  held : List κ
  pending : List ω
  active : Bool

namespace Session

variable {σ κ ω : Type} [Storage σ κ ω]

/-- Outside any transaction. -/
def idle : Session κ ω := ⟨[], [], false⟩

/-- Inside a transaction that has not yet touched a row. -/
def opened : Session κ ω := ⟨[], [], true⟩

/-- What a statement of this session reads. -/
def view (ses : Session κ ω) (s : σ) : σ := publish s ses.pending

/-- A row lock is taken on a row that is there. -/
def acquire (ses : Session κ ω) (v : σ) (key : κ) : Session κ ω :=
  if Storage.present v key then { ses with held := key :: ses.held } else ses

/-- The session after a write, which an open transaction keeps to itself. -/
def stage (ses : Session κ ω) (ws : List ω) : Session κ ω :=
  if ses.active then
    { ses with pending := ses.pending ++ ws, held := ws.map (Storage.keyOf σ) ++ ses.held }
  else ses

/-- The part of a write that every other session sees at once. -/
def visible (ses : Session κ ω) (ws : List ω) : List ω := if ses.active then [] else ws

end Session

/-- A call, with the session it runs in and the rest of its program. -/
structure Thread (τ σ κ ω ε α : Type) where
  call : τ
  session : Session κ ω
  program : Program σ κ ω ε α

/-- The committed store and the calls that run against it. -/
structure System (τ σ κ ω ε α : Type) where
  store : σ
  threads : List (Thread τ σ κ ω ε α)

/-- What the scheduler may do next: run one statement of a call (with the number
the outside world answers or a fresh row gets), let it fail, or kill the call. -/
inductive Action where
  | run (i n : ℕ)
  | fail (i : ℕ)
  | crash (i : ℕ)
  deriving DecidableEq, Repr

section Semantics

variable {τ σ κ ω ε α : Type} [Storage σ κ ω] [DecidableEq κ]

/-- One statement: the rest of the program, its session and what is published. It
is refused while it waits for a row lock and when a fresh key is not fresh. -/
def advance (free : κ → Bool) (n : ℕ) (s : σ) (ses : Session κ ω) :
    Program σ κ ω ε α → Option (Program σ κ ω ε α × Session κ ω × List ω)
  | .pure _ | .throw _ | .halt => none
  | .select k _ => some (k (ses.view s), ses, [])
  | .lock key k _ =>
    if free key then some (k (ses.view s), ses.acquire (ses.view s) key, []) else none
  | .update ws k _ =>
    if (ws (ses.view s)).all fun w => free (Storage.keyOf σ w) then
      some (k (ses.view s), ses.stage (σ := σ) (ws (ses.view s)), ses.visible (ws (ses.view s)))
    else none
  | .insert row k _ =>
    if free (Storage.keyOf σ (row n)) && !Storage.present (ses.view s) (Storage.keyOf σ (row n))
    then some (k n, ses.stage (σ := σ) [row n], ses.visible [row n])
    else none
  | .choose k => some (k n, ses, [])
  | .emit ws k =>
    if (ws (ses.view s)).all fun w => free (Storage.keyOf σ w) then
      some (k (ses.view s), ses, ws (ses.view s))
    else none
  | .start k => some (k, .opened, [])
  | .commit k _ => some (k, .idle, ses.pending)
  | .rollback k => some (k, .idle, [])

/-- The failure of one statement; a failed commit ends the transaction. -/
def failing (ses : Session κ ω) :
    Program σ κ ω ε α → Option (Program σ κ ω ε α × Session κ ω × List ω)
  | .select _ err | .lock _ _ err | .update _ _ err | .insert _ _ err => some (err, ses, [])
  | .commit _ err => some (err, .idle, [])
  | _ => none

namespace System

/-- No call but `i` holds the key. -/
def free (sys : System τ σ κ ω ε α) (i : ℕ) (key : κ) : Bool :=
  (sys.threads.eraseIdx i).all fun t => key ∉ t.session.held

/-- The call a step belongs to. -/
def mover : Action → ℕ
  | .run i _ | .fail i | .crash i => i

/-- What a step does to the call it belongs to, and what it publishes. -/
def move (sys : System τ σ κ ω ε α) (t : Thread τ σ κ ω ε α) :
    Action → Option (Program σ κ ω ε α × Session κ ω × List ω)
  | .run i n => advance (sys.free i) n sys.store t.session t.program
  | .fail _ => failing t.session t.program
  | .crash _ => some (.halt, .idle, [])

/-- The system after a step of one call; `none` when the call cannot take it. -/
def step (sys : System τ σ κ ω ε α) (a : Action) : Option (System τ σ κ ω ε α) :=
  sys.threads[mover a]?.bind fun t =>
    (sys.move t a).map fun m =>
      ⟨publish sys.store m.2.2, sys.threads.set (mover a) ⟨t.call, m.2.1, m.1⟩⟩

/-- The call a step belongs to, with the rows that it makes visible to every other call. -/
def published (sys : System τ σ κ ω ε α) (a : Action) : Option (τ × List ω) :=
  sys.threads[mover a]?.bind fun t => (sys.move t a).map fun m => (t.call, m.2.2)

theorem published_eq_some {sys : System τ σ κ ω ε α} {a : Action} {c : τ} {ws : List ω} :
    sys.published a = some (c, ws) ↔ ∃ t p ses, sys.threads[mover a]? = some t ∧
      t.call = c ∧ sys.move t a = some (p, ses, ws) := by
  constructor
  · intro h
    obtain ⟨t, ht, hm⟩ := Option.bind_eq_some_iff.mp h
    obtain ⟨⟨p, ses, ws'⟩, hmove, heq⟩ := Option.map_eq_some_iff.mp hm
    obtain ⟨rfl, rfl⟩ := Prod.mk.inj heq
    exact ⟨t, p, ses, ht, rfl, hmove⟩
  · rintro ⟨t, p, ses, ht, rfl, hmove⟩
    simp [published, ht, hmove]

theorem step_eq_some {sys sys' : System τ σ κ ω ε α} {a : Action} :
    sys.step a = some sys' ↔ ∃ t p ses ws, sys.threads[mover a]? = some t ∧
      sys.move t a = some (p, ses, ws) ∧
      sys' = ⟨publish sys.store ws, sys.threads.set (mover a) ⟨t.call, ses, p⟩⟩ := by
  constructor
  · intro h
    obtain ⟨t, ht, hm⟩ := Option.bind_eq_some_iff.mp h
    obtain ⟨⟨p, ses, ws⟩, hmove, hsys⟩ := Option.map_eq_some_iff.mp hm
    exact ⟨t, p, ses, ws, ht, hmove, hsys.symm⟩
  · rintro ⟨t, p, ses, ws, ht, hmove, rfl⟩
    simp [step, ht, hmove]

/-- The call that takes a step. -/
def caller (sys : System τ σ κ ω ε α) (a : Action) : Option τ :=
  (sys.published a).map (·.1)

/-- The rows that a step makes visible. -/
def writes (sys : System τ σ κ ω ε α) (a : Action) : List ω :=
  (sys.published a).elim [] (·.2)

theorem caller_eq {sys : System τ σ κ ω ε α} {a : Action} {c : τ} {ws : List ω}
    (h : sys.published a = some (c, ws)) : sys.caller a = some c := by
  rw [caller, h]
  rfl

theorem writes_eq {sys : System τ σ κ ω ε α} {a : Action} {c : τ} {ws : List ω}
    (h : sys.published a = some (c, ws)) : sys.writes a = ws := by
  rw [writes, h]
  rfl

/-- The steps of a schedule, one after the other, if each meets `ok`. -/
def exec (ok : System τ σ κ ω ε α → Action → Prop) [∀ sys a, Decidable (ok sys a)]
    (sys : System τ σ κ ω ε α) : List Action → Option (System τ σ κ ω ε α)
  | [] => some sys
  | a :: as => if ok sys a then (sys.step a).bind fun sys' => exec ok sys' as else none

/-- A run whose every step meets `ok`, a condition on the state before it. -/
inductive Run (ok : System τ σ κ ω ε α → Action → Prop) :
    System τ σ κ ω ε α → System τ σ κ ω ε α → Prop where
  | refl (sys) : Run ok sys sys
  | tail {sys mid sys' : System τ σ κ ω ε α} {a : Action} (run : Run ok sys mid)
      (meets : ok mid a) (step : mid.step a = some sys') : Run ok sys sys'

variable {ok ok' : System τ σ κ ω ε α → Action → Prop} {sys mid sys' : System τ σ κ ω ε α}

theorem Run.trans (h : Run ok sys mid) (h' : Run ok mid sys') : Run ok sys sys' := by
  induction h' with
  | refl => exact h
  | tail _ meets step ih => exact .tail ih meets step

theorem Run.mono (himp : ∀ sys a, ok sys a → ok' sys a) (h : Run ok sys sys') :
    Run ok' sys sys' := by
  induction h with
  | refl => exact .refl _
  | tail _ meets step ih => exact .tail ih (himp _ _ meets) step

/-- A property kept by every step of a run holds at its end if it holds at its start. -/
theorem Run.invariant {P : System τ σ κ ω ε α → Prop}
    (hstep : ∀ sys a sys', P sys → ok sys a → sys.step a = some sys' → P sys')
    (h : Run ok sys sys') (hP : P sys) : P sys' := by
  induction h with
  | refl => exact hP
  | tail _ meets step ih => exact hstep _ _ _ ih meets step

theorem run_of_exec [∀ sys a, Decidable (ok sys a)] {as : List Action}
    (h : exec ok sys as = some sys') : Run ok sys sys' := by
  induction as generalizing sys with
  | nil =>
    obtain rfl : sys = sys' := by simpa [exec] using h
    exact .refl _
  | cons a as ih =>
    rw [exec, Option.ite_none_right_eq_some] at h
    obtain ⟨meets, h⟩ := h
    obtain ⟨mid, hstep, hrest⟩ := Option.bind_eq_some_iff.mp h
    exact Run.trans (.tail (.refl _) meets hstep) (ih hrest)

/-- A schedule that ends in a state with a property is a run to such a state. -/
theorem exists_run [∀ sys a, Decidable (ok sys a)] {as : List Action}
    {p : System τ σ κ ω ε α → Bool} (h : (exec ok sys as).any p = true) :
    ∃ sys', Run ok sys sys' ∧ p sys' = true := by
  cases hexec : exec ok sys as with
  | none => simp [hexec] at h
  | some sys' => exact ⟨sys', run_of_exec hexec, by simpa [hexec] using h⟩

/-- Steps of one call, with consecutive numbers as the answers it gets. -/
def turns (i start n : ℕ) : List Action := (List.range' start n).map (.run i)

end System

end Semantics

end NexaStays.Transactions
