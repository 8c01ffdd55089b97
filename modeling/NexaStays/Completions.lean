import NexaStays.Sequences
import NexaStays.Snapshots

/-!
# Ends of a program that runs alone, with its transactions

Two weakest preconditions of the runs of a program that is alone; the session is part of the
state, as there may be transactions. `MayEnd` is angelic: some run in which no statement fails
ends as the postcondition says. `MustEnd` is demonic: every run that ends does so, with
statements that fail anywhere.
-/
namespace NexaStays.Completions

open NexaStays.Transactions NexaStays.Phases NexaStays.Sequences NexaStays.Snapshots

variable {τ σ κ ω ε α β : Type} [Storage σ κ ω]

/-- Some run from the session and the store ends with a result that satisfies `Q`. -/
def MayEnd (Q : Except ε α → Session κ ω → σ → Prop) :
    Program σ κ ω ε α → Session κ ω → σ → Prop
  | .pure a, ses, s => Q (.ok a) ses s
  | .throw e, ses, s => Q (.error e) ses s
  | .halt, _, _ => False
  | .select k _, ses, s => MayEnd Q (k (ses.view s)) ses s
  | .lock key k _, ses, s => MayEnd Q (k (ses.view s)) (ses.acquire (ses.view s) key) s
  | .update ws k _, ses, s => MayEnd Q (k (ses.view s)) (ses.stage (σ := σ) (ws (ses.view s)))
    (publish s (ses.visible (ws (ses.view s))))
  | .insert row k _, ses, s => ∃ n,
    Storage.present (ses.view s) (Storage.keyOf σ (row n)) = false ∧
      MayEnd Q (k n) (ses.stage (σ := σ) [row n]) (publish s (ses.visible [row n]))
  | .choose k, ses, s => ∃ n, MayEnd Q (k n) ses s
  | .emit ws k, ses, s => MayEnd Q (k (ses.view s)) ses (publish s (ws (ses.view s)))
  | .start k, _, s => MayEnd Q k .opened s
  | .commit k _, ses, s => MayEnd Q k .idle (publish s ses.pending)
  | .rollback k, _, s => MayEnd Q k .idle s

/-- Every run from the session and the store that ends has a result that satisfies `Q`. -/
def MustEnd (Q : Except ε α → Session κ ω → σ → Prop) :
    Program σ κ ω ε α → Session κ ω → σ → Prop
  | .pure a, ses, s => Q (.ok a) ses s
  | .throw e, ses, s => Q (.error e) ses s
  | .halt, _, _ => True
  | .select k err, ses, s => MustEnd Q (k (ses.view s)) ses s ∧ MustEnd Q err ses s
  | .lock key k err, ses, s =>
    MustEnd Q (k (ses.view s)) (ses.acquire (ses.view s) key) s ∧ MustEnd Q err ses s
  | .update ws k err, ses, s => MustEnd Q (k (ses.view s)) (ses.stage (σ := σ) (ws (ses.view s)))
    (publish s (ses.visible (ws (ses.view s)))) ∧ MustEnd Q err ses s
  | .insert row k err, ses, s =>
    (∀ n, Storage.present (ses.view s) (Storage.keyOf σ (row n)) = false →
      MustEnd Q (k n) (ses.stage (σ := σ) [row n]) (publish s (ses.visible [row n]))) ∧
      MustEnd Q err ses s
  | .choose k, ses, s => ∀ n, MustEnd Q (k n) ses s
  | .emit ws k, ses, s => MustEnd Q (k (ses.view s)) ses (publish s (ws (ses.view s)))
  | .start k, _, s => MustEnd Q k .opened s
  | .commit k err, ses, s => MustEnd Q k .idle (publish s ses.pending) ∧ MustEnd Q err .idle s
  | .rollback k, _, s => MustEnd Q k .idle s

section Rules

variable {Q : Except ε α → Session κ ω → σ → Prop} {R : Except ε β → Session κ ω → σ → Prop}
  {ses : Session κ ω} {s : σ} {e : ε}

/-- The second program runs from where the first one ends. -/
theorem MayEnd.handle {f : α → Program σ κ ω ε β} {g : ε → Program σ κ ω ε β}
    {p : Program σ κ ω ε α} {ses : Session κ ω} {s : σ} (h : MayEnd Q p ses s)
    (hok : ∀ a ses s, Q (.ok a) ses s → MayEnd R (f a) ses s)
    (herror : ∀ e ses s, Q (.error e) ses s → MayEnd R (g e) ses s) :
    MayEnd R (p.handle f g) ses s := by
  induction p generalizing ses s with
  | pure a => exact hok a ses s h
  | throw e => exact herror e ses s h
  | halt => exact h.elim
  | select k err ihk _ | lock key k err ihk _ | update ws k err ihk _ => exact ihk _ h
  | insert row k err ihk _ =>
    obtain ⟨n, hfresh, h⟩ := h
    exact ⟨n, hfresh, ihk n h⟩
  | choose k ih =>
    obtain ⟨n, h⟩ := h
    exact ⟨n, ih n h⟩
  | emit ws k ih => exact ih _ h
  | start k ih | rollback k ih => exact ih h
  | commit k err ihk _ => exact ihk h

/-- The program returns something, which satisfies `P`. -/
def Reaches (P : α → Session κ ω → σ → Prop) (r : Except ε α) (ses : Session κ ω) (s : σ) : Prop :=
  ∃ a, r = .ok a ∧ P a ses s

theorem MayEnd.bind {k : α → Program σ κ ω ε β} {p : Program σ κ ω ε α}
    {P : α → Session κ ω → σ → Prop} (h : MayEnd (Reaches P) p ses s)
    (hk : ∀ a ses s, P a ses s → MayEnd R (k a) ses s) : MayEnd R (p >>= k) ses s := by
  refine MayEnd.handle h (fun a ses s ha => ?_) fun e ses s he => ?_
  · obtain ⟨b, hb, hP⟩ := ha
    obtain rfl := Except.ok.inj hb
    exact hk a ses s hP
  · obtain ⟨b, hb, -⟩ := he
    cases hb

/-- A weaker postcondition. -/
theorem MayEnd.mono {Q' : Except ε α → Session κ ω → σ → Prop}
    (hQ : ∀ r ses s, Q r ses s → Q' r ses s) {p : Program σ κ ω ε α} {ses : Session κ ω} {s : σ}
    (h : MayEnd Q p ses s) : MayEnd Q' p ses s := by
  induction p generalizing ses s with
  | pure a => exact hQ _ _ _ h
  | throw e => exact hQ _ _ _ h
  | halt => exact h.elim
  | select k err ihk _ | lock key k err ihk _ | update ws k err ihk _ => exact ihk _ h
  | insert row k err ihk _ =>
    obtain ⟨n, hfresh, h⟩ := h
    exact ⟨n, hfresh, ihk n h⟩
  | choose k ih =>
    obtain ⟨n, h⟩ := h
    exact ⟨n, ih n h⟩
  | emit ws k ih => exact ih _ h
  | start k ih | rollback k ih => exact ih h
  | commit k err ihk _ => exact ihk h

variable {P : α → Session κ ω → σ → Prop}

theorem MayEnd.pure {a : α} (h : P a ses s) :
    MayEnd (Reaches P) (Pure.pure a : Program σ κ ω ε α) ses s := ⟨a, rfl, h⟩

theorem MayEnd.query {f : σ → α} (h : P (f (ses.view s)) ses s) :
    MayEnd (Reaches P) (Program.query e f : Program σ κ ω ε α) ses s := ⟨_, rfl, h⟩

theorem MayEnd.findOne {f : σ → List α} {P : Option α → Session κ ω → σ → Prop} (n : ℕ)
    (h : P (Program.pick n (f (ses.view s))) ses s) :
    MayEnd (Reaches P) (Program.findOne e f : Program σ κ ω ε (Option α)) ses s := ⟨n, _, rfl, h⟩

theorem MayEnd.writeRows {ws : σ → List ω} {P : List ω → Session κ ω → σ → Prop}
    (h : P (ws (ses.view s)) (ses.stage (σ := σ) (ws (ses.view s)))
      (publish s (ses.visible (ws (ses.view s))))) :
    MayEnd (Reaches P) (Program.writeRows e ws : Program σ κ ω ε (List ω)) ses s := ⟨_, rfl, h⟩

theorem MayEnd.insertRow {row : ℕ → ω} {P : ℕ → Session κ ω → σ → Prop} (n : ℕ)
    (hn : Storage.present (ses.view s) (Storage.keyOf σ (row n)) = false)
    (h : P n (ses.stage (σ := σ) [row n]) (publish s (ses.visible [row n]))) :
    MayEnd (Reaches P) (Program.insertRow e row : Program σ κ ω ε ℕ) ses s := ⟨n, hn, n, rfl, h⟩

theorem MayEnd.receive {P : ℕ → Session κ ω → σ → Prop} (n : ℕ) (h : P n ses s) :
    MayEnd (Reaches P) (Program.receive : Program σ κ ω ε ℕ) ses s := ⟨n, n, rfl, h⟩

theorem MayEnd.send {ws : σ → List ω} {f : σ → α}
    (h : P (f (ses.view s)) ses (publish s (ws (ses.view s)))) :
    MayEnd (Reaches P) (Program.send ws f : Program σ κ ω ε α) ses s := ⟨_, rfl, h⟩

theorem MayEnd.expect {o : Option α} {a : α} (ho : o = some a) (h : P a ses s) :
    MayEnd (Reaches P) (Program.expect o e : Program σ κ ω ε α) ses s := by
  subst ho
  exact ⟨a, rfl, h⟩

theorem MayEnd.ofExcept {x : Except ε α} {a : α} (hx : x = .ok a) (h : P a ses s) :
    MayEnd (Reaches P) (Program.ofExcept x : Program σ κ ω ε α) ses s := by
  subst hx
  exact ⟨a, rfl, h⟩

/-- An exception that is caught. -/
theorem MayEnd.attempt {p : Program σ κ ω ε α} {g : ε → Program σ κ ω ε α}
    (h : MayEnd (fun r ses s => (∃ a, r = .ok a ∧ P a ses s) ∨
      ∃ e, r = .error e ∧ MayEnd (Reaches P) (g e) ses s) p ses s) :
    MayEnd (Reaches P) (Program.attempt p g) ses s := by
  refine MayEnd.handle h (fun a ses s ha => ?_) fun e ses s he => ?_
  · obtain ⟨b, hb, hP⟩ | ⟨e, he, -⟩ := ha
    · exact ⟨b, hb, hP⟩
    · cases he
  · obtain ⟨b, hb, -⟩ | ⟨e', he', hg⟩ := he
    · cases hb
    · obtain rfl := Except.error.inj he'
      exact hg

/-- A transaction is committed with all that it wrote. -/
theorem MayEnd.transaction {p : Program σ κ ω ε α}
    (h : MayEnd (Reaches fun a ses t => P a .idle (publish t ses.pending)) p .opened s) :
    MayEnd (Reaches P) (Program.transaction e p) ses s := by
  refine MayEnd.handle (p := p) h (fun a ses t ha => ?_) fun e ses t he => ?_
  · obtain ⟨b, hb, hP⟩ := ha
    obtain rfl := Except.ok.inj hb
    exact ⟨a, rfl, hP⟩
  · obtain ⟨b, hb, -⟩ := he
    cases hb

/-- A postcondition that always holds. -/
theorem MustEnd.of_forall (hQ : ∀ r ses s, Q r ses s) (p : Program σ κ ω ε α) (ses : Session κ ω)
    (s : σ) : MustEnd Q p ses s := by
  induction p generalizing ses s with
  | pure a => exact hQ _ _ _
  | throw e => exact hQ _ _ _
  | halt => trivial
  | select k err ihk iherr | lock key k err ihk iherr | update ws k err ihk iherr =>
    exact ⟨ihk _ _ _, iherr _ _⟩
  | insert row k err ihk iherr => exact ⟨fun n _ => ihk n _ _, iherr _ _⟩
  | choose k ih => exact fun n => ih n _ _
  | emit ws k ih => exact ih _ _ _
  | start k ih | rollback k ih => exact ih _ _
  | commit k err ihk iherr => exact ⟨ihk _ _, iherr _ _⟩

theorem MustEnd.mono {Q' : Except ε α → Session κ ω → σ → Prop}
    (hQ : ∀ r ses s, Q r ses s → Q' r ses s) {p : Program σ κ ω ε α} {ses : Session κ ω} {s : σ}
    (h : MustEnd Q p ses s) : MustEnd Q' p ses s := by
  induction p generalizing ses s with
  | pure a => exact hQ _ _ _ h
  | throw e => exact hQ _ _ _ h
  | halt => trivial
  | select k err ihk iherr | lock key k err ihk iherr | update ws k err ihk iherr =>
    exact ⟨ihk _ h.1, iherr h.2⟩
  | insert row k err ihk iherr => exact ⟨fun n hn => ihk n (h.1 n hn), iherr h.2⟩
  | choose k ih => exact fun n => ih n (h n)
  | emit ws k ih => exact ih _ h
  | start k ih | rollback k ih => exact ih h
  | commit k err ihk iherr => exact ⟨ihk h.1, iherr h.2⟩

/-- Two postconditions. -/
theorem MustEnd.and {Q Q' : Except ε α → Session κ ω → σ → Prop} {p : Program σ κ ω ε α}
    {ses : Session κ ω} {s : σ} (h : MustEnd Q p ses s) (h' : MustEnd Q' p ses s) :
    MustEnd (fun r ses t => Q r ses t ∧ Q' r ses t) p ses s := by
  induction p generalizing ses s with
  | pure | throw => exact ⟨h, h'⟩
  | halt => trivial
  | select k err ihk iherr | lock key k err ihk iherr | update ws k err ihk iherr =>
    exact ⟨ihk _ h.1 h'.1, iherr h.2 h'.2⟩
  | insert row k err ihk iherr =>
    exact ⟨fun n hn => ihk n (h.1 n hn) (h'.1 n hn), iherr h.2 h'.2⟩
  | choose k ih => exact fun n => ih n (h n) (h' n)
  | emit ws k ih => exact ih _ h h'
  | start k ih | rollback k ih => exact ih h h'
  | commit k err ihk iherr => exact ⟨ihk h.1 h'.1, iherr h.2 h'.2⟩

/-- The second program runs from where the first one ends. -/
theorem MustEnd.handle {f : α → Program σ κ ω ε β} {g : ε → Program σ κ ω ε β}
    {p : Program σ κ ω ε α} {ses : Session κ ω} {s : σ} (h : MustEnd Q p ses s)
    (hok : ∀ a ses s, Q (.ok a) ses s → MustEnd R (f a) ses s)
    (herror : ∀ e ses s, Q (.error e) ses s → MustEnd R (g e) ses s) :
    MustEnd R (p.handle f g) ses s := by
  induction p generalizing ses s with
  | pure a => exact hok a ses s h
  | throw e => exact herror e ses s h
  | halt => trivial
  | select k err ihk iherr | lock key k err ihk iherr | update ws k err ihk iherr =>
    exact ⟨ihk _ h.1, iherr h.2⟩
  | insert row k err ihk iherr => exact ⟨fun n hn => ihk n (h.1 n hn), iherr h.2⟩
  | choose k ih => exact fun n => ih n (h n)
  | emit ws k ih => exact ih _ h
  | start k ih | rollback k ih => exact ih h
  | commit k err ihk iherr => exact ⟨ihk h.1, iherr h.2⟩

/-- The second program runs from where the first one returns; what the first one throws is thrown
on. -/
theorem MustEnd.andThen {p : Program σ κ ω ε α} {k : α → Program σ κ ω ε β} {ses : Session κ ω}
    {s : σ} (h : MustEnd Q p ses s) (hok : ∀ a ses s, Q (.ok a) ses s → MustEnd R (k a) ses s)
    (herror : ∀ e ses s, Q (.error e) ses s → R (.error e) ses s) :
    MustEnd R (p >>= k) ses s :=
  MustEnd.handle h hok herror

/-- What a program returns is all that is asked, so it does not matter what it throws. -/
def Value (P : α → Session κ ω → σ → Prop) (r : Except ε α) (ses : Session κ ω) (s : σ) : Prop :=
  ∀ a, r = .ok a → P a ses s

theorem MustEnd.bind {k : α → Program σ κ ω ε β} {p : Program σ κ ω ε α} {P' : β → Session κ ω → σ → Prop}
    (h : MustEnd (Value P) p ses s)
    (hk : ∀ a ses s, P a ses s → MustEnd (Value P') (k a) ses s) :
    MustEnd (Value P') (p >>= k) ses s :=
  MustEnd.handle h (fun a ses s ha => hk a ses s (ha a rfl)) fun _ _ _ _ _ ha => by cases ha

theorem MustEnd.pure {a : α} (h : P a ses s) :
    MustEnd (Value P) (Pure.pure a : Program σ κ ω ε α) ses s := by
  intro b hb
  obtain rfl := Except.ok.inj hb
  exact h

theorem MustEnd.query {f : σ → α} (h : P (f (ses.view s)) ses s) :
    MustEnd (Value P) (Program.query e f : Program σ κ ω ε α) ses s :=
  ⟨MustEnd.pure h, fun _ ha => by cases ha⟩

theorem MustEnd.findOne {f : σ → List α} {P : Option α → Session κ ω → σ → Prop}
    (h : ∀ n, P (Program.pick n (f (ses.view s))) ses s) :
    MustEnd (Value P) (Program.findOne e f : Program σ κ ω ε (Option α)) ses s :=
  fun n => MustEnd.query (h n)

theorem MustEnd.writeRows {ws : σ → List ω} {P : List ω → Session κ ω → σ → Prop}
    (h : P (ws (ses.view s)) (ses.stage (σ := σ) (ws (ses.view s)))
      (publish s (ses.visible (ws (ses.view s))))) :
    MustEnd (Value P) (Program.writeRows e ws : Program σ κ ω ε (List ω)) ses s :=
  ⟨MustEnd.pure h, fun _ ha => by cases ha⟩

theorem MustEnd.insertRow {row : ℕ → ω} {P : ℕ → Session κ ω → σ → Prop}
    (h : ∀ n, Storage.present (ses.view s) (Storage.keyOf σ (row n)) = false →
      P n (ses.stage (σ := σ) [row n]) (publish s (ses.visible [row n]))) :
    MustEnd (Value P) (Program.insertRow e row : Program σ κ ω ε ℕ) ses s :=
  ⟨fun n hn => MustEnd.pure (h n hn), fun _ ha => by cases ha⟩

/-- It does not matter what the program does. -/
theorem MustEnd.any (p : Program σ κ ω ε α) :
    MustEnd (Value fun _ _ _ => True) p ses s :=
  MustEnd.of_forall (fun _ _ _ _ _ => trivial) p ses s

/-- What a transaction returns, whatever it has written. -/
theorem MustEnd.transaction {P : α → Prop} {p : Program σ κ ω ε α}
    (h : MustEnd (Value fun a _ _ => P a) p .opened s) :
    MustEnd (Value fun a _ _ => P a) (Program.transaction e p) ses s := by
  refine MustEnd.handle (p := p) h (fun a ses t ha => ?_) fun e ses t _ => fun _ he => by cases he
  refine ⟨MustEnd.pure (ha a rfl), fun _ he => by cases he⟩

theorem MustEnd.receive {P : ℕ → Session κ ω → σ → Prop} (h : ∀ n, P n ses s) :
    MustEnd (Value P) (Program.receive : Program σ κ ω ε ℕ) ses s :=
  fun n => MustEnd.pure (h n)

theorem MustEnd.require {p : Prop} [Decidable p] {P : Unit → Session κ ω → σ → Prop}
    (h : p → P () ses s) :
    MustEnd (Value P) (Program.require p e : Program σ κ ω ε Unit) ses s := by
  by_cases hp : p
  · rw [Program.require, if_pos hp]
    exact MustEnd.pure (h hp)
  · rw [Program.require, if_neg hp]
    intro a ha
    cases ha

theorem MustEnd.expect {o : Option α} (h : ∀ a, o = some a → P a ses s) :
    MustEnd (Value P) (Program.expect o e : Program σ κ ω ε α) ses s := by
  cases o with
  | none => exact fun _ ha => by cases ha
  | some a => exact MustEnd.pure (h a rfl)

/-- A program that leaves the view alone ends with the view as it was. -/
theorem mustEnd_of_plain {ρ : Type} {view : σ → Option ρ} {p : Program σ κ ω ε α} {v : Option ρ}
    {s : σ} (h : Plain view p) (hs : view s = v) :
    MustEnd (fun _ ses t => ses = .idle ∧ view t = v) p .idle s := by
  have hpublish : ∀ {ws : List ω} {s : σ}, (∀ w ∈ ws, Spares view w) → view s = v →
      view (publish s ws) = v := fun hws hs => (view_publish hws _).trans hs
  induction p generalizing s with
  | pure | throw => exact ⟨rfl, hs⟩
  | select k err ihk iherr => exact ⟨ihk _ (h.1 _) hs, iherr h.2 hs⟩
  | update ws k err ihk iherr =>
    exact ⟨ihk _ (h.2.1 _) (hpublish (h.1 _) hs), iherr h.2.2 hs⟩
  | insert row k err ihk iherr =>
    refine ⟨fun n _ => ihk n (h.2.1 n) (hpublish (fun w hw => ?_) hs), iherr h.2.2 hs⟩
    obtain rfl := List.mem_singleton.mp hw
    exact h.1 n
  | choose k ih => exact fun n => ih n (h n) hs
  | halt | lock | emit | start | commit | rollback => exact h.elim

/-- Such a program that may end leaves the view as it was where it does. -/
theorem mayEnd_of_plain {ρ : Type} {view : σ → Option ρ} {p : Program σ κ ω ε α} {v : Option ρ}
    {s : σ} (hend : MayEnd (Reaches P) p .idle s) (h : Plain view p) (hs : view s = v) :
    MayEnd (Reaches fun a ses t => P a ses t ∧ ses = .idle ∧ view t = v) p .idle s := by
  have hpublish : ∀ {ws : List ω} {s : σ}, (∀ w ∈ ws, Spares view w) → view s = v →
      view (publish s ws) = v := fun hws hs => (view_publish hws _).trans hs
  induction p generalizing s with
  | pure a =>
    obtain ⟨b, hb, hP⟩ := hend
    exact ⟨b, hb, hP, rfl, hs⟩
  | throw e =>
    obtain ⟨b, hb, -⟩ := hend
    cases hb
  | select k err ihk _ => exact ihk _ hend (h.1 _) hs
  | update ws k err ihk _ => exact ihk _ hend (h.2.1 _) (hpublish (h.1 _) hs)
  | insert row k err ihk _ =>
    obtain ⟨n, hfresh, hend⟩ := hend
    refine ⟨n, hfresh, ihk n hend (h.2.1 n) (hpublish (fun w hw => ?_) hs)⟩
    obtain rfl := List.mem_singleton.mp hw
    exact h.1 n
  | choose k ih =>
    obtain ⟨n, hend⟩ := hend
    exact ⟨n, ih n hend (h n) hs⟩
  | halt | lock | emit | start | commit | rollback => exact h.elim

/-- Outside of a transaction. -/
def Outside (ses : Session κ ω) : Prop := ses.active = false ∧ ses.pending = []

theorem outside_idle : Outside (.idle : Session κ ω) := ⟨rfl, rfl⟩

/-- Outside of a transaction some run of the program returns, whatever the store holds. -/
def CanEnd (p : Program σ κ ω ε α) : Prop :=
  ∀ (ses : Session κ ω) (s : σ), Outside ses → MayEnd (Reaches fun _ ses' _ => Outside ses') p ses s

theorem CanEnd.pure {a : α} : CanEnd (Pure.pure a : Program σ κ ω ε α) :=
  fun _ _ hses => MayEnd.pure hses

theorem CanEnd.bind {p : Program σ κ ω ε α} {k : α → Program σ κ ω ε β} (h : CanEnd p)
    (hk : ∀ a, CanEnd (k a)) : CanEnd (p >>= k) :=
  fun ses s hses => (h ses s hses).bind fun a ses' t hses' => hk a ses' t hses'

theorem CanEnd.query {f : σ → α} : CanEnd (Program.query e f : Program σ κ ω ε α) :=
  fun _ _ hses => MayEnd.query hses

theorem CanEnd.findOne {f : σ → List α} :
    CanEnd (Program.findOne e f : Program σ κ ω ε (Option α)) :=
  fun _ _ hses => MayEnd.findOne 0 hses

theorem CanEnd.receive : CanEnd (Program.receive : Program σ κ ω ε ℕ) :=
  fun _ _ hses => MayEnd.receive 0 hses

theorem Outside.stage {ses : Session κ ω} (h : Outside ses) (ws : List ω) :
    Outside (ses.stage (σ := σ) ws) := by
  rwa [Session.stage, if_neg (by simp [h.1])]

theorem CanEnd.writeRows {ws : σ → List ω} :
    CanEnd (Program.writeRows e ws : Program σ κ ω ε (List ω)) :=
  fun _ _ hses => MayEnd.writeRows (hses.stage _)

theorem CanEnd.insertRow {row : ℕ → ω}
    (h : ∀ s : σ, ∃ n, Storage.present s (Storage.keyOf σ (row n)) = false) :
    CanEnd (Program.insertRow e row : Program σ κ ω ε ℕ) := by
  intro ses s hses
  obtain ⟨n, hn⟩ := h (ses.view s)
  exact MayEnd.insertRow n hn (hses.stage _)

end Rules

section Runs

variable [DecidableEq κ] {c : τ}

/-- A call that is alone, in its session. -/
def aloneIn (c : τ) (ses : Session κ ω) (s : σ) (p : Program σ κ ω ε α) : System τ σ κ ω ε α :=
  ⟨s, [⟨c, ses, p⟩]⟩

theorem step_aloneIn {n : ℕ} {p p' : Program σ κ ω ε α} {ses ses' : Session κ ω} {s : σ}
    {ws : List ω} (h : advance (fun _ => true) n s ses p = some (p', ses', ws)) :
    (aloneIn c ses s p).step (.run 0 n) = some (aloneIn c ses' (publish s ws) p') := by
  have hfree : System.free (aloneIn c ses s p) 0 = fun _ => true := rfl
  simp [System.step, System.mover, System.move, aloneIn] at *
  simp [hfree, h]

/-- What may be returned is returned by a run. -/
theorem run_of_mayEnd {P : α → σ → Prop} {p : Program σ κ ω ε α} {ses : Session κ ω} {s : σ}
    (h : MayEnd (Reaches fun a _ t => P a t) p ses s) :
    ∃ sys a, System.Run (fun _ _ => True) (aloneIn c ses s p) sys ∧ answerOf sys 0 = some a ∧
      P a sys.store := by
  have hstep : ∀ {n : ℕ} {p p' : Program σ κ ω ε α} {ses ses' : Session κ ω} {s : σ}
      {ws : List ω}, advance (fun _ => true) n s ses p = some (p', ses', ws) →
      (∃ sys a, System.Run (fun _ _ => True) (aloneIn c ses' (publish s ws) p') sys ∧
        answerOf sys 0 = some a ∧ P a sys.store) →
      ∃ sys a, System.Run (fun _ _ => True) (aloneIn c ses s p) sys ∧ answerOf sys 0 = some a ∧
        P a sys.store := by
    intro n p p' ses ses' s ws hadvance ⟨sys, a, hrun, hanswer, hP⟩
    exact ⟨sys, a, (System.Run.refl _).tail trivial (step_aloneIn hadvance) |>.trans hrun, hanswer, hP⟩
  induction p generalizing ses s with
  | pure a =>
    obtain ⟨b, hb, hP⟩ := h
    obtain rfl := Except.ok.inj hb
    exact ⟨_, a, .refl _, rfl, hP⟩
  | throw e =>
    obtain ⟨b, hb, -⟩ := h
    cases hb
  | halt => exact h.elim
  | select k err ihk _ => exact hstep (n := 0) rfl (ihk _ h)
  | lock key k err ihk _ => exact hstep (n := 0) rfl (ihk _ h)
  | update ws k err ihk _ => exact hstep (n := 0) (if_pos (by simp)) (ihk _ h)
  | insert row k err ihk _ =>
    obtain ⟨n, hfresh, h⟩ := h
    exact hstep (n := n) (if_pos (by simp [hfresh])) (ihk n h)
  | choose k ih =>
    obtain ⟨n, h⟩ := h
    exact hstep (n := n) rfl (ih n h)
  | emit ws k ih => exact hstep (n := 0) (if_pos (by simp)) (ih _ h)
  | start k ih => exact hstep (n := 0) rfl (ih h)
  | rollback k ih => exact hstep (n := 0) rfl (ih h)
  | commit k err ihk _ => exact hstep (n := 0) rfl (ihk h)

/-- The one thread of the system ends as the postcondition says. -/
def Ending (Q : Except ε α → Session κ ω → σ → Prop) (sys : System τ σ κ ω ε α) : Prop :=
  ∃ c ses p, sys = aloneIn c ses sys.store p ∧ MustEnd Q p ses sys.store

omit [DecidableEq κ] in
theorem MustEnd.advance {Q : Except ε α → Session κ ω → σ → Prop} {free : κ → Bool} {n : ℕ}
    {p p' : Program σ κ ω ε α} {ses ses' : Session κ ω} {s : σ} {ws : List ω}
    (h : MustEnd Q p ses s)
    (hadvance : Transactions.advance free n s ses p = some (p', ses', ws)) :
    MustEnd Q p' ses' (publish s ws) := by
  cases p with
  | pure | throw | halt => cases hadvance
  | select k err =>
    cases hadvance
    exact h.1
  | lock key k err =>
    simp only [Transactions.advance, Option.ite_none_right_eq_some, Option.some.injEq,
      Prod.mk.injEq] at hadvance
    obtain ⟨-, rfl, rfl, rfl⟩ := hadvance
    exact h.1
  | update w k err =>
    simp only [Transactions.advance, Option.ite_none_right_eq_some, Option.some.injEq,
      Prod.mk.injEq] at hadvance
    obtain ⟨-, rfl, rfl, rfl⟩ := hadvance
    exact h.1
  | insert row k err =>
    simp only [Transactions.advance, Option.ite_none_right_eq_some, Option.some.injEq,
      Prod.mk.injEq, Bool.and_eq_true, Bool.not_eq_true'] at hadvance
    obtain ⟨⟨-, hfresh⟩, rfl, rfl, rfl⟩ := hadvance
    exact h.1 n hfresh
  | choose k =>
    cases hadvance
    exact h n
  | emit w k =>
    simp only [Transactions.advance, Option.ite_none_right_eq_some, Option.some.injEq,
      Prod.mk.injEq] at hadvance
    obtain ⟨-, rfl, rfl, rfl⟩ := hadvance
    exact h
  | start k | rollback k =>
    cases hadvance
    exact h
  | commit k err =>
    cases hadvance
    exact h.1

omit [DecidableEq κ] in
theorem MustEnd.failing {Q : Except ε α → Session κ ω → σ → Prop}
    {p p' : Program σ κ ω ε α} {ses ses' : Session κ ω} {s : σ} {ws : List ω}
    (h : MustEnd Q p ses s) (hfailing : Transactions.failing ses p = some (p', ses', ws)) :
    MustEnd Q p' ses' (publish s ws) := by
  cases p with
  | select k err | lock key k err | update w k err | insert row k err =>
    cases hfailing
    exact h.2
  | commit k err =>
    cases hfailing
    exact h.2
  | _ => cases hfailing

theorem Ending.step {Q : Except ε α → Session κ ω → σ → Prop} {sys sys' : System τ σ κ ω ε α}
    {a : Action} (h : Ending Q sys) (hstep : sys.step a = some sys') : Ending Q sys' := by
  obtain ⟨c, ses, p, hsys, hend⟩ := h
  obtain ⟨t, p', ses', ws, ht, hmove, rfl⟩ := System.step_eq_some.mp hstep
  generalize sys.store = s at hsys hend
  subst hsys
  have hmover : System.mover a = 0 := by
    have hlt := (List.getElem?_eq_some_iff.mp ht).1
    simp only [aloneIn, List.length_cons, List.length_nil] at hlt
    omega
  rw [hmover] at ht
  obtain rfl := Option.some.inj ht
  refine ⟨c, ses', p', ?_, ?_⟩
  · simp [aloneIn, hmover]
  · cases a with
    | run i n => exact hend.advance hmove
    | fail i => exact hend.failing hmove
    | crash i =>
      cases hmove
      trivial

/-- How a call ended. -/
def outcome : Program σ κ ω ε α → Option (Except ε α)
  | .pure a => some (.ok a)
  | .throw e => some (.error e)
  | _ => none

/-- How a run of a call that is alone ends. -/
theorem result_of_run {Q : Except ε α → Session κ ω → σ → Prop} {p : Program σ κ ω ε α} {s : σ}
    {sys : System τ σ κ ω ε α} (h : MustEnd Q p .idle s)
    (hrun : System.Run (fun _ _ => True) (solo c s p) sys) {t : Thread τ σ κ ω ε α}
    (ht : t ∈ sys.threads) {r : Except ε α} (hr : outcome t.program = some r) :
    ∃ ses, Q r ses sys.store := by
  have hend : Ending Q sys := by
    clear ht hr
    induction hrun with
    | refl => exact ⟨c, .idle, p, rfl, h⟩
    | tail _ _ hstep ih => exact ih.step hstep
  obtain ⟨c', ses, q, hsys, hq⟩ := hend
  rw [hsys] at ht
  obtain rfl := List.mem_singleton.mp ht
  cases q with
  | pure a | throw e =>
    obtain rfl := Option.some.inj hr
    exact ⟨ses, hq⟩
  | _ => cases hr

/-- What a run of a call that is alone returns. -/
theorem value_of_run {P : α → Session κ ω → σ → Prop} {p : Program σ κ ω ε α} {s : σ}
    {sys : System τ σ κ ω ε α} (h : MustEnd (Value P) p .idle s)
    (hrun : System.Run (fun _ _ => True) (solo c s p) sys) {a : α}
    (ha : answerOf sys 0 = some a) : ∃ ses, P a ses sys.store := by
  obtain ⟨t, ht, hprogram⟩ := answerOf_eq_some.mp ha
  have hr : outcome t.program = some (.ok a) := by rw [hprogram, outcome]
  obtain ⟨ses, hvalue⟩ := result_of_run h hrun (List.mem_of_getElem? ht) hr
  exact ⟨ses, hvalue a rfl⟩

/-- Calls that ended, each before the next one, with what each returned or threw. -/
inductive Log (program : τ → Program σ κ ω ε α) (s : σ) :
    List (Turn τ σ × Except ε α) → σ → Prop where
  | nil : Log program s [] s
  | snoc {log t call sys thread r} (before : Log program s log t)
    (run : System.Run (fun _ _ => True) (solo call t (program call)) sys)
    (ended : thread ∈ sys.threads) (result : outcome thread.program = some r) :
    Log program s (log ++ [(⟨call, t, sys.store⟩, r)]) sys.store

variable {program : τ → Program σ κ ω ε α}

/-- Where every call that is `ok` keeps `I` and satisfies `F`, all calls do. -/
theorem Log.all {I : σ → Prop} {ok F : Turn τ σ × Except ε α → Prop} {s t : σ}
    {log : List (Turn τ σ × Except ε α)} (h : Log program s log t) (hs : I s)
    (hok : ∀ entry ∈ log, ok entry)
    (hstep : ∀ call s r t, ok (⟨call, s, t⟩, r) → I s →
      (∃ sys thread, System.Run (fun _ _ => True) (solo call s (program call)) sys ∧
        thread ∈ sys.threads ∧ outcome thread.program = some r ∧ sys.store = t) →
      I t ∧ F (⟨call, s, t⟩, r)) :
    I t ∧ ∀ entry ∈ log, F entry := by
  induction h with
  | nil => exact ⟨hs, by simp⟩
  | snoc before run ended result ih =>
    obtain ⟨hbefore, hlog⟩ := ih fun entry hentry => hok entry (List.mem_append_left _ hentry)
    obtain ⟨hafter, hlast⟩ := hstep _ _ _ _
      (hok _ (List.mem_append_right _ (List.mem_singleton.mpr rfl))) hbefore
      ⟨_, _, run, ended, result, rfl⟩
    refine ⟨hafter, fun entry hentry => ?_⟩
    obtain hentry | hentry := List.mem_append.mp hentry
    · exact hlog entry hentry
    · rw [List.mem_singleton.mp hentry]
      exact hlast

/-- What holds of every entry of a log, with the entries before it. -/
def Always {ι : Type} (P : List ι → ι → Prop) (log : List ι) : Prop :=
  ∀ pre entry post, log = pre ++ entry :: post → P pre entry

theorem always_nil {ι : Type} {P : List ι → ι → Prop} : Always P [] := by
  intro pre entry post h
  simp at h

theorem always_snoc {ι : Type} {P : List ι → ι → Prop} {log : List ι} {last : ι} :
    Always P (log ++ [last]) ↔ Always P log ∧ P log last := by
  constructor
  · intro h
    refine ⟨fun pre entry post hlog => h pre entry (post ++ [last]) ?_, h log last [] rfl⟩
    rw [hlog, List.append_assoc, List.cons_append]
  · rintro ⟨hlog, hlast⟩ pre entry post h
    obtain rfl | ⟨post, x, rfl⟩ := List.eq_nil_or_concat post
    · obtain ⟨rfl, hentry⟩ := List.append_inj' h rfl
      obtain rfl := List.singleton_inj.mp hentry
      exact hlast
    · have hsplit : log ++ [last] = (pre ++ entry :: post) ++ [x] := by
        rw [h, List.concat_eq_append, List.append_assoc, List.cons_append]
      exact hlog pre entry post (List.append_inj' hsplit rfl).1

/-- An invariant of the log and the store, where every call is `ok` after the calls before it. -/
theorem Log.always {program : τ → Program σ κ ω ε α}
    {I : List (Turn τ σ × Except ε α) → σ → Prop}
    {ok F : List (Turn τ σ × Except ε α) → Turn τ σ × Except ε α → Prop} {s t : σ}
    {log : List (Turn τ σ × Except ε α)} (h : Log program s log t) (hs : I [] s)
    (hok : Always ok log)
    (hstep : ∀ log call s r t, ok log (⟨call, s, t⟩, r) → I log s →
      (∃ sys thread, System.Run (fun _ _ => True) (solo call s (program call)) sys ∧
        thread ∈ sys.threads ∧ outcome thread.program = some r ∧ sys.store = t) →
      I (log ++ [(⟨call, s, t⟩, r)]) t ∧ F log (⟨call, s, t⟩, r)) :
    I log t ∧ Always F log := by
  induction h with
  | nil => exact ⟨hs, always_nil⟩
  | snoc before run ended result ih =>
    obtain ⟨hbefore, hlast⟩ := always_snoc.mp hok
    obtain ⟨hinv, hlog⟩ := ih hbefore
    obtain ⟨hafter, hlast⟩ := hstep _ _ _ _ _ hlast hinv ⟨_, _, run, ended, result, rfl⟩
    exact ⟨hafter, always_snoc.mpr ⟨hlog, hlast⟩⟩

/-- A call that ends after `n` statements. -/
theorem Log.call {s t : σ} {log : List (Turn τ σ × Except ε α)} (before : Log program s log t)
    (call : τ) (n : ℕ) {r : Except ε α}
    (hexec : (System.exec (fun _ _ => True) (solo call t (program call))
      (System.turns 0 0 n)).isSome = true)
    (hresult : ((after (solo call t (program call)) (System.turns 0 0 n)).threads.map fun thread =>
      outcome thread.program) = [some r]) :
    Log program s (log ++ [(⟨call, t, (after (solo call t (program call))
      (System.turns 0 0 n)).store⟩, r)])
      (after (solo call t (program call)) (System.turns 0 0 n)).store := by
  have hmem : some r ∈ (after (solo call t (program call)) (System.turns 0 0 n)).threads.map
      fun thread => outcome thread.program := by
    rw [hresult]
    exact List.mem_singleton.mpr rfl
  obtain ⟨thread, hthread, hr⟩ := List.mem_map.mp hmem
  exact before.snoc (run_after hexec) hthread hr

end Runs

end NexaStays.Completions
