import NexaStays.Transactions

/-!
# Programs that run alone

What a program without transactions does when no other program runs: `Alone` is the
weakest precondition of its runs, with or without failing statements. A run of a system
of one thread ends as `Alone` says.
-/
namespace NexaStays.SoloRuns

open NexaStays.Transactions

variable {τ σ κ ω ε α β : Type} [Storage σ κ ω]

/-- Every run of the program from `s`, in which statements fail only if `fails`, ends with a
result and a store that satisfy `Q`. Transactions are left out. -/
def Alone (fails : Prop) (Q : Except ε α → σ → Prop) : Program σ κ ω ε α → σ → Prop
  | .pure a, s => Q (.ok a) s
  | .throw e, s => Q (.error e) s
  | .halt, _ => True
  | .select k err, s => Alone fails Q (k s) s ∧ (fails → Alone fails Q err s)
  | .lock _ k err, s => Alone fails Q (k s) s ∧ (fails → Alone fails Q err s)
  | .update ws k err, s =>
    Alone fails Q (k s) (publish s (ws s)) ∧ (fails → Alone fails Q err s)
  | .insert row k err, s =>
    (∀ n, Storage.present s (Storage.keyOf σ (row n)) = false →
      Alone fails Q (k n) (publish s [row n])) ∧ (fails → Alone fails Q err s)
  | .choose k, s => ∀ n, Alone fails Q (k n) s
  | .emit ws k, s => Alone fails Q (k s) (publish s (ws s))
  | .start _, _ | .commit _ _, _ | .rollback _, _ => False

/-- A postcondition for what is returned and one for what is thrown. -/
def Ends (P : α → σ → Prop) (E : ε → σ → Prop) : Except ε α → σ → Prop
  | .ok a => P a
  | .error e => E e

section Rules

variable {fails : Prop} {Q Q' : Except ε α → σ → Prop} {R : Except ε β → σ → Prop}
  {P : α → σ → Prop} {E : ε → σ → Prop} {s : σ}

/-- A weaker postcondition. -/
theorem Alone.mono (hQ : ∀ r s, Q r s → Q' r s) {p : Program σ κ ω ε α} {s : σ}
    (h : Alone fails Q p s) : Alone fails Q' p s := by
  induction p generalizing s with
  | pure a => exact hQ _ _ h
  | throw e => exact hQ _ _ h
  | halt => trivial
  | select k err ihk iherr => exact ⟨ihk _ h.1, fun hf => iherr (h.2 hf)⟩
  | lock key k err ihk iherr => exact ⟨ihk _ h.1, fun hf => iherr (h.2 hf)⟩
  | update ws k err ihk iherr => exact ⟨ihk _ h.1, fun hf => iherr (h.2 hf)⟩
  | insert row k err ihk iherr =>
    exact ⟨fun n hn => ihk _ (h.1 n hn), fun hf => iherr (h.2 hf)⟩
  | choose k ih => exact fun n => ih n (h n)
  | emit ws k ih => exact ih _ h
  | start | commit | rollback => exact h.elim

/-- The second program runs from where the first one ends. -/
theorem Alone.handle {f : α → Program σ κ ω ε β} {g : ε → Program σ κ ω ε β}
    {p : Program σ κ ω ε α} {s : σ}
    (h : Alone fails (Ends (fun a => Alone fails R (f a)) fun e => Alone fails R (g e)) p s) :
    Alone fails R (p.handle f g) s := by
  induction p generalizing s with
  | pure a => exact h
  | throw e => exact h
  | halt => trivial
  | select k err ihk iherr => exact ⟨ihk _ h.1, fun hf => iherr (h.2 hf)⟩
  | lock key k err ihk iherr => exact ⟨ihk _ h.1, fun hf => iherr (h.2 hf)⟩
  | update ws k err ihk iherr => exact ⟨ihk _ h.1, fun hf => iherr (h.2 hf)⟩
  | insert row k err ihk iherr =>
    exact ⟨fun n hn => ihk _ (h.1 n hn), fun hf => iherr (h.2 hf)⟩
  | choose k ih => exact fun n => ih n (h n)
  | emit ws k ih => exact ih _ h
  | start | commit | rollback => exact h.elim

/-- The rule of `>>=`, for a first program with a postcondition of its own. -/
theorem Alone.bind {f : α → Program σ κ ω ε β} {p : Program σ κ ω ε α}
    (h : Alone fails (Ends P E) p s) (hok : ∀ a s', P a s' → Alone fails R (f a) s')
    (herror : ∀ e s', E e s' → R (.error e) s') : Alone fails R (p >>= f) s := by
  refine Alone.handle (h.mono fun r s' hr => ?_)
  cases r with
  | ok a => exact hok a s' hr
  | error e => exact herror e s' hr

theorem Alone.query {e : ε} {f : σ → α} {k : α → Program σ κ ω ε β}
    (h : Alone fails R (k (f s)) s) (herror : fails → R (.error e) s) :
    Alone fails R (Program.query e f >>= k) s :=
  ⟨h, herror⟩

theorem Alone.writeRows {e : ε} {ws : σ → List ω} {k : List ω → Program σ κ ω ε β}
    (h : Alone fails R (k (ws s)) (publish s (ws s))) (herror : fails → R (.error e) s) :
    Alone fails R (Program.writeRows e ws >>= k) s :=
  ⟨h, herror⟩

theorem Alone.receive {k : ℕ → Program σ κ ω ε β} (h : ∀ n, Alone fails R (k n) s) :
    Alone fails R (Program.receive >>= k) s :=
  h

theorem Alone.require {p : Prop} [Decidable p] {e : ε} {k : Unit → Program σ κ ω ε β}
    (h : p → Alone fails R (k ()) s) (herror : ¬p → R (.error e) s) :
    Alone fails R (Program.require p e >>= k) s := by
  by_cases hp : p
  · rw [Program.require, if_pos hp]
    exact h hp
  · rw [Program.require, if_neg hp]
    exact herror hp

theorem Alone.expect {o : Option α} {e : ε} {k : α → Program σ κ ω ε β}
    (h : ∀ a, o = some a → Alone fails R (k a) s) (herror : o = none → R (.error e) s) :
    Alone fails R (Program.expect o e >>= k) s := by
  cases o with
  | none => exact herror rfl
  | some a => exact h a rfl

/-- A program that ends with what is expected. -/
theorem Alone.expected {o : Option α} {e : ε} (h : ∀ a, o = some a → Q (.ok a) s)
    (herror : o = none → Q (.error e) s) : Alone fails Q (Program.expect o e) s := by
  cases o with
  | none => exact herror rfl
  | some a => exact h a rfl

theorem Alone.ofExcept {x : Except ε α} {k : α → Program σ κ ω ε β}
    (h : ∀ a, x = .ok a → Alone fails R (k a) s) (herror : ∀ e, x = .error e → R (.error e) s) :
    Alone fails R (Program.ofExcept x >>= k) s := by
  cases x with
  | ok a => exact h a rfl
  | error e => exact herror e rfl

theorem Alone.map {f : α → β} {p : Program σ κ ω ε α}
    (h : Alone fails (Ends (fun a s' => R (.ok (f a)) s') fun e s' => R (.error e) s') p s) :
    Alone fails R (f <$> p) s :=
  h.bind (fun _ _ hs' => hs') fun _ _ hs' => hs'

/-- `try … catch …`. -/
theorem Alone.attempt {p : Program σ κ ω ε α} {g : ε → Program σ κ ω ε α}
    (h : Alone fails (Ends P E) p s) (hok : ∀ a s', P a s' → Q (.ok a) s')
    (herror : ∀ e s', E e s' → Alone fails Q (g e) s') :
    Alone fails Q (Program.attempt p g) s := by
  refine Alone.handle (h.mono fun r s' hr => ?_)
  cases r with
  | ok a => exact hok a s' hr
  | error e => exact herror e s' hr

/-- A loop: `I` holds of the members that are done and the store they left. -/
theorem Alone.forEach {f : β → Program σ κ ω ε Unit} {xs : List β} (I : List β → σ → Prop)
    (hstep : ∀ done x rest s', xs = done ++ x :: rest → I done s' →
      Alone fails (Ends (fun _ => I (done ++ [x])) E) (f x) s') (hs : I [] s) :
    Alone fails (Ends (fun _ => I xs) E) (Program.forEach f xs) s := by
  have hloop : ∀ rest done s', xs = done ++ rest → I done s' →
      Alone fails (Ends (fun _ => I xs) E) (Program.forEach f rest) s' := by
    intro rest
    induction rest with
    | nil =>
      intro done s' hxs hdone
      rw [List.append_nil] at hxs
      rwa [hxs]
    | cons x rest ih =>
      intro done s' hxs hdone
      refine Alone.handle ((hstep done x rest s' hxs hdone).mono fun r t hr => ?_)
      cases r with
      | ok _ => exact ih (done ++ [x]) t (by simpa using hxs) hr
      | error e => exact hr
  exact hloop xs [] s rfl hs

end Rules

section Statements

variable {fails : Prop} {Q : Except ε α → σ → Prop}

/-- Not in a transaction. -/
def Unbound (ses : Session κ ω) : Prop := ses.active = false ∧ ses.pending = []

theorem unbound_idle : Unbound (Session.idle : Session κ ω) := ⟨rfl, rfl⟩

theorem Unbound.view {ses : Session κ ω} (h : Unbound ses) (s : σ) : ses.view s = s := by
  simp [Session.view, h.2]

theorem Unbound.stage {ses : Session κ ω} (h : Unbound ses) (ws : List ω) :
    Unbound (ses.stage (σ := σ) ws) := by
  simpa [Session.stage, h.1] using h

theorem Unbound.acquire {ses : Session κ ω} (h : Unbound ses) (v : σ) (key : κ) :
    Unbound (ses.acquire v key) := by
  unfold Session.acquire
  split_ifs
  · exact h
  · exact h

theorem Unbound.visible {ses : Session κ ω} (h : Unbound ses) (ws : List ω) :
    ses.visible ws = ws := by
  simp [Session.visible, h.1]

/-- One statement of a program that is alone. -/
theorem Alone.advance {free : κ → Bool} {n : ℕ} {s : σ} {p p' : Program σ κ ω ε α}
    {ses ses' : Session κ ω} {ws : List ω} (h : Alone fails Q p s) (hses : Unbound ses)
    (hstep : Transactions.advance free n s ses p = some (p', ses', ws)) :
    Alone fails Q p' (publish s ws) ∧ Unbound ses' := by
  cases p with
  | pure | throw | halt => simp [Transactions.advance] at hstep
  | select k err =>
    simp only [Transactions.advance, hses.view, Option.some.injEq, Prod.mk.injEq] at hstep
    obtain ⟨rfl, rfl, rfl⟩ := hstep
    exact ⟨h.1, hses⟩
  | lock key k err =>
    simp only [Transactions.advance, hses.view, Option.ite_none_right_eq_some, Option.some.injEq,
      Prod.mk.injEq] at hstep
    obtain ⟨-, rfl, rfl, rfl⟩ := hstep
    exact ⟨h.1, hses.acquire s key⟩
  | update writes k err =>
    simp only [Transactions.advance, hses.view, hses.visible, Option.ite_none_right_eq_some,
      Option.some.injEq, Prod.mk.injEq] at hstep
    obtain ⟨-, rfl, rfl, rfl⟩ := hstep
    exact ⟨h.1, hses.stage (writes s)⟩
  | insert row k err =>
    simp only [Transactions.advance, hses.view, hses.visible, Option.ite_none_right_eq_some,
      Bool.and_eq_true, Bool.not_eq_true', Option.some.injEq, Prod.mk.injEq] at hstep
    obtain ⟨⟨-, hfresh⟩, rfl, rfl, rfl⟩ := hstep
    exact ⟨h.1 n hfresh, hses.stage [row n]⟩
  | choose k =>
    simp only [Transactions.advance, Option.some.injEq, Prod.mk.injEq] at hstep
    obtain ⟨rfl, rfl, rfl⟩ := hstep
    exact ⟨h n, hses⟩
  | emit writes k =>
    simp only [Transactions.advance, hses.view, Option.ite_none_right_eq_some, Option.some.injEq,
      Prod.mk.injEq] at hstep
    obtain ⟨-, rfl, rfl, rfl⟩ := hstep
    exact ⟨h, hses⟩
  | start | commit | rollback => exact h.elim

/-- The failure of one statement. -/
theorem Alone.failing {s : σ} {p p' : Program σ κ ω ε α} {ses ses' : Session κ ω}
    {ws : List ω} (hf : fails) (h : Alone fails Q p s) (hses : Unbound ses)
    (hstep : Transactions.failing ses p = some (p', ses', ws)) :
    Alone fails Q p' (publish s ws) ∧ Unbound ses' := by
  cases p with
  | select k err =>
    obtain ⟨rfl, rfl, rfl⟩ : err = p' ∧ ses = ses' ∧ [] = ws := by
      simpa [Transactions.failing] using hstep
    exact ⟨h.2 hf, hses⟩
  | lock key k err =>
    obtain ⟨rfl, rfl, rfl⟩ : err = p' ∧ ses = ses' ∧ [] = ws := by
      simpa [Transactions.failing] using hstep
    exact ⟨h.2 hf, hses⟩
  | update writes k err =>
    obtain ⟨rfl, rfl, rfl⟩ : err = p' ∧ ses = ses' ∧ [] = ws := by
      simpa [Transactions.failing] using hstep
    exact ⟨h.2 hf, hses⟩
  | insert row k err =>
    obtain ⟨rfl, rfl, rfl⟩ : err = p' ∧ ses = ses' ∧ [] = ws := by
      simpa [Transactions.failing] using hstep
    exact ⟨h.2 hf, hses⟩
  | commit k err => exact h.elim
  | pure | throw | halt | choose | emit | start | rollback =>
    simp [Transactions.failing] at hstep

end Statements

section Runs

variable [DecidableEq κ] {fails : Prop} {Q : Except ε α → σ → Prop}

/-- The steps of a run: failures only if `fails`, and nobody kills the caller. -/
def Undisturbed (fails : Prop) (_ : System τ σ κ ω ε α) : Action → Prop
  | .run _ _ => True
  | .fail _ => fails
  | .crash _ => False

instance [Decidable fails] (sys : System τ σ κ ω ε α) :
    ∀ a, Decidable (Undisturbed fails sys a)
  | .run _ _ => inferInstanceAs (Decidable True)
  | .fail _ => inferInstanceAs (Decidable fails)
  | .crash _ => inferInstanceAs (Decidable False)

/-- A call alone in its system. -/
def single (c : τ) (p : Program σ κ ω ε α) (s : σ) : System τ σ κ ω ε α :=
  ⟨s, [⟨c, .idle, p⟩]⟩

/-- In every state of a run, what is left of the call ends as `Alone` says. -/
theorem alone_of_run {c : τ} {p : Program σ κ ω ε α} {s : σ} {sys : System τ σ κ ω ε α}
    (h : Alone fails Q p s) (hrun : System.Run (Undisturbed fails) (single c p s) sys) :
    ∃ t, sys.threads = [t] ∧ Unbound t.session ∧ Alone fails Q t.program sys.store := by
  induction hrun with
  | refl => exact ⟨_, rfl, unbound_idle, h⟩
  | @tail mid sys' a run meets step ih =>
    obtain ⟨t, hthreads, hses, halone⟩ := ih
    obtain ⟨u, q, ses, ws, hu, hmove, rfl⟩ := System.step_eq_some.mp step
    have hmover : System.mover a = 0 := by
      by_contra hne
      rw [hthreads, List.getElem?_eq_none (by simp; omega)] at hu
      exact absurd hu (by simp)
    obtain rfl : t = u := by simpa [hthreads, hmover] using hu
    refine ⟨⟨t.call, ses, q⟩, by simp [hthreads, hmover], ?_⟩
    cases a with
    | run i n =>
      have hnext := halone.advance hses hmove
      exact ⟨hnext.2, hnext.1⟩
    | fail i =>
      have hnext := halone.failing meets hses hmove
      exact ⟨hnext.2, hnext.1⟩
    | crash i => exact meets.elim

/-- What a call that has returned returned, and the store it left. -/
theorem result_of_run {c : τ} {p : Program σ κ ω ε α} {s : σ} {sys : System τ σ κ ω ε α} {a : α}
    (h : Alone fails Q p s) (hrun : System.Run (Undisturbed fails) (single c p s) sys)
    (hdone : ∃ t ∈ sys.threads, t.program.result = some a) : Q (.ok a) sys.store := by
  obtain ⟨t, hthreads, -, halone⟩ := alone_of_run h hrun
  obtain ⟨u, hu, hresult⟩ := hdone
  obtain rfl : u = t := by simpa [hthreads] using hu
  rw [Program.result_eq_some.mp hresult] at halone
  exact halone

end Runs

end NexaStays.SoloRuns
