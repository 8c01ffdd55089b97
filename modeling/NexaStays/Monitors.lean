import NexaStays.SoloRuns

/-!
# Monitors

A monitor watches the statements of one program that runs among others: it is told what
each statement saw and left, and what it asks of a program without transactions is a
recursion over the program. The store between two statements is arbitrary.
-/
namespace NexaStays.Monitors

open NexaStays.Transactions NexaStays.SoloRuns

/-- A state machine over the stores that a statement sees and leaves. A statement must not
be rejected; after it, or after its failure, the monitor has a next state, or asks for
nothing more. A program may stop in a state that is `stopped`. -/
structure Monitor (γ σ : Type) where
  rejects : γ → σ → σ → Prop
  next : γ → σ → σ → Option γ
  failed : γ → Option γ
  stopped : γ → Prop

variable {γ σ κ ω ε α β : Type} [Storage σ κ ω]

/-- A statement is not rejected, and what comes next meets `P`. -/
def Monitor.Accepts (m : Monitor γ σ) (P : γ → Prop) (g : γ) (s s' : σ) : Prop :=
  ¬m.rejects g s s' ∧ ∀ g' ∈ m.next g s s', P g'

/-- The monitor accepts every statement of the program, and `Q` holds where it ends. -/
def Follows (m : Monitor γ σ) (Q : Except ε α → γ → Prop) : Program σ κ ω ε α → γ → Prop
  | .pure a, g => Q (.ok a) g
  | .throw e, g => Q (.error e) g
  | .halt, g => m.stopped g
  | .select k err, g =>
    (∀ s, m.Accepts (Follows m Q (k s)) g s s) ∧ ∀ g' ∈ m.failed g, Follows m Q err g'
  | .lock _ k err, g =>
    (∀ s, m.Accepts (Follows m Q (k s)) g s s) ∧ ∀ g' ∈ m.failed g, Follows m Q err g'
  | .update ws k err, g =>
    (∀ s, m.Accepts (Follows m Q (k s)) g s (publish s (ws s))) ∧
      ∀ g' ∈ m.failed g, Follows m Q err g'
  | .insert row k err, g =>
    (∀ s n, m.Accepts (Follows m Q (k n)) g s (publish s [row n])) ∧
      ∀ g' ∈ m.failed g, Follows m Q err g'
  | .choose k, g => ∀ s n, m.Accepts (Follows m Q (k n)) g s s
  | .emit ws k, g => ∀ s, m.Accepts (Follows m Q (k s)) g s (publish s (ws s))
  | .start _, _ | .commit _ _, _ | .rollback _, _ => False

section Rules

variable {m : Monitor γ σ} {Q Q' : Except ε α → γ → Prop} {R : Except ε β → γ → Prop}
  {P : α → γ → Prop} {E : ε → γ → Prop} {g : γ}

theorem Monitor.Accepts.mono {P P' : γ → Prop} {s s' : σ} (hP : ∀ g, P g → P' g)
    (h : m.Accepts P g s s') : m.Accepts P' g s s' :=
  ⟨h.1, fun g' hg' => hP g' (h.2 g' hg')⟩

/-- A weaker end. -/
theorem Follows.mono (hQ : ∀ r g, Q r g → Q' r g) {p : Program σ κ ω ε α} {g : γ}
    (h : Follows m Q p g) : Follows m Q' p g := by
  induction p generalizing g with
  | pure a => exact hQ _ _ h
  | throw e => exact hQ _ _ h
  | halt => exact h
  | select k err ihk iherr =>
    exact ⟨fun s => (h.1 s).mono fun _ => ihk s, fun g' hg' => iherr (h.2 g' hg')⟩
  | lock key k err ihk iherr =>
    exact ⟨fun s => (h.1 s).mono fun _ => ihk s, fun g' hg' => iherr (h.2 g' hg')⟩
  | update ws k err ihk iherr =>
    exact ⟨fun s => (h.1 s).mono fun _ => ihk s, fun g' hg' => iherr (h.2 g' hg')⟩
  | insert row k err ihk iherr =>
    exact ⟨fun s n => (h.1 s n).mono fun _ => ihk n, fun g' hg' => iherr (h.2 g' hg')⟩
  | choose k ih => exact fun s n => (h s n).mono fun _ => ih n
  | emit ws k ih => exact fun s => (h s).mono fun _ => ih s
  | start | commit | rollback => exact h.elim

/-- The second program goes on where the first one ends. -/
theorem Follows.handle {f : α → Program σ κ ω ε β} {h : ε → Program σ κ ω ε β}
    {p : Program σ κ ω ε α} {g : γ}
    (hp : Follows m (Ends (fun a => Follows m R (f a)) fun e => Follows m R (h e)) p g) :
    Follows m R (p.handle f h) g := by
  induction p generalizing g with
  | pure a => exact hp
  | throw e => exact hp
  | halt => exact hp
  | select k err ihk iherr =>
    exact ⟨fun s => (hp.1 s).mono fun _ => ihk s, fun g' hg' => iherr (hp.2 g' hg')⟩
  | lock key k err ihk iherr =>
    exact ⟨fun s => (hp.1 s).mono fun _ => ihk s, fun g' hg' => iherr (hp.2 g' hg')⟩
  | update ws k err ihk iherr =>
    exact ⟨fun s => (hp.1 s).mono fun _ => ihk s, fun g' hg' => iherr (hp.2 g' hg')⟩
  | insert row k err ihk iherr =>
    exact ⟨fun s n => (hp.1 s n).mono fun _ => ihk n, fun g' hg' => iherr (hp.2 g' hg')⟩
  | choose k ih => exact fun s n => (hp s n).mono fun _ => ih n
  | emit ws k ih => exact fun s => (hp s).mono fun _ => ih s
  | start | commit | rollback => exact hp.elim

theorem Follows.bind {f : α → Program σ κ ω ε β} {p : Program σ κ ω ε α}
    (h : Follows m (Ends P E) p g) (hok : ∀ a g', P a g' → Follows m R (f a) g')
    (herror : ∀ e g', E e g' → R (.error e) g') : Follows m R (p >>= f) g := by
  refine Follows.handle (h.mono fun r g' hr => ?_)
  cases r with
  | ok a => exact hok a g' hr
  | error e => exact herror e g' hr

theorem Follows.query {e : ε} {f : σ → α} {k : α → Program σ κ ω ε β}
    (h : ∀ s, m.Accepts (Follows m R (k (f s))) g s s)
    (herror : ∀ g' ∈ m.failed g, R (.error e) g') :
    Follows m R (Program.query e f >>= k) g :=
  ⟨h, herror⟩

theorem Follows.writeRows {e : ε} {ws : σ → List ω} {k : List ω → Program σ κ ω ε β}
    (h : ∀ s, m.Accepts (Follows m R (k (ws s))) g s (publish s (ws s)))
    (herror : ∀ g' ∈ m.failed g, R (.error e) g') :
    Follows m R (Program.writeRows e ws >>= k) g :=
  ⟨h, herror⟩

theorem Follows.receive {k : ℕ → Program σ κ ω ε β}
    (h : ∀ s n, m.Accepts (Follows m R (k n)) g s s) :
    Follows m R (Program.receive >>= k) g :=
  h

theorem Follows.require {p : Prop} [Decidable p] {e : ε} {k : Unit → Program σ κ ω ε β}
    (h : p → Follows m R (k ()) g) (herror : ¬p → R (.error e) g) :
    Follows m R (Program.require p e >>= k) g := by
  by_cases hp : p
  · rw [Program.require, if_pos hp]
    exact h hp
  · rw [Program.require, if_neg hp]
    exact herror hp

theorem Follows.expect {o : Option α} {e : ε} {k : α → Program σ κ ω ε β}
    (h : ∀ a, o = some a → Follows m R (k a) g) (herror : o = none → R (.error e) g) :
    Follows m R (Program.expect o e >>= k) g := by
  cases o with
  | none => exact herror rfl
  | some a => exact h a rfl

theorem Follows.map {f : α → β} {p : Program σ κ ω ε α}
    (h : Follows m (Ends (fun a g' => R (.ok (f a)) g') fun e g' => R (.error e) g') p g) :
    Follows m R (f <$> p) g :=
  h.bind (fun _ _ hg' => hg') fun _ _ hg' => hg'

theorem Follows.attempt {p : Program σ κ ω ε α} {h : ε → Program σ κ ω ε α}
    (hp : Follows m (Ends P E) p g) (hok : ∀ a g', P a g' → Q (.ok a) g')
    (herror : ∀ e g', E e g' → Follows m Q (h e) g') :
    Follows m Q (Program.attempt p h) g := by
  refine Follows.handle (hp.mono fun r g' hr => ?_)
  cases r with
  | ok a => exact hok a g' hr
  | error e => exact herror e g' hr

/-- A loop whose members each keep `I`. -/
theorem Follows.forEach {f : β → Program σ κ ω ε Unit} {xs : List β} (I : γ → Prop)
    (hstep : ∀ x ∈ xs, ∀ g, I g → Follows m (Ends (fun _ => I) E) (f x) g) (hg : I g) :
    Follows m (Ends (fun _ => I) E) (Program.forEach f xs) g := by
  induction xs generalizing g with
  | nil => exact hg
  | cons x xs ih =>
    refine Follows.handle ((hstep x (by simp) g hg).mono fun r g' hr => ?_)
    cases r with
    | ok _ => exact ih (fun y hy => hstep y (List.mem_cons_of_mem x hy)) hr
    | error e => exact hr

end Rules

section Steps

variable {m : Monitor γ σ} {Q : Except ε α → γ → Prop} {g : γ} {s : σ}
  {p p' : Program σ κ ω ε α} {ses ses' : Session κ ω} {ws : List ω}

/-- One statement of a program that the monitor accepts. -/
theorem Follows.advance {free : κ → Bool} {n : ℕ} (h : Follows m Q p g) (hses : Unbound ses)
    (hstep : Transactions.advance free n s ses p = some (p', ses', ws)) :
    m.Accepts (Follows m Q p') g s (publish s ws) ∧ Unbound ses' := by
  cases p with
  | pure | throw | halt => simp [Transactions.advance] at hstep
  | select k err =>
    simp only [Transactions.advance, hses.view, Option.some.injEq, Prod.mk.injEq] at hstep
    obtain ⟨rfl, rfl, rfl⟩ := hstep
    exact ⟨h.1 s, hses⟩
  | lock key k err =>
    simp only [Transactions.advance, hses.view, Option.ite_none_right_eq_some, Option.some.injEq,
      Prod.mk.injEq] at hstep
    obtain ⟨-, rfl, rfl, rfl⟩ := hstep
    exact ⟨h.1 s, hses.acquire s key⟩
  | update writes k err =>
    simp only [Transactions.advance, hses.view, hses.visible, Option.ite_none_right_eq_some,
      Option.some.injEq, Prod.mk.injEq] at hstep
    obtain ⟨-, rfl, rfl, rfl⟩ := hstep
    exact ⟨h.1 s, hses.stage (writes s)⟩
  | insert row k err =>
    simp only [Transactions.advance, hses.view, hses.visible, Option.ite_none_right_eq_some,
      Option.some.injEq, Prod.mk.injEq] at hstep
    obtain ⟨-, rfl, rfl, rfl⟩ := hstep
    exact ⟨h.1 s n, hses.stage [row n]⟩
  | choose k =>
    simp only [Transactions.advance, Option.some.injEq, Prod.mk.injEq] at hstep
    obtain ⟨rfl, rfl, rfl⟩ := hstep
    exact ⟨h s n, hses⟩
  | emit writes k =>
    simp only [Transactions.advance, hses.view, Option.ite_none_right_eq_some, Option.some.injEq,
      Prod.mk.injEq] at hstep
    obtain ⟨-, rfl, rfl, rfl⟩ := hstep
    exact ⟨h s, hses⟩
  | start | commit | rollback => exact h.elim

/-- The failure of one statement, which writes nothing. -/
theorem Follows.failing (h : Follows m Q p g) (hses : Unbound ses)
    (hstep : Transactions.failing ses p = some (p', ses', ws)) :
    (∀ g' ∈ m.failed g, Follows m Q p' g') ∧ Unbound ses' ∧ ws = [] := by
  cases p with
  | select k err | lock key k err | update writes k err | insert row k err =>
    obtain ⟨rfl, rfl, rfl⟩ : err = p' ∧ ses = ses' ∧ [] = ws := by
      simpa [Transactions.failing] using hstep
    exact ⟨h.2, hses, rfl⟩
  | commit k err => exact h.elim
  | pure | throw | halt | choose | emit | start | rollback =>
    simp [Transactions.failing] at hstep

omit [Storage σ κ ω] in
/-- A failing statement makes nothing visible. -/
theorem failing_writes (hstep : Transactions.failing ses p = some (p', ses', ws)) : ws = [] := by
  cases p <;> simp_all [Transactions.failing]

end Steps

omit [Storage σ κ ω] in
/-- A thread that does not move stays, unless it is the mover. -/
theorem mem_threads_set {τ : Type} {threads : List (Thread τ σ κ ω ε α)}
    {t u x : Thread τ σ κ ω ε α} {i : ℕ} (ht : threads[i]? = some t) (hu : u ∈ threads) :
    u = t ∨ u ∈ threads.set i x := by
  obtain ⟨j, hj⟩ := List.getElem?_of_mem hu
  by_cases hij : i = j
  · subst hij
    exact Or.inl (Option.some.inj (hj.symm.trans ht))
  · right
    have hset : (threads.set i x)[j]? = some u := by rw [List.getElem?_set_ne hij, hj]
    exact List.mem_of_getElem? hset

omit [Storage σ κ ω] in
theorem mem_threads_self {τ : Type} {threads : List (Thread τ σ κ ω ε α)}
    {t x : Thread τ σ κ ω ε α} {i : ℕ} (ht : threads[i]? = some t) : x ∈ threads.set i x := by
  have hlt : i < threads.length := (List.getElem?_eq_some_iff.mp ht).1
  exact List.mem_set hlt x

end NexaStays.Monitors
