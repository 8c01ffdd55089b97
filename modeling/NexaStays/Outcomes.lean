import NexaStays.Transactions

/-!
# What a call throws

`Yields` is the weakest precondition of the rest of a call for what it returns and for what
it throws, when the stores it meets are related to the last one by what the environment may
do in between. Any statement may fail. Nothing is asked of what the call writes, so the rule
of a step needs no protocol between the calls: only what they all leave of the store.
-/
namespace NexaStays.Outcomes

open NexaStays.Transactions

/-- What may become of a store between two statements of a call. -/
structure Environment (σ : Type) where
  Later : σ → σ → Prop
  trans : ∀ {s t u}, Later s t → Later t u → Later s u
  self : ∀ {s t}, Later s t → Later t t

namespace Environment

/-- Nobody else is there. -/
def alone (σ : Type) : Environment σ := ⟨Eq, Eq.trans, fun _ => rfl⟩

end Environment

variable {τ σ κ ω ε α β : Type} [Storage σ κ ω] (V : Environment σ)

def Yields (Q : α → Session κ ω → σ → Prop) (E : ε → Session κ ω → σ → Prop) :
    Program σ κ ω ε α → Session κ ω → σ → Prop
  | .pure a, ses, s => ∀ s', V.Later s s' → Q a ses s'
  | .throw e, ses, s => ∀ s', V.Later s s' → E e ses s'
  | .halt, _, _ => True
  | .select k err, ses, s => ∀ s', V.Later s s' →
    Yields Q E (k (ses.view s')) ses s' ∧ Yields Q E err ses s'
  | .lock key k err, ses, s => ∀ s', V.Later s s' →
    Yields Q E (k (ses.view s')) (ses.acquire (ses.view s') key) s' ∧ Yields Q E err ses s'
  | .update ws k err, ses, s => ∀ s', V.Later s s' →
    Yields Q E (k (ses.view s')) (ses.stage (σ := σ) (ws (ses.view s')))
      (publish s' (ses.visible (ws (ses.view s')))) ∧ Yields Q E err ses s'
  | .insert row k err, ses, s => ∀ s', V.Later s s' →
    (∀ n, Yields Q E (k n) (ses.stage (σ := σ) [row n]) (publish s' (ses.visible [row n]))) ∧
      Yields Q E err ses s'
  | .choose k, ses, s => ∀ s', V.Later s s' → ∀ n, Yields Q E (k n) ses s'
  | .emit ws k, ses, s => ∀ s', V.Later s s' →
    Yields Q E (k (ses.view s')) ses (publish s' (ws (ses.view s')))
  | .start k, _, s => ∀ s', V.Later s s' → Yields Q E k .opened s'
  | .commit k err, ses, s => ∀ s', V.Later s s' →
    Yields Q E k .idle (publish s' ses.pending) ∧ Yields Q E err .idle s'
  | .rollback k, _, s => ∀ s', V.Later s s' → Yields Q E k .idle s'

/-- A row lock shows nothing new. -/
theorem view_acquire (ses : Session κ ω) (v : σ) (key : κ) (s : σ) :
    (ses.acquire v key).view s = ses.view s := by
  unfold Session.acquire
  split_ifs <;> rfl

section Rules

variable {V} {Q Q' : α → Session κ ω → σ → Prop} {E E' : ε → Session κ ω → σ → Prop}
  {ses : Session κ ω} {s : σ} {e : ε}

theorem Yields.later {p : Program σ κ ω ε α} {s' : σ} (hs : V.Later s s')
    (h : Yields V Q E p ses s) : Yields V Q E p ses s' := by
  cases p with
  | halt => trivial
  | _ => exact fun t ht => h t (V.trans hs ht)

/-- A precondition may be shown where the program runs next. -/
theorem yields_of_later {p : Program σ κ ω ε α}
    (h : ∀ s', V.Later s s' → Yields V Q E p ses s') : Yields V Q E p ses s := by
  cases p with
  | halt => trivial
  | _ => exact fun s' hs => h s' hs s' (V.self hs)

theorem Yields.mono {p : Program σ κ ω ε α} (hQ : ∀ a ses s, Q a ses s → Q' a ses s)
    (hE : ∀ e ses s, E e ses s → E' e ses s) (h : Yields V Q E p ses s) :
    Yields V Q' E' p ses s := by
  induction p generalizing ses s with
  | pure a => exact fun s' hs => hQ _ _ _ (h s' hs)
  | throw e => exact fun s' hs => hE _ _ _ (h s' hs)
  | halt => trivial
  | select k err ihk iherr | lock key k err ihk iherr | update ws k err ihk iherr =>
    exact fun s' hs => ⟨ihk _ (h s' hs).1, iherr (h s' hs).2⟩
  | insert row k err ihk iherr =>
    exact fun s' hs => ⟨fun n => ihk n ((h s' hs).1 n), iherr (h s' hs).2⟩
  | choose k ih => exact fun s' hs n => ih n (h s' hs n)
  | emit ws k ih => exact fun s' hs => ih _ (h s' hs)
  | start k ih | rollback k ih => exact fun s' hs => ih (h s' hs)
  | commit k err ihk iherr => exact fun s' hs => ⟨ihk (h s' hs).1, iherr (h s' hs).2⟩

/-- Nothing is asked. -/
theorem yields_trivial (p : Program σ κ ω ε α) (ses : Session κ ω) (s : σ) :
    Yields V (fun _ _ _ => True) (fun _ _ _ => True) p ses s := by
  induction p generalizing ses s with
  | pure a | throw e => exact fun _ _ => trivial
  | halt => trivial
  | select k err ihk iherr | lock key k err ihk iherr | update ws k err ihk iherr =>
    exact fun _ _ => ⟨ihk _ _ _, iherr _ _⟩
  | insert row k err ihk iherr => exact fun _ _ => ⟨fun n => ihk n _ _, iherr _ _⟩
  | choose k ih => exact fun _ _ n => ih n _ _
  | emit ws k ih => exact fun _ _ => ih _ _ _
  | start k ih | rollback k ih => exact fun _ _ => ih _ _
  | commit k err ihk iherr => exact fun _ _ => ⟨ihk _ _, iherr _ _⟩

/-- The second programs run from where the first one ends. -/
theorem yields_handle {Q : β → Session κ ω → σ → Prop} {f : α → Program σ κ ω ε β}
    {g : ε → Program σ κ ω ε β} {p : Program σ κ ω ε α}
    (h : Yields V (fun a => Yields V Q E (f a)) (fun e => Yields V Q E (g e)) p ses s) :
    Yields V Q E (p.handle f g) ses s := by
  induction p generalizing ses s with
  | pure a | throw e => exact yields_of_later fun s' hs => h s' hs
  | halt => trivial
  | select k err ihk iherr | lock key k err ihk iherr | update ws k err ihk iherr =>
    exact fun s' hs => ⟨ihk _ (h s' hs).1, iherr (h s' hs).2⟩
  | insert row k err ihk iherr =>
    exact fun s' hs => ⟨fun n => ihk n ((h s' hs).1 n), iherr (h s' hs).2⟩
  | choose k ih => exact fun s' hs n => ih n (h s' hs n)
  | emit ws k ih => exact fun s' hs => ih _ (h s' hs)
  | start k ih | rollback k ih => exact fun s' hs => ih (h s' hs)
  | commit k err ihk iherr => exact fun s' hs => ⟨ihk (h s' hs).1, iherr (h s' hs).2⟩

/-- What a program throws passes through what follows it. -/
theorem yields_bind {P : β → Session κ ω → σ → Prop} {p : Program σ κ ω ε β}
    {k : β → Program σ κ ω ε α} (hE : ∀ e ses s s', E e ses s → V.Later s s' → E e ses s')
    (hp : Yields V P E p ses s) (hk : ∀ b ses s, P b ses s → Yields V Q E (k b) ses s) :
    Yields V Q E (p >>= k) ses s :=
  yields_handle (hp.mono (fun b ses s hb => hk b ses s hb)
    fun e ses s he s' hs => hE e ses s s' he hs)

theorem yields_pure {a : α} (h : ∀ s', V.Later s s' → Q a ses s') :
    Yields V Q E (.pure a) ses s := h

theorem yields_query {f : σ → β} {k : β → Program σ κ ω ε α}
    (h : ∀ s', V.Later s s' → Yields V Q E (k (f (ses.view s'))) ses s')
    (hE : ∀ s', V.Later s s' → E e ses s') :
    Yields V Q E (Program.query e f >>= k) ses s :=
  fun s' hs => ⟨h s' hs, fun t ht => hE t (V.trans hs ht)⟩

theorem yields_lockRow {key : κ} {f : σ → β} {k : β → Program σ κ ω ε α}
    (h : ∀ s', V.Later s s' →
      Yields V Q E (k (f (ses.view s'))) (ses.acquire (ses.view s') key) s')
    (hE : ∀ s', V.Later s s' → E e ses s') :
    Yields V Q E (Program.lockRow e key f >>= k) ses s :=
  fun s' hs => ⟨h s' hs, fun t ht => hE t (V.trans hs ht)⟩

theorem yields_writeRows {ws : σ → List ω} {k : List ω → Program σ κ ω ε α}
    (h : ∀ s', V.Later s s' →
      Yields V Q E (k (ws (ses.view s'))) (ses.stage (σ := σ) (ws (ses.view s')))
        (publish s' (ses.visible (ws (ses.view s')))))
    (hE : ∀ s', V.Later s s' → E e ses s') :
    Yields V Q E (Program.writeRows e ws >>= k) ses s :=
  fun s' hs => ⟨h s' hs, fun t ht => hE t (V.trans hs ht)⟩

theorem yields_insertRow {row : ℕ → ω} {k : ℕ → Program σ κ ω ε α}
    (h : ∀ s' n, V.Later s s' →
      Yields V Q E (k n) (ses.stage (σ := σ) [row n]) (publish s' (ses.visible [row n])))
    (hE : ∀ s', V.Later s s' → E e ses s') :
    Yields V Q E (Program.insertRow e row >>= k) ses s :=
  fun s' hs => ⟨fun n => h s' n hs, fun t ht => hE t (V.trans hs ht)⟩

theorem yields_receive {k : ℕ → Program σ κ ω ε α}
    (h : ∀ s' n, V.Later s s' → Yields V Q E (k n) ses s') :
    Yields V Q E (Program.receive >>= k) ses s :=
  fun s' hs n => h s' n hs

theorem yields_require {p : Prop} [Decidable p] {k : Unit → Program σ κ ω ε α}
    (h : p → Yields V Q E (k ()) ses s) (hE : ¬p → ∀ s', V.Later s s' → E e ses s') :
    Yields V Q E (Program.require p e >>= k) ses s := by
  by_cases hp : p
  · rw [Program.require, if_pos hp]
    exact h hp
  · rw [Program.require, if_neg hp]
    exact hE hp

theorem yields_expect {o : Option β} {k : β → Program σ κ ω ε α}
    (h : ∀ b, o = some b → Yields V Q E (k b) ses s)
    (hE : o = none → ∀ s', V.Later s s' → E e ses s') :
    Yields V Q E (Program.expect o e >>= k) ses s := by
  cases o with
  | none => exact hE rfl
  | some b => exact h b rfl

/-- What the body of a transaction throws is thrown once more after the rollback. -/
theorem yields_transaction {E : ε → Prop} {p : Program σ κ ω ε α}
    (hp : Yields V (fun a _ _ => ∀ s', Q a .idle s') (fun e' _ _ => E e') p .opened s)
    (hE : E e) : Yields V Q (fun e' _ _ => E e') (p.transaction e) ses s := by
  intro s' hs
  refine yields_handle (Yields.mono (fun a ses t ha => ?_) (fun e' ses t he => ?_) (hp.later hs))
  · exact fun _ _ => ⟨fun u _ => ha u, fun _ _ => hE⟩
  · exact fun _ _ _ _ => he

/-- `try … catch …`, where the handler does not throw. -/
theorem yields_attempt {P : α → Session κ ω → σ → Prop} {E₀ : ε → Session κ ω → σ → Prop}
    {g : ε → Program σ κ ω ε α} {p : Program σ κ ω ε α} (hp : Yields V P E₀ p ses s)
    (hQ : ∀ a ses s, P a ses s → ∀ s', V.Later s s' → Q a ses s')
    (hg : ∀ e ses s, E₀ e ses s → Yields V Q E (g e) ses s) :
    Yields V Q E (p.attempt g) ses s :=
  yields_handle (hp.mono (fun a ses s ha => hQ a ses s ha) fun e ses s he => hg e ses s he)

end Rules

section Runs

variable {V} {Q : α → Session κ ω → σ → Prop} {E : ε → Session κ ω → σ → Prop}

theorem Yields.advance {free : κ → Bool} {n : ℕ} {s : σ} {p p' : Program σ κ ω ε α}
    {ses ses' : Session κ ω} {ws : List ω} (h : Yields V Q E p ses s) (hself : V.Later s s)
    (hstep : Transactions.advance free n s ses p = some (p', ses', ws)) :
    Yields V Q E p' ses' (publish s ws) := by
  cases p with
  | pure | throw | halt => cases hstep
  | select k err =>
    obtain ⟨rfl, rfl, rfl⟩ : k (ses.view s) = p' ∧ ses = ses' ∧ [] = ws := by
      simpa [Transactions.advance] using hstep
    exact (h s hself).1
  | lock key k err =>
    simp only [Transactions.advance, Option.ite_none_right_eq_some, Option.some.injEq,
      Prod.mk.injEq] at hstep
    obtain ⟨-, rfl, rfl, rfl⟩ := hstep
    exact (h s hself).1
  | update us k err =>
    simp only [Transactions.advance, Option.ite_none_right_eq_some, Option.some.injEq,
      Prod.mk.injEq] at hstep
    obtain ⟨-, rfl, rfl, rfl⟩ := hstep
    exact (h s hself).1
  | insert row k err =>
    simp only [Transactions.advance, Option.ite_none_right_eq_some, Option.some.injEq,
      Prod.mk.injEq] at hstep
    obtain ⟨-, rfl, rfl, rfl⟩ := hstep
    exact (h s hself).1 n
  | choose k =>
    simp only [Transactions.advance, Option.some.injEq, Prod.mk.injEq] at hstep
    obtain ⟨rfl, rfl, rfl⟩ := hstep
    exact h s hself n
  | emit us k =>
    simp only [Transactions.advance, Option.ite_none_right_eq_some, Option.some.injEq,
      Prod.mk.injEq] at hstep
    obtain ⟨-, rfl, rfl, rfl⟩ := hstep
    exact h s hself
  | start k =>
    simp only [Transactions.advance, Option.some.injEq, Prod.mk.injEq] at hstep
    obtain ⟨rfl, rfl, rfl⟩ := hstep
    exact h s hself
  | commit k err =>
    simp only [Transactions.advance, Option.some.injEq, Prod.mk.injEq] at hstep
    obtain ⟨rfl, rfl, rfl⟩ := hstep
    exact (h s hself).1
  | rollback k =>
    simp only [Transactions.advance, Option.some.injEq, Prod.mk.injEq] at hstep
    obtain ⟨rfl, rfl, rfl⟩ := hstep
    exact h s hself

theorem Yields.failing {s : σ} {p p' : Program σ κ ω ε α} {ses ses' : Session κ ω} {ws : List ω}
    (h : Yields V Q E p ses s) (hself : V.Later s s)
    (hstep : Transactions.failing ses p = some (p', ses', ws)) :
    Yields V Q E p' ses' (publish s ws) := by
  cases p with
  | pure | throw | halt | choose | emit | start | rollback => cases hstep
  | select k err | lock key k err | update us k err | insert row k err | commit k err =>
    simp only [Transactions.failing, Option.some.injEq, Prod.mk.injEq] at hstep
    obtain ⟨rfl, rfl, rfl⟩ := hstep
    exact (h s hself).2

variable [DecidableEq κ] {sys sys' : System τ σ κ ω ε α} {a : Action}

/-- What is left of every call `c` ends as it should. -/
def Kept (V : Environment σ) (c : τ) (Q : α → Session κ ω → σ → Prop)
    (E : ε → Session κ ω → σ → Prop) (sys : System τ σ κ ω ε α) : Prop :=
  ∀ (i : ℕ) (t : Thread τ σ κ ω ε α), sys.threads[i]? = some t → t.call = c →
    Yields V Q E t.program t.session sys.store

/-- A step of one call is seen by the others as a change that the environment may make. -/
theorem Kept.step {c : τ} (h : Kept V c Q E sys) (hself : V.Later sys.store sys.store)
    (hstep : sys.step a = some sys')
    (hothers : ∀ i t, i ≠ System.mover a → sys.threads[i]? = some t →
      V.Later sys.store sys'.store) :
    Kept V c Q E sys' := by
  obtain ⟨t, p, ses, ws, ht, hmove, rfl⟩ := System.step_eq_some.mp hstep
  intro i u hu hcall
  by_cases hi : i = System.mover a
  · subst hi
    have hlength : System.mover a < sys.threads.length := (List.getElem?_eq_some_iff.mp ht).1
    obtain rfl : (⟨t.call, ses, p⟩ : Thread τ σ κ ω ε α) = u := by
      simpa [List.getElem?_set, hlength] using hu
    have ht' := h _ t ht hcall
    cases a with
    | run j n => exact ht'.advance hself hmove
    | fail j => exact ht'.failing hself hmove
    | crash j =>
      simp only [System.move, Option.some.injEq, Prod.mk.injEq] at hmove
      obtain ⟨rfl, -, -⟩ := hmove
      trivial
  · have hu' : sys.threads[i]? = some u := by
      simpa [List.getElem?_set, Ne.symm hi] using hu
    exact (h i u hu' hcall).later (hothers i u hi hu')

/-- The step lemma over a run: the environment is what the run makes of the store. -/
theorem Kept.run {c : τ} {ok : System τ σ κ ω ε α → Action → Prop} (h : Kept V c Q E sys)
    (hself : ∀ mid, System.Run ok sys mid → V.Later mid.store mid.store)
    (hlater : ∀ (mid next : System τ σ κ ω ε α) a i t, System.Run ok sys mid → ok mid a → mid.step a = some next →
      i ≠ System.mover a → mid.threads[i]? = some t → V.Later mid.store next.store)
    (hrun : System.Run ok sys sys') : Kept V c Q E sys' := by
  induction hrun with
  | refl => exact h
  | @tail mid next a run meets step ih =>
    exact ih.step (hself mid run) step fun i t hi ht => hlater mid next a i t run meets step hi ht

/-- A run starts no call and forgets none. -/
theorem length_threads {ok : System τ σ κ ω ε α → Action → Prop} (hrun : System.Run ok sys sys') :
    sys'.threads.length = sys.threads.length := by
  induction hrun with
  | refl => rfl
  | tail _ _ hstep ih =>
    obtain ⟨t, p, ses, ws, -, -, rfl⟩ := System.step_eq_some.mp hstep
    rw [List.length_set, ih]

/-- The run lemma for a call that is alone. -/
theorem Kept.run_alone {c : τ} {ok : System τ σ κ ω ε α → Action → Prop}
    (h : Kept (.alone σ) c Q E sys) (hone : sys.threads.length = 1) (hrun : System.Run ok sys sys') :
    Kept (.alone σ) c Q E sys' := by
  refine h.run (fun _ _ => rfl) (fun mid next a i t hmid _ hstep hi ht => ?_) hrun
  obtain ⟨u, _, _, _, hu, -, -⟩ := System.step_eq_some.mp hstep
  have hlength : mid.threads.length = 1 := (length_threads hmid).trans hone
  have hi' : i < mid.threads.length := (List.getElem?_eq_some_iff.mp ht).1
  have ha' : System.mover a < mid.threads.length := (List.getElem?_eq_some_iff.mp hu).1
  exact absurd (by omega) hi

omit [DecidableEq κ] in
/-- A call that has thrown. -/
theorem Kept.thrown {c : τ} (h : Kept V c Q E sys) (hself : V.Later sys.store sys.store)
    {t : Thread τ σ κ ω ε α} (ht : t ∈ sys.threads) (hcall : t.call = c) {e : ε}
    (hthrown : t.program = .throw e) : E e t.session sys.store := by
  obtain ⟨i, hi⟩ := List.getElem?_of_mem ht
  have hkept := h i t hi hcall
  rw [hthrown] at hkept
  exact hkept _ hself

end Runs

end NexaStays.Outcomes
