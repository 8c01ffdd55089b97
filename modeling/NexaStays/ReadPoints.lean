import NexaStays.Outcomes
import NexaStays.Phases

/-!
# Calls that answer with what they read once

A call that has written nothing before it reads, and whose answer is fixed from there, answers
with what the store held in some state on the way, whatever it and the others do before and after.
-/
namespace NexaStays.ReadPoints

open NexaStays.Transactions NexaStays.Phases NexaStays.Outcomes

variable {τ σ κ ω ε α β : Type} [Storage σ κ ω]

/-- Others may do what they want. -/
def anything (σ : Type) : Environment σ := ⟨fun _ _ => True, fun _ _ => trivial, fun _ => trivial⟩

/-- Whatever the rest of a call meets, it returns this answer if it returns. -/
def Settles (answer : α) (p : Program σ κ ω ε α) (ses : Session κ ω) (s : σ) : Prop :=
  Yields (anything σ) (fun a _ _ => a = answer) (fun _ _ _ => True) p ses s

/-- The call has not read yet; with the store that it reads, its answer is settled. -/
def Awaits (answer : σ → α) : Program σ κ ω ε α → Prop
  | .select k err =>
    ((∀ s ses t, Settles (answer s) (k s) ses t) ∨ ∀ s, Awaits answer (k s)) ∧ Awaits answer err
  | .throw _ | .halt => True
  | _ => False

section Rules

variable {answer : α} {ses : Session κ ω} {s : σ}

theorem settles_pure : Settles answer (.pure answer : Program σ κ ω ε α) ses s := fun _ _ => rfl

/-- What comes before an answer that does not depend on it. -/
theorem settles_bind {p : Program σ κ ω ε β} {k : β → Program σ κ ω ε α}
    (hk : ∀ b ses s, Settles answer (k b) ses s) : Settles answer (p >>= k) ses s :=
  yields_bind (P := fun _ _ _ => True) (fun _ _ _ _ _ _ => trivial) (yields_trivial p ses s)
    fun b ses s _ => hk b ses s

theorem settles_map {b : β} {p : Program σ κ ω ε β} (f : β → α) (h : Settles b p ses s) :
    Settles (f b) (f <$> p) ses s :=
  yields_handle (h.mono (fun _ _ _ ha _ _ => congrArg f ha) fun _ _ _ _ _ _ => trivial)

end Rules

variable [DecidableEq κ] {sys sys' mid next : System τ σ κ ω ε α} {a : Action} {i : ℕ}
  {ok : System τ σ κ ω ε α → Action → Prop} {answer : σ → α}

/-- The call `i` has not read yet, or it has read in a state on the way. -/
def OnTheWay (ok : System τ σ κ ω ε α → Action → Prop) (i : ℕ) (answer : σ → α)
    (sys mid : System τ σ κ ω ε α) : Prop :=
  ∃ t, mid.threads[i]? = some t ∧ (t.session = .idle ∧ Awaits answer t.program ∨
    ∃ seen, System.Run ok sys seen ∧ System.Run ok seen mid ∧
      Settles (answer seen.store) t.program t.session mid.store)

/-- A step of the call that has not read yet. -/
theorem awaits_step {t : Thread τ σ κ ω ε α} {p : Program σ κ ω ε α} {ses : Session κ ω}
    {ws : List ω} (hidle : t.session = .idle) (h : Awaits answer t.program)
    (hmove : sys.move t a = some (p, ses, ws)) :
    ses = .idle ∧ Awaits answer p ∨
      ∀ u, Settles (answer sys.store) p ses u := by
  cases a with
  | crash j =>
    simp only [System.move, Option.some.injEq, Prod.mk.injEq] at hmove
    obtain ⟨rfl, rfl, -⟩ := hmove
    exact Or.inl ⟨rfl, trivial⟩
  | run j n =>
    obtain ⟨call, session, program⟩ := t
    obtain rfl := hidle
    cases program with
    | select k err =>
      simp only [System.move, advance, Option.some.injEq, Prod.mk.injEq] at hmove
      obtain ⟨rfl, rfl, -⟩ := hmove
      obtain hreads | hwaits := h.1
      · exact Or.inr fun u => hreads _ _ u
      · exact Or.inl ⟨rfl, hwaits _⟩
    | throw | halt => cases hmove
    | _ => exact h.elim
  | fail j =>
    obtain ⟨call, session, program⟩ := t
    obtain rfl := hidle
    cases program with
    | select k err =>
      simp only [System.move, failing, Option.some.injEq, Prod.mk.injEq] at hmove
      obtain ⟨rfl, rfl, -⟩ := hmove
      exact Or.inl ⟨rfl, h.2⟩
    | throw | halt => cases hmove
    | _ => exact h.elim

/-- A step of the call that has read. -/
theorem settles_step {t : Thread τ σ κ ω ε α} {p : Program σ κ ω ε α} {ses : Session κ ω}
    {ws : List ω} {r : α} (h : Settles r t.program t.session sys.store)
    (hmove : sys.move t a = some (p, ses, ws)) : Settles r p ses (publish sys.store ws) := by
  cases a with
  | run j n => exact Yields.advance h trivial hmove
  | fail j => exact Yields.failing h trivial hmove
  | crash j =>
    simp only [System.move, Option.some.injEq, Prod.mk.injEq] at hmove
    obtain ⟨rfl, -, -⟩ := hmove
    trivial

theorem onTheWay_step (h : OnTheWay ok i answer sys mid) (hrun : System.Run ok sys mid)
    (hok : ok mid a) (hstep : mid.step a = some next) : OnTheWay ok i answer sys next := by
  have hlast : System.Run ok mid next := .tail (.refl _) hok hstep
  obtain ⟨t, ht, hphase⟩ := h
  obtain ⟨u, p, ses, ws, hu, hmove, rfl⟩ := System.step_eq_some.mp hstep
  by_cases hi : i = System.mover a
  · subst hi
    obtain rfl : t = u := Option.some.inj (ht.symm.trans hu)
    have hlength : System.mover a < mid.threads.length := (List.getElem?_eq_some_iff.mp ht).1
    refine ⟨⟨t.call, ses, p⟩, by simp [hlength], ?_⟩
    obtain ⟨hidle, hawaits⟩ | ⟨seen, hbefore, hafter, hsettles⟩ := hphase
    · obtain hwaits | hreads := awaits_step hidle hawaits hmove
      · exact Or.inl hwaits
      · exact Or.inr ⟨mid, hrun, hlast, hreads _⟩
    · exact Or.inr ⟨seen, hbefore, hafter.trans hlast, settles_step hsettles hmove⟩
  · refine ⟨t, by simpa [List.getElem?_set, Ne.symm hi] using ht, ?_⟩
    obtain hwaits | ⟨seen, hbefore, hafter, hsettles⟩ := hphase
    · exact Or.inl hwaits
    · exact Or.inr ⟨seen, hbefore, hafter.trans hlast, Yields.later trivial hsettles⟩

theorem onTheWay_run {t : Thread τ σ κ ω ε α} (ht : sys.threads[i]? = some t)
    (hidle : t.session = .idle) (hawaits : Awaits answer t.program)
    (hrun : System.Run ok sys mid) : OnTheWay ok i answer sys mid := by
  induction hrun with
  | refl => exact ⟨t, ht, Or.inl ⟨hidle, hawaits⟩⟩
  | tail run meets step ih => exact onTheWay_step ih run meets step

/-- What a call that reads once has answered is what a state on the way held. -/
theorem answered_on_the_way {t : Thread τ σ κ ω ε α} (ht : sys.threads[i]? = some t)
    (hidle : t.session = .idle) (hawaits : Awaits answer t.program)
    (hrun : System.Run ok sys sys') {r : α} (hanswer : answerOf sys' i = some r) :
    ∃ seen, System.Run ok sys seen ∧ System.Run ok seen sys' ∧ r = answer seen.store := by
  obtain ⟨u, hu, hresult⟩ := answerOf_eq_some.mp hanswer
  obtain ⟨v, hv, hphase⟩ := onTheWay_run ht hidle hawaits hrun
  obtain rfl : u = v := Option.some.inj (hu.symm.trans hv)
  rw [hresult] at hphase
  obtain ⟨-, hwaits⟩ | ⟨seen, hbefore, hafter, hsettles⟩ := hphase
  · exact hwaits.elim
  · exact ⟨seen, hbefore, hafter, hsettles sys'.store trivial⟩

/-- A call that does not move is as it was. -/
theorem untouched (hok : ∀ sys a, ok sys a → System.mover a ≠ i) (hrun : System.Run ok sys sys') :
    sys'.threads[i]? = sys.threads[i]? := by
  induction hrun with
  | refl => rfl
  | @tail mid next a _ meets step ih =>
    obtain ⟨t, p, ses, ws, -, -, rfl⟩ := System.step_eq_some.mp step
    rw [← ih]
    exact List.getElem?_set_ne (hok mid a meets)

end NexaStays.ReadPoints
