import NexaStays.Monitors
import NexaStays.Phases

/-!
# What is left of a program

What statements leave of a program with a continuation is left of the program itself, or of
what follows where it returns or throws. A monitor that stays in one state accepts all that
may be left of a program that it accepts.
-/
namespace NexaStays.Residues

open NexaStays.Transactions NexaStays.SoloRuns NexaStays.Monitors NexaStays.Phases

variable {τ γ σ κ ω ε α β : Type} [Storage σ κ ω]

/-- `q` is what is left of `p` after some of its statements, none of which has failed. -/
def Remainder : Program σ κ ω ε α → Program σ κ ω ε α → Prop :=
  Relation.ReflTransGen fun p q => ∃ free n s ses ses' ws, advance free n s ses p = some (q, ses', ws)

section Statements

variable {p q : Program σ κ ω ε α} {r : Program σ κ ω ε β} {f : α → Program σ κ ω ε β}
  {g : ε → Program σ κ ω ε β} {ses ses' : Session κ ω} {ws : List ω}

/-- What is left after the next statement of a program with a continuation. -/
theorem advance_handle {free : κ → Bool} {n : ℕ} {s : σ} (hp : Active p)
    (h : advance free n s ses (p.handle f g) = some (r, ses', ws)) :
    ∃ q, advance free n s ses p = some (q, ses', ws) ∧ r = q.handle f g := by
  cases p with
  | pure | throw | halt => exact hp.elim
  | select | choose | start | commit | rollback =>
    simp only [Program.handle, advance, Option.some.injEq, Prod.mk.injEq] at h
    obtain ⟨rfl, rfl, rfl⟩ := h
    exact ⟨_, rfl, rfl⟩
  | lock | update | insert | emit =>
    simp only [Program.handle, advance, Option.ite_none_right_eq_some, Option.some.injEq,
      Prod.mk.injEq] at h
    obtain ⟨hfree, rfl, rfl, rfl⟩ := h
    exact ⟨_, by rw [advance, if_pos hfree], rfl⟩

omit [Storage σ κ ω] in
theorem failing_handle (hp : Active p) (h : failing ses (p.handle f g) = some (r, ses', ws)) :
    ∃ q, failing ses p = some (q, ses', ws) ∧ r = q.handle f g := by
  cases p with
  | pure | throw | halt => exact hp.elim
  | select | lock | update | insert | commit =>
    simp only [Program.handle, failing, Option.some.injEq, Prod.mk.injEq] at h
    obtain ⟨rfl, rfl, rfl⟩ := h
    exact ⟨_, rfl, rfl⟩
  | choose | emit | start | rollback => simp [Program.handle, failing] at h

theorem next_handle (hp : Active p) (h : Next (p.handle f g) r) :
    ∃ q, Next p q ∧ r = q.handle f g := by
  obtain ⟨free, n, s, ses, ses', ws, hstep⟩ | ⟨ses, ses', ws, hstep⟩ := h
  · obtain ⟨q, hq, rfl⟩ := advance_handle hp hstep
    exact ⟨q, Or.inl ⟨free, n, s, ses, ses', ws, hq⟩, rfl⟩
  · obtain ⟨q, hq, rfl⟩ := failing_handle hp hstep
    exact ⟨q, Or.inr ⟨ses, ses', ws, hq⟩, rfl⟩

/-- A program that goes on has not ended. -/
theorem Next.active (h : Next p q) : Active p := by
  obtain ⟨_, _, _, _, _, _, hstep⟩ | ⟨_, _, _, hstep⟩ := h
  · cases p with
    | pure | throw | halt => simp [advance] at hstep
    | _ => trivial
  · cases p with
    | pure | throw | halt => simp [failing] at hstep
    | _ => trivial

/-- What is left of a program with a continuation. -/
theorem residue_handle (h : Residue (p.handle f g) r) :
    (∃ q, Residue p q ∧ r = q.handle f g) ∨ (∃ a, Residue p (.pure a) ∧ Residue (f a) r) ∨
      ∃ e, Residue p (.throw e) ∧ Residue (g e) r := by
  induction h with
  | refl => exact Or.inl ⟨p, .refl, rfl⟩
  | tail _ hnext ih =>
    obtain ⟨q, hq, rfl⟩ | ⟨a, ha, hrest⟩ | ⟨e, he, hrest⟩ := ih
    · by_cases hactive : Active q
      · obtain ⟨q', hq', rfl⟩ := next_handle hactive hnext
        exact Or.inl ⟨q', hq.tail hq', rfl⟩
      · cases q with
        | pure a => exact Or.inr (Or.inl ⟨a, hq, .single hnext⟩)
        | throw e => exact Or.inr (Or.inr ⟨e, hq, .single hnext⟩)
        | halt => exact (Next.active hnext).elim
        | _ => exact absurd trivial hactive
    · exact Or.inr (Or.inl ⟨a, ha, hrest.tail hnext⟩)
    · exact Or.inr (Or.inr ⟨e, he, hrest.tail hnext⟩)

theorem eq_of_residue (hp : ¬Active p) (h : Residue p q) : q = p := by
  obtain rfl | ⟨_, hnext, -⟩ := Relation.ReflTransGen.cases_head h
  · rfl
  · exact absurd (Next.active hnext) hp

theorem residue_select {k : σ → Program σ κ ω ε α} {err : Program σ κ ω ε α}
    (h : Residue (.select k err) q) :
    q = .select k err ∨ (∃ s, Residue (k s) q) ∨ Residue err q := by
  obtain rfl | ⟨p, ⟨_, _, s, ses, _, _, hstep⟩ | ⟨_, _, _, hstep⟩, hrest⟩ :=
    Relation.ReflTransGen.cases_head h
  · exact Or.inl rfl
  · simp only [advance, Option.some.injEq, Prod.mk.injEq] at hstep
    exact Or.inr (Or.inl ⟨_, hstep.1 ▸ hrest⟩)
  · simp only [failing, Option.some.injEq, Prod.mk.injEq] at hstep
    exact Or.inr (Or.inr (hstep.1 ▸ hrest))

theorem residue_update {writes : σ → List ω} {k : σ → Program σ κ ω ε α}
    {err : Program σ κ ω ε α} (h : Residue (.update writes k err) q) :
    q = .update writes k err ∨ (∃ s, Residue (k s) q) ∨ Residue err q := by
  obtain rfl | ⟨p, ⟨_, _, s, ses, _, _, hstep⟩ | ⟨_, _, _, hstep⟩, hrest⟩ :=
    Relation.ReflTransGen.cases_head h
  · exact Or.inl rfl
  · simp only [advance, Option.ite_none_right_eq_some, Option.some.injEq, Prod.mk.injEq] at hstep
    exact Or.inr (Or.inl ⟨_, hstep.2.1 ▸ hrest⟩)
  · simp only [failing, Option.some.injEq, Prod.mk.injEq] at hstep
    exact Or.inr (Or.inr (hstep.1 ▸ hrest))

/-- A step of a system leaves a residue of the call's program, or kills the call. -/
theorem next_of_move [DecidableEq κ] {sys : System τ σ κ ω ε α} {t : Thread τ σ κ ω ε α}
    {a : Action} (h : sys.move t a = some (q, ses, ws)) : Next t.program q ∨ q = .halt := by
  cases a with
  | run i n => exact Or.inl (Or.inl ⟨_, _, _, _, _, _, h⟩)
  | fail i => exact Or.inl (Or.inr ⟨_, _, _, h⟩)
  | crash i => exact Or.inr (Prod.mk.inj (Option.some.inj h)).1.symm

end Statements

section Monitors

variable {m m' : Monitor γ σ} {Q : Except ε α → γ → Prop} {g : γ} {p q : Program σ κ ω ε α}

/-- What a monitor accepts that stays in a state, after a statement. -/
theorem follows_advance {free : κ → Bool} {n : ℕ} {s : σ} {ses ses' : Session κ ω} {ws : List ω}
    (hnext : ∀ s s', g ∈ m.next g s s') (h : Follows m Q p g)
    (hstep : Transactions.advance free n s ses p = some (q, ses', ws)) : Follows m Q q g := by
  cases p with
  | pure | throw | halt => simp [Transactions.advance] at hstep
  | select | choose =>
    simp only [Transactions.advance, Option.some.injEq, Prod.mk.injEq] at hstep
    obtain ⟨rfl, -⟩ := hstep
    first | exact (h.1 _).2 g (hnext _ _) | exact (h s n).2 g (hnext _ _)
  | lock | update | insert | emit =>
    simp only [Transactions.advance, Option.ite_none_right_eq_some, Option.some.injEq,
      Prod.mk.injEq] at hstep
    obtain ⟨-, rfl, -⟩ := hstep
    first
    | exact (h.1 _).2 g (hnext _ _)
    | exact (h.1 s n).2 g (hnext _ _)
    | exact (h _).2 g (hnext _ _)
  | start | commit | rollback => exact h.elim

/-- A monitor that stays in a state accepts what is left of what it accepts there. -/
theorem follows_remainder (hnext : ∀ s s', g ∈ m.next g s s') (h : Follows m Q p g)
    (hpq : Remainder p q) : Follows m Q q g := by
  induction hpq with
  | refl => exact h
  | tail _ hstep ih =>
    obtain ⟨free, n, s, ses, ses', ws, hstep⟩ := hstep
    exact follows_advance hnext ih hstep

/-- The same after failures, if the monitor stays in the state after these as well. -/
theorem follows_residue (hnext : ∀ s s', g ∈ m.next g s s') (hfailed : g ∈ m.failed g)
    (h : Follows m Q p g) (hpq : Residue p q) : Follows m Q q g := by
  induction hpq with
  | refl => exact h
  | @tail p q _ hstep ih =>
    obtain ⟨free, n, s, ses, ses', ws, hstep⟩ | ⟨ses, ses', ws, hstep⟩ := hstep
    · exact follows_advance hnext ih hstep
    · cases p with
      | select | lock | update | insert =>
        simp only [failing, Option.some.injEq, Prod.mk.injEq] at hstep
        obtain ⟨rfl, -⟩ := hstep
        exact ih.2 g hfailed
      | commit => exact ih.elim
      | pure | throw | halt | choose | emit | start | rollback => simp [failing] at hstep

/-- A monitor that rejects less and goes on in fewer cases accepts more. -/
theorem Follows.coarser (hrejects : ∀ g s s', m'.rejects g s s' → m.rejects g s s')
    (hnext : ∀ g s s', ∀ g' ∈ m'.next g s s', g' ∈ m.next g s s')
    (hfailed : ∀ g, ∀ g' ∈ m'.failed g, g' ∈ m.failed g)
    (hstopped : ∀ g, m.stopped g → m'.stopped g) {p : Program σ κ ω ε α} {g : γ}
    (h : Follows m Q p g) : Follows m' Q p g := by
  have haccepts : ∀ {P P' : γ → Prop} {g : γ} {s s' : σ}, (∀ g, P g → P' g) →
      m.Accepts P g s s' → m'.Accepts P' g s s' := fun hP hm =>
    ⟨fun hr => hm.1 (hrejects _ _ _ hr), fun g' hg' => hP g' (hm.2 g' (hnext _ _ _ g' hg'))⟩
  induction p generalizing g with
  | pure | throw => exact h
  | halt => exact hstopped g h
  | select k err ihk iherr | lock key k err ihk iherr | update ws k err ihk iherr =>
    exact ⟨fun s => haccepts (fun _ => ihk s) (h.1 s),
      fun g' hg' => iherr (h.2 g' (hfailed g g' hg'))⟩
  | insert row k err ihk iherr =>
    exact ⟨fun s n => haccepts (fun _ => ihk n) (h.1 s n),
      fun g' hg' => iherr (h.2 g' (hfailed g g' hg'))⟩
  | choose k ih => exact fun s n => haccepts (fun _ => ih n) (h s n)
  | emit ws k ih => exact fun s => haccepts (fun _ => ih s) (h s)
  | start | commit | rollback => exact h.elim

end Monitors

end NexaStays.Residues
