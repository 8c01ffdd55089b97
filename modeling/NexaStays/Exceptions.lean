import NexaStays.Embedding
import NexaStays.EntitySave

/-!
# What a program throws

`Throws E`: every exception that the program may end with satisfies `E`, in whatever store it
runs and whichever statements fail.
-/
namespace NexaStays.Exceptions

open NexaStays.Transactions NexaStays.Embedding NexaStays.EntitySave NexaStays.Phases

variable {τ σ κ ω ε α β : Type}

def Throws (E : ε → Prop) : Program σ κ ω ε α → Prop
  | .pure _ | .halt => True
  | .throw e => E e
  | .select k err | .lock _ k err | .update _ k err => (∀ s, Throws E (k s)) ∧ Throws E err
  | .insert _ k err => (∀ n, Throws E (k n)) ∧ Throws E err
  | .choose k => ∀ n, Throws E (k n)
  | .emit _ k => ∀ s, Throws E (k s)
  | .start k | .rollback k => Throws E k
  | .commit k err => Throws E k ∧ Throws E err

section Rules

variable {E : ε → Prop} {e : ε}

theorem Throws.pure {a : α} : Throws E (Pure.pure a : Program σ κ ω ε α) := trivial

theorem Throws.throw (he : E e) : Throws E (.throw e : Program σ κ ω ε α) := he

theorem Throws.choose {k : ℕ → Program σ κ ω ε α} (h : ∀ n, Throws E (k n)) :
    Throws E (.choose k) := h

theorem Throws.bind {p : Program σ κ ω ε α} {k : α → Program σ κ ω ε β} (h : Throws E p)
    (hk : ∀ a, Throws E (k a)) : Throws E (p >>= k) := by
  have hhandle : Throws E (p.handle k .throw) := by
    induction p with
    | pure a => exact hk a
    | throw e => exact h
    | halt => trivial
    | select k' err ihk iherr | lock key k' err ihk iherr | update ws k' err ihk iherr =>
      exact ⟨fun s => ihk s (h.1 s), iherr h.2⟩
    | insert row k' err ihk iherr => exact ⟨fun n => ihk n (h.1 n), iherr h.2⟩
    | choose k' ih => exact fun n => ih n (h n)
    | emit ws k' ih => exact fun s => ih s (h s)
    | start k' ih | rollback k' ih => exact ih h
    | commit k' err ihk iherr => exact ⟨ihk h.1, iherr h.2⟩
  exact hhandle

theorem Throws.query {f : σ → α} (he : E e) :
    Throws E (Program.query e f : Program σ κ ω ε α) := ⟨fun _ => trivial, he⟩

theorem Throws.findOne {f : σ → List α} (he : E e) :
    Throws E (Program.findOne e f : Program σ κ ω ε (Option α)) := fun _ => Throws.query he

theorem Throws.receive : Throws E (Program.receive : Program σ κ ω ε ℕ) := fun _ => trivial

theorem Throws.writeRows {ws : σ → List ω} (he : E e) :
    Throws E (Program.writeRows e ws : Program σ κ ω ε (List ω)) := ⟨fun _ => trivial, he⟩

theorem Throws.insertRow {row : ℕ → ω} (he : E e) :
    Throws E (Program.insertRow e row : Program σ κ ω ε ℕ) := ⟨fun _ => trivial, he⟩

theorem Throws.require {p : Prop} [Decidable p] (he : ¬p → E e) :
    Throws E (Program.require p e : Program σ κ ω ε Unit) := by
  by_cases hp : p
  · rw [Program.require, if_pos hp]
    trivial
  · rw [Program.require, if_neg hp]
    exact he hp

theorem Throws.expect {o : Option α} (he : E e) :
    Throws E (Program.expect o e : Program σ κ ω ε α) := by
  cases o with
  | none => exact he
  | some a => trivial

theorem Throws.ofExcept {x : Except ε α} (h : ∀ e, x = .error e → E e) :
    Throws E (Program.ofExcept x : Program σ κ ω ε α) := by
  cases x with
  | ok a => trivial
  | error e => exact h e rfl

theorem Throws.saveEntity {ρ : Type} [DecidableEq ρ] [Columns ρ] {table : Saved σ ω ρ} {new : ρ}
    (he : E e) : Throws E (saveEntity table e new : Program σ κ ω ε Unit) := by
  refine (Throws.query he).bind fun found => ?_
  cases found with
  | none => exact (Throws.writeRows he).bind fun _ => trivial
  | some old =>
    by_cases hsame : old = new
    · simp only [if_pos hsame]
      trivial
    · simp only [if_neg hsame]
      exact (Throws.writeRows he).bind fun _ => trivial

/-- A program on a part of the store throws what its exceptions are there. -/
theorem throws_within {σ' κ' ω' ε' : Type} [Storage σ κ ω] [Storage σ' κ' ω']
    (part : Part σ σ' κ κ' ω ω' ε ε') {E : ε' → Prop} (h : ∀ e, E (part.error e))
    (p : Program σ κ ω ε α) : Throws E (within part p) := by
  induction p with
  | pure a => trivial
  | throw e => exact h e
  | halt => trivial
  | select k err ihk iherr | lock key k err ihk iherr | update ws k err ihk iherr =>
    exact ⟨fun s => ihk _, iherr⟩
  | insert row k err ihk iherr => exact ⟨ihk, iherr⟩
  | choose k ih => exact ih
  | emit ws k ih => exact fun s => ih _
  | start k ih | rollback k ih => exact ih
  | commit k err ihk iherr => exact ⟨ihk, iherr⟩

end Rules

section Runs

variable [Storage σ κ ω] {E : ε → Prop}

theorem Throws.advance {free : κ → Bool} {n : ℕ} {p p' : Program σ κ ω ε α}
    {ses ses' : Session κ ω} {s : σ} {ws : List ω} (h : Throws E p)
    (hadvance : Transactions.advance free n s ses p = some (p', ses', ws)) : Throws E p' := by
  cases p with
  | pure | throw | halt => cases hadvance
  | select k err => cases hadvance; exact h.1 _
  | lock key k err | update w k err | insert row k err =>
    simp only [Transactions.advance, Option.ite_none_right_eq_some, Option.some.injEq,
      Prod.mk.injEq] at hadvance
    obtain ⟨-, rfl, -⟩ := hadvance
    exact h.1 _
  | emit w k =>
    simp only [Transactions.advance, Option.ite_none_right_eq_some, Option.some.injEq,
      Prod.mk.injEq] at hadvance
    obtain ⟨-, rfl, -⟩ := hadvance
    exact h _
  | choose k => cases hadvance; exact h n
  | start k | rollback k => cases hadvance; exact h
  | commit k err => cases hadvance; exact h.1

omit [Storage σ κ ω] in
theorem Throws.failing {p p' : Program σ κ ω ε α} {ses ses' : Session κ ω} {ws : List ω}
    (h : Throws E p) (hfailing : Transactions.failing ses p = some (p', ses', ws)) :
    Throws E p' := by
  cases p with
  | select k err | lock key k err | update w k err | insert row k err | commit k err =>
    cases hfailing
    exact h.2
  | _ => cases hfailing

variable [DecidableEq κ]

theorem throws_move {sys : System τ σ κ ω ε α} {t : Thread τ σ κ ω ε α} {a : Action}
    {p : Program σ κ ω ε α} {ses : Session κ ω} {ws : List ω} (h : Throws E t.program)
    (hmove : sys.move t a = some (p, ses, ws)) : Throws E p := by
  cases a with
  | run i n => exact h.advance hmove
  | fail i => exact h.failing hmove
  | crash i =>
    cases hmove
    trivial

/-- What the calls of a run may throw. -/
theorem throws_run {sys sys' : System τ σ κ ω ε α}
    (h : ∀ t ∈ sys.threads, Throws E t.program)
    (hrun : System.Run (fun _ _ => True) sys sys') : ∀ t ∈ sys'.threads, Throws E t.program := by
  induction hrun with
  | refl => exact h
  | tail _ _ hstep ih =>
    obtain ⟨t, p, ses, ws, ht, hmove, rfl⟩ := System.step_eq_some.mp hstep
    intro u hu
    obtain hmem | rfl := List.mem_or_eq_of_mem_set hu
    · exact ih u hmem
    · exact throws_move (ih t (List.mem_of_getElem? ht)) hmove

/-- What a call that is alone may throw. -/
theorem throws_solo {c : τ} {s : σ} {p : Program σ κ ω ε α} {sys : System τ σ κ ω ε α} {e : ε}
    {t : Thread τ σ κ ω ε α} (h : Throws E p)
    (hrun : System.Run (fun _ _ => True) (Sequences.solo c s p) sys) (ht : t ∈ sys.threads)
    (hprogram : t.program = .throw e) : E e := by
  have hthrows := throws_run (fun u hu => by
    rw [List.mem_singleton.mp hu]
    exact h) hrun t ht
  rwa [hprogram] at hthrows

end Runs

-- a statement about a long program is not to be unfolded into its steps
attribute [irreducible] Throws

end NexaStays.Exceptions
