import Mathlib.Logic.Relation
import NexaStays.Transactions

/-!
# Phases of concurrent calls

A `Protocol` describes the calls of a system by phases: where in its program a call in a
phase stands, what it may assume of the committed store, and how a statement takes it to
another phase. `Refines` says that a program follows the protocol, one statement after the
other, whatever the store is. What the moves of the protocol keep, of the phases of all
calls and the store, then holds in every state of a run.
-/
namespace NexaStays.Phases

open NexaStays.Transactions

section Parts

variable {σ κ ω ε α β : Type} [Storage σ κ ω]

/-- `q` is what a statement of `p`, or its failure, leaves of it. -/
def Next (p q : Program σ κ ω ε β) : Prop :=
  (∃ free n s ses ses' ws, advance free n s ses p = some (q, ses', ws)) ∨
    ∃ ses ses' ws, failing ses p = some (q, ses', ws)

/-- `q` is what is left of `p` after some of its statements. -/
def Residue : Program σ κ ω ε β → Program σ κ ω ε β → Prop := Relation.ReflTransGen Next

section Residues

variable {q err : Program σ κ ω ε β} {ws : σ → List ω} {row : ℕ → ω}

theorem residue_pure {b : β} (h : Residue (.pure b : Program σ κ ω ε β) q) : q = .pure b := by
  obtain rfl | ⟨p, ⟨_, _, _, _, _, _, hstep⟩ | ⟨_, _, _, hstep⟩, -⟩ :=
    Relation.ReflTransGen.cases_head h
  · rfl
  · simp [advance] at hstep
  · simp [failing] at hstep

theorem residue_choose {k : ℕ → Program σ κ ω ε β} (h : Residue (.choose k) q) :
    q = .choose k ∨ ∃ n, Residue (k n) q := by
  obtain rfl | ⟨p, ⟨_, n, _, _, _, _, hstep⟩ | ⟨_, _, _, hstep⟩, hrest⟩ :=
    Relation.ReflTransGen.cases_head h
  · exact Or.inl rfl
  · simp only [advance, Option.some.injEq, Prod.mk.injEq] at hstep
    exact Or.inr ⟨n, hstep.1 ▸ hrest⟩
  · simp [failing] at hstep

theorem residue_emit {k : σ → Program σ κ ω ε β} (h : Residue (.emit ws k) q) :
    q = .emit ws k ∨ ∃ v, Residue (k v) q := by
  obtain rfl | ⟨p, ⟨_, _, s, ses, _, _, hstep⟩ | ⟨_, _, _, hstep⟩, hrest⟩ :=
    Relation.ReflTransGen.cases_head h
  · exact Or.inl rfl
  · simp only [advance, Option.ite_none_right_eq_some, Option.some.injEq, Prod.mk.injEq] at hstep
    exact Or.inr ⟨_, hstep.2.1 ▸ hrest⟩
  · simp [failing] at hstep

end Residues

/-- There is a statement to run. -/
def Active : Program σ κ ω ε β → Prop
  | .pure _ | .throw _ | .halt => False
  | _ => True

/-- The next statement of `p` is one of the block. -/
def Inside (block : Program σ κ ω ε β) (p : Program σ κ ω ε α) : Prop :=
  ∃ q f g, Residue block q ∧ Active q ∧ p = q.handle f g

theorem inside_of_residue {block q : Program σ κ ω ε β} {f : β → Program σ κ ω ε α}
    {g : ε → Program σ κ ω ε α} (h : Residue block q) (hq : Active q) :
    Inside block (q.handle f g) :=
  ⟨q, f, g, h, hq, rfl⟩

omit [Storage σ κ ω] in
theorem handle_pure_throw (p : Program σ κ ω ε β) : p.handle .pure .throw = p := by
  induction p with
  | pure | throw | halt => rfl
  | select k err ihk iherr | lock key k err ihk iherr | update ws k err ihk iherr
  | insert row k err ihk iherr => simp only [Program.handle, ihk, iherr]
  | choose k ih | emit ws k ih => simp only [Program.handle, ih]
  | start k ih | rollback k ih => simp only [Program.handle, ih]
  | commit k err ihk iherr => simp only [Program.handle, ihk, iherr]

/-- What is left of a block is inside of it. -/
theorem inside_self {block q : Program σ κ ω ε β} (h : Residue block q) (hq : Active q) :
    Inside block q :=
  ⟨q, .pure, .throw, h, hq, (handle_pure_throw q).symm⟩

/-- A program that starts with the block. -/
theorem inside_start (block : Program σ κ ω ε β) {f : β → Program σ κ ω ε α}
    {g : ε → Program σ κ ω ε α} (h : Active block) : Inside block (block.handle f g) :=
  inside_of_residue .refl h

omit [Storage σ κ ω] in
theorem Active.of_handle {p : Program σ κ ω ε β} {f : β → Program σ κ ω ε α}
    {g : ε → Program σ κ ω ε α} (h : Active p) : Active (p.handle f g) := by
  cases p <;> first | exact h.elim | trivial

omit [Storage σ κ ω] in
theorem handle_handle {ξ : Type} (p : Program σ κ ω ε β) (f : β → Program σ κ ω ε α)
    (g : ε → Program σ κ ω ε α) (f' : α → Program σ κ ω ε ξ) (g' : ε → Program σ κ ω ε ξ) :
    (p.handle f g).handle f' g' =
      p.handle (fun b => (f b).handle f' g') fun e => (g e).handle f' g' := by
  induction p with
  | pure | throw | halt => rfl
  | select k err ihk iherr | lock key k err ihk iherr | update ws k err ihk iherr
  | insert row k err ihk iherr => simp only [Program.handle, ihk, iherr]
  | choose k ih | emit ws k ih => simp only [Program.handle, ih]
  | start k ih | rollback k ih => simp only [Program.handle, ih]
  | commit k err ihk iherr => simp only [Program.handle, ihk, iherr]

/-- Inside of the block, whatever comes after it. -/
theorem Inside.handle {ξ : Type} {block : Program σ κ ω ε β} {p : Program σ κ ω ε α}
    {f : α → Program σ κ ω ε ξ} {g : ε → Program σ κ ω ε ξ} (h : Inside block p) :
    Inside block (p.handle f g) := by
  obtain ⟨q, f', g', hres, hq, rfl⟩ := h
  rw [handle_handle]
  exact inside_of_residue hres hq

/-- A program that has ended is inside of nothing. -/
theorem Inside.active {block : Program σ κ ω ε β} {p : Program σ κ ω ε α} (h : Inside block p) :
    Active p := by
  obtain ⟨q, f, g, -, hq, rfl⟩ := h
  exact hq.of_handle

end Parts

/-- What a call has returned. -/
def answerOf {τ σ κ ω ε α : Type} (sys : System τ σ κ ω ε α) (i : ℕ) : Option α :=
  sys.threads[i]?.bind fun t => t.program.result

theorem answerOf_eq_some {τ σ κ ω ε α : Type} {sys : System τ σ κ ω ε α} {i : ℕ} {a : α} :
    answerOf sys i = some a ↔ ∃ t, sys.threads[i]? = some t ∧ t.program = .pure a := by
  simp [answerOf, Option.bind_eq_some_iff, Program.result_eq_some]

/-- Calls that have not started. -/
def launch {τ σ κ ω ε α : Type} (program : τ → Program σ κ ω ε α) (s : σ) (calls : List τ) :
    System τ σ κ ω ε α :=
  ⟨s, calls.map fun c => ⟨c, .idle, program c⟩⟩

/-- A call that has not started has its whole program before it. -/
theorem program_of_launch {τ σ κ ω ε α : Type} {program : τ → Program σ κ ω ε α} {s : σ}
    {calls : List τ} {i : ℕ} {t : Thread τ σ κ ω ε α}
    (h : (launch program s calls).threads[i]? = some t) : t.program = program t.call := by
  simp only [launch, List.getElem?_map, Option.map_eq_some_iff] at h
  obtain ⟨c, -, rfl⟩ := h
  rfl

theorem eq_run_of_mem_turns {i start n : ℕ} {a : Action} (h : a ∈ System.turns i start n) :
    ∃ m, a = .run i m := by
  simp only [System.turns, List.mem_map] at h
  obtain ⟨m, -, rfl⟩ := h
  exact ⟨m, rfl⟩

section Schedules

variable {τ σ κ ω ε α : Type} [Storage σ κ ω] [DecidableEq κ]

/-- The system after a schedule, as it was if the schedule cannot be run. -/
def after (sys : System τ σ κ ω ε α) (as : List Action) : System τ σ κ ω ε α :=
  (System.exec (fun _ _ => True) sys as).getD sys

theorem run_after {sys : System τ σ κ ω ε α} {as : List Action}
    (h : (System.exec (fun _ _ => True) sys as).isSome = true) :
    System.Run (fun _ _ => True) sys (after sys as) := by
  obtain ⟨sys', hexec⟩ := Option.isSome_iff_exists.mp h
  rw [after, hexec]
  exact System.run_of_exec hexec

theorem step_after {sys : System τ σ κ ω ε α} {a : Action} (h : (sys.step a).isSome = true) :
    sys.step a = some (after sys [a]) := by
  obtain ⟨sys', hstep⟩ := Option.isSome_iff_exists.mp h
  simp [after, System.exec, hstep]

/-- A step leaves the other calls alone. -/
theorem step_others {sys sys' : System τ σ κ ω ε α} {a : Action} {i : ℕ}
    (hstep : sys.step a = some sys') (h : System.mover a ≠ i) :
    sys'.threads[i]? = sys.threads[i]? := by
  obtain ⟨t, p, ses, ws, -, -, rfl⟩ := System.step_eq_some.mp hstep
  exact List.getElem?_set_ne h

/-- A schedule leaves the calls alone that it does not name. -/
theorem after_others {sys : System τ σ κ ω ε α} {as : List Action} {i : ℕ}
    (h : ∀ a ∈ as, System.mover a ≠ i) : (after sys as).threads[i]? = sys.threads[i]? := by
  have hexec : ∀ {as : List Action} {sys sys' : System τ σ κ ω ε α},
      (∀ a ∈ as, System.mover a ≠ i) → System.exec (fun _ _ => True) sys as = some sys' →
      sys'.threads[i]? = sys.threads[i]? := by
    intro as
    induction as with
    | nil =>
      intro sys sys' _ h
      rw [Option.some.inj h]
    | cons a as ih =>
      intro sys sys' hne h
      rw [System.exec, if_pos trivial] at h
      obtain ⟨mid, hstep, hrest⟩ := Option.bind_eq_some_iff.mp h
      rw [ih (fun b hb => hne b (List.mem_cons_of_mem a hb)) hrest,
        step_others hstep (hne a (by simp))]
  cases hsys : System.exec (fun _ _ => True) sys as with
  | none => rw [after, hsys, Option.getD_none]
  | some sys' =>
    rw [after, hsys, Option.getD_some]
    exact hexec h hsys

/-- A schedule of one call, which meets `ok` while the others are as they were. -/
theorem run_solo {ok : System τ σ κ ω ε α → Action → Prop} {sys : System τ σ κ ω ε α} {i : ℕ}
    {as : List Action} (hexec : (System.exec (fun _ _ => True) sys as).isSome = true)
    (hmover : ∀ a ∈ as, System.mover a = i)
    (hok : ∀ sys' a, a ∈ as → (∀ j, j ≠ i → sys'.threads[j]? = sys.threads[j]?) → ok sys' a) :
    System.Run ok sys (after sys as) := by
  have hrun : ∀ {as' : List Action} {mid sys' : System τ σ κ ω ε α}, (∀ a ∈ as', a ∈ as) →
      (∀ j, j ≠ i → mid.threads[j]? = sys.threads[j]?) →
      System.exec (fun _ _ => True) mid as' = some sys' → System.Run ok mid sys' := by
    intro as'
    induction as' with
    | nil =>
      intro mid sys' _ _ h
      rw [Option.some.inj h]
      exact .refl _
    | cons a as' ih =>
      intro mid sys' hsub hsame h
      rw [System.exec, if_pos trivial] at h
      obtain ⟨next, hstep, hrest⟩ := Option.bind_eq_some_iff.mp h
      have hmem := hsub a (by simp)
      have hnext : ∀ j, j ≠ i → next.threads[j]? = sys.threads[j]? := by
        intro j hj
        rw [step_others hstep (by rw [hmover a hmem]; exact Ne.symm hj), hsame j hj]
      exact System.Run.trans (.tail (.refl _) (hok mid a hmem hsame) hstep)
        (ih (fun b hb => hsub b (by simp [hb])) hnext hrest)
  obtain ⟨sys', h⟩ := Option.isSome_iff_exists.mp hexec
  rw [after, h]
  exact hrun (fun a ha => ha) (fun _ _ => rfl) h

end Schedules

/-- The phases of the calls: a statement of a call in phase `g` that publishes `ws` may
take it where `Step` says, a failing statement where `Fail` says, and a call that is
killed is `dead`. -/
structure Protocol (σ κ ω ε α γ : Type) where
  At : γ → Program σ κ ω ε α → Prop
  Knows : γ → σ → Prop
  Step : γ → σ → List ω → γ → Prop
  Fail : γ → γ → Prop
  dead : γ

namespace Protocol

variable {τ σ κ ω ε α β ξ γ : Type} [Storage σ κ ω] (P : Protocol σ κ ω ε α γ)

/-- A statement that publishes `ws` changes nothing and stays in the phase, or takes a step. -/
def Goes (g : γ) (s : σ) (ws : List ω) (R : γ → Prop) : Prop :=
  ws = [] ∧ R g ∨ ∃ g', P.Step g s ws g' ∧ R g'

/-- A failing statement stays in the phase or leaves it. -/
def Fails (g : γ) (R : γ → Prop) : Prop := R g ∨ ∃ g', P.Fail g g' ∧ R g'

/-- The program follows the protocol from a phase on, and `Q` holds where it ends. The
whole program of the call is `ctx` of this part of it. -/
def Refines (ctx : Program σ κ ω ε β → Program σ κ ω ε α)
    (Q : Except ε β → Session κ ω → γ → Prop) : Program σ κ ω ε β → Session κ ω → γ → Prop
  | .pure b, ses, g => Q (.ok b) ses g
  | .throw e, ses, g => Q (.error e) ses g
  | .halt, _, g => g = P.dead
  | .select k err, ses, g => P.At g (ctx (.select k err)) ∧
    (∀ s, P.Knows g s → P.Goes g s [] (Refines ctx Q (k (ses.view s)) ses)) ∧
    P.Fails g (Refines ctx Q err ses)
  | .lock key k err, ses, g => P.At g (ctx (.lock key k err)) ∧
    (∀ s, P.Knows g s → P.Goes g s []
      (Refines ctx Q (k (ses.view s)) (ses.acquire (ses.view s) key))) ∧
    P.Fails g (Refines ctx Q err ses)
  | .update ws k err, ses, g => P.At g (ctx (.update ws k err)) ∧
    (∀ s, P.Knows g s → P.Goes g s (ses.visible (ws (ses.view s)))
      (Refines ctx Q (k (ses.view s)) (ses.stage (σ := σ) (ws (ses.view s))))) ∧
    P.Fails g (Refines ctx Q err ses)
  | .insert row k err, ses, g => P.At g (ctx (.insert row k err)) ∧
    (∀ s n, P.Knows g s → Storage.present (ses.view s) (Storage.keyOf σ (row n)) = false →
      P.Goes g s (ses.visible [row n]) (Refines ctx Q (k n) (ses.stage (σ := σ) [row n]))) ∧
    P.Fails g (Refines ctx Q err ses)
  | .choose k, ses, g => P.At g (ctx (.choose k)) ∧
    ∀ s n, P.Knows g s → P.Goes g s [] (Refines ctx Q (k n) ses)
  | .emit ws k, ses, g => P.At g (ctx (.emit ws k)) ∧
    ∀ s, P.Knows g s → P.Goes g s (ws (ses.view s)) (Refines ctx Q (k (ses.view s)) ses)
  | .start k, _, g => P.At g (ctx (.start k)) ∧
    ∀ s, P.Knows g s → P.Goes g s [] (Refines ctx Q k .opened)
  | .commit k err, ses, g => P.At g (ctx (.commit k err)) ∧
    (∀ s, P.Knows g s → P.Goes g s ses.pending (Refines ctx Q k .idle)) ∧
    P.Fails g (Refines ctx Q err .idle)
  | .rollback k, _, g => P.At g (ctx (.rollback k)) ∧
    ∀ s, P.Knows g s → P.Goes g s [] (Refines ctx Q k .idle)

variable {P} {ctx : Program σ κ ω ε β → Program σ κ ω ε α} {g : γ} {s : σ} {ws : List ω}

omit [Storage σ κ ω] in
theorem Goes.mono {R R' : γ → Prop} (h : P.Goes g s ws R) (hR : ∀ g', R g' → R' g') :
    P.Goes g s ws R' :=
  h.imp (fun h => ⟨h.1, hR _ h.2⟩) fun ⟨g', hstep, h⟩ => ⟨g', hstep, hR _ h⟩

omit [Storage σ κ ω] in
theorem Fails.mono {R R' : γ → Prop} (h : P.Fails g R) (hR : ∀ g', R g' → R' g') :
    P.Fails g R' :=
  h.imp (hR _) fun ⟨g', hfail, h⟩ => ⟨g', hfail, hR _ h⟩

omit [Storage σ κ ω] in
theorem Goes.stay {R : γ → Prop} (h : R g) : P.Goes g s [] R := Or.inl ⟨rfl, h⟩

omit [Storage σ κ ω] in
theorem Goes.step {R : γ → Prop} {g' : γ} (hstep : P.Step g s ws g') (h : R g') :
    P.Goes g s ws R := Or.inr ⟨g', hstep, h⟩

omit [Storage σ κ ω] in
theorem Fails.stay {R : γ → Prop} (h : R g) : P.Fails g R := Or.inl h

omit [Storage σ κ ω] in
theorem Fails.step {R : γ → Prop} {g' : γ} (hfail : P.Fail g g') (h : R g') : P.Fails g R :=
  Or.inr ⟨g', hfail, h⟩

/-- A weaker end. -/
theorem Refines.mono {Q Q' : Except ε β → Session κ ω → γ → Prop}
    (hQ : ∀ r ses g, Q r ses g → Q' r ses g) {p : Program σ κ ω ε β} {ses : Session κ ω} {g : γ}
    (h : P.Refines ctx Q p ses g) : P.Refines ctx Q' p ses g := by
  induction p generalizing ses g with
  | pure b => exact hQ _ _ _ h
  | throw e => exact hQ _ _ _ h
  | halt => exact h
  | select k err ihk iherr =>
    exact ⟨h.1, fun s hs => (h.2.1 s hs).mono fun _ => ihk _, h.2.2.mono fun _ => iherr⟩
  | lock key k err ihk iherr =>
    exact ⟨h.1, fun s hs => (h.2.1 s hs).mono fun _ => ihk _, h.2.2.mono fun _ => iherr⟩
  | update ws k err ihk iherr =>
    exact ⟨h.1, fun s hs => (h.2.1 s hs).mono fun _ => ihk _, h.2.2.mono fun _ => iherr⟩
  | insert row k err ihk iherr =>
    exact ⟨h.1, fun s n hs hn => (h.2.1 s n hs hn).mono fun _ => ihk _,
      h.2.2.mono fun _ => iherr⟩
  | choose k ih => exact ⟨h.1, fun s n hs => (h.2 s n hs).mono fun _ => ih _⟩
  | emit ws k ih => exact ⟨h.1, fun s hs => (h.2 s hs).mono fun _ => ih _⟩
  | start k ih => exact ⟨h.1, fun s hs => (h.2 s hs).mono fun _ => ih⟩
  | commit k err ihk iherr =>
    exact ⟨h.1, fun s hs => (h.2.1 s hs).mono fun _ => ihk, h.2.2.mono fun _ => iherr⟩
  | rollback k ih => exact ⟨h.1, fun s hs => (h.2 s hs).mono fun _ => ih⟩

/-- Where the first part ends, the rest follows the protocol. -/
def Then (P : Protocol σ κ ω ε α γ) (ctx : Program σ κ ω ε ξ → Program σ κ ω ε α)
    (R : Except ε ξ → Session κ ω → γ → Prop) (f : β → Program σ κ ω ε ξ)
    (h : ε → Program σ κ ω ε ξ) : Except ε β → Session κ ω → γ → Prop
  | .ok b => P.Refines ctx R (f b)
  | .error e => P.Refines ctx R (h e)

/-- The rule of `handle`. -/
theorem Refines.handle {ctx : Program σ κ ω ε ξ → Program σ κ ω ε α}
    {R : Except ε ξ → Session κ ω → γ → Prop} {f : β → Program σ κ ω ε ξ}
    {h : ε → Program σ κ ω ε ξ} {p : Program σ κ ω ε β} {ses : Session κ ω} {g : γ}
    (hp : P.Refines (fun q => ctx (q.handle f h)) (P.Then ctx R f h) p ses g) :
    P.Refines ctx R (p.handle f h) ses g := by
  induction p generalizing ses g with
  | pure b => exact hp
  | throw e => exact hp
  | halt => exact hp
  | select k err ihk iherr =>
    exact ⟨hp.1, fun s hs => (hp.2.1 s hs).mono fun _ => ihk _, hp.2.2.mono fun _ => iherr⟩
  | lock key k err ihk iherr =>
    exact ⟨hp.1, fun s hs => (hp.2.1 s hs).mono fun _ => ihk _, hp.2.2.mono fun _ => iherr⟩
  | update ws k err ihk iherr =>
    exact ⟨hp.1, fun s hs => (hp.2.1 s hs).mono fun _ => ihk _, hp.2.2.mono fun _ => iherr⟩
  | insert row k err ihk iherr =>
    exact ⟨hp.1, fun s n hs hn => (hp.2.1 s n hs hn).mono fun _ => ihk _,
      hp.2.2.mono fun _ => iherr⟩
  | choose k ih => exact ⟨hp.1, fun s n hs => (hp.2 s n hs).mono fun _ => ih _⟩
  | emit ws k ih => exact ⟨hp.1, fun s hs => (hp.2 s hs).mono fun _ => ih _⟩
  | start k ih => exact ⟨hp.1, fun s hs => (hp.2 s hs).mono fun _ => ih⟩
  | commit k err ihk iherr =>
    exact ⟨hp.1, fun s hs => (hp.2.1 s hs).mono fun _ => ihk, hp.2.2.mono fun _ => iherr⟩
  | rollback k ih => exact ⟨hp.1, fun s hs => (hp.2 s hs).mono fun _ => ih⟩

section Statements

variable {ctx : Program σ κ ω ε ξ → Program σ κ ω ε α}
  {R : Except ε ξ → Session κ ω → γ → Prop} {e : ε}

theorem Refines.bind {f : β → Program σ κ ω ε ξ} {p : Program σ κ ω ε β} {ses : Session κ ω}
    {Q : Except ε β → Session κ ω → γ → Prop}
    (hp : P.Refines (fun q => ctx (q >>= f)) Q p ses g)
    (hok : ∀ b ses g, Q (.ok b) ses g → P.Refines ctx R (f b) ses g)
    (herror : ∀ e ses g, Q (.error e) ses g → R (.error e) ses g) :
    P.Refines ctx R (p >>= f) ses g := by
  refine Refines.handle (hp.mono fun r ses g h => ?_)
  cases r with
  | ok b => exact hok b ses g h
  | error e => exact herror e ses g h

theorem Refines.query {f : σ → β} {k : β → Program σ κ ω ε ξ}
    (hat : P.At g (ctx (Program.query e f >>= k)))
    (h : ∀ s, P.Knows g s → P.Goes g s [] (P.Refines ctx R (k (f s)) .idle))
    (herror : P.Fails g (R (.error e) .idle)) :
    P.Refines ctx R (Program.query e f >>= k) .idle g :=
  ⟨hat, h, herror⟩

theorem Refines.writeRows {ws : σ → List ω} {k : List ω → Program σ κ ω ε ξ}
    (hat : P.At g (ctx (Program.writeRows e ws >>= k)))
    (h : ∀ s, P.Knows g s → P.Goes g s (ws s) (P.Refines ctx R (k (ws s)) .idle))
    (herror : P.Fails g (R (.error e) .idle)) :
    P.Refines ctx R (Program.writeRows e ws >>= k) .idle g :=
  ⟨hat, h, herror⟩

theorem Refines.insertRow {row : ℕ → ω} {k : ℕ → Program σ κ ω ε ξ}
    (hat : P.At g (ctx (Program.insertRow e row >>= k)))
    (h : ∀ s n, P.Knows g s → Storage.present s (Storage.keyOf σ (row n)) = false →
      P.Goes g s [row n] (P.Refines ctx R (k n) .idle))
    (herror : P.Fails g (R (.error e) .idle)) :
    P.Refines ctx R (Program.insertRow e row >>= k) .idle g :=
  ⟨hat, h, herror⟩

theorem Refines.receive {k : ℕ → Program σ κ ω ε ξ} {ses : Session κ ω}
    (hat : P.At g (ctx (Program.receive >>= k)))
    (h : ∀ s n, P.Knows g s → P.Goes g s [] (P.Refines ctx R (k n) ses)) :
    P.Refines ctx R (Program.receive >>= k) ses g :=
  ⟨hat, h⟩

theorem Refines.send {ws : σ → List ω} {f : σ → β} {k : β → Program σ κ ω ε ξ}
    (hat : P.At g (ctx (Program.send ws f >>= k)))
    (h : ∀ s, P.Knows g s → P.Goes g s (ws s) (P.Refines ctx R (k (f s)) .idle)) :
    P.Refines ctx R (Program.send ws f >>= k) .idle g :=
  ⟨hat, h⟩

theorem Refines.require {p : Prop} [Decidable p] {k : Unit → Program σ κ ω ε ξ}
    {ses : Session κ ω} (h : p → P.Refines ctx R (k ()) ses g)
    (herror : ¬p → R (.error e) ses g) :
    P.Refines ctx R (Program.require p e >>= k) ses g := by
  by_cases hp : p
  · rw [Program.require, if_pos hp]
    exact h hp
  · rw [Program.require, if_neg hp]
    exact herror hp

theorem Refines.expect {o : Option β} {k : β → Program σ κ ω ε ξ} {ses : Session κ ω}
    (h : ∀ b, o = some b → P.Refines ctx R (k b) ses g)
    (herror : o = none → R (.error e) ses g) :
    P.Refines ctx R (Program.expect o e >>= k) ses g := by
  cases o with
  | none => exact herror rfl
  | some b => exact h b rfl

/-- A part of a program and the answer made of its value. -/
theorem Refines.map {f : β → ξ} {p : Program σ κ ω ε β} {ses : Session κ ω}
    (hp : P.Refines (fun q => ctx (f <$> q))
      (fun r => match r with
        | .ok b => R (.ok (f b))
        | .error e => R (.error e)) p ses g) :
    P.Refines ctx R (f <$> p) ses g :=
  hp.bind (fun _ _ _ h => h) fun _ _ _ h => h

end Statements

/-- A call that has ended is where its phase says. -/
def Done (P : Protocol σ κ ω ε α γ) : Except ε α → Session κ ω → γ → Prop
  | .ok a, _, g => P.At g (.pure a)
  | .error e, _, g => P.At g (.throw e)

/-- The rest of a call follows the protocol. -/
def Follows (P : Protocol σ κ ω ε α γ) (t : Thread τ σ κ ω ε α) (g : γ) : Prop :=
  P.Refines id P.Done t.program t.session g

omit [Storage σ κ ω] in
theorem forall₂_set {R : Thread τ σ κ ω ε α → γ → Prop} {ts : List (Thread τ σ κ ω ε α)}
    {gs : List γ} (h : List.Forall₂ R ts gs) (i : ℕ) {t : Thread τ σ κ ω ε α} {g : γ}
    (ht : R t g) : List.Forall₂ R (ts.set i t) (gs.set i g) := by
  induction h generalizing i with
  | nil => exact .nil
  | cons hd _ ih =>
    cases i with
    | zero => exact .cons ht ‹_›
    | succ i => exact .cons hd (ih i)

omit [Storage σ κ ω] in
theorem forall₂_getElem? {R : Thread τ σ κ ω ε α → γ → Prop} {ts : List (Thread τ σ κ ω ε α)}
    {gs : List γ} (h : List.Forall₂ R ts gs) {i : ℕ} {t : Thread τ σ κ ω ε α}
    (ht : ts[i]? = some t) : ∃ g, gs[i]? = some g ∧ R t g := by
  induction h generalizing i with
  | nil => simp at ht
  | cons hd _ ih =>
    cases i with
    | zero =>
      obtain rfl := Option.some.inj ht
      exact ⟨_, rfl, hd⟩
    | succ i => exact ih ht

omit [Storage σ κ ω] in
theorem forall₂_getElem?' {R : Thread τ σ κ ω ε α → γ → Prop} {ts : List (Thread τ σ κ ω ε α)}
    {gs : List γ} (h : List.Forall₂ R ts gs) {i : ℕ} {g : γ} (hg : gs[i]? = some g) :
    ∃ t, ts[i]? = some t ∧ R t g := by
  induction h generalizing i with
  | nil => simp at hg
  | cons hd _ ih =>
    cases i with
    | zero =>
      obtain rfl := Option.some.inj hg
      exact ⟨_, rfl, hd⟩
    | succ i => exact ih hg

/-- A phase of the list after one has changed. -/
theorem mem_set_cases {gs : List γ} {i : ℕ} {x g : γ} (h : g ∈ gs.set i x) :
    g = x ∨ ∃ j, j ≠ i ∧ gs[j]? = some g := by
  obtain ⟨j, hj⟩ := List.mem_iff_getElem?.mp h
  by_cases hji : j = i
  · subst hji
    rw [List.getElem?_set_self'] at hj
    cases hgs : gs[j]? with
    | none => simp [hgs] at hj
    | some y => simp [hgs] at hj; exact Or.inl hj.symm
  · rw [List.getElem?_set_ne (Ne.symm hji)] at hj
    exact Or.inr ⟨j, hji, hj⟩

/-- Each call is in a phase from which it follows the protocol. -/
def Consistent (P : Protocol σ κ ω ε α γ) (sys : System τ σ κ ω ε α) (gs : List γ) : Prop :=
  List.Forall₂ P.Follows sys.threads gs

/-- A call that has not been killed stands where its phase says. -/
theorem Follows.at {t : Thread τ σ κ ω ε α} (h : P.Follows t g) :
    P.At g t.program ∨ t.program = .halt ∧ g = P.dead := by
  unfold Follows at h
  cases hp : t.program <;> rw [hp] at h
  case halt => exact Or.inr ⟨rfl, h⟩
  case pure => exact Or.inl h
  case throw => exact Or.inl h
  all_goals exact Or.inl h.1

/-- Calls that follow the protocol from the start. -/
theorem consistent_launch {program : τ → Program σ κ ω ε α} {phase : τ → γ} (s : σ)
    {calls : List τ} (h : ∀ c, P.Refines id P.Done (program c) .idle (phase c)) :
    P.Consistent (launch program s calls) (calls.map phase) := by
  unfold Consistent launch
  induction calls with
  | nil => exact .nil
  | cons c calls ih => exact .cons (h c) ih

/-- The call of a phase, which stands where the phase says. -/
theorem Consistent.call {sys : System τ σ κ ω ε α} {gs : List γ} (h : P.Consistent sys gs)
    {i : ℕ} (hg : gs[i]? = some g) : ∃ t, sys.threads[i]? = some t ∧
      (P.At g t.program ∨ t.program = .halt ∧ g = P.dead) := by
  obtain ⟨t, ht, hfollows⟩ := forall₂_getElem?' h hg
  exact ⟨t, ht, hfollows.at⟩

/-- The phase of a call. -/
theorem Consistent.phase {sys : System τ σ κ ω ε α} {gs : List γ} (h : P.Consistent sys gs)
    {i : ℕ} {t : Thread τ σ κ ω ε α} (ht : sys.threads[i]? = some t) :
    ∃ g, gs[i]? = some g ∧ P.Follows t g :=
  forall₂_getElem? h ht

theorem Refines.advance {Q : Except ε β → Session κ ω → γ → Prop} {p p' : Program σ κ ω ε β}
    {free : κ → Bool} {n : ℕ} {ses ses' : Session κ ω} (h : P.Refines ctx Q p ses g)
    (hknows : P.Knows g s) (hstep : Transactions.advance free n s ses p = some (p', ses', ws)) :
    P.Goes g s ws (P.Refines ctx Q p' ses') := by
  cases p with
  | pure | throw | halt => simp [Transactions.advance] at hstep
  | select k err =>
    simp only [Transactions.advance, Option.some.injEq, Prod.mk.injEq] at hstep
    obtain ⟨rfl, rfl, rfl⟩ := hstep
    exact h.2.1 s hknows
  | lock key k err =>
    simp only [Transactions.advance, Option.ite_none_right_eq_some, Option.some.injEq,
      Prod.mk.injEq] at hstep
    obtain ⟨-, rfl, rfl, rfl⟩ := hstep
    exact h.2.1 s hknows
  | update writes k err =>
    simp only [Transactions.advance, Option.ite_none_right_eq_some, Option.some.injEq,
      Prod.mk.injEq] at hstep
    obtain ⟨-, rfl, rfl, rfl⟩ := hstep
    exact h.2.1 s hknows
  | insert row k err =>
    simp only [Transactions.advance, Option.ite_none_right_eq_some, Bool.and_eq_true,
      Bool.not_eq_true', Option.some.injEq, Prod.mk.injEq] at hstep
    obtain ⟨⟨-, hfresh⟩, rfl, rfl, rfl⟩ := hstep
    exact h.2.1 s n hknows hfresh
  | choose k =>
    simp only [Transactions.advance, Option.some.injEq, Prod.mk.injEq] at hstep
    obtain ⟨rfl, rfl, rfl⟩ := hstep
    exact h.2 s n hknows
  | emit writes k =>
    simp only [Transactions.advance, Option.ite_none_right_eq_some, Option.some.injEq,
      Prod.mk.injEq] at hstep
    obtain ⟨-, rfl, rfl, rfl⟩ := hstep
    exact h.2 s hknows
  | start k =>
    simp only [Transactions.advance, Option.some.injEq, Prod.mk.injEq] at hstep
    obtain ⟨rfl, rfl, rfl⟩ := hstep
    exact h.2 s hknows
  | commit k err =>
    simp only [Transactions.advance, Option.some.injEq, Prod.mk.injEq] at hstep
    obtain ⟨rfl, rfl, rfl⟩ := hstep
    exact h.2.1 s hknows
  | rollback k =>
    simp only [Transactions.advance, Option.some.injEq, Prod.mk.injEq] at hstep
    obtain ⟨rfl, rfl, rfl⟩ := hstep
    exact h.2 s hknows

theorem Refines.failing {Q : Except ε β → Session κ ω → γ → Prop} {p p' : Program σ κ ω ε β}
    {ses ses' : Session κ ω} (h : P.Refines ctx Q p ses g)
    (hstep : Transactions.failing ses p = some (p', ses', ws)) :
    ws = [] ∧ P.Fails g (P.Refines ctx Q p' ses') := by
  cases p with
  | select k err | lock key k err | update writes k err | insert row k err =>
    obtain ⟨rfl, rfl, rfl⟩ : err = p' ∧ ses = ses' ∧ [] = ws := by
      simpa [Transactions.failing] using hstep
    exact ⟨rfl, h.2.2⟩
  | commit k err =>
    obtain ⟨rfl, rfl, rfl⟩ : err = p' ∧ .idle = ses' ∧ [] = ws := by
      simpa [Transactions.failing] using hstep
    exact ⟨rfl, h.2.2⟩
  | pure | throw | halt | choose | emit | start | rollback =>
    simp [Transactions.failing] at hstep

variable [DecidableEq κ] {sys sys' : System τ σ κ ω ε α}

/-- A step of a run as the protocol sees it: the phase before it and after it. -/
structure Moved (P : Protocol σ κ ω ε α γ) (sys sys' : System τ σ κ ω ε α) (a : Action)
    (gs : List γ) (g : γ) (ws : List ω) (g' : γ) : Prop where
  step : sys.step a = some sys'
  before : P.Consistent sys gs
  phase : gs[System.mover a]? = some g
  store : sys'.store = publish sys.store ws
  after : P.Consistent sys' (gs.set (System.mover a) g')

/-- A property of the phases and the store that every move keeps, in runs whose steps
meet `ok`. -/
structure Keeps (P : Protocol σ κ ω ε α γ) (ok : System τ σ κ ω ε α → Action → Prop)
    (J : List γ → σ → Prop) : Prop where
  knows : ∀ {gs s g}, J gs s → g ∈ gs → P.Knows g s
  step : ∀ {sys sys' i n gs g ws g'}, ok sys (.run i n) → J gs sys.store →
    P.Moved sys sys' (.run i n) gs g ws g' → P.Step g sys.store ws g' →
    J (gs.set i g') (publish sys.store ws)
  fail : ∀ {sys sys' i gs g g'}, ok sys (.fail i) → J gs sys.store →
    P.Moved sys sys' (.fail i) gs g [] g' → P.Fail g g' → J (gs.set i g') sys.store
  crash : ∀ {sys sys' i gs g}, ok sys (.crash i) → J gs sys.store →
    P.Moved sys sys' (.crash i) gs g [] P.dead → J (gs.set i P.dead) sys.store

omit [Storage σ κ ω] in
private theorem set_self {gs : List γ} {i : ℕ} {g : γ} (h : gs[i]? = some g) : gs.set i g = gs := by
  obtain ⟨hi, rfl⟩ := List.getElem?_eq_some_iff.mp h
  exact List.set_getElem_self hi

theorem Keeps.next {ok : System τ σ κ ω ε α → Action → Prop} {J : List γ → σ → Prop}
    (hkeeps : P.Keeps ok J) {a : Action} (hok : ok sys a) (hstep : sys.step a = some sys')
    {gs : List γ} (hgs : P.Consistent sys gs) (hJ : J gs sys.store) :
    ∃ gs', P.Consistent sys' gs' ∧ J gs' sys'.store := by
  obtain ⟨t, p, ses, ws, ht, hmove, rfl⟩ := System.step_eq_some.mp hstep
  obtain ⟨g, hg, hfollows⟩ := forall₂_getElem? hgs ht
  have hset : ∀ g', P.Refines id P.Done p ses g' →
      P.Consistent ⟨publish sys.store ws, sys.threads.set (System.mover a) ⟨t.call, ses, p⟩⟩
        (gs.set (System.mover a) g') :=
    fun g' h => forall₂_set hgs _ h
  cases a with
  | run i n =>
    obtain ⟨rfl, hr⟩ | ⟨g', hgo, hr⟩ :=
      Refines.advance hfollows (hkeeps.knows hJ (List.mem_of_getElem? hg)) hmove
    · have hsame := hset g hr
      rw [set_self hg] at hsame
      exact ⟨gs, hsame, hJ⟩
    · exact ⟨_, hset g' hr, hkeeps.step hok hJ ⟨hstep, hgs, hg, rfl, hset g' hr⟩ hgo⟩
  | fail i =>
    obtain ⟨rfl, hr | ⟨g', hgo, hr⟩⟩ := Refines.failing hfollows hmove
    · have hsame := hset g hr
      rw [set_self hg] at hsame
      exact ⟨gs, hsame, hJ⟩
    · have hkept := hkeeps.fail hok hJ ⟨hstep, hgs, hg, rfl, hset g' hr⟩ hgo
      exact ⟨_, hset g' hr, hkept⟩
  | crash i =>
    simp only [System.move, Option.some.injEq, Prod.mk.injEq] at hmove
    obtain ⟨rfl, rfl, rfl⟩ := hmove
    have hdead := hset P.dead rfl
    have hkept := hkeeps.crash hok hJ ⟨hstep, hgs, hg, rfl, hdead⟩
    exact ⟨_, hdead, hkept⟩

/-- What every move keeps holds at the end of a run. -/
theorem Keeps.run {ok : System τ σ κ ω ε α → Action → Prop} {J : List γ → σ → Prop}
    (hkeeps : P.Keeps ok J) (hrun : System.Run ok sys sys') {gs : List γ}
    (hgs : P.Consistent sys gs) (hJ : J gs sys.store) :
    ∃ gs', P.Consistent sys' gs' ∧ J gs' sys'.store := by
  refine hrun.invariant (P := fun sys => ∃ gs, P.Consistent sys gs ∧ J gs sys.store)
    (fun sys a sys' h hok hstep => ?_) ⟨gs, hgs, hJ⟩
  obtain ⟨gs, hgs, hJ⟩ := h
  exact hkeeps.next hok hstep hgs hJ

/-- What the phase of one call has and never loses again, besides what every move keeps. -/
theorem Keeps.track {ok : System τ σ κ ω ε α → Action → Prop} {J : List γ → σ → Prop}
    (hkeeps : P.Keeps ok J) (T : γ → Prop) (hstep : ∀ {g s ws g'}, T g → P.Step g s ws g' → T g')
    (hfail : ∀ {g g'}, T g → P.Fail g g' → T g') (hdead : T P.dead) (i : ℕ) :
    P.Keeps ok fun gs s => J gs s ∧ ∀ g, gs[i]? = some g → T g := by
  have hset : ∀ {gs : List γ} {j : ℕ} {g g' : γ}, (∀ g, gs[i]? = some g → T g) →
      gs[j]? = some g → (T g → T g') → ∀ x, (gs.set j g')[i]? = some x → T x := by
    intro gs j g g' hT hj himp x hx
    by_cases hij : j = i
    · subst hij
      rw [List.getElem?_set_self (List.getElem?_eq_some_iff.mp hj).1] at hx
      obtain rfl := Option.some.inj hx
      exact himp (hT g hj)
    · rw [List.getElem?_set_ne hij] at hx
      exact hT x hx
  refine ⟨fun h hg => hkeeps.knows h.1 hg, fun hok h hm hs => ?_, fun hok h hm hf => ?_,
    fun hok h hm => ?_⟩
  · exact ⟨hkeeps.step hok h.1 hm hs, hset h.2 hm.phase fun hT => hstep hT hs⟩
  · exact ⟨hkeeps.fail hok h.1 hm hf, hset h.2 hm.phase fun hT => hfail hT hf⟩
  · exact ⟨hkeeps.crash hok h.1 hm, hset h.2 hm.phase fun _ => hdead⟩

end Protocol

end NexaStays.Phases
