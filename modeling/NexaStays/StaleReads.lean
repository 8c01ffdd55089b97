import NexaStays.CriticalSections

/-!
# Transactions that write back what they have read

A transaction reads a part of the store, its `view`, and may write it again as it was read.
It leaves the view alone if no other call changes it between that read and the commit.
-/
namespace NexaStays.StaleReads

open NexaStays.Transactions NexaStays.Phases NexaStays.Snapshots NexaStays.CriticalSections

variable {τ σ κ ω ε α β ρ : Type} [Storage σ κ ω] {view : σ → Option ρ} {K : σ → Prop}

/-- In a store with `K`, the writes leave the view as it is. -/
def Restores (view : σ → Option ρ) (K : σ → Prop) (ws : List ω) : Prop :=
  ∀ s, K s → view (publish s ws) = view s

/-- A part of a transaction that has written `ws`, run in stores with `K`: what it returns, and
what it has written by then, meet `Q`. A transaction that throws is rolled back. -/
def Holds (K : σ → Prop) (Q : α → List ω → Prop) : Program σ κ ω ε α → List ω → Prop
  | .pure a, ws => Q a ws
  | .throw _, _ | .halt, _ => True
  | .select k err, ws | .lock _ k err, ws =>
    (∀ s, K s → Holds K Q (k (publish s ws)) ws) ∧ Holds K Q err ws
  | .update us k err, ws =>
    (∀ s, K s → Holds K Q (k (publish s ws)) (ws ++ us (publish s ws))) ∧ Holds K Q err ws
  | .insert row k err, ws => (∀ n, Holds K Q (k n) (ws ++ [row n])) ∧ Holds K Q err ws
  | .choose k, ws => ∀ n, Holds K Q (k n) ws
  | .emit _ _, _ | .start _, _ | .commit _ _, _ | .rollback _, _ => False

section Rules

variable {Q Q' : α → List ω → Prop} {R : β → List ω → Prop} {ws : List ω} {e : ε}

theorem Holds.bind {p : Program σ κ ω ε α} {k : α → Program σ κ ω ε β}
    (h : Holds K (fun a => Holds K R (k a)) p ws) : Holds K R (p >>= k) ws := by
  show Holds K R (p.handle k .throw) ws
  induction p generalizing ws with
  | pure a => exact h
  | throw | halt => trivial
  | select k err ihk iherr | lock key k err ihk iherr =>
    exact ⟨fun s hs => ihk _ (h.1 s hs), iherr h.2⟩
  | update us k err ihk iherr => exact ⟨fun s hs => ihk _ (h.1 s hs), iherr h.2⟩
  | insert row k err ihk iherr => exact ⟨fun n => ihk n (h.1 n), iherr h.2⟩
  | choose k ih => exact fun n => ih n (h n)
  | emit | start | commit | rollback => exact h.elim

theorem Holds.mono (hQ : ∀ a ws, Q a ws → Q' a ws) {p : Program σ κ ω ε α}
    (h : Holds K Q p ws) : Holds K Q' p ws := by
  induction p generalizing ws with
  | pure a => exact hQ a ws h
  | throw | halt => trivial
  | select k err ihk iherr | lock key k err ihk iherr =>
    exact ⟨fun s hs => ihk _ (h.1 s hs), iherr h.2⟩
  | update us k err ihk iherr => exact ⟨fun s hs => ihk _ (h.1 s hs), iherr h.2⟩
  | insert row k err ihk iherr => exact ⟨fun n => ihk n (h.1 n), iherr h.2⟩
  | choose k ih => exact fun n => ih n (h n)
  | emit | start | commit | rollback => exact h.elim

theorem Holds.query {r : σ → α} (h : ∀ s, K s → Q (r (publish s ws)) ws) :
    Holds K Q (Program.query e r : Program σ κ ω ε α) ws :=
  ⟨h, trivial⟩

theorem Holds.writeRows {us : σ → List ω} {Q : List ω → List ω → Prop}
    (h : ∀ s, K s → Q (us (publish s ws)) (ws ++ us (publish s ws))) :
    Holds K Q (Program.writeRows e us : Program σ κ ω ε (List ω)) ws :=
  ⟨h, trivial⟩

theorem Holds.receive {Q : ℕ → List ω → Prop} (h : ∀ n, Q n ws) :
    Holds K Q (Program.receive : Program σ κ ω ε ℕ) ws :=
  h

theorem Holds.require {p : Prop} [Decidable p] {Q : Unit → List ω → Prop} (h : p → Q () ws) :
    Holds K Q (Program.require p e : Program σ κ ω ε Unit) ws := by
  by_cases hp : p
  · rw [Program.require, if_pos hp]
    exact h hp
  · rw [Program.require, if_neg hp]
    trivial

theorem Holds.expect {o : Option α} (h : ∀ a, o = some a → Q a ws) :
    Holds K Q (Program.expect o e : Program σ κ ω ε α) ws := by
  cases o with
  | none => trivial
  | some a => exact h a rfl

theorem Holds.ofExcept {x : Except ε α} (h : ∀ a, x = .ok a → Q a ws) :
    Holds K Q (Program.ofExcept x : Program σ κ ω ε α) ws := by
  cases x with
  | error e => trivial
  | ok a => exact h a rfl

theorem Restores.append {us : List ω} (h : Restores view K ws) (hus : ∀ w ∈ us, Spares view w) :
    Restores view K (ws ++ us) := by
  intro s hs
  rw [publish_append, view_publish hus, h s hs]

/-- What does not write the view. -/
theorem Holds.of_plain {p : Program σ κ ω ε α} (h : Plain view p) (hws : Restores view K ws) :
    Holds K (fun _ => Restores view K) p ws := by
  induction p generalizing ws with
  | pure a => exact hws
  | throw => trivial
  | select k err ihk iherr => exact ⟨fun s _ => ihk _ (h.1 _) hws, iherr h.2 hws⟩
  | update us k err ihk iherr =>
    exact ⟨fun s _ => ihk _ (h.2.1 _) (hws.append (h.1 _)), iherr h.2.2 hws⟩
  | insert row k err ihk iherr =>
    refine ⟨fun n => ihk n (h.2.1 n) (hws.append fun w hw => ?_), iherr h.2.2 hws⟩
    rw [List.mem_singleton.mp hw]
    exact h.1 n
  | choose k ih => exact fun n => ih n (h n) hws
  | halt | lock | emit | start | commit | rollback => exact h.elim

end Rules

section Steps

variable {e : ε} {p : Program σ κ ω ε α} {q : Program σ κ ω ε α} {ses ses' : Session κ ω}
  {s : σ} {ws : List ω}

/-- The transaction goes on, or has ended and left the view as it was. -/
def Goes (view : σ → Option ρ) (K : σ → Prop) (e : ε) (s : σ) (q : Program σ κ ω ε α)
    (ses : Session κ ω) (ws : List ω) : Prop :=
  (∃ p, q = closing e p ∧ ses.active = true ∧
      Holds K (fun _ => Restores view K) p ses.pending ∧ ws = []) ∨
    (ses = .idle ∧ Ended q ∧ view (publish s ws) = view s)

/-- One statement of the transaction. -/
theorem Holds.advance {free : κ → Bool} {n : ℕ} (hactive : ses.active = true) (hs : K s)
    (h : Holds K (fun _ => Restores view K) p ses.pending)
    (hstep : Transactions.advance free n s ses (closing e p) = some (q, ses', ws)) :
    Goes view K e s q ses' ws := by
  have hview : ses.view s = publish s ses.pending := rfl
  have hstage : ∀ us : List ω, (ses.stage (σ := σ) us).active = true ∧
      (ses.stage (σ := σ) us).pending = ses.pending ++ us ∧ ses.visible us = [] := by
    intro us
    simp [Session.stage, Session.visible, hactive]
  cases p with
  | pure a =>
    cases hstep
    exact .inr ⟨rfl, trivial, h s hs⟩
  | throw e' =>
    cases hstep
    exact .inr ⟨rfl, trivial, rfl⟩
  | halt => cases hstep
  | select k err =>
    cases hstep
    exact .inl ⟨_, rfl, hactive, h.1 s hs, rfl⟩
  | lock key k err =>
    simp only [closing, Program.handle, Transactions.advance, Option.ite_none_right_eq_some,
      Option.some.injEq, Prod.mk.injEq] at hstep
    obtain ⟨-, rfl, rfl, rfl⟩ := hstep
    have hacquire : (ses.acquire (ses.view s) key).active = true ∧
        (ses.acquire (ses.view s) key).pending = ses.pending := by
      rw [Session.acquire]
      split <;> exact ⟨hactive, rfl⟩
    refine .inl ⟨_, rfl, hacquire.1, ?_, rfl⟩
    rw [hacquire.2]
    exact h.1 s hs
  | update us k err =>
    simp only [closing, Program.handle, Transactions.advance, Option.ite_none_right_eq_some,
      Option.some.injEq, Prod.mk.injEq] at hstep
    obtain ⟨-, rfl, rfl, rfl⟩ := hstep
    obtain ⟨hactive', hpending, hvisible⟩ := hstage (us (ses.view s))
    refine .inl ⟨_, rfl, hactive', ?_, hvisible⟩
    rw [hpending]
    exact h.1 s hs
  | insert row k err =>
    simp only [closing, Program.handle, Transactions.advance, Option.ite_none_right_eq_some,
      Option.some.injEq, Prod.mk.injEq] at hstep
    obtain ⟨-, rfl, rfl, rfl⟩ := hstep
    obtain ⟨hactive', hpending, hvisible⟩ := hstage [row n]
    refine .inl ⟨_, rfl, hactive', ?_, hvisible⟩
    rw [hpending]
    exact h.1 n
  | choose k =>
    cases hstep
    exact .inl ⟨_, rfl, hactive, h n, rfl⟩
  | emit | start | commit | rollback => exact h.elim

/-- A statement of the transaction that fails. -/
theorem Holds.failing (hactive : ses.active = true)
    (h : Holds K (fun _ => Restores view K) p ses.pending)
    (hstep : Transactions.failing ses (closing e p) = some (q, ses', ws)) :
    Goes view K e s q ses' ws := by
  cases p with
  | pure a =>
    cases hstep
    exact .inr ⟨rfl, trivial, rfl⟩
  | select k err | lock key k err | update us k err | insert row k err =>
    cases hstep
    exact .inl ⟨_, rfl, hactive, h.2, rfl⟩
  | throw | halt | choose => cases hstep
  | emit | start | commit | rollback => exact h.elim

end Steps

section Runs

variable (view : σ → Option ρ) (program : τ → Program σ κ ω ε α) (keeper concerned : τ → Prop)

/-- A store that differs from `s` in the view only if the call is not concerned with it. -/
def Steady (c : τ) (s s' : σ) : Prop := concerned c → view s' = view s

/-- The call is one transaction, which leaves the view alone in stores that are steady. -/
def Keeps (c : τ) : Prop :=
  ∃ e p, program c = .start (closing e p) ∧ ∀ s, Holds (Steady view concerned c s)
    (fun _ => Restores view (Steady view concerned c s)) p []

/-- The call is in its transaction, and has run a statement of it. -/
def HasBegun (t : Thread τ σ κ ω ε α) : Prop :=
  t.session.active = true ∧ ¬(t.session = .opened ∧ program t.call = .start t.program)

/-- While a concerned call is in its transaction, no call that is not a keeper changes the
view. -/
def Heeds [DecidableEq κ] (sys : System τ σ κ ω ε α) (a : Action) : Prop :=
  ∀ c sys', sys.caller a = some c → ¬keeper c → sys.step a = some sys' →
    view sys'.store ≠ view sys.store →
    ∀ t ∈ sys.threads, concerned t.call → ¬HasBegun program t

/-- A call before its transaction, behind it, or in it. -/
def Place (t : Thread τ σ κ ω ε α) (s : σ) : Prop :=
  (t.session = .idle ∧ (t.program = program t.call ∨ Ended t.program)) ∨
    (t.session.active = true ∧ ∃ e p, t.program = closing e p ∧
      Holds (Steady view concerned t.call s)
        (fun _ => Restores view (Steady view concerned t.call s)) p t.session.pending)

variable {view program keeper concerned} {s s' : σ} {t : Thread τ σ κ ω ε α}

omit [Storage σ κ ω] in
theorem steady_congr {c : τ} (h : concerned c → view s' = view s) :
    Steady view concerned c s' = Steady view concerned c s := by
  funext u
  refine propext ⟨fun hu hc => ?_, fun hu hc => ?_⟩
  · rw [hu hc, h hc]
  · rw [hu hc, h hc]

/-- The view is as it was, as far as the call is concerned. -/
theorem Place.steady (hplace : Place view program concerned t s)
    (h : concerned t.call → view s' = view s) : Place view program concerned t s' := by
  obtain hidle | ⟨hactive, e, p, hp, hholds⟩ := hplace
  · exact .inl hidle
  · refine .inr ⟨hactive, e, p, hp, ?_⟩
    rw [steady_congr h]
    exact hholds

/-- The view may change before the call has begun. -/
theorem Place.fresh (hplace : Place view program concerned t s)
    (hkeeps : Keeps view program concerned t.call) (h : ¬HasBegun program t) :
    Place view program concerned t s' := by
  obtain hidle | ⟨hactive, -⟩ := hplace
  · exact .inl hidle
  · obtain ⟨hopened, hstart⟩ : t.session = .opened ∧ program t.call = .start t.program := by
      by_contra hnot
      exact h ⟨hactive, hnot⟩
    obtain ⟨e, p, hprogram, hholds⟩ := hkeeps
    refine .inr ⟨hactive, e, p, ?_, ?_⟩
    · rw [hstart] at hprogram
      exact Program.start.inj hprogram
    · rw [hopened]
      exact hholds s'

variable [DecidableEq κ] {sys sys' : System τ σ κ ω ε α} {a : Action}

/-- A step of a keeper leaves the view as it is. -/
theorem Place.move {p : Program σ κ ω ε α} {ses : Session κ ω} {ws : List ω}
    (hplace : Place view program concerned t sys.store)
    (hkeeps : Keeps view program concerned t.call) (hmove : sys.move t a = some (p, ses, ws)) :
    Place view program concerned ⟨t.call, ses, p⟩ sys.store ∧
      view (publish sys.store ws) = view sys.store := by
  have hgoes : ∀ {e : ε}, Goes view (Steady view concerned t.call sys.store) e sys.store p ses ws →
      Place view program concerned ⟨t.call, ses, p⟩ sys.store ∧
        view (publish sys.store ws) = view sys.store := by
    rintro e (⟨q, rfl, hactive, hholds, rfl⟩ | ⟨rfl, hended, hsame⟩)
    · exact ⟨.inr ⟨hactive, e, q, rfl, hholds⟩, rfl⟩
    · exact ⟨.inl ⟨rfl, .inr hended⟩, hsame⟩
  obtain ⟨call, ses₀, p₀⟩ := t
  simp only [Place] at hplace
  obtain ⟨rfl, rfl | hended⟩ | ⟨hactive, e, q, rfl, hholds⟩ := hplace
  · obtain ⟨e, body, hprogram, hholds⟩ := hkeeps
    simp only at hprogram
    cases a with
    | run i n =>
      simp only [System.move, hprogram, advance] at hmove
      cases hmove
      exact ⟨.inr ⟨rfl, e, body, rfl, hholds _⟩, rfl⟩
    | fail i =>
      simp only [System.move, hprogram, failing] at hmove
      cases hmove
    | crash i =>
      cases hmove
      exact ⟨.inl ⟨rfl, .inr trivial⟩, rfl⟩
  · cases a with
    | run i n =>
      cases p₀ with
      | pure | throw | halt => cases hmove
      | _ => exact hended.elim
    | fail i =>
      cases p₀ with
      | pure | throw | halt => cases hmove
      | _ => exact hended.elim
    | crash i =>
      cases hmove
      exact ⟨.inl ⟨rfl, .inr trivial⟩, rfl⟩
  · cases a with
    | run i n => exact hgoes (hholds.advance hactive (fun _ => rfl) hmove)
    | fail i => exact hgoes (hholds.failing hactive hmove)
    | crash i =>
      cases hmove
      exact ⟨.inl ⟨rfl, .inr trivial⟩, rfl⟩

/-- A step while the other calls are outside of their transactions. -/
theorem heeds_of_idle (hcover : ∀ c, concerned c → keeper c)
    (h : ∀ j t, j ≠ System.mover a → sys.threads[j]? = some t → t.session.active = false) :
    Heeds view program keeper concerned sys a := by
  intro c sys' hcaller hother hstep _ t ht hconcerned hbegun
  obtain ⟨j, hj⟩ := List.mem_iff_getElem?.mp ht
  by_cases hmover : j = System.mover a
  · subst hmover
    obtain ⟨u, p, ses, ws, hu, hmove, -⟩ := System.step_eq_some.mp hstep
    have hcall : sys.caller a = some u.call :=
      System.caller_eq (System.published_eq_some.mpr ⟨u, p, ses, hu, rfl, hmove⟩)
    obtain rfl : t = u := Option.some.inj (hj.symm.trans hu)
    obtain rfl : c = t.call := Option.some.inj (hcaller.symm.trans hcall)
    exact hother (hcover _ hconcerned)
  · have hidle := hbegun.1
    rw [h j t hmover hj] at hidle
    cases hidle

/-- Every keeper is in its place. -/
def Placed (view : σ → Option ρ) (program : τ → Program σ κ ω ε α) (keeper concerned : τ → Prop)
    (sys : System τ σ κ ω ε α) : Prop :=
  ∀ t ∈ sys.threads, keeper t.call → Place view program concerned t sys.store

omit [DecidableEq κ] in
theorem placed_launch (s : σ) (calls : List τ) :
    Placed view program keeper concerned (launch program s calls) := by
  intro t ht _
  obtain ⟨c, -, rfl⟩ := List.mem_map.mp ht
  exact .inl ⟨rfl, .inl rfl⟩

/-- A step of a keeper from its place. -/
theorem Placed.keeps (hplaced : Placed view program keeper concerned sys)
    (hkeeps : ∀ c, keeper c → Keeps view program concerned c) {c : τ}
    (hcaller : sys.caller a = some c) (hkeeper : keeper c) (hstep : sys.step a = some sys') :
    view sys'.store = view sys.store := by
  obtain ⟨t, p, ses, ws, ht, hmove, rfl⟩ := System.step_eq_some.mp hstep
  obtain rfl : t.call = c := Option.some.inj ((System.caller_eq (System.published_eq_some.mpr
    ⟨t, p, ses, ht, rfl, hmove⟩)).symm.trans hcaller)
  exact ((hplaced t (List.mem_of_getElem? ht) hkeeper).move (hkeeps _ hkeeper) hmove).2

theorem Placed.step (hplaced : Placed view program keeper concerned sys)
    (hkeeps : ∀ c, keeper c → Keeps view program concerned c)
    (hheeds : Heeds view program keeper concerned sys a) (hstep : sys.step a = some sys') :
    Placed view program keeper concerned sys' := by
  have hkept : ∀ c ∈ sys.caller a, keeper c → view sys'.store = view sys.store :=
    fun c hcaller hkeeper => hplaced.keeps hkeeps hcaller hkeeper hstep
  obtain ⟨t, p, ses, ws, ht, hmove, rfl⟩ := System.step_eq_some.mp hstep
  have hcaller : sys.caller a = some t.call :=
    System.caller_eq (System.published_eq_some.mpr ⟨t, p, ses, ht, rfl, hmove⟩)
  intro u hu hkeeper
  obtain hold | rfl := List.mem_or_eq_of_mem_set hu
  · by_cases hsame : view (publish sys.store ws) = view sys.store
    · exact (hplaced u hold hkeeper).steady fun _ => hsame
    · have hother : ¬keeper t.call := fun hmover => hsame (hkept t.call hcaller hmover)
      by_cases hconcerned : concerned u.call
      · exact (hplaced u hold hkeeper).fresh (hkeeps u.call hkeeper)
          (hheeds t.call _ hcaller hother hstep hsame u hold hconcerned)
      · exact (hplaced u hold hkeeper).steady fun h => absurd h hconcerned
  · obtain ⟨hplace, hsame⟩ := (hplaced t (List.mem_of_getElem? ht) hkeeper).move
      (hkeeps t.call hkeeper) hmove
    exact hplace.steady fun _ => hsame

/-- In a run whose steps all heed the transactions under way, no step of a keeper changes the
view. -/
theorem kept_of_run (hkeeps : ∀ c, keeper c → Keeps view program concerned c) {s : σ}
    {calls : List τ} (hrun : System.Run (Heeds view program keeper concerned)
      (launch program s calls) sys) {c : τ} (hcaller : sys.caller a = some c) (hkeeper : keeper c)
    (hstep : sys.step a = some sys') : view sys'.store = view sys.store := by
  have hplaced : Placed view program keeper concerned sys :=
    hrun.invariant (fun _ _ _ h hheeds hstep => h.step hkeeps hheeds hstep) (placed_launch s calls)
  exact hplaced.keeps hkeeps hcaller hkeeper hstep

end Runs

end NexaStays.StaleReads
