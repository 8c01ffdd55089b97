import NexaStays.RelyGuarantee
import NexaStays.Snapshots

/-!
# Transactions under one lock

A call takes a lock as the first statement of a transaction, and writes what is observed in that
transaction only. Two such calls are never both behind the lock, whatever the other calls do.
-/
namespace NexaStays.CriticalSections

open NexaStays.Transactions NexaStays.Snapshots NexaStays.RelyGuarantee NexaStays.Phases

variable {τ σ κ ω ε α β γ : Type} [Storage σ κ ω] {f : σ → γ}

/-- Outside of a transaction: no write changes what is observed, and no transaction begins. -/
def Quiet (f : σ → γ) : Program σ κ ω ε α → Prop
  | .pure _ | .throw _ | .halt => True
  | .select k err => (∀ s, Quiet f (k s)) ∧ Quiet f err
  | .update ws k err =>
    (∀ s, f (publish s (ws s)) = f s) ∧ (∀ s, Quiet f (k s)) ∧ Quiet f err
  | .choose k => ∀ n, Quiet f (k n)
  | .emit ws k => (∀ s, f (publish s (ws s)) = f s) ∧ ∀ s, Quiet f (k s)
  | .lock _ _ _ | .insert _ _ _ | .start _ | .commit _ _ | .rollback _ => False

/-- Inside of a transaction, which ends, and is quiet from then on. -/
def Body (f : σ → γ) : Program σ κ ω ε α → Prop
  | .halt => True
  | .select k err | .lock _ k err => (∀ s, Body f (k s)) ∧ Body f err
  | .update _ k err => (∀ s, Body f (k s)) ∧ Body f err
  | .insert _ k err => (∀ n, Body f (k n)) ∧ Body f err
  | .choose k => ∀ n, Body f (k n)
  | .commit k err => Quiet f k ∧ Quiet f err
  | .rollback k => Quiet f k
  | .pure _ | .throw _ | .emit _ _ | .start _ => False

/-- The call never changes what is observed, or does so behind the lock only. -/
def Sectioned (f : σ → γ) (key : κ) (p : Program σ κ ω ε α) : Prop :=
  Quiet f p ∨ ∃ k err, p = .start (.lock key k (.rollback err)) ∧ (∀ s, Body f (k s)) ∧ Quiet f err

section Rules

variable {e : ε}

theorem Quiet.handle {p : Program σ κ ω ε α} {k : α → Program σ κ ω ε β}
    {g : ε → Program σ κ ω ε β} (h : Quiet f p) (hk : ∀ a, Quiet f (k a)) (hg : ∀ e, Quiet f (g e)) :
    Quiet f (p.handle k g) := by
  induction p with
  | pure a => exact hk a
  | throw e => exact hg e
  | halt => trivial
  | select k err ihk iherr => exact ⟨fun s => ihk s (h.1 s), iherr h.2⟩
  | update ws k err ihk iherr => exact ⟨h.1, fun s => ihk s (h.2.1 s), iherr h.2.2⟩
  | choose k ih => exact fun n => ih n (h n)
  | emit ws k ih => exact ⟨h.1, fun s => ih s (h.2 s)⟩
  | lock | insert | start | commit | rollback => exact h.elim

theorem Quiet.bind {p : Program σ κ ω ε α} {k : α → Program σ κ ω ε β} (h : Quiet f p)
    (hk : ∀ a, Quiet f (k a)) : Quiet f (p >>= k) :=
  h.handle hk fun _ => trivial

theorem Quiet.query {r : σ → α} : Quiet f (Program.query e r : Program σ κ ω ε α) :=
  ⟨fun _ => trivial, trivial⟩

theorem Quiet.writeRows {ws : σ → List ω} (h : ∀ s, f (publish s (ws s)) = f s) :
    Quiet f (Program.writeRows e ws : Program σ κ ω ε (List ω)) :=
  ⟨h, fun _ => trivial, trivial⟩

/-- Within a transaction every write is allowed. -/
theorem Body.of_plain {ρ : Type} {view : σ → Option ρ} {p : Program σ κ ω ε α}
    {k : α → Program σ κ ω ε β} {g : ε → Program σ κ ω ε β} (h : Plain view p)
    (hk : ∀ a, Body f (k a)) (hg : ∀ e, Body f (g e)) : Body f (p.handle k g) := by
  induction p with
  | pure a => exact hk a
  | throw e => exact hg e
  | select k err ihk iherr => exact ⟨fun s => ihk s (h.1 s), iherr h.2⟩
  | update ws k err ihk iherr => exact ⟨fun s => ihk s (h.2.1 s), iherr h.2.2⟩
  | insert row k err ihk iherr => exact ⟨fun n => ihk n (h.2.1 n), iherr h.2.2⟩
  | choose k ih => exact fun n => ih n (h n)
  | halt | lock | emit | start | commit | rollback => exact h.elim

/-- What comes after the transaction. -/
theorem Body.handle {p : Program σ κ ω ε α} {k : α → Program σ κ ω ε β}
    {g : ε → Program σ κ ω ε β} (h : Body f p) (hk : ∀ a, Quiet f (k a)) (hg : ∀ e, Quiet f (g e)) :
    Body f (p.handle k g) := by
  induction p with
  | halt => trivial
  | select k err ihk iherr | lock key k err ihk iherr | update ws k err ihk iherr =>
    exact ⟨fun s => ihk s (h.1 s), iherr h.2⟩
  | insert row k err ihk iherr => exact ⟨fun n => ihk n (h.1 n), iherr h.2⟩
  | choose k ih => exact fun n => ih n (h n)
  | commit k err => exact ⟨h.1.handle hk hg, h.2.handle hk hg⟩
  | rollback k => exact Quiet.handle h hk hg
  | pure | throw | emit | start => exact h.elim

end Rules

/-- The call has ended. -/
def Ended : Program σ κ ω ε α → Prop
  | .pure _ | .throw _ | .halt => True
  | _ => False

/-- The call has not read anything yet. -/
def Unread (program : τ → Program σ κ ω ε α) (t : Thread τ σ κ ω ε α) : Prop :=
  t.program = program t.call ∨ program t.call = .start t.program

/-- The call is behind its transaction, if it had one. -/
def Past (f : σ → γ) (t : Thread τ σ κ ω ε α) : Prop :=
  Ended t.program ∨ (t.session = .idle ∧ Quiet f t.program) ∨
    ∃ k, t.program = .rollback k ∧ Quiet f k

/-- The call is in its transaction, behind the lock. -/
def Behind (f : σ → γ) (key : κ) (t : Thread τ σ κ ω ε α) : Prop :=
  t.session.active = true ∧ key ∈ t.session.held ∧ Body f t.program

/-- The call waits for the lock, with nothing written. -/
def Before (f : σ → γ) (key : κ) (program : τ → Program σ κ ω ε α) (t : Thread τ σ κ ω ε α) :
    Prop :=
  Sectioned f key (program t.call) ∧ ((t.session = .idle ∧ t.program = program t.call) ∨
    (t.session = .opened ∧ program t.call = .start t.program))

def Place (f : σ → γ) (key : κ) (program : τ → Program σ κ ω ε α) (t : Thread τ σ κ ω ε α) :
    Prop :=
  Past f t ∨ Before f key program t ∨ Behind f key t

section Steps

variable {key : κ} {free : κ → Bool} {n : ℕ} {p p' : Program σ κ ω ε α}
  {ses ses' : Session κ ω} {s : σ} {ws : List ω} {c : τ} {program : τ → Program σ κ ω ε α}

/-- A quiet statement. -/
theorem quiet_advance (h : Quiet f p) (hadvance : advance free n s .idle p = some (p', ses', ws)) :
    (ses' = .idle ∧ Quiet f p') ∧ f (publish s ws) = f s := by
  cases p with
  | pure | throw | halt => cases hadvance
  | select k err =>
    cases hadvance
    exact ⟨⟨rfl, h.1 _⟩, rfl⟩
  | update us k err =>
    simp only [advance, Option.ite_none_right_eq_some, Option.some.injEq, Prod.mk.injEq] at hadvance
    obtain ⟨-, rfl, rfl, rfl⟩ := hadvance
    exact ⟨⟨rfl, h.2.1 _⟩, h.1 s⟩
  | choose k =>
    cases hadvance
    exact ⟨⟨rfl, h n⟩, rfl⟩
  | emit us k =>
    simp only [advance, Option.ite_none_right_eq_some, Option.some.injEq, Prod.mk.injEq] at hadvance
    obtain ⟨-, rfl, rfl, rfl⟩ := hadvance
    exact ⟨⟨rfl, h.2 _⟩, h.1 s⟩
  | lock | insert | start | commit | rollback => exact h.elim

omit [Storage σ κ ω] in
theorem quiet_failing [Storage σ κ ω] (h : Quiet f p)
    (hfailing : failing ses p = some (p', ses', ws)) : ses' = ses ∧ Quiet f p' ∧ ws = [] := by
  cases p with
  | select k err =>
    cases hfailing
    exact ⟨rfl, h.2, rfl⟩
  | update us k err =>
    cases hfailing
    exact ⟨rfl, h.2.2, rfl⟩
  | lock | insert | start | commit | rollback => exact h.elim
  | _ => cases hfailing

/-- The sessions behind the lock. -/
theorem behind_stage (hactive : ses.active = true) (hheld : key ∈ ses.held) (us : List ω) :
    (ses.stage (σ := σ) us).active = true ∧ key ∈ (ses.stage (σ := σ) us).held ∧
      ses.visible us = [] := by
  simp only [Session.stage, Session.visible, hactive, if_true]
  exact ⟨trivial, List.mem_append_right _ hheld, trivial⟩

theorem behind_acquire (hactive : ses.active = true) (hheld : key ∈ ses.held) (v : σ) (key' : κ) :
    (ses.acquire v key').active = true ∧ key ∈ (ses.acquire v key').held := by
  rw [Session.acquire]
  split
  · exact ⟨hactive, List.mem_cons_of_mem _ hheld⟩
  · exact ⟨hactive, hheld⟩

/-- A statement behind the lock. -/
theorem behind_advance (hactive : ses.active = true) (hheld : key ∈ ses.held) (h : Body f p)
    (hadvance : advance free n s ses p = some (p', ses', ws)) :
    (ses'.active = true ∧ key ∈ ses'.held ∧ Body f p') ∨ (ses' = .idle ∧ Quiet f p') := by
  cases p with
  | halt => cases hadvance
  | select k err =>
    cases hadvance
    exact .inl ⟨hactive, hheld, h.1 _⟩
  | lock key' k err =>
    simp only [advance, Option.ite_none_right_eq_some, Option.some.injEq, Prod.mk.injEq] at hadvance
    obtain ⟨-, rfl, rfl, rfl⟩ := hadvance
    obtain ⟨hactive', hheld'⟩ := behind_acquire hactive hheld (ses.view s) key'
    exact .inl ⟨hactive', hheld', h.1 _⟩
  | update us k err =>
    simp only [advance, Option.ite_none_right_eq_some, Option.some.injEq, Prod.mk.injEq] at hadvance
    obtain ⟨-, rfl, rfl, rfl⟩ := hadvance
    obtain ⟨hactive', hheld', -⟩ := behind_stage (σ := σ) hactive hheld (us (ses.view s))
    exact .inl ⟨hactive', hheld', h.1 _⟩
  | insert row k err =>
    simp only [advance, Option.ite_none_right_eq_some, Option.some.injEq, Prod.mk.injEq] at hadvance
    obtain ⟨-, rfl, rfl, rfl⟩ := hadvance
    obtain ⟨hactive', hheld', -⟩ := behind_stage (σ := σ) hactive hheld [row n]
    exact .inl ⟨hactive', hheld', h.1 _⟩
  | choose k =>
    cases hadvance
    exact .inl ⟨hactive, hheld, h n⟩
  | commit k err =>
    cases hadvance
    exact .inr ⟨rfl, h.1⟩
  | rollback k =>
    cases hadvance
    exact .inr ⟨rfl, h⟩
  | pure | throw | emit | start => exact h.elim

theorem behind_failing (h : Body f p) (hfailing : failing ses p = some (p', ses', ws)) :
    ((ses' = ses ∧ Body f p') ∨ (ses' = .idle ∧ Quiet f p')) ∧ ws = [] := by
  cases p with
  | select k err | lock key' k err | update us k err | insert row k err =>
    cases hfailing
    exact ⟨.inl ⟨rfl, h.2⟩, rfl⟩
  | commit k err =>
    cases hfailing
    exact ⟨.inr ⟨rfl, h.2⟩, rfl⟩
  | pure | throw | emit | start => exact h.elim
  | _ => cases hfailing

variable [DecidableEq κ] {sys : System τ σ κ ω ε α} {t : Thread τ σ κ ω ε α} {a : Action}

/-- A call that is behind its transaction stays there, and changes nothing that is observed. -/
theorem past_move (h : Past f t) (hmove : sys.move t a = some (p', ses', ws)) :
    Past f ⟨t.call, ses', p'⟩ ∧ f (publish sys.store ws) = f sys.store := by
  obtain ⟨call, ses, p⟩ := t
  cases a with
  | crash i =>
    cases hmove
    exact ⟨.inl trivial, rfl⟩
  | run i n =>
    obtain hended | ⟨hses, hquiet⟩ | ⟨k, hp, hquiet⟩ := h
    · cases p with
      | pure | throw | halt => cases hmove
      | _ => exact hended.elim
    · simp only at hses hquiet
      subst hses
      obtain ⟨hnext, hsame⟩ := quiet_advance hquiet hmove
      exact ⟨.inr (.inl hnext), hsame⟩
    · simp only at hp
      subst hp
      cases hmove
      exact ⟨.inr (.inl ⟨rfl, hquiet⟩), rfl⟩
  | fail i =>
    obtain hended | ⟨hses, hquiet⟩ | ⟨k, hp, hquiet⟩ := h
    · cases p with
      | pure | throw | halt => cases hmove
      | _ => exact hended.elim
    · simp only at hses hquiet
      obtain ⟨rfl, hnext, rfl⟩ := quiet_failing hquiet hmove
      exact ⟨.inr (.inl ⟨hses, hnext⟩), rfl⟩
    · simp only at hp
      subst hp
      cases hmove

/-- A call that waits for the lock goes behind it, or gives up. -/
theorem before_move (hpresent : ∀ s : σ, Storage.present s key = true)
    (h : Before f key program t) (hmove : sys.move t a = some (p', ses', ws)) :
    Place f key program ⟨t.call, ses', p'⟩ ∧ f (publish sys.store ws) = f sys.store := by
  obtain ⟨call, ses, p⟩ := t
  obtain ⟨hsection, ⟨hses, hp⟩ | ⟨hses, hp⟩⟩ := h
  · simp only at hsection hses hp
    obtain hquiet | ⟨k, err, hstart, hbody, herr⟩ := id hsection
    · rw [← hp] at hquiet
      obtain ⟨hnext, hsame⟩ := past_move (.inr (.inl ⟨hses, hquiet⟩)) hmove
      exact ⟨.inl hnext, hsame⟩
    · rw [hstart] at hp
      subst hp
      cases a with
      | crash i =>
        cases hmove
        exact ⟨.inl (.inl trivial), rfl⟩
      | run i n =>
        cases hmove
        exact ⟨.inr (.inl ⟨hsection, .inr ⟨rfl, hstart⟩⟩), rfl⟩
      | fail i => cases hmove
  · simp only at hsection hses hp
    obtain hquiet | ⟨k, err, hstart, hbody, herr⟩ := hsection
    · rw [hp] at hquiet
      exact hquiet.elim
    · obtain rfl : p = .lock key k (.rollback err) := Program.start.inj (hp.symm.trans hstart)
      subst hses
      cases a with
      | crash i =>
        cases hmove
        exact ⟨.inl (.inl trivial), rfl⟩
      | run i n =>
        simp only [System.move, advance, Option.ite_none_right_eq_some, Option.some.injEq,
          Prod.mk.injEq] at hmove
        obtain ⟨-, rfl, rfl, rfl⟩ := hmove
        refine ⟨.inr (.inr ?_), rfl⟩
        rw [Session.acquire, if_pos (hpresent _)]
        exact ⟨rfl, List.mem_cons_self, hbody _⟩
      | fail i =>
        cases hmove
        exact ⟨.inl (.inr (.inr ⟨err, rfl, herr⟩)), rfl⟩

/-- What is observed is changed behind the lock only. -/
theorem place_move (hpresent : ∀ s : σ, Storage.present s key = true) (h : Place f key program t)
    (hmove : sys.move t a = some (p', ses', ws)) :
    Place f key program ⟨t.call, ses', p'⟩ ∧
      (f (publish sys.store ws) = f sys.store ∨ Behind f key t) := by
  obtain hpast | hbefore | hbehind := h
  · obtain ⟨hnext, hsame⟩ := past_move hpast hmove
    exact ⟨.inl hnext, .inl hsame⟩
  · obtain ⟨hnext, hsame⟩ := before_move hpresent hbefore hmove
    exact ⟨hnext, .inl hsame⟩
  · refine ⟨?_, .inr hbehind⟩
    obtain ⟨hactive, hheld, hbody⟩ := hbehind
    cases a with
    | crash i =>
      cases hmove
      exact .inl (.inl trivial)
    | run i n =>
      obtain hnext | hnext := behind_advance hactive hheld hbody hmove
      · exact .inr (.inr hnext)
      · exact .inl (.inr (.inl hnext))
    | fail i =>
      obtain ⟨⟨rfl, hnext⟩ | hnext, rfl⟩ := behind_failing hbody hmove
      · exact .inr (.inr ⟨hactive, hheld, hnext⟩)
      · exact .inl (.inr (.inl hnext))

end Steps

section Runs

variable [DecidableEq κ] {key : κ} {program : τ → Program σ κ ω ε α}
  {sys sys' : System τ σ κ ω ε α} {s : σ} {calls : List τ}

/-- No call has anything to keep to. -/
def anything : Discipline τ σ κ ω α where
  Inv _ := True
  Legal _ _ _ _ := True
  Post _ _ _ := True
  Guard _ _ _ := True
  Apart _ _ _ _ := True
  inv_legal _ _ := trivial

omit [DecidableEq κ] in
theorem wp_anything {c : τ} (p : Program σ κ ω ε α) (ses : Session κ ω) (s : σ) :
    (anything : Discipline τ σ κ ω α).wp c (fun _ _ _ => True) (fun _ _ _ => True) p ses s := by
  induction p generalizing ses s with
  | pure | throw => exact fun _ _ _ => trivial
  | halt => trivial
  | select k err ihk iherr => exact fun s' _ _ => ⟨ihk _ _ _, iherr _ _⟩
  | lock key k err ihk iherr => exact fun s' _ _ => ⟨fun _ => ihk _ _ _, iherr _ _⟩
  | update ws k err ihk iherr => exact fun s' _ _ => ⟨.inr trivial, ihk _ _ _, iherr _ _⟩
  | insert row k err ihk iherr =>
    exact fun s' _ _ => ⟨fun n _ => ⟨.inr trivial, ihk n _ _⟩, iherr _ _⟩
  | choose k ih => exact fun s' _ _ n => ih n _ _
  | emit ws k ih => exact fun s' _ _ => ⟨.inr trivial, ih _ _ _⟩
  | start k ih | rollback k ih => exact fun s' _ _ => ih _ _
  | commit k err ihk iherr => exact fun s' _ _ => ⟨.inr trivial, ihk _ _, iherr _ _⟩

/-- No two calls hold a lock. -/
theorem exclusive_of_run (hrun : System.Run (fun _ _ => True) (launch program s calls) sys)
    {i j : ℕ} {t u : Thread τ σ κ ω ε α} (hij : i ≠ j) (ht : sys.threads[i]? = some t)
    (hu : sys.threads[j]? = some u) : t.session.held.Disjoint u.session.held := by
  have hsound : (anything : Discipline τ σ κ ω α).Sound (launch program s calls) := by
    refine .initial trivial (fun t ht => ?_) fun t ht => ?_
    · obtain ⟨c, -, rfl⟩ := List.mem_map.mp ht
      rfl
    · exact wp_anything _ _ _
  have hadmits : ∀ (sys : System τ σ κ ω ε α) (a : Action), True →
      (anything : Discipline τ σ κ ω α).Admits sys a :=
    fun _ _ _ => ⟨fun _ _ _ _ _ => trivial, fun _ _ _ => trivial⟩
  exact (hsound.run hadmits hrun).exclusive hij ht hu

/-- Every call that is sectioned stays at a place. -/
theorem place_of_run (hpresent : ∀ s : σ, Storage.present s key = true)
    (hrun : System.Run (fun _ _ => True) (launch program s calls) sys) :
    ∀ t ∈ sys.threads, Sectioned f key (program t.call) → Place f key program t := by
  induction hrun with
  | refl =>
    intro t ht hsection
    obtain ⟨c, -, rfl⟩ := List.mem_map.mp ht
    exact .inr (.inl ⟨hsection, .inl ⟨rfl, rfl⟩⟩)
  | tail _ _ hstep ih =>
    obtain ⟨t, p, ses, ws, ht, hmove, rfl⟩ := System.step_eq_some.mp hstep
    intro u hu hsection
    obtain hmem | rfl := List.mem_or_eq_of_mem_set hu
    · exact ih u hmem hsection
    · exact (place_move hpresent (ih t (List.mem_of_getElem? ht) hsection) hmove).1

/-- A call that is behind its transaction stays there. -/
theorem past_of_run {i : ℕ} (hpast : ∀ t, sys.threads[i]? = some t → Past f t)
    (hrun : System.Run (fun _ _ => True) sys sys') : ∀ t, sys'.threads[i]? = some t → Past f t := by
  induction hrun with
  | refl => exact hpast
  | tail _ _ hstep ih =>
    obtain ⟨t, p, ses, ws, ht, hmove, rfl⟩ := System.step_eq_some.mp hstep
    intro u hu
    rw [List.getElem?_set] at hu
    split_ifs at hu with hmover hlt
    · obtain rfl := Option.some.inj hu
      subst hmover
      exact (past_move (ih t ht) hmove).1
    · exact ih u hu

omit [DecidableEq κ] in
/-- A call that commits is behind the lock. -/
theorem behind_of_commit {t : Thread τ σ κ ω ε α} {k err : Program σ κ ω ε α}
    (h : Place f key program t) (hcommit : t.program = .commit k err) : Behind f key t := by
  obtain hpast | ⟨hsection, hbefore⟩ | hbehind := h
  · obtain hended | ⟨-, hquiet⟩ | ⟨k', hrollback, -⟩ := hpast
    · rw [hcommit] at hended
      exact hended.elim
    · rw [hcommit] at hquiet
      exact hquiet.elim
    · rw [hcommit] at hrollback
      cases hrollback
  · obtain hquiet | ⟨k', err', hstart, -, -⟩ := hsection
    · obtain ⟨-, hp⟩ | ⟨-, hp⟩ := hbefore
      · rw [← hp, hcommit] at hquiet
        exact hquiet.elim
      · rw [hp] at hquiet
        exact hquiet.elim
    · obtain ⟨-, hp⟩ | ⟨-, hp⟩ := hbefore
      · rw [hcommit, hstart] at hp
        cases hp
      · rw [hcommit, hstart] at hp
        cases hp
  · exact hbehind

/-- Where a call commits while every other one keeps to the lock, has read nothing or has ended,
only a call that has read nothing changes what is observed later. -/
theorem unread_of_change (hpresent : ∀ s : σ, Storage.present s key = true)
    {sys₁ sys₂ sys₃ sys₄ : System τ σ κ ω ε α} {i n : ℕ} {b : Action} {t : Thread τ σ κ ω ε α}
    {k err : Program σ κ ω ε α}
    (hrun : System.Run (fun _ _ => True) (launch program s calls) sys₁)
    (ht : sys₁.threads[i]? = some t) (hcommit : t.program = .commit k err)
    (hsection : Sectioned f key (program t.call))
    (hothers : ∀ j u, j ≠ i → sys₁.threads[j]? = some u →
      Sectioned f key (program u.call) ∨ Unread program u ∨ Ended u.program)
    (hstep : sys₁.step (.run i n) = some sys₂)
    (hrun' : System.Run (fun _ _ => True) sys₂ sys₃) (hstep' : sys₃.step b = some sys₄)
    (hchanged : f sys₄.store ≠ f sys₃.store) :
    ∀ u, sys₁.threads[System.mover b]? = some u → Unread program u := by
  have hplace := place_of_run (f := f) hpresent hrun
  have hbehind := behind_of_commit (hplace t (List.mem_of_getElem? ht) hsection) hcommit
  intro u hu
  by_contra hread
  have hpast : ∀ v, sys₂.threads[System.mover b]? = some v → Past f v := by
    obtain ⟨t', p, ses, ws, ht', hmove, rfl⟩ := System.step_eq_some.mp hstep
    obtain rfl : t = t' := Option.some.inj (ht.symm.trans ht')
    intro v hv
    simp only [System.mover, List.getElem?_set] at hv
    split_ifs at hv with hmover hlt
    · obtain rfl := Option.some.inj hv
      obtain ⟨hactive, hheld, hbody⟩ := hbehind
      rw [hcommit] at hbody
      simp only [System.move, hcommit, advance, Option.some.injEq, Prod.mk.injEq] at hmove
      obtain ⟨rfl, rfl, -⟩ := hmove
      exact .inr (.inl ⟨rfl, hbody.1⟩)
    · obtain rfl := Option.some.inj (hu.symm.trans hv)
      obtain hkeeps | hunread | hended := hothers _ u (fun h => hmover h.symm) hu
      · obtain hpast | ⟨-, hbefore⟩ | hbehind' := hplace u (List.mem_of_getElem? hu) hkeeps
        · exact hpast
        · exact absurd (hbefore.imp (·.2) (·.2)) hread
        · exact (exclusive_of_run hrun hmover ht hu hbehind.2.1 hbehind'.2.1).elim
      · exact absurd hunread hread
      · exact .inl hended
  obtain ⟨v, p, ses, ws, hv, hmove, rfl⟩ := System.step_eq_some.mp hstep'
  exact hchanged (past_move (past_of_run hpast hrun' v hv) hmove).2

end Runs

end NexaStays.CriticalSections
