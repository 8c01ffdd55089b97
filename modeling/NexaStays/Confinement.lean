import NexaStays.Exceptions

/-!
# What a program writes

`Confined W`: every write of the program satisfies `W`, in whatever store it runs. What such
writes keep stays true in all its runs.
-/
namespace NexaStays.Confinement

open NexaStays.Transactions NexaStays.Embedding NexaStays.Sequences NexaStays.Completions

variable {τ σ κ ω ε α β : Type}

def Confined (W : ω → Prop) : Program σ κ ω ε α → Prop
  | .pure _ | .throw _ | .halt => True
  | .select k err | .lock _ k err => (∀ s, Confined W (k s)) ∧ Confined W err
  | .update ws k err => (∀ s, ∀ w ∈ ws s, W w) ∧ (∀ s, Confined W (k s)) ∧ Confined W err
  | .insert row k err => (∀ n, W (row n)) ∧ (∀ n, Confined W (k n)) ∧ Confined W err
  | .choose k => ∀ n, Confined W (k n)
  | .emit ws k => (∀ s, ∀ w ∈ ws s, W w) ∧ ∀ s, Confined W (k s)
  | .start k | .rollback k => Confined W k
  | .commit k err => Confined W k ∧ Confined W err

section Rules

variable {W : ω → Prop} {e : ε}

theorem Confined.pure {a : α} : Confined W (Pure.pure a : Program σ κ ω ε α) := trivial

theorem Confined.handle {p : Program σ κ ω ε α} {f : α → Program σ κ ω ε β}
    {g : ε → Program σ κ ω ε β} (h : Confined W p) (hf : ∀ a, Confined W (f a))
    (hg : ∀ e, Confined W (g e)) : Confined W (p.handle f g) := by
  induction p with
  | pure a => exact hf a
  | throw e => exact hg e
  | halt => trivial
  | select k err ihk iherr | lock key k err ihk iherr =>
    exact ⟨fun s => ihk s (h.1 s), iherr h.2⟩
  | update ws k err ihk iherr => exact ⟨h.1, fun s => ihk s (h.2.1 s), iherr h.2.2⟩
  | insert row k err ihk iherr => exact ⟨h.1, fun n => ihk n (h.2.1 n), iherr h.2.2⟩
  | choose k ih => exact fun n => ih n (h n)
  | emit ws k ih => exact ⟨h.1, fun s => ih s (h.2 s)⟩
  | start k ih | rollback k ih => exact ih h
  | commit k err ihk iherr => exact ⟨ihk h.1, iherr h.2⟩

theorem Confined.bind {p : Program σ κ ω ε α} {k : α → Program σ κ ω ε β} (h : Confined W p)
    (hk : ∀ a, Confined W (k a)) : Confined W (p >>= k) :=
  h.handle hk fun _ => trivial

theorem Confined.attempt {p : Program σ κ ω ε α} {g : ε → Program σ κ ω ε α} (h : Confined W p)
    (hg : ∀ e, Confined W (g e)) : Confined W (Program.attempt p g) :=
  h.handle (fun _ => trivial) hg

theorem Confined.query {f : σ → α} : Confined W (Program.query e f : Program σ κ ω ε α) :=
  ⟨fun _ => trivial, trivial⟩

theorem Confined.receive : Confined W (Program.receive : Program σ κ ω ε ℕ) := fun _ => trivial

theorem Confined.require {p : Prop} [Decidable p] :
    Confined W (Program.require p e : Program σ κ ω ε Unit) := by
  by_cases hp : p <;> simp only [Program.require, hp, if_true, if_false] <;> trivial

theorem Confined.expect {o : Option α} :
    Confined W (Program.expect o e : Program σ κ ω ε α) := by
  cases o <;> trivial

theorem Confined.writeRows {ws : σ → List ω} (h : ∀ s, ∀ w ∈ ws s, W w) :
    Confined W (Program.writeRows e ws : Program σ κ ω ε (List ω)) :=
  ⟨h, fun _ => trivial, trivial⟩

theorem Confined.send {ws : σ → List ω} {f : σ → α} (h : ∀ s, ∀ w ∈ ws s, W w) :
    Confined W (Program.send ws f : Program σ κ ω ε α) :=
  ⟨h, fun _ => trivial⟩

/-- A program on a part of the store writes that part. -/
theorem confined_within {σ' κ' ω' ε' : Type} [Storage σ κ ω] [Storage σ' κ' ω']
    (part : Part σ σ' κ κ' ω ω' ε ε') {W : ω' → Prop} (h : ∀ w, W (part.write w))
    (p : Program σ κ ω ε α) : Confined W (within part p) := by
  have hmap : ∀ ws : List ω, ∀ w ∈ ws.map part.write, W w := by
    intro ws w hw
    obtain ⟨v, -, rfl⟩ := List.mem_map.mp hw
    exact h v
  induction p with
  | pure | throw | halt => trivial
  | select k err ihk iherr | lock key k err ihk iherr => exact ⟨fun s => ihk _, iherr⟩
  | update ws k err ihk iherr => exact ⟨fun s => hmap _, fun s => ihk _, iherr⟩
  | insert row k err ihk iherr => exact ⟨fun n => h _, ihk, iherr⟩
  | choose k ih => exact ih
  | emit ws k ih => exact ⟨fun s => hmap _, fun s => ih _⟩
  | start k ih | rollback k ih => exact ih
  | commit k err ihk iherr => exact ⟨ihk, iherr⟩

end Rules

section Runs

variable [Storage σ κ ω] {W : ω → Prop}

/-- What the call has written and will write satisfies `W`. -/
def Within (W : ω → Prop) (p : Program σ κ ω ε α) (ses : Session κ ω) : Prop :=
  Confined W p ∧ ∀ w ∈ ses.pending, W w

theorem within_stage {ses : Session κ ω} {ws : List ω} (h : ∀ w ∈ ses.pending, W w)
    (hws : ∀ w ∈ ws, W w) :
    (∀ w ∈ (ses.stage (σ := σ) ws).pending, W w) ∧ ∀ w ∈ ses.visible ws, W w := by
  by_cases hactive : ses.active = true
  · simp only [Session.stage, Session.visible, hactive, if_true]
    refine ⟨fun w hw => ?_, by simp⟩
    obtain hw | hw := List.mem_append.mp hw
    · exact h w hw
    · exact hws w hw
  · simp only [Session.stage, Session.visible, if_neg hactive]
    exact ⟨h, hws⟩

theorem Within.advance {free : κ → Bool} {n : ℕ} {p p' : Program σ κ ω ε α}
    {ses ses' : Session κ ω} {s : σ} {ws : List ω} (h : Within W p ses)
    (hadvance : Transactions.advance free n s ses p = some (p', ses', ws)) :
    Within W p' ses' ∧ ∀ w ∈ ws, W w := by
  obtain ⟨hp, hses⟩ := h
  have hnone : ∀ w ∈ ([] : List ω), W w := by simp
  cases p with
  | pure | throw | halt => cases hadvance
  | select k err =>
    cases hadvance
    exact ⟨⟨hp.1 _, hses⟩, hnone⟩
  | lock key k err =>
    simp only [Transactions.advance, Option.ite_none_right_eq_some, Option.some.injEq,
      Prod.mk.injEq] at hadvance
    obtain ⟨-, rfl, rfl, rfl⟩ := hadvance
    refine ⟨⟨hp.1 _, ?_⟩, hnone⟩
    rw [Session.acquire]
    split <;> exact hses
  | update w k err =>
    simp only [Transactions.advance, Option.ite_none_right_eq_some, Option.some.injEq,
      Prod.mk.injEq] at hadvance
    obtain ⟨-, rfl, rfl, rfl⟩ := hadvance
    obtain ⟨hpending, hvisible⟩ := within_stage (σ := σ) hses (hp.1 (ses.view s))
    exact ⟨⟨hp.2.1 _, hpending⟩, hvisible⟩
  | insert row k err =>
    simp only [Transactions.advance, Option.ite_none_right_eq_some, Option.some.injEq,
      Prod.mk.injEq] at hadvance
    obtain ⟨-, rfl, rfl, rfl⟩ := hadvance
    have hrow : ∀ w ∈ [row n], W w := by
      intro w hw
      rw [List.mem_singleton.mp hw]
      exact hp.1 n
    obtain ⟨hpending, hvisible⟩ := within_stage (σ := σ) hses hrow
    exact ⟨⟨hp.2.1 _, hpending⟩, hvisible⟩
  | choose k =>
    cases hadvance
    exact ⟨⟨hp n, hses⟩, hnone⟩
  | emit w k =>
    simp only [Transactions.advance, Option.ite_none_right_eq_some, Option.some.injEq,
      Prod.mk.injEq] at hadvance
    obtain ⟨-, rfl, rfl, rfl⟩ := hadvance
    exact ⟨⟨hp.2 _, hses⟩, hp.1 _⟩
  | start k | rollback k =>
    cases hadvance
    exact ⟨⟨hp, hnone⟩, hnone⟩
  | commit k err =>
    cases hadvance
    exact ⟨⟨hp.1, hnone⟩, hses⟩

omit [Storage σ κ ω] in
theorem Within.failing {p p' : Program σ κ ω ε α} {ses ses' : Session κ ω} {ws : List ω}
    (h : Within W p ses) (hfailing : Transactions.failing ses p = some (p', ses', ws)) :
    Within W p' ses' ∧ ∀ w ∈ ws, W w := by
  obtain ⟨hp, hses⟩ := h
  have hnone : ∀ w ∈ ([] : List ω), W w := by simp
  cases p with
  | select k err | lock key k err =>
    cases hfailing
    exact ⟨⟨hp.2, hses⟩, hnone⟩
  | update w k err | insert row k err =>
    cases hfailing
    exact ⟨⟨hp.2.2, hses⟩, hnone⟩
  | commit k err =>
    cases hfailing
    exact ⟨⟨hp.2, hnone⟩, hnone⟩
  | _ => cases hfailing

theorem publish_keeps {I : σ → Prop} (hI : ∀ s w, W w → I s → I (Storage.write s w)) {s : σ}
    {ws : List ω} (hws : ∀ w ∈ ws, W w) (hs : I s) : I (publish s ws) := by
  induction ws generalizing s with
  | nil => exact hs
  | cons w ws ih =>
    rw [publish_cons]
    exact ih (fun v hv => hws v (List.mem_cons_of_mem w hv)) (hI s w (hws w List.mem_cons_self) hs)

variable [DecidableEq κ]

theorem within_move {sys : System τ σ κ ω ε α} {t : Thread τ σ κ ω ε α} {a : Action}
    {p : Program σ κ ω ε α} {ses : Session κ ω} {ws : List ω} (h : Within W t.program t.session)
    (hmove : sys.move t a = some (p, ses, ws)) : Within W p ses ∧ ∀ w ∈ ws, W w := by
  cases a with
  | run i n => exact h.advance hmove
  | fail i => exact h.failing hmove
  | crash i =>
    cases hmove
    exact ⟨⟨trivial, by simp [Session.idle]⟩, by simp⟩

/-- What the writes of a call keep holds in all its runs. -/
theorem confined_solo {I : σ → Prop} (hI : ∀ s w, W w → I s → I (Storage.write s w)) {c : τ}
    {s : σ} {p : Program σ κ ω ε α} {sys : System τ σ κ ω ε α} (h : Confined W p) (hs : I s)
    (hrun : System.Run (fun _ _ => True) (solo c s p) sys) : I sys.store := by
  have hinv : (∀ t ∈ sys.threads, Within W t.program t.session) ∧ I sys.store := by
    induction hrun with
    | refl =>
      refine ⟨fun t ht => ?_, hs⟩
      rw [List.mem_singleton.mp ht]
      exact ⟨h, by simp [Session.idle]⟩
    | tail _ _ hstep ih =>
      obtain ⟨t, p', ses', ws, ht, hmove, rfl⟩ := System.step_eq_some.mp hstep
      have hmoved := within_move (ih.1 t (List.mem_of_getElem? ht)) hmove
      refine ⟨fun u hu => ?_, publish_keeps hI hmoved.2 ih.2⟩
      obtain hmem | rfl := List.mem_or_eq_of_mem_set hu
      · exact ih.1 u hmem
      · exact hmoved.1
  exact hinv.2

omit [DecidableEq κ] in
/-- The same where a call that is alone ends. -/
theorem mustEnd_of_confined {I : σ → Prop} (hI : ∀ s w, W w → I s → I (Storage.write s w))
    {p : Program σ κ ω ε α} {ses : Session κ ω} {s : σ} (h : Confined W p)
    (hses : ∀ w ∈ ses.pending, W w) (hs : I s) :
    MustEnd (fun _ ses t => (∀ w ∈ ses.pending, W w) ∧ I t) p ses s := by
  have hnone : ∀ w ∈ ([] : List ω), W w := by simp
  induction p generalizing ses s with
  | pure | throw => exact ⟨hses, hs⟩
  | halt => trivial
  | select k err ihk iherr => exact ⟨ihk _ (h.1 _) hses hs, iherr h.2 hses hs⟩
  | lock key k err ihk iherr =>
    refine ⟨ihk _ (h.1 _) ?_ hs, iherr h.2 hses hs⟩
    rw [Session.acquire]
    split <;> exact hses
  | update ws k err ihk iherr =>
    obtain ⟨hpending, hvisible⟩ := within_stage (σ := σ) hses (h.1 (ses.view s))
    exact ⟨ihk _ (h.2.1 _) hpending (publish_keeps hI hvisible hs), iherr h.2.2 hses hs⟩
  | insert row k err ihk iherr =>
    refine ⟨fun n _ => ?_, iherr h.2.2 hses hs⟩
    have hrow : ∀ w ∈ [row n], W w := by
      intro w hw
      rw [List.mem_singleton.mp hw]
      exact h.1 n
    obtain ⟨hpending, hvisible⟩ := within_stage (σ := σ) hses hrow
    exact ihk n (h.2.1 n) hpending (publish_keeps hI hvisible hs)
  | choose k ih => exact fun n => ih n (h n) hses hs
  | emit ws k ih => exact ih _ (h.2 _) hses (publish_keeps hI (h.1 _) hs)
  | start k ih | rollback k ih => exact ih h hnone hs
  | commit k err ihk iherr => exact ⟨ihk h.1 hnone (publish_keeps hI hses hs), iherr h.2 hnone hs⟩

end Runs

-- a statement about a long program is not to be unfolded into its steps
attribute [irreducible] Confined

end NexaStays.Confinement
