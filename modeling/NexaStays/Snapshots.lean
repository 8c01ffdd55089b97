import NexaStays.Phases

/-!
# Calls that read a part of the store and write it later

A call reads a part of the store (its `view`), decides on what it read, and writes. `Apart`
asks that no call writes while another one is between its read and its last write (its
`span`). Then what a call has read is still there when it writes, and a run is a sequence of
changes that each call makes to what is in the store.
-/
namespace NexaStays.Snapshots

open NexaStays.Transactions NexaStays.Phases NexaStays.Phases.Protocol

variable {τ σ κ ω ε α β γ ρ : Type} [Storage σ κ ω]

/-- The next statement of a call makes writes visible. -/
def Publishing (t : Thread τ σ κ ω ε α) : Prop :=
  match t.program with
  | .update _ _ _ | .insert _ _ _ => t.session.active = false
  | .emit _ _ | .commit _ _ => True
  | _ => False

theorem publishing_of_advance {t : Thread τ σ κ ω ε α} {free : κ → Bool} {n : ℕ} {s : σ}
    {p : Program σ κ ω ε α} {ses : Session κ ω} {ws : List ω}
    (h : advance free n s t.session t.program = some (p, ses, ws)) (hws : ws ≠ []) :
    Publishing t := by
  have hactive : ∀ ws' : List ω, t.session.visible ws' = ws → t.session.active = false := by
    intro ws' hvisible
    by_contra hyes
    simp only [Bool.not_eq_false] at hyes
    simp only [Session.visible, hyes, if_true] at hvisible
    exact hws hvisible.symm
  unfold Publishing
  cases hp : t.program <;> simp only [hp, advance] at h ⊢
  case update =>
    simp only [Option.ite_none_right_eq_some, Option.some.injEq, Prod.mk.injEq] at h
    exact hactive _ h.2.2.2
  case insert =>
    simp only [Option.ite_none_right_eq_some, Option.some.injEq, Prod.mk.injEq] at h
    exact hactive _ h.2.2.2
  case lock =>
    simp only [Option.ite_none_right_eq_some, Option.some.injEq, Prod.mk.injEq] at h
    exact hws h.2.2.2.symm
  all_goals simp_all

/-- While a call is in its span, no other one writes from within its own. -/
def Apart (span : Program σ κ ω ε α → Prop) (sys : System τ σ κ ω ε α) : Action → Prop
  | .run i _ => ∀ t, sys.threads[i]? = some t → span t.program → Publishing t →
    ∀ j u, j ≠ i → sys.threads[j]? = some u → ¬span u.program
  | _ => True

omit [Storage σ κ ω] in
/-- A call that runs by itself is apart from the others. -/
theorem apart_alone {span : Program σ κ ω ε α → Prop} {sys : System τ σ κ ω ε α} {a : Action}
    (h : ∀ j, j ≠ System.mover a → sys.threads[j]? = none) : Apart span sys a := by
  cases a with
  | run i n =>
    intro t _ _ _ j u hj hu
    rw [h j hj] at hu
    cases hu
  | fail i => trivial
  | crash i => trivial

omit [Storage σ κ ω] in
theorem expect_some {b : β} {e : ε} {k : β → Program σ κ ω ε α} :
    (Program.expect (some b) e >>= k) = k b := rfl

/-- The protocol inside of a block: the phases of `G` may stand anywhere in it. -/
def loose (P : Protocol σ κ ω ε α γ) (G : γ → Prop) : Protocol σ κ ω ε β γ :=
  ⟨fun g _ => G g, P.Knows, P.Step, P.Fail, P.dead⟩

variable {P : Protocol σ κ ω ε α γ} {G : γ → Prop}
  {ctx : Program σ κ ω ε β → Program σ κ ω ε α} {Q : Except ε β → Session κ ω → γ → Prop}

theorem next_of_advance {f : κ → Bool} {n : ℕ} {s : σ} {t t' : Session κ ω} {ws : List ω}
    {p q : Program σ κ ω ε β} (h : advance f n s t p = some (q, t', ws)) : Next p q :=
  Or.inl ⟨f, n, s, t, t', ws, h⟩

theorem next_of_failing {t t' : Session κ ω} {ws : List ω} {p q : Program σ κ ω ε β}
    (h : failing t p = some (q, t', ws)) : Next p q :=
  Or.inr ⟨t, t', ws, h⟩

/-- A block follows the protocol where it stands in the call, if the phases of `G` may stand
at any of its statements. -/
theorem refines_located {block : Program σ κ ω ε β}
    (hat : ∀ q g, Residue block q → Active q → G g → P.At g (ctx q)) {ses : Session κ ω} {g : γ}
    (h : (loose P G).Refines id Q block ses g) : P.Refines ctx Q block ses g := by
  have hwithin : ∀ q : Program σ κ ω ε β, Residue block q → ∀ ses g,
      (loose P G).Refines id Q q ses g → P.Refines ctx Q q ses g := by
    intro q
    induction q with
    | pure b => exact fun _ _ _ h => h
    | throw e => exact fun _ _ _ h => h
    | halt => exact fun _ _ _ h => h
    | select k err ihk iherr =>
      intro hres ses g h
      refine ⟨hat _ g hres trivial h.1, fun s hs => (h.2.1 s hs).mono fun _ => ?_,
        h.2.2.mono fun _ => ?_⟩
      · exact ihk _ (hres.tail (next_of_advance (f := fun _ => true) (n := 0) rfl)) _ _
      · exact iherr (hres.tail (next_of_failing (t := ses) rfl)) _ _
    | lock key k err ihk iherr =>
      intro hres ses g h
      refine ⟨hat _ g hres trivial h.1, fun s hs => (h.2.1 s hs).mono fun _ => ?_,
        h.2.2.mono fun _ => ?_⟩
      · exact ihk _ (hres.tail (next_of_advance (f := fun _ => true) (n := 0) rfl)) _ _
      · exact iherr (hres.tail (next_of_failing (t := ses) rfl)) _ _
    | update ws k err ihk iherr =>
      intro hres ses g h
      refine ⟨hat _ g hres trivial h.1, fun s hs => (h.2.1 s hs).mono fun _ => ?_,
        h.2.2.mono fun _ => ?_⟩
      · exact ihk _ (hres.tail (next_of_advance (f := fun _ => true) (n := 0) (s := s)
          (t := ses) (if_pos (List.all_eq_true.mpr fun _ _ => rfl)))) _ _
      · exact iherr (hres.tail (next_of_failing (t := ses) rfl)) _ _
    | insert row k err ihk iherr =>
      intro hres ses g h
      refine ⟨hat _ g hres trivial h.1, fun s n hs hn => (h.2.1 s n hs hn).mono fun _ => ?_,
        h.2.2.mono fun _ => ?_⟩
      · exact ihk _ (hres.tail (next_of_advance (f := fun _ => true) (n := n) (s := s)
          (t := ses) (if_pos (by simp [hn])))) _ _
      · exact iherr (hres.tail (next_of_failing (t := ses) rfl)) _ _
    | choose k ih =>
      intro hres ses g h
      refine ⟨hat _ g hres trivial h.1, fun s n hs => (h.2 s n hs).mono fun _ => ?_⟩
      exact ih n (hres.tail (next_of_advance (f := fun _ => true) (s := s) (t := ses) rfl)) _ _
    | emit ws k ih =>
      intro hres ses g h
      refine ⟨hat _ g hres trivial h.1, fun s hs => (h.2 s hs).mono fun _ => ?_⟩
      exact ih _ (hres.tail (next_of_advance (f := fun _ => true) (n := 0) (s := s)
        (t := ses) (if_pos (List.all_eq_true.mpr fun _ _ => rfl)))) _ _
    | start k ih =>
      intro hres ses g h
      refine ⟨hat _ g hres trivial h.1, fun s hs => (h.2 s hs).mono fun _ => ?_⟩
      exact ih (hres.tail (next_of_advance (f := fun _ => true) (n := 0) (s := s)
        (t := ses) rfl)) _ _
    | commit k err ihk iherr =>
      intro hres ses g h
      refine ⟨hat _ g hres trivial h.1, fun s hs => (h.2.1 s hs).mono fun _ => ?_,
        h.2.2.mono fun _ => ?_⟩
      · exact ihk (hres.tail (next_of_advance (f := fun _ => true) (n := 0) (s := s)
          (t := ses) rfl)) _ _
      · exact iherr (hres.tail (next_of_failing (t := ses) rfl)) _ _
    | rollback k ih =>
      intro hres ses g h
      refine ⟨hat _ g hres trivial h.1, fun s hs => (h.2 s hs).mono fun _ => ?_⟩
      exact ih (hres.tail (next_of_advance (f := fun _ => true) (n := 0) (s := s)
        (t := ses) rfl)) _ _
  exact hwithin block .refl ses g h

/-- A part of a call has ended, and `f` makes its answer the answer of the call. -/
def DoneWith (P : Protocol σ κ ω ε α γ) (f : β → α) : Except ε β → Session κ ω → γ → Prop
  | .ok b, ses, g => P.Done (.ok (f b)) ses g
  | .error e, ses, g => P.Done (.error e) ses g

theorem refines_answer {f : β → α} {p : Program σ κ ω ε β} {ses : Session κ ω} {g : γ}
    (h : P.Refines (fun q => f <$> q) (DoneWith P f) p ses g) :
    P.Refines id P.Done (f <$> p) ses g :=
  h.bind (fun _ _ _ h => h) fun _ _ _ h => h

/-- A loop whose rounds leave the phase and the session as they are. -/
theorem refines_forEach {f : β → Program σ κ ω ε Unit} {xs : List β} {ses : Session κ ω} {g : γ}
    {R : Except ε Unit → Session κ ω → γ → Prop} {ctx : Program σ κ ω ε Unit → Program σ κ ω ε α}
    (h : ∀ x ∈ xs, ∀ ctx, P.Refines ctx (fun r ses' g' => match r with
      | .ok _ => ses' = ses ∧ g' = g
      | .error e => R (.error e) ses' g') (f x) ses g)
    (hok : R (.ok ()) ses g) : P.Refines ctx R (Program.forEach f xs) ses g := by
  induction xs generalizing ctx with
  | nil => exact hok
  | cons x xs ih =>
    refine Refines.handle ((h x List.mem_cons_self _).mono fun r ses' g' hr => ?_)
    cases r with
    | ok u =>
      obtain ⟨rfl, rfl⟩ := hr
      exact ih fun y hy => h y (List.mem_cons_of_mem x hy)
    | error e => exact hr

/-- The phases of a protocol that have read the view and may write it are in their span. -/
structure Guarded (P : Protocol σ κ ω ε α γ) (view : σ → Option ρ) (snap : γ → Option ρ)
    (span : Program σ κ ω ε α → Prop) : Prop where
  knows : ∀ {g s}, P.Knows g s ↔ ∀ v, snap g = some v → view s = some v
  span : ∀ {g p v}, P.At g p → snap g = some v → span p
  writes : ∀ {g s ws g'}, P.Step g s ws g' →
    view (publish s ws) = view s ∨ view s = none ∨ ∃ v, snap g = some v
  after : ∀ {g s ws g' v}, P.Step g s ws g' → P.Knows g s → snap g' = some v →
    view (publish s ws) = some v
  fail : ∀ {g g' v}, P.Fail g g' → snap g' = some v → snap g = some v
  dead : snap P.dead = none

section Guard

variable [DecidableEq κ] {view : σ → Option ρ} {snap : γ → Option ρ}
  {span : Program σ κ ω ε α → Prop} {ok : System τ σ κ ω ε α → Action → Prop}

/-- Two calls in their spans, of which one writes the view. -/
theorem Guarded.collide (h : Guarded P view snap span) {sys sys' : System τ σ κ ω ε α}
    {i j n : ℕ} {gs : List γ} {g g' x : γ} {ws : List ω} {v w : ρ}
    (hok : Apart span sys (.run i n)) (hm : P.Moved sys sys' (.run i n) gs g ws g')
    (hji : j ≠ i) (hj : gs[j]? = some x) (hw : snap g = some w) (hv : snap x = some v)
    (hchanged : view (publish sys.store ws) ≠ view sys.store) : False := by
  obtain ⟨t, ht, hat⟩ := hm.before.call hm.phase
  obtain ⟨u, hu, hat'⟩ := hm.before.call hj
  have hspan : span t.program := by
    obtain hat | ⟨-, rfl⟩ := hat
    · exact h.span hat hw
    · rw [h.dead] at hw
      cases hw
  have hspan' : span u.program := by
    obtain hat' | ⟨-, rfl⟩ := hat'
    · exact h.span hat' hv
    · rw [h.dead] at hv
      cases hv
  obtain ⟨t', p, ses, ws', ht', hmove, hsys⟩ := System.step_eq_some.mp hm.step
  obtain rfl : t = t' := Option.some.inj (ht.symm.trans ht')
  have hws : ws' ≠ [] := by
    rintro rfl
    have hstore : publish sys.store ws = sys.store := by
      rw [← hm.store, hsys]
      rfl
    exact hchanged (by rw [hstore])
  exact hok t ht hspan (publishing_of_advance hmove hws) j u hji hu hspan'

/-- In a run whose spans are apart, what a phase has read stays in the store. -/
theorem Guarded.knows_after (h : Guarded P view snap span) {sys sys' : System τ σ κ ω ε α}
    {i n : ℕ} {gs : List γ} {g g' : γ} {ws : List ω} (hok : Apart span sys (.run i n))
    (hknows : ∀ g ∈ gs, P.Knows g sys.store) (hm : P.Moved sys sys' (.run i n) gs g ws g')
    (hstep : P.Step g sys.store ws g') : ∀ x ∈ gs.set i g', P.Knows x (publish sys.store ws) := by
  intro x hx
  obtain rfl | ⟨j, hji, hj⟩ := mem_set_cases hx
  · exact h.knows.mpr fun v hv =>
      h.after hstep (hknows g (List.mem_of_getElem? hm.phase)) hv
  · have hbefore := h.knows.mp (hknows x (List.mem_of_getElem? hj))
    refine h.knows.mpr fun v hv => ?_
    by_cases hsame : view (publish sys.store ws) = view sys.store
    · rw [hsame]
      exact hbefore v hv
    · obtain heq | hnone | ⟨w, hw⟩ := h.writes hstep
      · exact absurd heq hsame
      · exact absurd (hbefore v hv) (by simp [hnone])
      · exact (h.collide hok hm hji hj hw hv hsame).elim

/-- In a run whose spans are apart, every move keeps the snapshots, and a further property
of the phases and the store if each step of the protocol keeps it where they are right. -/
theorem Guarded.keeps (h : Guarded P view snap span)
    (hok : ∀ (sys : System τ σ κ ω ε α) a, ok sys a → Apart span sys a)
    {Inv : List γ → σ → Prop}
    (hstep : ∀ {gs s i g ws g'}, Inv gs s → (∀ x ∈ gs, P.Knows x s) → gs[i]? = some g →
      P.Step g s ws g' → Inv (gs.set i g') (publish s ws))
    (hfail : ∀ {gs s i g g'}, Inv gs s → gs[i]? = some g → P.Fail g g' → Inv (gs.set i g') s)
    (hdead : ∀ {gs s i g}, Inv gs s → gs[i]? = some g → Inv (gs.set i P.dead) s) :
    P.Keeps ok fun gs s => (∀ g ∈ gs, P.Knows g s) ∧ Inv gs s := by
  refine ⟨fun hJ hg => hJ.1 _ hg, fun hmeets hJ hm hs => ?_, fun _ hJ hm hf => ?_,
    fun _ hJ hm => ?_⟩
  · exact ⟨h.knows_after (hok _ _ hmeets) hJ.1 hm hs, hstep hJ.2 hJ.1 hm.phase hs⟩
  · refine ⟨fun x hx => ?_, hfail hJ.2 hm.phase hf⟩
    obtain rfl | ⟨j, -, hj⟩ := mem_set_cases hx
    · exact h.knows.mpr fun v hv =>
        h.knows.mp (hJ.1 _ (List.mem_of_getElem? hm.phase)) v (h.fail hf hv)
    · exact hJ.1 x (List.mem_of_getElem? hj)
  · refine ⟨fun x hx => ?_, hdead hJ.2 hm.phase⟩
    obtain rfl | ⟨j, -, hj⟩ := mem_set_cases hx
    · exact h.knows.mpr fun v hv => by simp [h.dead] at hv
    · exact hJ.1 x (List.mem_of_getElem? hj)

end Guard

/-- A transaction that has begun, to its end. -/
def closing (e : ε) (p : Program σ κ ω ε β) : Program σ κ ω ε β :=
  p.handle (fun b => .commit (.pure b) (.throw e)) fun e => .rollback (.throw e)

/-- The write does not change the view. -/
def Spares (view : σ → Option ρ) (w : ω) : Prop := ∀ s, view (Storage.write s w) = view s

theorem view_publish {view : σ → Option ρ} {ws : List ω} (h : ∀ w ∈ ws, Spares view w) (s : σ) :
    view (publish s ws) = view s := by
  induction ws generalizing s with
  | nil => rfl
  | cons w ws ih =>
    rw [publish_cons, ih (fun w' hw' => h w' (List.mem_cons_of_mem w hw')),
      h w List.mem_cons_self]

/-- No statement of the program writes the view. -/
def Leaves (view : σ → Option ρ) : Program σ κ ω ε β → Prop
  | .pure _ | .throw _ => True
  | .halt => False
  | .select k err | .lock _ k err => (∀ s, Leaves view (k s)) ∧ Leaves view err
  | .update ws k err =>
    (∀ s, ∀ w ∈ ws s, Spares view w) ∧ (∀ s, Leaves view (k s)) ∧ Leaves view err
  | .insert row k err => (∀ n, Spares view (row n)) ∧ (∀ n, Leaves view (k n)) ∧ Leaves view err
  | .choose k => ∀ n, Leaves view (k n)
  | .emit ws k => (∀ s, ∀ w ∈ ws s, Spares view w) ∧ ∀ s, Leaves view (k s)
  | .start k | .rollback k => Leaves view k
  | .commit k err => Leaves view k ∧ Leaves view err

section Leaving

variable {view : σ → Option ρ} {ξ : Type}

theorem Leaves.handle {f : β → Program σ κ ω ε ξ} {g : ε → Program σ κ ω ε ξ}
    {p : Program σ κ ω ε β} (h : Leaves view p) (hf : ∀ b, Leaves view (f b))
    (hg : ∀ e, Leaves view (g e)) : Leaves view (p.handle f g) := by
  induction p with
  | pure b => exact hf b
  | throw e => exact hg e
  | halt => exact h.elim
  | select k err ihk iherr => exact ⟨fun s => ihk s (h.1 s), iherr h.2⟩
  | lock key k err ihk iherr => exact ⟨fun s => ihk s (h.1 s), iherr h.2⟩
  | update ws k err ihk iherr => exact ⟨h.1, fun s => ihk s (h.2.1 s), iherr h.2.2⟩
  | insert row k err ihk iherr => exact ⟨h.1, fun n => ihk n (h.2.1 n), iherr h.2.2⟩
  | choose k ih => exact fun n => ih n (h n)
  | emit ws k ih => exact ⟨h.1, fun s => ih s (h.2 s)⟩
  | start k ih => exact ih h
  | commit k err ihk iherr => exact ⟨ihk h.1, iherr h.2⟩
  | rollback k ih => exact ih h

theorem Leaves.bind {f : β → Program σ κ ω ε ξ} {p : Program σ κ ω ε β} (h : Leaves view p)
    (hf : ∀ b, Leaves view (f b)) : Leaves view (p >>= f) :=
  h.handle hf fun _ => trivial

theorem Leaves.map {f : β → ξ} {p : Program σ κ ω ε β} (h : Leaves view p) :
    Leaves view (f <$> p) :=
  h.bind fun _ => trivial

theorem Leaves.query {e : ε} {f : σ → β} : Leaves view (Program.query (κ := κ) e f) :=
  ⟨fun _ => trivial, trivial⟩

theorem Leaves.lockRow {e : ε} {key : κ} {f : σ → β} :
    Leaves view (Program.lockRow (ω := ω) e key f) :=
  ⟨fun _ => trivial, trivial⟩

theorem Leaves.findOne {e : ε} {f : σ → List β} :
    Leaves view (Program.findOne (κ := κ) e f) :=
  fun _ => Leaves.query

theorem Leaves.receive : Leaves view (Program.receive : Program σ κ ω ε ℕ) := fun _ => trivial

theorem Leaves.require {p : Prop} [Decidable p] {e : ε} :
    Leaves view (Program.require p e : Program σ κ ω ε Unit) := by
  unfold Program.require
  split_ifs <;> trivial

theorem Leaves.expect {o : Option β} {e : ε} :
    Leaves view (Program.expect o e : Program σ κ ω ε β) := by
  cases o <;> trivial

theorem Leaves.ofExcept {x : Except ε β} :
    Leaves view (Program.ofExcept x : Program σ κ ω ε β) := by
  cases x <;> trivial

theorem Leaves.writeRows {e : ε} {ws : σ → List ω} (h : ∀ s, ∀ w ∈ ws s, Spares view w) :
    Leaves view (Program.writeRows e ws) :=
  ⟨h, fun _ => trivial, trivial⟩

theorem Leaves.insertRow {e : ε} {row : ℕ → ω} (h : ∀ n, Spares view (row n)) :
    Leaves view (Program.insertRow e row) :=
  ⟨h, fun _ => trivial, trivial⟩

theorem Leaves.forEach {f : β → Program σ κ ω ε Unit} {xs : List β}
    (h : ∀ x ∈ xs, Leaves view (f x)) : Leaves view (Program.forEach f xs) := by
  induction xs with
  | nil => trivial
  | cons x xs ih =>
    exact (h x List.mem_cons_self).handle
      (fun _ => ih fun y hy => h y (List.mem_cons_of_mem x hy)) fun _ => trivial

theorem Leaves.closing {e : ε} {p : Program σ κ ω ε β} (h : Leaves view p) :
    Leaves view (closing e p) :=
  h.handle (fun _ => ⟨trivial, trivial⟩) fun _ => trivial

theorem Leaves.transaction {e : ε} {p : Program σ κ ω ε β} (h : Leaves view p) :
    Leaves view (p.transaction e) :=
  h.closing

end Leaving

/-- A program that leaves the view alone, takes no lock and is in no transaction of its own. -/
def Plain (view : σ → Option ρ) : Program σ κ ω ε β → Prop
  | .pure _ | .throw _ => True
  | .select k err => (∀ s, Plain view (k s)) ∧ Plain view err
  | .update ws k err =>
    (∀ s, ∀ w ∈ ws s, Spares view w) ∧ (∀ s, Plain view (k s)) ∧ Plain view err
  | .insert row k err => (∀ n, Spares view (row n)) ∧ (∀ n, Plain view (k n)) ∧ Plain view err
  | .choose k => ∀ n, Plain view (k n)
  | _ => False

section Plainness

variable {view : σ → Option ρ} {ξ : Type} {e : ε}

theorem Plain.leaves {p : Program σ κ ω ε β} (h : Plain view p) : Leaves view p := by
  induction p with
  | pure | throw => trivial
  | select k err ihk iherr => exact ⟨fun s => ihk s (h.1 s), iherr h.2⟩
  | update ws k err ihk iherr => exact ⟨h.1, fun s => ihk s (h.2.1 s), iherr h.2.2⟩
  | insert row k err ihk iherr => exact ⟨h.1, fun n => ihk n (h.2.1 n), iherr h.2.2⟩
  | choose k ih => exact fun n => ih n (h n)
  | halt | lock | emit | start | commit | rollback => exact h.elim

theorem Plain.bind {f : β → Program σ κ ω ε ξ} {p : Program σ κ ω ε β} (h : Plain view p)
    (hf : ∀ b, Plain view (f b)) : Plain view (p >>= f) := by
  induction p with
  | pure b => exact hf b
  | throw e => trivial
  | select k err ihk iherr => exact ⟨fun s => ihk s (h.1 s), iherr h.2⟩
  | update ws k err ihk iherr => exact ⟨h.1, fun s => ihk s (h.2.1 s), iherr h.2.2⟩
  | insert row k err ihk iherr => exact ⟨h.1, fun n => ihk n (h.2.1 n), iherr h.2.2⟩
  | choose k ih => exact fun n => ih n (h n)
  | halt | lock | emit | start | commit | rollback => exact h.elim

theorem Plain.query {f : σ → β} : Plain view (Program.query e f : Program σ κ ω ε β) :=
  ⟨fun _ => trivial, trivial⟩

theorem Plain.findOne {f : σ → List β} :
    Plain view (Program.findOne e f : Program σ κ ω ε (Option β)) :=
  fun _ => Plain.query

theorem Plain.receive : Plain view (Program.receive : Program σ κ ω ε ℕ) := fun _ => trivial

theorem Plain.require {p : Prop} [Decidable p] :
    Plain view (Program.require p e : Program σ κ ω ε Unit) := by
  unfold Program.require
  split_ifs <;> trivial

theorem Plain.expect {o : Option β} : Plain view (Program.expect o e : Program σ κ ω ε β) := by
  cases o <;> trivial

theorem Plain.ofExcept {x : Except ε β} :
    Plain view (Program.ofExcept x : Program σ κ ω ε β) := by
  cases x <;> trivial

theorem Plain.writeRows {ws : σ → List ω} (h : ∀ s, ∀ w ∈ ws s, Spares view w) :
    Plain view (Program.writeRows e ws : Program σ κ ω ε (List ω)) :=
  ⟨h, fun _ => trivial, trivial⟩

theorem Plain.insertRow {row : ℕ → ω} (h : ∀ n, Spares view (row n)) :
    Plain view (Program.insertRow e row : Program σ κ ω ε ℕ) :=
  ⟨h, fun _ => trivial, trivial⟩

theorem Plain.forEach {f : β → Program σ κ ω ε Unit} {xs : List β}
    (h : ∀ x ∈ xs, Plain view (f x)) : Plain view (Program.forEach f xs) := by
  induction xs with
  | nil => trivial
  | cons x xs ih =>
    exact (h x List.mem_cons_self).bind fun _ => ih fun y hy => h y (List.mem_cons_of_mem x hy)

end Plainness

/-- Where the view stays as it is, the call may stay in a phase. -/
def Rests (P : Protocol σ κ ω ε α γ) (view : σ → Option ρ) (g : γ) : Prop :=
  (∀ q, P.At g q) ∧ ∀ s ws, view (publish s ws) = view s → P.Step g s ws g

section Resting

variable {view : σ → Option ρ}

theorem spares_stage {ses : Session κ ω} {ws : List ω} (hses : ∀ w ∈ ses.pending, Spares view w)
    (hws : ∀ w ∈ ws, Spares view w) : ∀ w ∈ (ses.stage (σ := σ) ws).pending, Spares view w := by
  intro w hw
  unfold Session.stage at hw
  split_ifs at hw
  · exact (List.mem_append.mp hw).elim (hses w) (hws w)
  · exact hses w hw

theorem spares_visible {ses : Session κ ω} {ws : List ω} (hws : ∀ w ∈ ws, Spares view w) :
    ∀ w ∈ ses.visible ws, Spares view w := by
  intro w hw
  unfold Session.visible at hw
  split_ifs at hw
  · cases hw
  · exact hws w hw

/-- A program that leaves the view alone, in a phase that rests. -/
theorem refines_resting {g : γ} {p : Program σ κ ω ε β} (hg : Rests P view g)
    (h : Leaves view p) {ses : Session κ ω} (hpending : ∀ w ∈ ses.pending, Spares view w)
    (hQ : ∀ r ses, (∀ w ∈ ses.pending, Spares view w) → Q r ses g) :
    P.Refines ctx Q p ses g := by
  obtain ⟨hat, hstep⟩ := hg
  induction p generalizing ses with
  | pure b => exact hQ _ _ hpending
  | throw e => exact hQ _ _ hpending
  | halt => exact h.elim
  | select k err ihk iherr =>
    exact ⟨hat _, fun s _ => .stay (ihk _ (h.1 _) hpending), .stay (iherr h.2 hpending)⟩
  | lock key k err ihk iherr =>
    refine ⟨hat _, fun s _ => .stay (ihk _ (h.1 _) ?_), .stay (iherr h.2 hpending)⟩
    unfold Session.acquire
    split_ifs
    · exact hpending
    · exact hpending
  | update ws k err ihk iherr =>
    refine ⟨hat _, fun s _ => .step (hstep _ _ (view_publish (spares_visible (h.1 _)) s))
      (ihk _ (h.2.1 _) (spares_stage hpending (h.1 _))), .stay (iherr h.2.2 hpending)⟩
  | insert row k err ihk iherr =>
    have hrow : ∀ n, ∀ w ∈ [row n], Spares view w := fun n w hw => by
      rw [List.mem_singleton.mp hw]
      exact h.1 n
    exact ⟨hat _, fun s n _ _ => .step (hstep _ _ (view_publish (spares_visible (hrow n)) s))
      (ihk _ (h.2.1 _) (spares_stage hpending (hrow n))), .stay (iherr h.2.2 hpending)⟩
  | choose k ih => exact ⟨hat _, fun s n _ => .stay (ih n (h n) hpending)⟩
  | emit ws k ih =>
    exact ⟨hat _, fun s _ => .step (hstep _ _ (view_publish (h.1 _) s)) (ih _ (h.2 _) hpending)⟩
  | start k ih => exact ⟨hat _, fun s _ => .stay (ih h (by simp [Session.opened]))⟩
  | commit k err ihk iherr =>
    exact ⟨hat _, fun s _ => .step (hstep _ _ (view_publish hpending s))
      (ihk h.1 (by simp [Session.idle])), .stay (iherr h.2 (by simp [Session.idle]))⟩
  | rollback k ih => exact ⟨hat _, fun s _ => .stay (ih h (by simp [Session.idle]))⟩

end Resting

/-- A call outside its span, one that has read `v`, or one that was killed. -/
inductive Spot (τ ρ : Type) where
  | idle (c : τ)
  | holding (c : τ) (v : ρ)
  | dead

namespace Spot

def snap : Spot τ ρ → Option ρ
  | .holding _ v => some v
  | _ => none

def call? : Spot τ ρ → Option τ
  | .idle c | .holding c _ => some c
  | .dead => none

end Spot

/-- `law c v v'`: the call may make `v'` of what is in the view. -/
inductive ChangeStep (view : σ → Option ρ) (law : τ → Option ρ → ρ → Prop) :
    Spot τ ρ → σ → List ω → Spot τ ρ → Prop where
  | read {c s v} (found : view s = some v) : ChangeStep view law (.idle c) s [] (.holding c v)
  | write {c v s ws v'} (written : view (publish s ws) = some v') (lawful : law c (some v) v') :
    ChangeStep view law (.holding c v) s ws (.idle c)
  | rewrite {c v s ws v'} (written : view (publish s ws) = some v') (lawful : law c (some v) v') :
    ChangeStep view law (.holding c v) s ws (.holding c v')
  | create {c s ws v'} (absent : view s = none) (written : view (publish s ws) = some v')
    (lawful : law c none v') : ChangeStep view law (.idle c) s ws (.idle c)
  | frame {g s ws} (same : view (publish s ws) = view s) : ChangeStep view law g s ws g
  | release {c v s ws} (same : view (publish s ws) = view s) :
    ChangeStep view law (.holding c v) s ws (.idle c)

def changes (view : σ → Option ρ) (law : τ → Option ρ → ρ → Prop)
    (span : Program σ κ ω ε α → Prop) : Protocol σ κ ω ε α (Spot τ ρ) where
  At g p := g.snap.isSome = true → span p
  Knows g s := ∀ v, g.snap = some v → view s = some v
  Step := ChangeStep view law
  Fail g g' := ∃ c v, g = .holding c v ∧ g' = .idle c
  dead := .dead

section Changes

variable {view : σ → Option ρ} {law : τ → Option ρ → ρ → Prop}
  {span : Program σ κ ω ε α → Prop}

/-- A call that holds nothing may stand anywhere. -/
theorem at_idle {c : τ} {p : Program σ κ ω ε α} : (changes view law span).At (.idle c) p :=
  fun h => nomatch h

/-- A call may end anywhere if it holds nothing. -/
theorem done_idle {c : τ} {r : Except ε α} {ses : Session κ ω} :
    (changes view law span).Done r ses (.idle c) := by
  cases r <;> exact at_idle

theorem rests_idle {c : τ} :
    Rests (changes view law span : Protocol σ κ ω ε α (Spot τ ρ)) view (.idle c) :=
  ⟨fun _ => at_idle, fun _ _ h => .frame h⟩

/-- Inside of a block a call may rest in every phase. -/
theorem rests_loose {G : Spot τ ρ → Prop} {g : Spot τ ρ} (hG : G g) :
    Rests (loose (changes view law span : Protocol σ κ ω ε α (Spot τ ρ)) G :
      Protocol σ κ ω ε β (Spot τ ρ)) view g :=
  ⟨fun _ => hG, fun _ _ h => .frame h⟩

/-- A program that leaves the view alone, in a call that holds nothing. -/
theorem refines_leaves {c : τ} {ctx : Program σ κ ω ε β → Program σ κ ω ε α}
    {Q : Except ε β → Session κ ω → Spot τ ρ → Prop} {p : Program σ κ ω ε β} (h : Leaves view p)
    {ses : Session κ ω} (hpending : ∀ w ∈ ses.pending, Spares view w)
    (hQ : ∀ r ses, (∀ w ∈ ses.pending, Spares view w) → Q r ses (.idle c)) :
    (changes view law span).Refines ctx Q p ses (.idle c) :=
  refines_resting rests_idle h hpending hQ

theorem doneWith_idle {c : τ} {f : β → α} {r : Except ε β} {ses : Session κ ω} :
    DoneWith (changes view law span) f r ses (.idle c) := by
  cases r <;> exact at_idle

/-- The rest of a call, which leaves the view alone. -/
theorem refines_rest_of {c : τ} {ctx : Program σ κ ω ε β → Program σ κ ω ε α} {f : β → α}
    {p : Program σ κ ω ε β} {ses : Session κ ω} (hpending : ∀ w ∈ ses.pending, Spares view w)
    (h : Leaves view p) :
    (changes view law span).Refines ctx (DoneWith (changes view law span) f) p ses (.idle c) :=
  refines_leaves h hpending fun _ _ _ => doneWith_idle

/-- The rest of a call outside of a transaction. -/
theorem refines_rest {c : τ} {ctx : Program σ κ ω ε β → Program σ κ ω ε α} {f : β → α}
    {p : Program σ κ ω ε β} (h : Leaves view p) :
    (changes view law span).Refines ctx (DoneWith (changes view law span) f) p .idle (.idle c) :=
  refines_rest_of (by simp [Session.idle]) h

/-- A block of the span that was reached by reading `v`. -/
theorem goes_read {c : τ} {v : ρ} {s : σ} {ses : Session κ ω} {block : Program σ κ ω ε β}
    {ctx : Program σ κ ω ε β → Program σ κ ω ε α}
    {Q : Except ε β → Session κ ω → Spot τ ρ → Prop}
    (found : view s = some v) (hspan : ∀ q, Residue block q → Active q → span (ctx q))
    (h : (loose (changes view law span) fun _ => True).Refines id Q block ses (.holding c v)) :
    (changes view law span).Goes (.idle c) s []
      ((changes view law span).Refines ctx Q block ses) := by
  refine .step (.read found) (refines_located (G := fun _ => True) (fun q g hres hq _ _ => ?_) h)
  exact hspan q hres hq

/-- The same with what comes after the block. -/
theorem goes_read_bind {ξ : Type} {c : τ} {v : ρ} {s : σ} {ses : Session κ ω}
    {block : Program σ κ ω ε β} {k : β → Program σ κ ω ε ξ}
    {ctx : Program σ κ ω ε ξ → Program σ κ ω ε α}
    {R : Except ε ξ → Session κ ω → Spot τ ρ → Prop}
    (found : view s = some v)
    (hspan : ∀ q, Residue block q → Active q → span (ctx (q >>= k)))
    (h : (loose (changes view law span) fun _ => True).Refines id
      ((changes view law span).Then ctx R k .throw) block ses (.holding c v)) :
    (changes view law span).Goes (.idle c) s []
      ((changes view law span).Refines ctx R (block >>= k) ses) :=
  (goes_read found hspan h).mono fun _ h => Refines.handle h

/-- The end of a transaction that changes the view. -/
theorem refines_commit {ξ : Type} {G : Spot τ ρ → Prop} {e : ε} {c : τ} {v new : ρ} {ses : Session κ ω} {b : β}
    {Q : Except ε β → Session κ ω → Spot τ ρ → Prop}
    {ctx : Program σ κ ω ε β → Program σ κ ω ε ξ} (hG : ∀ g, G g)
    (hpending : ∀ s, view s = some v → view (publish s ses.pending) = some new)
    (hlaw : law c (some v) new) (hok : Q (.ok b) .idle (.idle c))
    (herror : Q (.error e) .idle (.idle c)) :
    (loose (changes view law span) G).Refines ctx Q (.commit (.pure b) (.throw e)) ses
      (.holding c v) :=
  ⟨hG _, fun s hs => .step (.write (hpending s (hs v rfl)) hlaw) hok,
    .step ⟨c, v, rfl, rfl⟩ herror⟩

theorem guarded_changes : Guarded (changes view law span) view Spot.snap span where
  knows := Iff.rfl
  span hat hv := hat (by simp [hv])
  writes hstep := by
    cases hstep with
    | read | frame same | release same => exact Or.inl (by first | rfl | exact same)
    | write | rewrite => exact Or.inr (Or.inr ⟨_, rfl⟩)
    | create absent => exact Or.inr (Or.inl absent)
  after hstep hknows hv := by
    cases hstep with
    | read found =>
      obtain rfl := Option.some.inj hv
      exact found
    | rewrite written =>
      obtain rfl := Option.some.inj hv
      exact written
    | frame same =>
      rw [same]
      exact hknows _ hv
    | write | create | release => cases hv
  fail := by
    rintro g g' v ⟨c, w, rfl, rfl⟩ hv
    cases hv
  dead := rfl

/-- Each phase is one of the call at its place. -/
def Placed (calls : List τ) (gs : List (Spot τ ρ)) (_ : σ) : Prop :=
  ∀ (i : ℕ) g c, gs[i]? = some g → g.call? = some c → calls[i]? = some c

omit [Storage σ κ ω] in
theorem Placed.set {calls : List τ} {gs : List (Spot τ ρ)} {s s' : σ} {i : ℕ} {g g' : Spot τ ρ}
    (h : Placed calls gs s) (hg : gs[i]? = some g) (hcall : ∀ c ∈ g'.call?, g.call? = some c) :
    Placed calls (gs.set i g') s' := by
  intro j x c hx hc
  by_cases hji : i = j
  · subst hji
    rw [List.getElem?_set_self (List.getElem?_eq_some_iff.mp hg).1] at hx
    obtain rfl := Option.some.inj hx
    exact h i g c hg (hcall c hc)
  · rw [List.getElem?_set_ne hji] at hx
    exact h j x c hx hc

theorem keeps_changes [DecidableEq κ] {ok : System τ σ κ ω ε α → Action → Prop}
    (hok : ∀ sys a, ok sys a → Apart span sys a) (calls : List τ) :
    (changes view law span).Keeps ok fun gs s =>
      (∀ g ∈ gs, (changes view law span).Knows g s) ∧ Placed calls gs s := by
  refine guarded_changes.keeps hok (fun hplaced _ hg hstep => hplaced.set hg fun c hc => ?_)
    (fun hplaced hg hf => hplaced.set hg fun c hc => ?_)
    fun hplaced hg => hplaced.set hg fun c hc => ?_
  · cases hstep <;> exact hc
  · obtain ⟨c', v, rfl, rfl⟩ := hf
    exact hc
  · cases hc

theorem start_changes (calls : List τ) (s : σ) :
    (∀ g ∈ calls.map Spot.idle, (changes view law span).Knows g s) ∧
      Placed (ρ := ρ) calls (calls.map Spot.idle) s := by
  constructor
  · intro g hg v hv
    obtain ⟨c, -, rfl⟩ := List.mem_map.mp hg
    cases hv
  · intro i g c hg hc
    rw [List.getElem?_map, Option.map_eq_some_iff] at hg
    obtain ⟨c', hc', rfl⟩ := hg
    obtain rfl := Option.some.inj hc
    exact hc'

/-- No step changes the view while another call is in its span. -/
def Undisturbed (view : σ → Option ρ) (span : Program σ κ ω ε α → Prop) [DecidableEq κ]
    (sys : System τ σ κ ω ε α) (a : Action) : Prop :=
  ∀ sys', sys.step a = some sys' → view sys'.store ≠ view sys.store →
    ∀ j u, j ≠ System.mover a → sys.threads[j]? = some u → ¬span u.program

/-- Every step leaves the view as it is or makes a lawful change of what is in it. -/
theorem change_of_keeps [DecidableEq κ] {ok : System τ σ κ ω ε α → Action → Prop}
    {program : τ → Program σ κ ω ε α} {calls : List τ}
    (hkeeps : (changes view law span).Keeps ok fun gs s =>
      (∀ g ∈ gs, (changes view law span).Knows g s) ∧ Placed calls gs s)
    (hprogram : ∀ c, (changes view law span).Refines id (changes view law span).Done (program c)
      .idle (.idle c)) {s : σ} {sys sys' : System τ σ κ ω ε α} {a : Action}
    (hrun : System.Run ok (launch program s calls) sys)
    (hstep : sys.step a = some sys') : view sys'.store = view sys.store ∨
      ∃ c v', calls[System.mover a]? = some c ∧ law c (view sys.store) v' ∧
        view sys'.store = some v' := by
  obtain ⟨gs, hgs, hknows, hplaced⟩ := hkeeps.run hrun
    (consistent_launch s hprogram) (start_changes calls s)
  obtain ⟨t, p, ses, ws, ht, hmove, rfl⟩ := System.step_eq_some.mp hstep
  obtain ⟨g, hg, hfollows⟩ := hgs.phase ht
  cases a with
  | run i n =>
    obtain ⟨rfl, -⟩ | ⟨g', hgo, -⟩ :=
      Refines.advance hfollows (hknows g (List.mem_of_getElem? hg)) hmove
    · exact Or.inl rfl
    · cases hgo with
      | read | frame same | release same => exact Or.inl (by first | rfl | exact same)
      | @write c v _ _ v' written lawful =>
        have hview := hknows _ (List.mem_of_getElem? hg) v rfl
        exact Or.inr ⟨c, v', hplaced i _ c hg rfl, by rwa [hview], written⟩
      | @rewrite c v _ _ v' written lawful =>
        have hview := hknows _ (List.mem_of_getElem? hg) v rfl
        exact Or.inr ⟨c, v', hplaced i _ c hg rfl, by rwa [hview], written⟩
      | @create c _ _ v' absent written lawful =>
        exact Or.inr ⟨c, v', hplaced i _ c hg rfl, by rwa [absent], written⟩
  | fail i =>
    obtain ⟨rfl, -⟩ := Refines.failing hfollows hmove
    exact Or.inl rfl
  | crash i =>
    simp only [System.move, Option.some.injEq, Prod.mk.injEq] at hmove
    obtain ⟨-, -, rfl⟩ := hmove
    exact Or.inl rfl

/-- In a run whose spans are apart, every step leaves the view as it is or makes a lawful
change of what is in it. -/
theorem change_of_step [DecidableEq κ] {ok : System τ σ κ ω ε α → Action → Prop}
    (hok : ∀ sys a, ok sys a → Apart span sys a) {program : τ → Program σ κ ω ε α}
    (hprogram : ∀ c, (changes view law span).Refines id (changes view law span).Done (program c)
      .idle (.idle c)) {s : σ} {calls : List τ} {sys sys' : System τ σ κ ω ε α} {a : Action}
    (hrun : System.Run ok (launch program s calls) sys)
    (hstep : sys.step a = some sys') : view sys'.store = view sys.store ∨
      ∃ c v', calls[System.mover a]? = some c ∧ law c (view sys.store) v' ∧
        view sys'.store = some v' :=
  change_of_keeps (keeps_changes hok calls) hprogram hrun hstep

/-- What every lawful change establishes from what was there holds in every state of a run. -/
theorem holds_of_keeps [DecidableEq κ] {ok : System τ σ κ ω ε α → Action → Prop}
    {program : τ → Program σ κ ω ε α} {calls : List τ}
    (hkeeps : (changes view law span).Keeps ok fun gs s =>
      (∀ g ∈ gs, (changes view law span).Knows g s) ∧ Placed calls gs s)
    (hprogram : ∀ c, (changes view law span).Refines id (changes view law span).Done (program c)
      .idle (.idle c)) {R : ρ → Prop} (hlaw : ∀ c o v, law c o v → (∀ w ∈ o, R w) → R v) {s : σ}
    {sys : System τ σ κ ω ε α} (hs : ∀ v ∈ view s, R v)
    (hrun : System.Run ok (launch program s calls) sys) : ∀ v ∈ view sys.store, R v := by
  induction hrun with
  | refl => exact hs
  | tail run _ step ih =>
    obtain hsame | ⟨c, v', -, hlawful, hview⟩ := change_of_keeps hkeeps hprogram run step
    · rwa [hsame]
    · intro v hv
      obtain rfl : v' = v := Option.some.inj (hview.symm.trans hv)
      exact hlaw c _ v' hlawful ih

/-- The same in a run whose spans are apart. -/
theorem holds_of_run [DecidableEq κ] {ok : System τ σ κ ω ε α → Action → Prop}
    (hok : ∀ sys a, ok sys a → Apart span sys a) {program : τ → Program σ κ ω ε α}
    (hprogram : ∀ c, (changes view law span).Refines id (changes view law span).Done (program c)
      .idle (.idle c)) {R : ρ → Prop} (hlaw : ∀ c o v, law c o v → (∀ w ∈ o, R w) → R v) {s : σ}
    {calls : List τ} {sys : System τ σ κ ω ε α} (hs : ∀ v ∈ view s, R v)
    (hrun : System.Run ok (launch program s calls) sys) : ∀ v ∈ view sys.store, R v :=
  holds_of_keeps (keeps_changes hok calls) hprogram hlaw hs hrun

/-- A step that is no change of the view by a call of the kind `kind`. -/
def Without (view : σ → Option ρ) (kind : τ → Prop) (calls : List τ) [DecidableEq κ]
    (sys : System τ σ κ ω ε α) (a : Action) : Prop :=
  ∀ c sys', calls[System.mover a]? = some c → kind c → sys.step a = some sys' →
    view sys'.store = view sys.store

/-- What only calls of the kind `kind` change stands until one of them changes it. -/
theorem stands_of_run [DecidableEq κ] {ok : System τ σ κ ω ε α → Action → Prop}
    (hok : ∀ sys a, ok sys a → Apart span sys a) {program : τ → Program σ κ ω ε α}
    (hprogram : ∀ c, (changes view law span).Refines id (changes view law span).Done (program c)
      .idle (.idle c)) {kind : τ → Prop} {R : ρ → Prop}
    (hlaw : ∀ c v v', law c (some v) v' → R v → R v' ∨ kind c) {s : σ} {calls : List τ}
    {sys sys' : System τ σ κ ω ε α} (hrun : System.Run ok (launch program s calls) sys)
    (hrun' : System.Run (fun sys a => ok sys a ∧ Without view kind calls sys a) sys sys')
    (hR : ∃ v ∈ view sys.store, R v) : ∃ v ∈ view sys'.store, R v := by
  induction hrun' with
  | refl => exact hR
  | tail run meets step ih =>
    obtain ⟨v, hv, hRv⟩ := ih
    have hreach := hrun.trans (run.mono fun _ _ h => h.1)
    obtain hsame | ⟨c, v', hc, hlawful, hview⟩ :=
      change_of_step hok hprogram hreach step
    · exact ⟨v, hsame.trans hv, hRv⟩
    · rw [Option.mem_def.mp hv] at hlawful
      obtain hRv' | hkind := hlaw c v v' hlawful hRv
      · exact ⟨v', hview, hRv'⟩
      · exact ⟨v, (meets.2 c _ hc hkind step).trans hv, hRv⟩

end Changes

end NexaStays.Snapshots
