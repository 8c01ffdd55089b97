import NexaStays.Snapshots

/-!
# What a transaction writes

Of the body of a transaction only what it writes matters to the others, and that when it
commits: `Writes` says what that is, where the view is known to stay as it is until then. A
body that writes nothing of the view is `Keeping`.
-/
namespace NexaStays.Blocks

open NexaStays.Transactions NexaStays.Phases NexaStays.Phases.Protocol NexaStays.Snapshots

variable {σ κ ω ε α β ξ γ ρ : Type} [Storage σ κ ω]

/-- The body of a transaction that writes nothing of the view. -/
def Keeping (view : σ → Option ρ) : Program σ κ ω ε β → Prop
  | .pure _ | .throw _ => True
  | .select k err | .lock _ k err => (∀ s, Keeping view (k s)) ∧ Keeping view err
  | .update ws k err =>
    (∀ s, ∀ w ∈ ws s, Spares view w) ∧ (∀ s, Keeping view (k s)) ∧ Keeping view err
  | .insert row k err =>
    (∀ n, Spares view (row n)) ∧ (∀ n, Keeping view (k n)) ∧ Keeping view err
  | .choose k => ∀ n, Keeping view (k n)
  | .emit ws k => (∀ s, ∀ w ∈ ws s, Spares view w) ∧ ∀ s, Keeping view (k s)
  | .halt | .start _ | .commit _ _ | .rollback _ => False

section Keeping

variable {view : σ → Option ρ} {e : ε}

theorem Keeping.leaves {p : Program σ κ ω ε β} (h : Keeping view p) : Leaves view p := by
  induction p with
  | pure | throw => trivial
  | select k err ihk iherr | lock key k err ihk iherr =>
    exact ⟨fun s => ihk s (h.1 s), iherr h.2⟩
  | update ws k err ihk iherr => exact ⟨h.1, fun s => ihk s (h.2.1 s), iherr h.2.2⟩
  | insert row k err ihk iherr => exact ⟨h.1, fun n => ihk n (h.2.1 n), iherr h.2.2⟩
  | choose k ih => exact fun n => ih n (h n)
  | emit ws k ih => exact ⟨h.1, fun s => ih s (h.2 s)⟩
  | halt | start | commit | rollback => exact h.elim

theorem Keeping.bind {f : β → Program σ κ ω ε ξ} {p : Program σ κ ω ε β} (h : Keeping view p)
    (hf : ∀ b, Keeping view (f b)) : Keeping view (p >>= f) := by
  have hhandle : Keeping view (p.handle f .throw) := by
    induction p with
    | pure b => exact hf b
    | throw e => trivial
    | select k err ihk iherr | lock key k err ihk iherr =>
      exact ⟨fun s => ihk s (h.1 s), iherr h.2⟩
    | update ws k err ihk iherr => exact ⟨h.1, fun s => ihk s (h.2.1 s), iherr h.2.2⟩
    | insert row k err ihk iherr => exact ⟨h.1, fun n => ihk n (h.2.1 n), iherr h.2.2⟩
    | choose k ih => exact fun n => ih n (h n)
    | emit ws k ih => exact ⟨h.1, fun s => ih s (h.2 s)⟩
    | halt | start | commit | rollback => exact h.elim
  exact hhandle

theorem Keeping.query {f : σ → β} : Keeping view (Program.query e f : Program σ κ ω ε β) :=
  ⟨fun _ => trivial, trivial⟩

theorem Keeping.lockRow {key : κ} {f : σ → β} :
    Keeping view (Program.lockRow e key f : Program σ κ ω ε β) :=
  ⟨fun _ => trivial, trivial⟩

theorem Keeping.findOne {f : σ → List β} :
    Keeping view (Program.findOne e f : Program σ κ ω ε (Option β)) :=
  fun _ => Keeping.query

theorem Keeping.receive : Keeping view (Program.receive : Program σ κ ω ε ℕ) := fun _ => trivial

theorem Keeping.require {p : Prop} [Decidable p] :
    Keeping view (Program.require p e : Program σ κ ω ε Unit) := by
  unfold Program.require
  split_ifs <;> trivial

theorem Keeping.expect {o : Option β} :
    Keeping view (Program.expect o e : Program σ κ ω ε β) := by
  cases o <;> trivial

theorem Keeping.writeRows {ws : σ → List ω} (h : ∀ s, ∀ w ∈ ws s, Spares view w) :
    Keeping view (Program.writeRows e ws : Program σ κ ω ε (List ω)) :=
  ⟨h, fun _ => trivial, trivial⟩

theorem Keeping.insertRow {row : ℕ → ω} (h : ∀ n, Spares view (row n)) :
    Keeping view (Program.insertRow e row : Program σ κ ω ε ℕ) :=
  ⟨h, fun _ => trivial, trivial⟩

theorem Keeping.send {ws : σ → List ω} {f : σ → β} (h : ∀ s, ∀ w ∈ ws s, Spares view w) :
    Keeping view (Program.send ws f : Program σ κ ω ε β) :=
  ⟨h, fun _ => trivial⟩

theorem Keeping.forEach {f : β → Program σ κ ω ε Unit} {xs : List β}
    (h : ∀ x ∈ xs, Keeping view (f x)) : Keeping view (Program.forEach f xs) := by
  induction xs with
  | nil => trivial
  | cons x xs ih =>
    exact (h x List.mem_cons_self).bind fun _ => ih fun y hy => h y (List.mem_cons_of_mem x hy)

end Keeping

/-- After it has written `ws`, the body of a transaction ends so that `Q` holds of what it
returns and of all that is written then, if the view stays `v`. -/
def Writes (view : σ → Option ρ) (v : ρ) (Q : β → List ω → Prop) :
    Program σ κ ω ε β → List ω → Prop
  | .pure b, ws => Q b ws
  | .throw _, _ => True
  | .select k err, ws | .lock _ k err, ws =>
    (∀ s, view s = some v → Writes view v Q (k (publish s ws)) ws) ∧ Writes view v Q err ws
  | .update us k err, ws =>
    (∀ s, view s = some v → Writes view v Q (k (publish s ws)) (ws ++ us (publish s ws))) ∧
      Writes view v Q err ws
  | .insert row k err, ws => (∀ n, Writes view v Q (k n) (ws ++ [row n])) ∧ Writes view v Q err ws
  | .choose k, ws => ∀ n, Writes view v Q (k n) ws
  | .emit us k, ws => (∀ s, ∀ w ∈ us s, Spares view w) ∧
    ∀ s, view s = some v → Writes view v Q (k (publish s ws)) ws
  | .halt, _ | .start _, _ | .commit _ _, _ | .rollback _, _ => False

section Rules

variable {view : σ → Option ρ} {v : ρ} {Q : β → List ω → Prop} {R : ξ → List ω → Prop}
  {ws : List ω} {e : ε}

theorem Writes.pure {b : β} (h : Q b ws) :
    Writes view v Q (Pure.pure b : Program σ κ ω ε β) ws := h

theorem Writes.bind {p : Program σ κ ω ε β} {k : β → Program σ κ ω ε ξ}
    (h : Writes view v Q p ws) (hk : ∀ b ws, Q b ws → Writes view v R (k b) ws) :
    Writes view v R (p >>= k) ws := by
  have hhandle : Writes view v R (p.handle k .throw) ws := by
    induction p generalizing ws with
    | pure b => exact hk b ws h
    | throw e => trivial
    | select k' err ihk iherr | lock key k' err ihk iherr | update us k' err ihk iherr =>
      exact ⟨fun s hs => ihk _ (h.1 s hs), iherr h.2⟩
    | insert row k' err ihk iherr => exact ⟨fun n => ihk n (h.1 n), iherr h.2⟩
    | choose k' ih => exact fun n => ih n (h n)
    | emit us k' ih => exact ⟨h.1, fun s hs => ih _ (h.2 s hs)⟩
    | halt | start | commit | rollback => exact h.elim
  exact hhandle

theorem Writes.mono {Q' : β → List ω → Prop} {p : Program σ κ ω ε β}
    (h : Writes view v Q p ws) (hQ : ∀ b ws, Q b ws → Q' b ws) : Writes view v Q' p ws := by
  induction p generalizing ws with
  | pure b => exact hQ b ws h
  | throw e => trivial
  | select k' err ihk iherr | lock key k' err ihk iherr | update us k' err ihk iherr =>
    exact ⟨fun s hs => ihk _ (h.1 s hs), iherr h.2⟩
  | insert row k' err ihk iherr => exact ⟨fun n => ihk n (h.1 n), iherr h.2⟩
  | choose k' ih => exact fun n => ih n (h n)
  | emit us k' ih => exact ⟨h.1, fun s hs => ih _ (h.2 s hs)⟩
  | halt | start | commit | rollback => exact h.elim

theorem Writes.query {f : σ → β} (h : ∀ s, view s = some v → Q (f (publish s ws)) ws) :
    Writes view v Q (Program.query e f : Program σ κ ω ε β) ws := ⟨h, trivial⟩

theorem Writes.lockRow {key : κ} {f : σ → β}
    (h : ∀ s, view s = some v → Q (f (publish s ws)) ws) :
    Writes view v Q (Program.lockRow e key f : Program σ κ ω ε β) ws := ⟨h, trivial⟩

theorem Writes.receive {Q : ℕ → List ω → Prop} (h : ∀ n, Q n ws) :
    Writes view v Q (Program.receive : Program σ κ ω ε ℕ) ws := h

theorem Writes.writeRows {us : σ → List ω} {Q : List ω → List ω → Prop}
    (h : ∀ s, view s = some v → Q (us (publish s ws)) (ws ++ us (publish s ws))) :
    Writes view v Q (Program.writeRows e us : Program σ κ ω ε (List ω)) ws := ⟨h, trivial⟩

theorem Writes.insertRow {row : ℕ → ω} {Q : ℕ → List ω → Prop} (h : ∀ n, Q n (ws ++ [row n])) :
    Writes view v Q (Program.insertRow e row : Program σ κ ω ε ℕ) ws := ⟨h, trivial⟩

theorem Writes.expect {o : Option β} (h : ∀ b, o = some b → Q b ws) :
    Writes view v Q (Program.expect o e : Program σ κ ω ε β) ws := by
  cases o with
  | none => trivial
  | some b => exact h b rfl

/-- A loop: `I` holds of the members that are done and of what is written then. -/
theorem Writes.forEach {f : β → Program σ κ ω ε Unit} {xs : List β}
    (I : List β → List ω → Prop)
    (hstep : ∀ done x ws, I done ws → Writes view v (fun _ => I (done ++ [x])) (f x) ws)
    (h : I [] ws) : Writes view v (fun _ => I xs) (Program.forEach f xs) ws := by
  have hloop : ∀ rest done ws, I done ws →
      Writes view v (fun _ => I (done ++ rest)) (Program.forEach f rest) ws := by
    intro rest
    induction rest with
    | nil =>
      intro done ws hdone
      exact Writes.pure (by rwa [List.append_nil])
    | cons x rest ih =>
      intro done ws hdone
      refine (hstep done x ws hdone).bind fun _ ws' hnext => ?_
      have hrest := ih (done ++ [x]) ws' hnext
      rwa [List.append_assoc] at hrest
  exact hloop xs [] ws h

/-- The body of a transaction stays in a phase that rests and knows the view. -/
theorem refines_of_writes {P : Protocol σ κ ω ε α γ} {ctx : Program σ κ ω ε β → Program σ κ ω ε α}
    {p : Program σ κ ω ε β} {ses : Session κ ω} {g : γ} (hg : Rests P view g)
    (hknows : ∀ s, P.Knows g s → view s = some v) (h : Writes view v Q p ws)
    (hactive : ses.active = true) (hpending : ses.pending = ws) :
    P.Refines ctx (fun r ses g' => g' = g ∧
      ∀ b, r = .ok b → ses.active = true ∧ Q b ses.pending) p ses g := by
  have hat := hg.1
  induction p generalizing ses ws with
  | pure b =>
    refine ⟨rfl, fun b' hb => ?_⟩
    obtain rfl := Except.ok.inj hb
    exact ⟨hactive, hpending ▸ h⟩
  | throw e => exact ⟨rfl, fun b hb => nomatch hb⟩
  | select k err ihk iherr =>
    subst hpending
    exact ⟨hat _, fun s hs => .stay (ihk _ (h.1 s (hknows s hs)) hactive rfl),
      .stay (iherr h.2 hactive rfl)⟩
  | lock key k err ihk iherr =>
    subst hpending
    refine ⟨hat _, fun s hs => .stay (ihk _ (h.1 s (hknows s hs)) ?_ ?_),
      .stay (iherr h.2 hactive rfl)⟩
    · unfold Session.acquire
      split <;> exact hactive
    · unfold Session.acquire
      split <;> rfl
  | update us k err ihk iherr =>
    subst hpending
    refine ⟨hat _, fun s hs => ?_, .stay (iherr h.2 hactive rfl)⟩
    rw [Session.visible, if_pos hactive, Session.stage, if_pos hactive]
    exact .stay (ihk _ (h.1 s (hknows s hs)) hactive rfl)
  | insert row k err ihk iherr =>
    subst hpending
    refine ⟨hat _, fun s n _ _ => ?_, .stay (iherr h.2 hactive rfl)⟩
    rw [Session.visible, if_pos hactive, Session.stage, if_pos hactive]
    exact .stay (ihk n (h.1 n) hactive rfl)
  | choose k ih => exact ⟨hat _, fun s n _ => .stay (ih n (h n) hactive hpending)⟩
  | emit us k ih =>
    subst hpending
    exact ⟨hat _, fun s hs => .step (hg.2 _ _ (view_publish (h.1 _) s))
      (ih _ (h.2 s (hknows s hs)) hactive rfl)⟩
  | halt | start | commit | rollback => exact h.elim

end Rules

-- what a body writes is not to be unfolded into its statements
attribute [irreducible] Writes

end NexaStays.Blocks
