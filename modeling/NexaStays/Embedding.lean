import NexaStays.Completions

/-!
# Programs on a part of a store

A program on one store runs on every store that has it as a part: it reads and writes that
part alone. Where it may end on the part, it may end so on the whole store.
-/
namespace NexaStays.Embedding

open NexaStays.Transactions NexaStays.Completions NexaStays.Snapshots

variable {σ σ' κ κ' ω ω' ε ε' α : Type} [Storage σ κ ω] [Storage σ' κ' ω']

variable (σ σ' κ κ' ω ω' ε ε') in
/-- A store `σ` as a part of a store `σ'`. -/
structure Part [Storage σ κ ω] [Storage σ' κ' ω'] where
  get : σ' → σ
  write : ω → ω'
  key : κ → κ'
  error : ε → ε'
  get_write : ∀ s w, get (Storage.write s (write w)) = Storage.write (get s) w
  keyOf_write : ∀ w, Storage.keyOf σ' (write w) = key (Storage.keyOf σ w)
  present_key : ∀ s k, Storage.present s (key k) = Storage.present (get s) k

variable (part : Part σ σ' κ κ' ω ω' ε ε')

/-- The program, on the part. -/
def within : Program σ κ ω ε α → Program σ' κ' ω' ε' α
  | .pure a => .pure a
  | .throw e => .throw (part.error e)
  | .halt => .halt
  | .select k err => .select (fun s => within (k (part.get s))) (within err)
  | .lock key k err => .lock (part.key key) (fun s => within (k (part.get s))) (within err)
  | .update ws k err =>
    .update (fun s => (ws (part.get s)).map part.write) (fun s => within (k (part.get s)))
      (within err)
  | .insert row k err => .insert (fun n => part.write (row n)) (fun n => within (k n)) (within err)
  | .choose k => .choose fun n => within (k n)
  | .emit ws k =>
    .emit (fun s => (ws (part.get s)).map part.write) fun s => within (k (part.get s))
  | .start k => .start (within k)
  | .commit k err => .commit (within k) (within err)
  | .rollback k => .rollback (within k)

theorem get_publish (s : σ') (ws : List ω) :
    part.get (publish s (ws.map part.write)) = publish (part.get s) ws := by
  induction ws generalizing s with
  | nil => rfl
  | cons w ws ih => rw [List.map_cons, publish_cons, ih, part.get_write, publish_cons]

/-- The session of the whole store has written what the session of the part has. -/
structure Carries (ses : Session κ ω) (ses' : Session κ' ω') : Prop where
  active : ses'.active = ses.active
  pending : ses'.pending = ses.pending.map part.write

namespace Carries

variable {part} {ses : Session κ ω} {ses' : Session κ' ω'}

theorem idle : Carries part .idle .idle := ⟨rfl, rfl⟩

theorem opened : Carries part .opened .opened := ⟨rfl, rfl⟩

theorem view (h : Carries part ses ses') (s : σ') :
    part.get (ses'.view s) = ses.view (part.get s) := by
  rw [Session.view, Session.view, h.pending, get_publish]

theorem acquire (h : Carries part ses ses') (v : σ) (v' : σ') (key : κ) (key' : κ') :
    Carries part (ses.acquire v key) (ses'.acquire v' key') := by
  have hses : (ses.acquire v key).active = ses.active ∧
      (ses.acquire v key).pending = ses.pending := by
    rw [Session.acquire]
    split <;> exact ⟨rfl, rfl⟩
  have hses' : (ses'.acquire v' key').active = ses'.active ∧
      (ses'.acquire v' key').pending = ses'.pending := by
    rw [Session.acquire]
    split <;> exact ⟨rfl, rfl⟩
  exact ⟨by rw [hses.1, hses'.1, h.active], by rw [hses.2, hses'.2, h.pending]⟩

theorem stage (h : Carries part ses ses') (ws : List ω) :
    Carries part (ses.stage (σ := σ) ws) (ses'.stage (σ := σ') (ws.map part.write)) := by
  by_cases hactive : ses.active = true
  · have hactive' : ses'.active = true := by rw [h.active, hactive]
    simp only [Session.stage, hactive, hactive', if_true]
    exact ⟨rfl, by simp [h.pending]⟩
  · have hactive' : ¬ses'.active = true := by rwa [h.active]
    simp only [Session.stage, if_neg hactive, if_neg hactive']
    exact h

theorem visible (h : Carries part ses ses') (ws : List ω) :
    ses'.visible (ws.map part.write) = (ses.visible ws).map part.write := by
  rw [Session.visible, Session.visible, h.active]
  split <;> simp

end Carries

variable {part} {P : α → Session κ ω → σ → Prop}

/-- What may be returned on the part may be returned on the whole store. -/
theorem mayEnd_within {p : Program σ κ ω ε α} {ses : Session κ ω} {ses' : Session κ' ω'} {s : σ'}
    (h : MayEnd (Reaches P) p ses (part.get s)) (hses : Carries part ses ses') :
    MayEnd (Reaches fun a ses'' t => ∃ ses, Carries part ses ses'' ∧ P a ses (part.get t))
      (within part p) ses' s := by
  induction p generalizing ses ses' s with
  | pure a =>
    obtain ⟨b, hb, hP⟩ := h
    obtain rfl := Except.ok.inj hb
    exact ⟨a, rfl, ses, hses, hP⟩
  | throw e =>
    obtain ⟨b, hb, -⟩ := h
    cases hb
  | halt => exact h.elim
  | select k err ihk _ =>
    simp only [MayEnd, within, hses.view] at h ⊢
    exact ihk _ h hses
  | lock key k err ihk _ =>
    simp only [MayEnd, within, hses.view] at h ⊢
    exact ihk _ h (hses.acquire _ _ _ _)
  | update ws k err ihk _ =>
    simp only [MayEnd, within, hses.view, hses.visible] at h ⊢
    refine ihk _ (s := publish s _) ?_ (hses.stage _)
    rw [get_publish]
    exact h
  | insert row k err ihk _ =>
    obtain ⟨n, hfresh, h⟩ := h
    refine ⟨n, ?_, ?_⟩
    · rw [part.keyOf_write, part.present_key, hses.view]
      exact hfresh
    · have hvisible : ses'.visible [part.write (row n)] = (ses.visible [row n]).map part.write :=
        hses.visible [row n]
      rw [hvisible]
      refine ihk n (s := publish s _) ?_ (hses.stage [row n])
      rw [get_publish]
      exact h
  | choose k ih =>
    obtain ⟨n, h⟩ := h
    exact ⟨n, ih n h hses⟩
  | emit ws k ih =>
    simp only [MayEnd, within, hses.view] at h ⊢
    refine ih _ (s := publish s _) ?_ hses
    rw [get_publish]
    exact h
  | start k ih => exact ih h .opened
  | rollback k ih => exact ih h .idle
  | commit k err ihk _ =>
    simp only [MayEnd, within, hses.pending] at h ⊢
    refine ihk (s := publish s _) ?_ .idle
    rw [get_publish]
    exact h

/-- What must be so at the end on the part must be so on the whole store. -/
theorem mustEnd_within {Q : Except ε α → Session κ ω → σ → Prop} {p : Program σ κ ω ε α}
    {ses : Session κ ω} {ses' : Session κ' ω'} {s : σ'} (h : MustEnd Q p ses (part.get s))
    (hses : Carries part ses ses') :
    MustEnd (fun r ses'' t => ∃ r' ses, r = r'.mapError part.error ∧ Carries part ses ses'' ∧
      Q r' ses (part.get t)) (within part p) ses' s := by
  induction p generalizing ses ses' s with
  | pure a => exact ⟨.ok a, ses, rfl, hses, h⟩
  | throw e => exact ⟨.error e, ses, rfl, hses, h⟩
  | halt => trivial
  | select k err ihk iherr =>
    simp only [MustEnd, within, hses.view] at h ⊢
    exact ⟨ihk _ h.1 hses, iherr h.2 hses⟩
  | lock key k err ihk iherr =>
    simp only [MustEnd, within, hses.view] at h ⊢
    exact ⟨ihk _ h.1 (hses.acquire _ _ _ _), iherr h.2 hses⟩
  | update ws k err ihk iherr =>
    simp only [MustEnd, within, hses.view, hses.visible] at h ⊢
    refine ⟨ihk _ (s := publish s _) ?_ (hses.stage _), iherr h.2 hses⟩
    rw [get_publish]
    exact h.1
  | insert row k err ihk iherr =>
    simp only [MustEnd, within] at h ⊢
    refine ⟨fun n hfresh => ?_, iherr h.2 hses⟩
    rw [part.keyOf_write, part.present_key, hses.view] at hfresh
    have hvisible : ses'.visible [part.write (row n)] = (ses.visible [row n]).map part.write :=
      hses.visible [row n]
    rw [hvisible]
    refine ihk n (s := publish s _) ?_ (hses.stage [row n])
    rw [get_publish]
    exact h.1 n hfresh
  | choose k ih => exact fun n => ih n (h n) hses
  | emit ws k ih =>
    simp only [MustEnd, within, hses.view] at h ⊢
    refine ih _ (s := publish s _) ?_ hses
    rw [get_publish]
    exact h
  | start k ih => exact ih h .opened
  | rollback k ih => exact ih h .idle
  | commit k err ihk iherr =>
    simp only [MustEnd, within, hses.pending] at h ⊢
    refine ⟨ihk (s := publish s _) ?_ .idle, iherr h.2 .idle⟩
    rw [get_publish]
    exact h.1

theorem canEnd_within {p : Program σ κ ω ε α} (h : CanEnd p) : CanEnd (within part p) := by
  intro ses' s hses'
  have hcarries : Carries part .idle ses' := ⟨hses'.1, hses'.2⟩
  refine (mayEnd_within (h .idle (part.get s) outside_idle) hcarries).mono fun r ses'' t hr => ?_
  obtain ⟨a, rfl, ses, hcarries, hactive, hpending⟩ := hr
  exact ⟨a, rfl, hcarries.active.trans hactive, by rw [hcarries.pending, hpending, List.map_nil]⟩

/-- A program that leaves a view of the part alone leaves the view of the store alone that it is
part of. -/
theorem plain_within {ρ ρ' : Type} {view : σ → Option ρ} {view' : σ' → Option ρ'}
    (h : ∀ w, Spares view w → Spares view' (part.write w)) {p : Program σ κ ω ε α}
    (hp : Plain view p) : Plain view' (within part p) := by
  have hmap : ∀ {ws : List ω}, (∀ w ∈ ws, Spares view w) →
      ∀ w ∈ ws.map part.write, Spares view' w := by
    intro ws hws w hw
    obtain ⟨v, hv, rfl⟩ := List.mem_map.mp hw
    exact h v (hws v hv)
  induction p with
  | pure | throw => trivial
  | select k err ihk iherr => exact ⟨fun s => ihk _ (hp.1 _), iherr hp.2⟩
  | update ws k err ihk iherr =>
    exact ⟨fun s => hmap (hp.1 _), fun s => ihk _ (hp.2.1 _), iherr hp.2.2⟩
  | insert row k err ihk iherr =>
    exact ⟨fun n => h _ (hp.1 n), fun n => ihk n (hp.2.1 n), iherr hp.2.2⟩
  | choose k ih => exact fun n => ih n (hp n)
  | halt | lock | emit | start | commit | rollback => exact hp.elim

end NexaStays.Embedding
