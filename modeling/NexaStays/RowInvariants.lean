import NexaStays.Confinement
import NexaStays.RowOrder

/-!
# What every row satisfies

`Upholds I W Q`: in a store that satisfies `I`, every write of the program satisfies `W` and
what it returns satisfies `Q`. Where writes that satisfy `W` keep `I`, a call that runs alone
ends in a store that satisfies `I`, with an answer that satisfies `Q`.
-/
namespace NexaStays.RowInvariants

open NexaStays.Transactions NexaStays.Embedding NexaStays.EntitySave NexaStays.Completions
open NexaStays.Confinement NexaStays.RowOrder

variable {σ κ ω ε α β ρ : Type} [Storage σ κ ω]

def Upholds (I : σ → Prop) (W : ω → Prop) (Q : α → Prop) : Program σ κ ω ε α → Prop
  | .pure a => Q a
  | .throw _ | .halt => True
  | .select k err | .lock _ k err => (∀ s, I s → Upholds I W Q (k s)) ∧ Upholds I W Q err
  | .update ws k err =>
    (∀ s, I s → (∀ w ∈ ws s, W w) ∧ Upholds I W Q (k s)) ∧ Upholds I W Q err
  | .insert row k err =>
    (∀ s n, I s → Storage.present s (Storage.keyOf σ (row n)) = false →
      W (row n) ∧ Upholds I W Q (k n)) ∧ Upholds I W Q err
  | .choose k => ∀ n, Upholds I W Q (k n)
  | .emit ws k => ∀ s, I s → (∀ w ∈ ws s, W w) ∧ Upholds I W Q (k s)
  | .start k | .rollback k => Upholds I W Q k
  | .commit k err => Upholds I W Q k ∧ Upholds I W Q err

section Rules

variable {I : σ → Prop} {W : ω → Prop} {Q : α → Prop} {R : β → Prop} {e : ε}

theorem Upholds.pure {a : α} (h : Q a) : Upholds I W Q (Pure.pure a : Program σ κ ω ε α) := h

theorem Upholds.throw : Upholds I W Q (Program.throw e : Program σ κ ω ε α) := trivial

theorem Upholds.handle {p : Program σ κ ω ε α} {f : α → Program σ κ ω ε β}
    {g : ε → Program σ κ ω ε β} (h : Upholds I W Q p) (hf : ∀ a, Q a → Upholds I W R (f a))
    (hg : ∀ e, Upholds I W R (g e)) : Upholds I W R (p.handle f g) := by
  induction p with
  | pure a => exact hf a h
  | throw e => exact hg e
  | halt => trivial
  | select k err ihk iherr | lock key k err ihk iherr =>
    exact ⟨fun s hs => ihk s (h.1 s hs), iherr h.2⟩
  | update ws k err ihk iherr =>
    exact ⟨fun s hs => ⟨(h.1 s hs).1, ihk s (h.1 s hs).2⟩, iherr h.2⟩
  | insert row k err ihk iherr =>
    exact ⟨fun s n hs hn => ⟨(h.1 s n hs hn).1, ihk n (h.1 s n hs hn).2⟩, iherr h.2⟩
  | choose k ih => exact fun n => ih n (h n)
  | emit ws k ih => exact fun s hs => ⟨(h s hs).1, ih s (h s hs).2⟩
  | start k ih | rollback k ih => exact ih h
  | commit k err ihk iherr => exact ⟨ihk h.1, iherr h.2⟩

theorem Upholds.bind {p : Program σ κ ω ε α} {k : α → Program σ κ ω ε β} (h : Upholds I W Q p)
    (hk : ∀ a, Q a → Upholds I W R (k a)) : Upholds I W R (p >>= k) :=
  h.handle hk fun _ => trivial

theorem Upholds.mono {Q' : α → Prop} (hQ : ∀ a, Q a → Q' a) {p : Program σ κ ω ε α}
    (h : Upholds I W Q p) : Upholds I W Q' p := by
  induction p with
  | pure a => exact hQ a h
  | throw | halt => trivial
  | select k err ihk iherr | lock key k err ihk iherr =>
    exact ⟨fun s hs => ihk s (h.1 s hs), iherr h.2⟩
  | update ws k err ihk iherr =>
    exact ⟨fun s hs => ⟨(h.1 s hs).1, ihk s (h.1 s hs).2⟩, iherr h.2⟩
  | insert row k err ihk iherr =>
    exact ⟨fun s n hs hn => ⟨(h.1 s n hs hn).1, ihk n (h.1 s n hs hn).2⟩, iherr h.2⟩
  | choose k ih => exact fun n => ih n (h n)
  | emit ws k ih => exact fun s hs => ⟨(h s hs).1, ih s (h s hs).2⟩
  | start k ih | rollback k ih => exact ih h
  | commit k err ihk iherr => exact ⟨ihk h.1, iherr h.2⟩

theorem Upholds.attempt {p : Program σ κ ω ε α} {g : ε → Program σ κ ω ε α}
    (h : Upholds I W Q p) (hg : ∀ e, Upholds I W Q (g e)) : Upholds I W Q (Program.attempt p g) :=
  h.handle (fun _ ha => ha) hg

theorem Upholds.transaction {p : Program σ κ ω ε α} (h : Upholds I W Q p) :
    Upholds I W Q (Program.transaction e p) :=
  Upholds.handle h (fun _ ha => ⟨ha, trivial⟩) fun _ => trivial

theorem Upholds.query {f : σ → α} (h : ∀ s, I s → Q (f s)) :
    Upholds I W Q (Program.query e f : Program σ κ ω ε α) :=
  ⟨h, trivial⟩

theorem Upholds.lockRow {key : κ} {f : σ → α} (h : ∀ s, I s → Q (f s)) :
    Upholds I W Q (Program.lockRow e key f : Program σ κ ω ε α) :=
  ⟨h, trivial⟩

theorem Upholds.findOne {f : σ → List α} {Q : Option α → Prop} (hnone : Q none)
    (hsome : ∀ s a, I s → a ∈ f s → Q (some a)) :
    Upholds I W Q (Program.findOne e f : Program σ κ ω ε (Option α)) := by
  intro n
  refine Upholds.query fun s hs => ?_
  cases h : Program.pick n (f s) with
  | none => exact hnone
  | some a => exact hsome s a hs (Program.mem_of_pick h)

theorem Upholds.findAll {f : σ → List α} {Q : List α → Prop}
    (h : ∀ s n, I s → Q (arranged n (f s))) :
    Upholds I W Q (findAll e f : Program σ κ ω ε (List α)) :=
  fun n => Upholds.query fun s hs => h s n hs

theorem Upholds.receive : Upholds I W (fun _ => True) (Program.receive : Program σ κ ω ε ℕ) :=
  fun _ => trivial

theorem Upholds.require {p : Prop} [Decidable p] :
    Upholds I W (fun _ => p) (Program.require p e : Program σ κ ω ε Unit) := by
  by_cases hp : p
  · simp only [Program.require, if_pos hp]
    exact hp
  · simp only [Program.require, if_neg hp]
    trivial

theorem Upholds.expect {o : Option α} :
    Upholds I W (fun a => o = some a) (Program.expect o e : Program σ κ ω ε α) := by
  cases o with
  | none => trivial
  | some a => exact rfl

theorem Upholds.ofExcept {r : Except ε α} :
    Upholds I W (fun a => r = .ok a) (Program.ofExcept r : Program σ κ ω ε α) := by
  cases r with
  | error e => trivial
  | ok a => exact rfl

theorem Upholds.writeRows {ws : σ → List ω} (h : ∀ s, I s → ∀ w ∈ ws s, W w) :
    Upholds I W (fun _ => True) (Program.writeRows e ws : Program σ κ ω ε (List ω)) :=
  ⟨fun s hs => ⟨h s hs, trivial⟩, trivial⟩

theorem Upholds.insertRow {row : ℕ → ω}
    (h : ∀ s n, I s → Storage.present s (Storage.keyOf σ (row n)) = false → W (row n)) :
    Upholds I W (fun _ => True) (Program.insertRow e row : Program σ κ ω ε ℕ) :=
  ⟨fun s n hs hn => ⟨h s n hs hn, trivial⟩, trivial⟩

/-- The number of the new row was free. -/
theorem Upholds.insertRow_free {row : ℕ → ω}
    (h : ∀ s n, I s → Storage.present s (Storage.keyOf σ (row n)) = false → W (row n)) :
    Upholds I W (fun n => ∃ s, I s ∧ Storage.present s (Storage.keyOf σ (row n)) = false)
      (Program.insertRow e row : Program σ κ ω ε ℕ) :=
  ⟨fun s n hs hn => ⟨h s n hs hn, s, hs, hn⟩, trivial⟩

theorem Upholds.send {ws : σ → List ω} {f : σ → α} (h : ∀ s, I s → ∀ w ∈ ws s, W w) :
    Upholds I W (fun _ => True) (Program.send ws f : Program σ κ ω ε α) :=
  fun s hs => ⟨h s hs, trivial⟩

theorem Upholds.remembered {f : σ → α} (h : ∀ s, I s → Q (f s)) :
    Upholds I W Q (Program.send (fun _ => []) f : Program σ κ ω ε α) :=
  fun s hs => ⟨fun _ hw => (nomatch hw), h s hs⟩

/-- The saved entity, or its columns on the row that is there. -/
theorem upholds_saveEntity [DecidableEq ρ] [Columns ρ] {table : Saved σ ω ρ} {new : ρ}
    (hnew : W (table.put new))
    (hmerge : ∀ s row old, I s → table.find s = some row → W (table.put (Columns.merge old new row))) :
    Upholds I W (fun _ => True) (saveEntity table e new : Program σ κ ω ε Unit) := by
  refine (Upholds.query fun _ _ => trivial).bind fun found (_ : True) => ?_
  cases found with
  | none =>
    refine (Upholds.writeRows fun s _ w hw => ?_).bind fun _ _ => Upholds.pure trivial
    rw [List.mem_singleton.mp hw]
    exact hnew
  | some old =>
    by_cases hsame : old = new
    · simp only [if_pos hsame]
      exact Upholds.pure trivial
    · simp only [if_neg hsame]
      refine (Upholds.writeRows fun s hs w hw => ?_).bind fun _ _ => Upholds.pure trivial
      obtain ⟨row, hrow, rfl⟩ := List.mem_map.mp hw
      exact hmerge s row old hs (Option.mem_toList.mp hrow)

theorem Upholds.forEach {f : β → Program σ κ ω ε Unit} {xs : List β}
    (h : ∀ x ∈ xs, Upholds I W (fun _ => True) (f x)) :
    Upholds I W (fun _ => True) (Program.forEach f xs) := by
  induction xs with
  | nil => trivial
  | cons x xs ih =>
    exact (h x List.mem_cons_self).handle
      (fun _ _ => ih fun y hy => h y (List.mem_cons_of_mem x hy)) fun _ => trivial

/-- Every program, where every write is allowed. -/
theorem upholds_any (hW : ∀ w, W w) (p : Program σ κ ω ε α) : Upholds I W (fun _ => True) p := by
  induction p with
  | pure | throw | halt => trivial
  | select k err ihk iherr | lock key k err ihk iherr => exact ⟨fun s _ => ihk s, iherr⟩
  | update ws k err ihk iherr => exact ⟨fun s _ => ⟨fun w _ => hW w, ihk s⟩, iherr⟩
  | insert row k err ihk iherr => exact ⟨fun _ n _ _ => ⟨hW _, ihk n⟩, iherr⟩
  | choose k ih => exact ih
  | emit ws k ih => exact fun s _ => ⟨fun w _ => hW w, ih s⟩
  | start k ih | rollback k ih => exact ih
  | commit k err ihk iherr => exact ⟨ihk, iherr⟩

/-- A program on a part of the store. -/
theorem upholds_within {σ' κ' ω' ε' : Type} [Storage σ' κ' ω'] (part : Part σ σ' κ κ' ω ω' ε ε')
    {I' : σ' → Prop} {W' : ω' → Prop} (hI : ∀ s, I' s → I (part.get s))
    (hW : ∀ w, W w → W' (part.write w)) {p : Program σ κ ω ε α} (h : Upholds I W Q p) :
    Upholds I' W' Q (within part p) := by
  have hmap : ∀ {ws : List ω}, (∀ w ∈ ws, W w) → ∀ w ∈ ws.map part.write, W' w := by
    intro ws hws w hw
    obtain ⟨v, hv, rfl⟩ := List.mem_map.mp hw
    exact hW v (hws v hv)
  induction p with
  | pure a => exact h
  | throw | halt => trivial
  | select k err ihk iherr | lock key k err ihk iherr =>
    exact ⟨fun s hs => ihk _ (h.1 _ (hI s hs)), iherr h.2⟩
  | update ws k err ihk iherr =>
    exact ⟨fun s hs => ⟨hmap (h.1 _ (hI s hs)).1, ihk _ (h.1 _ (hI s hs)).2⟩, iherr h.2⟩
  | insert row k err ihk iherr =>
    refine ⟨fun s n hs hn => ?_, iherr h.2⟩
    rw [part.keyOf_write, part.present_key] at hn
    obtain ⟨hrow, hk⟩ := h.1 _ n (hI s hs) hn
    exact ⟨hW _ hrow, ihk n hk⟩
  | choose k ih => exact fun n => ih n (h n)
  | emit ws k ih => exact fun s hs => ⟨hmap (h _ (hI s hs)).1, ih _ (h _ (hI s hs)).2⟩
  | start k ih | rollback k ih => exact ih h
  | commit k err ihk iherr => exact ⟨ihk h.1, iherr h.2⟩

end Rules

/-- What a call that runs alone answers, and the store that it leaves. -/
theorem mustEnd_of_upholds {I : σ → Prop} {W : ω → Prop} {Q : α → Prop}
    (hI : ∀ s w, W w → I s → I (Storage.write s w)) {p : Program σ κ ω ε α} {ses : Session κ ω}
    {s : σ} (h : Upholds I W Q p) (hses : ∀ w ∈ ses.pending, W w) (hs : I s) :
    MustEnd (fun r ses t => (∀ a, r = .ok a → Q a) ∧ (∀ w ∈ ses.pending, W w) ∧ I t) p ses s := by
  have hnone : ∀ w ∈ ([] : List ω), W w := by simp
  induction p generalizing ses s with
  | pure a =>
    refine ⟨fun b hb => ?_, hses, hs⟩
    rw [← Except.ok.inj hb]
    exact h
  | throw e => exact ⟨fun b hb => (nomatch hb), hses, hs⟩
  | halt => trivial
  | select k err ihk iherr =>
    exact ⟨ihk _ (h.1 _ (publish_keeps hI hses hs)) hses hs, iherr h.2 hses hs⟩
  | lock key k err ihk iherr =>
    refine ⟨ihk _ (h.1 _ (publish_keeps hI hses hs)) ?_ hs, iherr h.2 hses hs⟩
    rw [Session.acquire]
    split <;> exact hses
  | update ws k err ihk iherr =>
    obtain ⟨hws, hk⟩ := h.1 _ (publish_keeps hI hses hs)
    obtain ⟨hpending, hvisible⟩ := within_stage (σ := σ) hses hws
    exact ⟨ihk _ hk hpending (publish_keeps hI hvisible hs), iherr h.2 hses hs⟩
  | insert row k err ihk iherr =>
    refine ⟨fun n hn => ?_, iherr h.2 hses hs⟩
    obtain ⟨hwrite, hk⟩ := h.1 _ n (publish_keeps hI hses hs) hn
    have hrow : ∀ w ∈ [row n], W w := by
      intro w hw
      rw [List.mem_singleton.mp hw]
      exact hwrite
    obtain ⟨hpending, hvisible⟩ := within_stage (σ := σ) hses hrow
    exact ihk n hk hpending (publish_keeps hI hvisible hs)
  | choose k ih => exact fun n => ih n (h n) hses hs
  | emit ws k ih =>
    obtain ⟨hws, hk⟩ := h _ (publish_keeps hI hses hs)
    exact ih _ hk hses (publish_keeps hI hws hs)
  | start k ih | rollback k ih => exact ih h hnone hs
  | commit k err ihk iherr => exact ⟨ihk h.1 hnone (publish_keeps hI hses hs), iherr h.2 hnone hs⟩

/-- The same for a call that begins. -/
theorem idle_of_upholds {I : σ → Prop} {W : ω → Prop} {Q : α → Prop}
    (hI : ∀ s w, W w → I s → I (Storage.write s w)) {p : Program σ κ ω ε α} {s : σ}
    (h : Upholds I W Q p) (hs : I s) :
    MustEnd (fun r _ t => (∀ a, r = .ok a → Q a) ∧ I t) p .idle s :=
  (mustEnd_of_upholds hI h (by simp [Session.idle]) hs).mono fun _ _ _ ht => ⟨ht.1, ht.2.2⟩

-- a statement about a long program is not to be unfolded into its steps
attribute [irreducible] Upholds

end NexaStays.RowInvariants
