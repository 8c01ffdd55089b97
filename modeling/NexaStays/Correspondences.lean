import Mathlib.Data.List.Forall2
import NexaStays.Completions

/-!
# Programs on two stores

Two stores may hold the same rows, the second with more tables and columns. Programs on them
correspond when they make the same statements in the same order, read what agrees and write what
corresponds; the second may ask the outside world for more. What every end of the first one is,
every end of the second one is.
-/
namespace NexaStays.Correspondences

open NexaStays.Transactions NexaStays.Completions

variable {σ σ' κ κ' ω ω' ε ε' α α' β β' : Type} [Storage σ κ ω] [Storage σ' κ' ω']

variable (σ σ' κ κ' ω ω' ε ε') in
/-- The stores that hold the same, the writes that do the same, and the errors. -/
structure Correspondence [Storage σ κ ω] [Storage σ' κ' ω'] where
  store : σ → σ' → Prop
  write : ω → ω' → Prop
  error : ε → ε' → Prop
  store_write : ∀ {s s' w w'}, store s s' → write w w' →
    store (Storage.write s w) (Storage.write s' w')
  present_keyOf : ∀ {s s' w w'}, store s s' → write w w' →
    Storage.present s (Storage.keyOf σ w) = Storage.present s' (Storage.keyOf σ' w')

variable (c : Correspondence σ σ' κ κ' ω ω' ε ε')

/-- The programs do the same outside of transactions, up to answers that only the second one asks
for; `V` relates what they return. -/
inductive Corresponds (V : α → α' → Prop) :
    Program σ κ ω ε α → Program σ' κ' ω' ε' α' → Prop where
  | pure {a a'} (value : V a a') : Corresponds V (.pure a) (.pure a')
  | throw {e e'} (error : c.error e e') : Corresponds V (.throw e) (.throw e')
  | select {k k' err err'} (next : ∀ s s', c.store s s' → Corresponds V (k s) (k' s'))
    (failed : Corresponds V err err') : Corresponds V (.select k err) (.select k' err')
  | update {ws ws' k k' err err'}
    (writes : ∀ s s', c.store s s' → List.Forall₂ c.write (ws s) (ws' s'))
    (next : ∀ s s', c.store s s' → Corresponds V (k s) (k' s'))
    (failed : Corresponds V err err') : Corresponds V (.update ws k err) (.update ws' k' err')
  | insert {row row' k k' err err'} (writes : ∀ n, c.write (row n) (row' n))
    (next : ∀ n, Corresponds V (k n) (k' n)) (failed : Corresponds V err err') :
    Corresponds V (.insert row k err) (.insert row' k' err')
  | choose {k k'} (next : ∀ n, Corresponds V (k n) (k' n)) :
    Corresponds V (.choose k) (.choose k')
  | ask {p k'} (next : ∀ n, Corresponds V p (k' n)) : Corresponds V p (.choose k')
  | emit {ws ws' k k'} (writes : ∀ s s', c.store s s' → List.Forall₂ c.write (ws s) (ws' s'))
    (next : ∀ s s', c.store s s' → Corresponds V (k s) (k' s')) :
    Corresponds V (.emit ws k) (.emit ws' k')

/-- The sessions have written the same. -/
structure Paired (ses : Session κ ω) (ses' : Session κ' ω') : Prop where
  active : ses'.active = ses.active
  pending : List.Forall₂ c.write ses.pending ses'.pending

/-- The results are the same. -/
inductive SameResult (V : α → α' → Prop) : Except ε α → Except ε' α' → Prop where
  | ok {a a'} (value : V a a') : SameResult V (.ok a) (.ok a')
  | error {e e'} (error : c.error e e') : SameResult V (.error e) (.error e')

/-- An end that is the same as one with `Q`. -/
def Follows (V : α → α' → Prop) (Q : Except ε α → Session κ ω → σ → Prop) (r' : Except ε' α')
    (ses' : Session κ' ω') (s' : σ') : Prop :=
  ∃ r ses s, SameResult c V r r' ∧ Paired c ses ses' ∧ c.store s s' ∧ Q r ses s

variable {c} {V : α → α' → Prop} {W : β → β' → Prop} {ses : Session κ ω} {ses' : Session κ' ω'}
  {s : σ} {s' : σ'}

theorem store_publish {ws : List ω} {ws' : List ω'} (hs : c.store s s')
    (h : List.Forall₂ c.write ws ws') : c.store (publish s ws) (publish s' ws') := by
  induction h generalizing s s' with
  | nil => exact hs
  | cons hw _ ih => exact ih (c.store_write hs hw)

namespace Paired

theorem idle : Paired c .idle .idle := ⟨rfl, .nil⟩

theorem view (h : Paired c ses ses') (hs : c.store s s') : c.store (ses.view s) (ses'.view s') :=
  store_publish hs h.pending

theorem stage {ws : List ω} {ws' : List ω'} (h : Paired c ses ses')
    (hw : List.Forall₂ c.write ws ws') :
    Paired c (ses.stage (σ := σ) ws) (ses'.stage (σ := σ') ws') := by
  rw [Session.stage, Session.stage, h.active]
  split
  · exact ⟨rfl, List.rel_append h.pending hw⟩
  · exact h

theorem visible {ws : List ω} {ws' : List ω'} (h : Paired c ses ses')
    (hw : List.Forall₂ c.write ws ws') :
    List.Forall₂ c.write (ses.visible ws) (ses'.visible ws') := by
  rw [Session.visible, Session.visible, h.active]
  split
  · exact .nil
  · exact hw

end Paired

namespace Corresponds

variable {e : ε} {e' : ε'}

theorem bind {p : Program σ κ ω ε α} {p' : Program σ' κ' ω' ε' α'} {k : α → Program σ κ ω ε β}
    {k' : α' → Program σ' κ' ω' ε' β'} (h : Corresponds c V p p')
    (hk : ∀ a a', V a a' → Corresponds c W (k a) (k' a')) :
    Corresponds c W (p >>= k) (p' >>= k') := by
  induction h with
  | pure hV => exact hk _ _ hV
  | throw he => exact .throw he
  | select _ _ ih iherr => exact .select ih iherr
  | update hw _ _ ih iherr => exact .update hw ih iherr
  | insert hw _ _ ih iherr => exact .insert hw ih iherr
  | choose _ ih => exact .choose ih
  | ask _ ih => exact .ask ih
  | emit hw _ ih => exact .emit hw ih

theorem query {f : σ → α} {f' : σ' → α'} (he : c.error e e')
    (h : ∀ s s', c.store s s' → V (f s) (f' s')) :
    Corresponds c V (Program.query e f) (Program.query e' f') :=
  .select (fun s s' hs => .pure (h s s' hs)) (.throw he)

theorem receive : Corresponds c Eq (Program.receive : Program σ κ ω ε ℕ)
    (Program.receive : Program σ' κ' ω' ε' ℕ) :=
  .choose fun _ => .pure rfl

theorem send {ws : σ → List ω} {ws' : σ' → List ω'} {f : σ → α} {f' : σ' → α'}
    (hw : ∀ s s', c.store s s' → List.Forall₂ c.write (ws s) (ws' s'))
    (h : ∀ s s', c.store s s' → V (f s) (f' s')) :
    Corresponds c V (Program.send ws f : Program σ κ ω ε α) (Program.send ws' f') :=
  .emit hw fun s s' hs => .pure (h s s' hs)

/-- What every end of the first program is, every end of the second one is. -/
theorem mustEnd {Q : Except ε α → Session κ ω → σ → Prop} {p : Program σ κ ω ε α}
    {p' : Program σ' κ' ω' ε' α'} (h : Corresponds c V p p') (hs : c.store s s')
    (hses : Paired c ses ses') (hend : MustEnd Q p ses s) :
    MustEnd (Follows c V Q) p' ses' s' := by
  induction h generalizing ses ses' s s' with
  | pure hV => exact ⟨_, ses, s, .ok hV, hses, hs, hend⟩
  | throw he => exact ⟨_, ses, s, .error he, hses, hs, hend⟩
  | select _ _ ih iherr =>
    exact ⟨ih _ _ (hses.view hs) hs hses hend.1, iherr hs hses hend.2⟩
  | update hw _ _ ih iherr =>
    have hrows := hw _ _ (hses.view hs)
    exact ⟨ih _ _ (hses.view hs) (store_publish hs (hses.visible hrows)) (hses.stage hrows) hend.1,
      iherr hs hses hend.2⟩
  | insert hw _ _ ih iherr =>
    refine ⟨fun n hfresh => ?_, iherr hs hses hend.2⟩
    have hrow := List.Forall₂.cons (hw n) .nil
    rw [← c.present_keyOf (hses.view hs) (hw n)] at hfresh
    exact ih n (store_publish hs (hses.visible hrow)) (hses.stage hrow) (hend.1 n hfresh)
  | choose _ ih => exact fun n => ih n hs hses (hend n)
  | ask _ ih => exact fun n => ih n hs hses hend
  | emit hw _ ih =>
    exact ih _ _ (hses.view hs) (store_publish hs (hw _ _ (hses.view hs))) hses hend

end Corresponds

end NexaStays.Correspondences
