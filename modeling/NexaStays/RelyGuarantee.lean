import Mathlib.Logic.Relation
import NexaStays.Transactions

/-!
# Rely-guarantee reasoning for database programs

A `Discipline` says which publications a call may make (`Legal`) and which
property of the committed store they all keep (`Inv`). While a call holds its row
locks the others may only publish legally, from rows it has not locked; `wp` is
the weakest precondition of a program under that interference. If every call meets
its `wp` at the start, then in every reachable state the invariant holds, no row
is locked twice, and every publication of the next step is a legal one.
-/
namespace NexaStays.RelyGuarantee

open NexaStays.Transactions

/-- The protocol of a set of calls. `Guard` and `Apart` are what a run is assumed
to grant: the first when a call locks a row, the second between any two calls. -/
structure Discipline (τ σ κ ω α : Type) [Storage σ κ ω] where
  Inv : σ → Prop
  Legal : τ → List κ → σ → List ω → Prop
  Post : τ → α → σ → Prop
  Guard : τ → σ → κ → Prop
  Apart : τ → List κ → τ → List κ → Prop
  inv_legal : ∀ {c held s ws}, Inv s → Legal c held s ws → Inv (publish s ws)

namespace Discipline

variable {τ σ κ ω ε α β ξ : Type} [Storage σ κ ω] (D : Discipline τ σ κ ω ξ)

/-- Nothing is published, or something legal. -/
def Publishes (c : τ) (held : List κ) (s : σ) (ws : List ω) : Prop := ws = [] ∨ D.Legal c held s ws

/-- One publication by another call, while `c` holds the locks `held`. -/
def Interference (c : τ) (held : List κ) (s s' : σ) : Prop :=
  ∃ c' held' ws, D.Legal c' held' s ws ∧ held.Disjoint held' ∧
    (∀ w ∈ ws, Storage.keyOf σ w ∉ held) ∧ D.Apart c held c' held' ∧ D.Inv s ∧ s' = publish s ws

/-- Any number of publications by other calls. -/
def Later (c : τ) (held : List κ) : σ → σ → Prop := Relation.ReflTransGen (D.Interference c held)

/-- A fact that no other call can spoil while `c` holds the locks `held`. -/
def Stable (c : τ) (held : List κ) (P : σ → Prop) : Prop :=
  ∀ ⦃s s'⦄, P s → D.Interference c held s s' → P s'

variable {D}

theorem Stable.later {c : τ} {held : List κ} {P : σ → Prop} (hP : D.Stable c held P) {s s' : σ}
    (hs : P s) (h : D.Later c held s s') : P s' := by
  induction h with
  | refl => exact hs
  | tail _ hstep ih => exact hP ih hstep

theorem Stable.and {c : τ} {held : List κ} {P Q : σ → Prop} (hP : D.Stable c held P)
    (hQ : D.Stable c held Q) : D.Stable c held fun s => P s ∧ Q s :=
  fun _ _ hs h => ⟨hP hs.1 h, hQ hs.2 h⟩

theorem Stable.true {c : τ} {held : List κ} : D.Stable c held fun _ => True :=
  fun _ _ _ _ => trivial

/-- A fact that no legal publication takes back. -/
def Persistent (D : Discipline τ σ κ ω ξ) (P : σ → Prop) : Prop :=
  ∀ ⦃c held s ws⦄, D.Inv s → D.Legal c held s ws → P s → P (publish s ws)

theorem Persistent.stable {P : σ → Prop} (hP : D.Persistent P) {c : τ} {held : List κ} :
    D.Stable c held P := by
  rintro s s' hs ⟨c', held', ws, hlegal, -, -, -, hinv, rfl⟩
  exact hP hinv hlegal hs

theorem Persistent.publish {P : σ → Prop} (hP : D.Persistent P) {c : τ} {held : List κ} {s : σ}
    {ws : List ω} (hinv : D.Inv s) (h : D.Publishes c held s ws) (hs : P s) :
    P (publish s ws) := by
  obtain rfl | hlegal := h
  · exact hs
  · exact hP hinv hlegal hs

theorem Persistent.and {P Q : σ → Prop} (hP : D.Persistent P) (hQ : D.Persistent Q) :
    D.Persistent fun s => P s ∧ Q s :=
  fun _ _ _ _ hinv h hs => ⟨hP hinv h hs.1, hQ hinv h hs.2⟩

theorem Persistent.forall {ι : Sort*} {P : ι → σ → Prop} (hP : ∀ i, D.Persistent (P i)) :
    D.Persistent fun s => ∀ i, P i s :=
  fun _ _ _ _ hinv h hs i => hP i hinv h (hs i)

theorem Persistent.true : D.Persistent fun _ => True := fun _ _ _ _ _ _ _ => trivial

variable (D)

/-- The weakest precondition of the rest of a call: `Q` where it returns, `E` where
it throws, and only legal publications on the way. -/
def wp (c : τ) (Q : α → Session κ ω → σ → Prop) (E : ε → Session κ ω → σ → Prop) :
    Program σ κ ω ε α → Session κ ω → σ → Prop
  | .pure a, ses, s => ∀ s', D.Later c ses.held s s' → D.Inv s' → Q a ses s'
  | .throw e, ses, s => ∀ s', D.Later c ses.held s s' → D.Inv s' → E e ses s'
  | .halt, _, _ => True
  | .select k err, ses, s => ∀ s', D.Later c ses.held s s' → D.Inv s' →
    wp c Q E (k (ses.view s')) ses s' ∧ wp c Q E err ses s'
  | .lock key k err, ses, s => ∀ s', D.Later c ses.held s s' → D.Inv s' →
    (D.Guard c (ses.view s') key →
      wp c Q E (k (ses.view s')) (ses.acquire (ses.view s') key) s') ∧ wp c Q E err ses s'
  | .update ws k err, ses, s => ∀ s', D.Later c ses.held s s' → D.Inv s' →
    D.Publishes c ses.held s' (ses.visible (ws (ses.view s'))) ∧
    wp c Q E (k (ses.view s')) (ses.stage (σ := σ) (ws (ses.view s')))
      (publish s' (ses.visible (ws (ses.view s')))) ∧
    wp c Q E err ses s'
  | .insert row k err, ses, s => ∀ s', D.Later c ses.held s s' → D.Inv s' →
    (∀ n, Storage.present (ses.view s') (Storage.keyOf σ (row n)) = false →
      D.Publishes c ses.held s' (ses.visible [row n]) ∧
      wp c Q E (k n) (ses.stage (σ := σ) [row n]) (publish s' (ses.visible [row n]))) ∧
    wp c Q E err ses s'
  | .choose k, ses, s => ∀ s', D.Later c ses.held s s' → D.Inv s' → ∀ n, wp c Q E (k n) ses s'
  | .emit ws k, ses, s => ∀ s', D.Later c ses.held s s' → D.Inv s' →
    D.Publishes c ses.held s' (ws (ses.view s')) ∧
    wp c Q E (k (ses.view s')) ses (publish s' (ws (ses.view s')))
  | .start k, ses, s => ∀ s', D.Later c ses.held s s' → D.Inv s' → wp c Q E k .opened s'
  | .commit k err, ses, s => ∀ s', D.Later c ses.held s s' → D.Inv s' →
    D.Publishes c ses.held s' ses.pending ∧
    wp c Q E k .idle (publish s' ses.pending) ∧ wp c Q E err .idle s'
  | .rollback k, ses, s => ∀ s', D.Later c ses.held s s' → D.Inv s' → wp c Q E k .idle s'

variable {D} {c : τ} {Q Q' : α → Session κ ω → σ → Prop} {E E' : ε → Session κ ω → σ → Prop}

/-- A precondition survives what the other calls publish. -/
theorem wp_later {p : Program σ κ ω ε α} {ses : Session κ ω} {s s' : σ}
    (h : D.Later c ses.held s s') (hwp : D.wp c Q E p ses s) : D.wp c Q E p ses s' := by
  cases p with
  | halt => trivial
  | _ => exact fun t ht hinv => hwp t (h.trans ht) hinv

/-- A precondition may be shown where the program runs next, under the invariant. -/
theorem wp_of_later {p : Program σ κ ω ε α} {ses : Session κ ω} {s : σ}
    (h : ∀ s', D.Later c ses.held s s' → D.Inv s' → D.wp c Q E p ses s') :
    D.wp c Q E p ses s := by
  cases p with
  | halt => trivial
  | _ => exact fun s' hl hi => h s' hl hi s' .refl hi

/-- It is enough to meet a precondition under the invariant. -/
theorem wp_of_inv {p : Program σ κ ω ε α} {ses : Session κ ω} {s : σ} {P : σ → Prop}
    (hP : D.Stable c ses.held P) (hs : P s) (h : ∀ s', D.Inv s' → P s' → D.wp c Q E p ses s') :
    D.wp c Q E p ses s :=
  wp_of_later fun s' hl hi => h s' hi (hP.later hs hl)

/-- The rule of `handle`: the continuations of `p` take over where it ends. -/
theorem wp_handle {Q : β → Session κ ω → σ → Prop} {f : α → Program σ κ ω ε β}
    {g : ε → Program σ κ ω ε β} {p : Program σ κ ω ε α} {ses : Session κ ω} {s : σ}
    (h : D.wp c (fun a => D.wp c Q E (f a)) (fun e => D.wp c Q E (g e)) p ses s) :
    D.wp c Q E (p.handle f g) ses s := by
  induction p generalizing ses s with
  | pure a => exact wp_of_later fun s' hl hi => h s' hl hi
  | throw e => exact wp_of_later fun s' hl hi => h s' hl hi
  | halt => trivial
  | select k err ihk iherr =>
    exact fun s' hl hi => ⟨ihk _ (h s' hl hi).1, iherr (h s' hl hi).2⟩
  | lock key k err ihk iherr =>
    exact fun s' hl hi => ⟨fun hg => ihk _ ((h s' hl hi).1 hg), iherr (h s' hl hi).2⟩
  | update ws k err ihk iherr =>
    exact fun s' hl hi => ⟨(h s' hl hi).1, ihk _ (h s' hl hi).2.1, iherr (h s' hl hi).2.2⟩
  | insert row k err ihk iherr =>
    exact fun s' hl hi => ⟨fun n hn => ⟨((h s' hl hi).1 n hn).1, ihk _ ((h s' hl hi).1 n hn).2⟩,
      iherr (h s' hl hi).2⟩
  | choose k ih => exact fun s' hl hi n => ih n (h s' hl hi n)
  | emit ws k ih => exact fun s' hl hi => ⟨(h s' hl hi).1, ih _ (h s' hl hi).2⟩
  | start k ih => exact fun s' hl hi => ih (h s' hl hi)
  | commit k err ihk iherr =>
    exact fun s' hl hi => ⟨(h s' hl hi).1, ihk (h s' hl hi).2.1, iherr (h s' hl hi).2.2⟩
  | rollback k ih => exact fun s' hl hi => ih (h s' hl hi)

theorem wp_bind {Q : β → Session κ ω → σ → Prop} {f : α → Program σ κ ω ε β}
    {p : Program σ κ ω ε α} {ses : Session κ ω} {s : σ}
    (h : D.wp c (fun a => D.wp c Q E (f a)) (fun e => D.wp c Q E (.throw e)) p ses s) :
    D.wp c Q E (p >>= f) ses s :=
  wp_handle h

theorem wp_attempt {h : ε → Program σ κ ω ε α} {p : Program σ κ ω ε α} {ses : Session κ ω}
    {s : σ} (hp : D.wp c (fun a => D.wp c Q E (.pure a)) (fun e => D.wp c Q E (h e)) p ses s) :
    D.wp c Q E (p.attempt h) ses s :=
  wp_handle hp

theorem wp_mono {p : Program σ κ ω ε α} {ses : Session κ ω} {s : σ}
    (hQ : ∀ a ses s, D.Inv s → Q a ses s → Q' a ses s)
    (hE : ∀ e ses s, D.Inv s → E e ses s → E' e ses s)
    (h : D.wp c Q E p ses s) : D.wp c Q' E' p ses s := by
  induction p generalizing ses s with
  | pure a => exact fun s' hl hi => hQ a ses s' hi (h s' hl hi)
  | throw e => exact fun s' hl hi => hE e ses s' hi (h s' hl hi)
  | halt => trivial
  | select k err ihk iherr =>
    exact fun s' hl hi => ⟨ihk _ (h s' hl hi).1, iherr (h s' hl hi).2⟩
  | lock key k err ihk iherr =>
    exact fun s' hl hi => ⟨fun hg => ihk _ ((h s' hl hi).1 hg), iherr (h s' hl hi).2⟩
  | update ws k err ihk iherr =>
    exact fun s' hl hi => ⟨(h s' hl hi).1, ihk _ (h s' hl hi).2.1, iherr (h s' hl hi).2.2⟩
  | insert row k err ihk iherr =>
    exact fun s' hl hi => ⟨fun n hn => ⟨((h s' hl hi).1 n hn).1, ihk _ ((h s' hl hi).1 n hn).2⟩,
      iherr (h s' hl hi).2⟩
  | choose k ih => exact fun s' hl hi n => ih n (h s' hl hi n)
  | emit ws k ih => exact fun s' hl hi => ⟨(h s' hl hi).1, ih _ (h s' hl hi).2⟩
  | start k ih => exact fun s' hl hi => ih (h s' hl hi)
  | commit k err ihk iherr =>
    exact fun s' hl hi => ⟨(h s' hl hi).1, ihk (h s' hl hi).2.1, iherr (h s' hl hi).2.2⟩
  | rollback k ih => exact fun s' hl hi => ih (h s' hl hi)

/-- The rule of a fact that is never taken back: it holds where the program ends. -/
theorem wp_frame {P : σ → Prop} (hP : D.Persistent P) {p : Program σ κ ω ε α}
    {ses : Session κ ω} {s : σ} (hs : P s) (h : D.wp c Q E p ses s) :
    D.wp c (fun a ses s => Q a ses s ∧ P s) (fun e ses s => E e ses s ∧ P s) p ses s := by
  induction p generalizing ses s with
  | pure a => exact fun s' hl hi => ⟨h s' hl hi, hP.stable.later hs hl⟩
  | throw e => exact fun s' hl hi => ⟨h s' hl hi, hP.stable.later hs hl⟩
  | halt => trivial
  | select k err ihk iherr =>
    intro s' hl hi
    have hs' := hP.stable.later hs hl
    exact ⟨ihk _ hs' (h s' hl hi).1, iherr hs' (h s' hl hi).2⟩
  | lock key k err ihk iherr =>
    intro s' hl hi
    have hs' := hP.stable.later hs hl
    exact ⟨fun hg => ihk _ hs' ((h s' hl hi).1 hg), iherr hs' (h s' hl hi).2⟩
  | update ws k err ihk iherr =>
    intro s' hl hi
    have hs' := hP.stable.later hs hl
    obtain ⟨hpub, hk, herr⟩ := h s' hl hi
    exact ⟨hpub, ihk _ (hP.publish hi hpub hs') hk, iherr hs' herr⟩
  | insert row k err ihk iherr =>
    intro s' hl hi
    have hs' := hP.stable.later hs hl
    refine ⟨fun n hn => ?_, iherr hs' (h s' hl hi).2⟩
    obtain ⟨hpub, hk⟩ := (h s' hl hi).1 n hn
    exact ⟨hpub, ihk _ (hP.publish hi hpub hs') hk⟩
  | choose k ih => exact fun s' hl hi n => ih n (hP.stable.later hs hl) (h s' hl hi n)
  | emit ws k ih =>
    intro s' hl hi
    obtain ⟨hpub, hk⟩ := h s' hl hi
    exact ⟨hpub, ih _ (hP.publish hi hpub (hP.stable.later hs hl)) hk⟩
  | start k ih => exact fun s' hl hi => ih (hP.stable.later hs hl) (h s' hl hi)
  | commit k err ihk iherr =>
    intro s' hl hi
    have hs' := hP.stable.later hs hl
    obtain ⟨hpub, hk, herr⟩ := h s' hl hi
    exact ⟨hpub, ihk (hP.publish hi hpub hs') hk, iherr hs' herr⟩
  | rollback k ih => exact fun s' hl hi => ih (hP.stable.later hs hl) (h s' hl hi)

theorem wp_pure {a : α} {ses : Session κ ω} {s : σ} (hQ : D.Stable c ses.held (Q a ses))
    (h : Q a ses s) : D.wp c Q E (.pure a) ses s :=
  fun _ hl _ => hQ.later h hl

theorem wp_throw {e : ε} {ses : Session κ ω} {s : σ} (hE : D.Stable c ses.held (E e ses))
    (h : E e ses s) : D.wp c Q E (.throw e) ses s :=
  fun _ hl _ => hE.later h hl

theorem stable_wp {held : List κ} {p : Program σ κ ω ε α} {ses : Session κ ω}
    (h : ses.held = held) : D.Stable c held (D.wp c Q E p ses) := by
  subst h
  exact fun _ _ hwp h => wp_later (.single h) hwp

/-- A part of a program that returns hands over to the rest. -/
theorem wp_return {E₀ : ε → Session κ ω → σ → Prop} {k : β → Program σ κ ω ε α} {b : β}
    {ses : Session κ ω} {s : σ} (h : D.wp c Q E (k b) ses s) :
    D.wp c (fun b => D.wp c Q E (k b)) E₀ (.pure b) ses s :=
  wp_pure (stable_wp rfl) h

/-- The rule of `transaction`: what the body returns is committed, what it throws is
rolled back. -/
theorem wp_transaction {e : ε} {p : Program σ κ ω ε α} {s : σ}
    (h : D.wp c (fun a => D.wp c Q E (.commit (.pure a) (.throw e))) (fun _ _ _ => True) p .opened s)
    (hE : ∀ e s, E e .idle s := by intros; trivial) : D.wp c Q E (p.transaction e) .idle s :=
  fun _ hl _ => wp_handle (wp_mono (fun _ _ _ _ hq => hq) (fun e _ _ _ _ _ _ _ _ _ _ => hE e _)
    (wp_later hl h))

section Statements

variable {P : σ → Prop} {ses : Session κ ω} {s : σ} {e : ε}

theorem wp_commit {a : α} {e : ε} (hP : D.Stable c ses.held P) (hs : P s)
    (hQ : D.Stable c [] (Q a .idle))
    (h : ∀ s', D.Inv s' → P s' → D.Publishes c ses.held s' ses.pending ∧
      Q a .idle (publish s' ses.pending))
    (hE : ∀ e s, E e .idle s := by intros; trivial) :
    D.wp c Q E (.commit (.pure a) (.throw e)) ses s := by
  intro s' hl hi
  obtain ⟨hpub, hq⟩ := h s' hi (hP.later hs hl)
  exact ⟨hpub, wp_pure hQ hq, fun _ _ _ => hE _ _⟩

theorem wp_query {f : σ → β} {k : β → Program σ κ ω ε α} (hP : D.Stable c ses.held P) (hs : P s)
    (h : ∀ s', D.Inv s' → P s' → D.wp c Q E (k (f (ses.view s'))) ses s')
    (hE : ∀ s', D.Inv s' → P s' → E e ses s' := by intros; trivial) :
    D.wp c Q E (Program.query e f >>= k) ses s := by
  intro s' hl hi
  have hs' := hP.later hs hl
  exact ⟨h s' hi hs', fun t ht hinv => hE t hinv (hP.later hs' ht)⟩

theorem wp_lockRow {key : κ} {f : σ → β} {k : β → Program σ κ ω ε α}
    (hP : D.Stable c ses.held P) (hs : P s)
    (h : ∀ s', D.Inv s' → P s' → D.Guard c (ses.view s') key →
      D.wp c Q E (k (f (ses.view s'))) (ses.acquire (ses.view s') key) s')
    (hE : ∀ s', D.Inv s' → P s' → E e ses s' := by intros; trivial) :
    D.wp c Q E (Program.lockRow e key f >>= k) ses s := by
  intro s' hl hi
  have hs' := hP.later hs hl
  exact ⟨h s' hi hs', fun t ht hinv => hE t hinv (hP.later hs' ht)⟩

/-- A lock inside a transaction that has not written yet. -/
theorem wp_lockRow_opened {key : κ} {f : σ → β} {k : β → Program σ κ ω ε α} {held : List κ}
    (hP : D.Stable c held P) (hs : P s)
    (habsent : ∀ s', D.Inv s' → P s' → Storage.present s' key = false →
      D.wp c Q E (k (f s')) ⟨held, [], true⟩ s')
    (hpresent : ∀ s', D.Inv s' → P s' → D.Guard c s' key → Storage.present s' key = true →
      D.wp c Q E (k (f s')) ⟨key :: held, [], true⟩ s')
    (hE : ∀ s', D.Inv s' → P s' → E e ⟨held, [], true⟩ s' := by intros; trivial) :
    D.wp c Q E (Program.lockRow e key f >>= k) ⟨held, [], true⟩ s := by
  refine wp_lockRow hP hs (fun s' hinv hs' hguard => ?_) hE
  have hview : (⟨held, [], true⟩ : Session κ ω).view s' = s' := rfl
  rw [hview] at hguard ⊢
  unfold Session.acquire
  split_ifs with hkey
  · exact hpresent s' hinv hs' hguard hkey
  · exact habsent s' hinv hs' (by simpa using hkey)

/-- A statement inside a transaction keeps its writes to itself. -/
theorem wp_stage {ws : σ → List ω} {k : List ω → Program σ κ ω ε α} {held : List κ}
    {pending : List ω} (hP : D.Stable c held P) (hs : P s)
    (h : ∀ s', D.Inv s' → P s' → D.wp c Q E (k (ws (publish s' pending)))
      ⟨(ws (publish s' pending)).map (Storage.keyOf σ) ++ held,
        pending ++ ws (publish s' pending), true⟩ s')
    (hE : ∀ s', D.Inv s' → P s' → E e ⟨held, pending, true⟩ s' := by intros; trivial) :
    D.wp c Q E (Program.writeRows e ws >>= k) ⟨held, pending, true⟩ s := by
  intro s' hl hi
  have hs' := hP.later hs hl
  exact ⟨Or.inl rfl, h s' hi hs', fun t ht hinv => hE t hinv (hP.later hs' ht)⟩

/-- A statement outside a transaction publishes its writes. -/
theorem wp_publish {ws : σ → List ω} {k : List ω → Program σ κ ω ε α}
    (hP : D.Stable c [] P) (hs : P s)
    (h : ∀ s', D.Inv s' → P s' → D.Publishes c [] s' (ws s') ∧
      D.wp c Q E (k (ws s')) .idle (publish s' (ws s')))
    (hE : ∀ s', D.Inv s' → P s' → E e .idle s' := by intros; trivial) :
    D.wp c Q E (Program.writeRows e ws >>= k) .idle s := by
  intro s' hl hi
  have hs' := hP.later hs hl
  obtain ⟨hpub, hk⟩ := h s' hi hs'
  exact ⟨hpub, hk, fun t ht hinv => hE t hinv (hP.later hs' ht)⟩

theorem wp_stageInsert {row : ℕ → ω} {k : ℕ → Program σ κ ω ε α} {held : List κ}
    {pending : List ω} (hP : D.Stable c held P) (hs : P s)
    (h : ∀ s' n, D.Inv s' → P s' →
      Storage.present (publish s' pending) (Storage.keyOf σ (row n)) = false →
      D.wp c Q E (k n) ⟨Storage.keyOf σ (row n) :: held, pending ++ [row n], true⟩ s')
    (hE : ∀ s', D.Inv s' → P s' → E e ⟨held, pending, true⟩ s' := by intros; trivial) :
    D.wp c Q E (Program.insertRow e row >>= k) ⟨held, pending, true⟩ s := by
  intro s' hl hi
  have hs' := hP.later hs hl
  exact ⟨fun n hn => ⟨Or.inl rfl, h s' n hi hs' hn⟩, fun t ht hinv => hE t hinv (hP.later hs' ht)⟩

theorem wp_publishInsert {row : ℕ → ω} {k : ℕ → Program σ κ ω ε α}
    (hP : D.Stable c [] P) (hs : P s)
    (h : ∀ s' n, D.Inv s' → P s' → Storage.present s' (Storage.keyOf σ (row n)) = false →
      D.Publishes c [] s' [row n] ∧ D.wp c Q E (k n) .idle (publish s' [row n]))
    (hE : ∀ s', D.Inv s' → P s' → E e .idle s' := by intros; trivial) :
    D.wp c Q E (Program.insertRow e row >>= k) .idle s := by
  intro s' hl hi
  have hs' := hP.later hs hl
  exact ⟨fun n hn => h s' n hi hs' hn, fun t ht hinv => hE t hinv (hP.later hs' ht)⟩

theorem wp_receive {k : ℕ → Program σ κ ω ε α} (hP : D.Stable c ses.held P) (hs : P s)
    (h : ∀ s' n, D.Inv s' → P s' → D.wp c Q E (k n) ses s') :
    D.wp c Q E (Program.receive >>= k) ses s :=
  fun s' hl hi n => h s' n hi (hP.later hs hl)

theorem wp_findOne {f : σ → List β} {k : Option β → Program σ κ ω ε α}
    (hP : D.Stable c ses.held P) (hs : P s)
    (h : ∀ s' o, D.Inv s' → P s' → (∀ b, o = some b → b ∈ f (ses.view s')) →
      (o = none → f (ses.view s') = []) → D.wp c Q E (k o) ses s')
    (hE : ∀ s', D.Inv s' → P s' → E e ses s' := by intros; trivial) :
    D.wp c Q E (Program.findOne e f >>= k) ses s := by
  intro s' hl hi n
  have hs' := hP.later hs hl
  exact wp_query hP hs' (fun t hinv ht => h t _ hinv ht (fun b hb => Program.mem_of_pick hb)
    fun hn => Program.pick_eq_none hn) hE

theorem wp_require {p : Prop} [Decidable p] {k : Unit → Program σ κ ω ε α}
    (hP : D.Stable c ses.held P) (hs : P s) (h : p → D.wp c Q E (k ()) ses s)
    (hE : ∀ s', D.Inv s' → P s' → E e ses s' := by intros; trivial) :
    D.wp c Q E (Program.require p e >>= k) ses s := by
  unfold Program.require
  split_ifs with hp
  · exact h hp
  · exact fun t ht hinv => hE t hinv (hP.later hs ht)

theorem wp_expect {o : Option β} {k : β → Program σ κ ω ε α} (hP : D.Stable c ses.held P)
    (hs : P s) (h : ∀ b, o = some b → D.wp c Q E (k b) ses s)
    (hE : ∀ s', D.Inv s' → P s' → E e ses s' := by intros; trivial) :
    D.wp c Q E (Program.expect o e >>= k) ses s := by
  cases o with
  | some b => exact h b rfl
  | none => exact fun t ht hinv => hE t hinv (hP.later hs ht)

theorem wp_ofExcept {o : Except ε β} {k : β → Program σ κ ω ε α} (hP : D.Stable c ses.held P)
    (hs : P s) (h : ∀ b, o = .ok b → D.wp c Q E (k b) ses s)
    (hE : ∀ e s', D.Inv s' → P s' → E e ses s' := by intros; trivial) :
    D.wp c Q E (Program.ofExcept o >>= k) ses s := by
  cases o with
  | ok b => exact h b rfl
  | error e => exact fun t ht hinv => hE e t hinv (hP.later hs ht)

end Statements

section Outside

variable {R : α → σ → Prop} {P : σ → Prop} {s : σ}

variable (D) in
/-- A program that starts and ends outside a transaction, and returns `a` where `R a` holds. -/
abbrev Outside (c : τ) (R : α → σ → Prop) (p : Program σ κ ω ε α) (s : σ) : Prop :=
  D.wp c (fun a ses s => ses = .idle ∧ R a s) (fun _ ses _ => ses = .idle) p .idle s

theorem stable_const {held : List κ} {p : Prop} : D.Stable c held fun _ => p :=
  fun _ _ hp _ => hp

theorem Outside.pure {a : α} (hR : D.Stable c [] (R a)) (h : R a s) :
    D.Outside c R (.pure a : Program σ κ ω ε α) s :=
  wp_pure (stable_const.and hR) ⟨rfl, h⟩

theorem Outside.throw {e : ε} : D.Outside c R (.throw e : Program σ κ ω ε α) s :=
  wp_throw stable_const rfl

/-- A single writing statement. -/
theorem Outside.write {R : List ω → σ → Prop} {e : ε} {ws : σ → List ω} (hP : D.Stable c [] P)
    (hs : P s) (hR : ∀ us, D.Stable c [] (R us)) (h : ∀ s', D.Inv s' → P s' →
      D.Publishes c [] s' (ws s') ∧ R (ws s') (publish s' (ws s'))) :
    D.Outside c R (Program.writeRows e ws) s := by
  intro s' hl hinv
  obtain ⟨hpub, hr⟩ := h s' hinv (hP.later hs hl)
  exact ⟨hpub, Outside.pure (hR _) hr, Outside.throw⟩

/-- A single message. -/
theorem Outside.send {ws : σ → List ω} {f : σ → α} (hP : D.Stable c [] P) (hs : P s)
    (hR : ∀ a, D.Stable c [] (R a)) (h : ∀ s', D.Inv s' → P s' →
      D.Publishes c [] s' (ws s') ∧ R (f s') (publish s' (ws s'))) :
    D.Outside c R (Program.send ws f : Program σ κ ω ε α) s := by
  intro s' hl hinv
  obtain ⟨hpub, hr⟩ := h s' hinv (hP.later hs hl)
  exact ⟨hpub, Outside.pure (hR _) hr⟩

/-- One program after the other, with what is never taken back. -/
theorem Outside.bind {R' : β → σ → Prop} {p : Program σ κ ω ε α} {k : α → Program σ κ ω ε β}
    (hP : D.Persistent P) (hs : P s) (hp : D.Outside c R p s)
    (hk : ∀ a s', D.Inv s' → P s' → R a s' → D.Outside c R' (k a) s') :
    D.Outside c R' (p >>= k) s := by
  refine wp_bind (wp_mono (fun a ses s' hinv h => ?_) (fun e ses s' _ h => ?_)
    (wp_frame hP hs hp))
  · obtain ⟨⟨rfl, hR⟩, hs'⟩ := h
    exact hk a s' hinv hs' hR
  · obtain ⟨rfl, -⟩ := h
    exact Outside.throw

theorem Outside.map {R' : β → σ → Prop} {p : Program σ κ ω ε α} {f : α → β}
    (hR' : ∀ a, D.Stable c [] (R' (f a))) (hR : ∀ a s', R a s' → R' (f a) s')
    (hp : D.Outside c R p s) : D.Outside c R' (f <$> p) s :=
  Outside.bind .true trivial hp fun a _ _ _ h => Outside.pure (hR' a) (hR a _ h)

/-- `try p catch h`, where nothing is known of what `p` has done but what it cannot undo. -/
theorem Outside.attempt {R' : α → σ → Prop} {p : Program σ κ ω ε α}
    {h : ε → Program σ κ ω ε α} (hP : D.Persistent P) (hs : P s) (hp : D.Outside c R p s)
    (hR' : ∀ a, D.Stable c [] (R' a)) (hret : ∀ a s', D.Inv s' → P s' → R a s' → R' a s')
    (hcatch : ∀ e s', D.Inv s' → P s' → D.Outside c R' (h e) s') :
    D.Outside c R' (p.attempt h) s := by
  refine wp_attempt (wp_mono (fun a ses s' hinv h => ?_) (fun e ses s' hinv h => ?_)
    (wp_frame hP hs hp))
  · obtain ⟨⟨rfl, hR⟩, hs'⟩ := h
    exact Outside.pure (hR' a) (hret a s' hinv hs' hR)
  · obtain ⟨rfl, hs'⟩ := h
    exact hcatch e s' hinv hs'

/-- A loop, with what is never taken back as its invariant. -/
theorem Outside.forEach {f : β → Program σ κ ω ε Unit} (hP : D.Persistent P) (xs : List β)
    (hf : ∀ x ∈ xs, ∀ s', D.Inv s' → P s' → D.Outside c (fun _ _ => True) (f x) s') (hs : P s)
    (hinv : D.Inv s) : D.Outside c (fun _ _ => True) (Program.forEach f xs) s := by
  induction xs generalizing s with
  | nil => exact Outside.pure .true trivial
  | cons x xs ih =>
    exact Outside.bind hP hs (hf x (by simp) s hinv hs) fun _ s' hinv' hs' _ =>
      ih (fun y hy => hf y (by simp [hy])) hs' hinv'

variable (D) in
/-- A program inside a transaction, after whose commit `R a` holds of what it returned. -/
abbrev Inside (c : τ) (R : α → σ → Prop) (e : ε) (p : Program σ κ ω ε α) (ses : Session κ ω)
    (s : σ) : Prop :=
  D.wp c (fun a => D.wp c (fun a ses s => ses = .idle ∧ R a s) (fun _ ses _ => ses = .idle)
    (.commit (.pure a) (.throw e))) (fun _ _ _ => True) p ses s

theorem Outside.transaction {e : ε} {p : Program σ κ ω ε α} (h : D.Inside c R e p .opened s) :
    D.Outside c R (p.transaction e) s :=
  wp_transaction h fun _ _ => rfl

/-- A transaction commits, under what its locks have kept true. -/
theorem Inside.return {e : ε} {a : α} {ses : Session κ ω} (hP : D.Stable c ses.held P) (hs : P s)
    (hR : D.Persistent (R a)) (h : ∀ s', D.Inv s' → P s' →
      D.Publishes c ses.held s' ses.pending ∧ R a (publish s' ses.pending)) :
    D.Inside c R e (.pure a) ses s :=
  wp_return (wp_commit hP hs (stable_const.and hR.stable)
    (fun s' hinv hs' => ⟨(h s' hinv hs').1, rfl, (h s' hinv hs').2⟩) fun _ _ => rfl)

end Outside

end Discipline

section Soundness

variable {τ σ κ ω ε α : Type} [Storage σ κ ω]

/-- What a run is assumed to grant before each step. -/
structure Discipline.Admits [DecidableEq κ] (D : Discipline τ σ κ ω α)
    (sys : System τ σ κ ω ε α) (a : Action) : Prop where
  apart : ∀ {j : ℕ} {t u : Thread τ σ κ ω ε α} {ws}, sys.published a = some (t.call, ws) →
    ws ≠ [] → sys.threads[System.mover a]? = some t → j ≠ System.mover a →
    sys.threads[j]? = some u → D.Apart u.call u.session.held t.call t.session.held
  guarded : ∀ {i n t key k err}, a = .run i n → sys.threads[i]? = some t →
    t.program = .lock key k err → D.Guard t.call (t.session.view sys.store) key

/-- The global invariant: the store's, exclusive row locks, and every call is at a
point of its program from which it keeps to the discipline. -/
structure Discipline.Sound (D : Discipline τ σ κ ω α) (sys : System τ σ κ ω ε α) : Prop where
  inv : D.Inv sys.store
  exclusive : ∀ {i j : ℕ} {t u : Thread τ σ κ ω ε α}, i ≠ j → sys.threads[i]? = some t →
    sys.threads[j]? = some u → t.session.held.Disjoint u.session.held
  pending : ∀ t ∈ sys.threads, ∀ w ∈ t.session.pending, Storage.keyOf σ w ∈ t.session.held
  kept : ∀ t ∈ sys.threads, D.wp t.call (fun a _ => D.Post t.call a) (fun _ _ _ => True)
    t.program t.session sys.store

namespace Discipline

variable {D : Discipline τ σ κ ω α} {sys sys' : System τ σ κ ω ε α}

/-- What one statement gives the call that runs it. -/
structure Moved (D : Discipline τ σ κ ω α) (free : κ → Bool) (t : Thread τ σ κ ω ε α) (s : σ)
    (p : Program σ κ ω ε α) (ses : Session κ ω) (ws : List ω) : Prop where
  publishes : D.Publishes t.call t.session.held s ws
  kept : D.wp t.call (fun a _ => D.Post t.call a) (fun _ _ _ => True) p ses (publish s ws)
  held : ∀ key ∈ ses.held, key ∈ t.session.held ∨ free key = true
  keys : ∀ w ∈ ws, Storage.keyOf σ w ∈ t.session.held ∨ free (Storage.keyOf σ w) = true
  pending : ∀ w ∈ ses.pending, Storage.keyOf σ w ∈ ses.held

/-- A write of a session, whether published or kept to its transaction. -/
theorem Moved.of_write {free : κ → Bool} {t : Thread τ σ κ ω ε α} {s : σ}
    {p : Program σ κ ω ε α} {ws : List ω}
    (hpending : ∀ w ∈ t.session.pending, Storage.keyOf σ w ∈ t.session.held)
    (hfree : ∀ w ∈ ws, free (Storage.keyOf σ w) = true)
    (hpub : D.Publishes t.call t.session.held s (t.session.visible ws))
    (hkept : D.wp t.call (fun a _ => D.Post t.call a) (fun _ _ _ => True) p
      (t.session.stage (σ := σ) ws) (publish s (t.session.visible ws))) :
    Moved D free t s p (t.session.stage (σ := σ) ws) (t.session.visible ws) := by
  refine ⟨hpub, hkept, fun key hkey => ?_, fun w hw => ?_, fun w hw => ?_⟩
  · unfold Session.stage at hkey
    split_ifs at hkey
    · obtain hk | hk := List.mem_append.mp hkey
      · obtain ⟨w, hw, rfl⟩ := List.mem_map.mp hk
        exact Or.inr (hfree w hw)
      · exact Or.inl hk
    · exact Or.inl hkey
  · unfold Session.visible at hw
    split_ifs at hw
    · simp at hw
    · exact Or.inr (hfree w hw)
  · unfold Session.stage at hw ⊢
    split_ifs at hw ⊢
    · obtain hw | hw := List.mem_append.mp hw
      · exact List.mem_append_right _ (hpending w hw)
      · exact List.mem_append_left _ (List.mem_map_of_mem hw)
    · exact hpending w hw

theorem Moved.of_idle {free : κ → Bool} {t : Thread τ σ κ ω ε α} {s : σ}
    {p : Program σ κ ω ε α}
    (hkept : D.wp t.call (fun a _ => D.Post t.call a) (fun _ _ _ => True) p .idle s) :
    Moved D free t s p .idle [] :=
  ⟨Or.inl rfl, hkept, by simp [Session.idle], by simp, by simp [Session.idle]⟩

theorem Moved.of_read {free : κ → Bool} {t : Thread τ σ κ ω ε α} {s : σ}
    {p : Program σ κ ω ε α}
    (hpending : ∀ w ∈ t.session.pending, Storage.keyOf σ w ∈ t.session.held)
    (hkept : D.wp t.call (fun a _ => D.Post t.call a) (fun _ _ _ => True) p t.session s) :
    Moved D free t s p t.session [] :=
  ⟨Or.inl rfl, hkept, fun _ hk => Or.inl hk, by simp, hpending⟩

/-- One statement of a call that keeps to the discipline. -/
theorem moved_of_advance {free : κ → Bool} {n : ℕ} {t : Thread τ σ κ ω ε α} {s : σ}
    {p : Program σ κ ω ε α} {ses : Session κ ω} {ws : List ω} (hinv : D.Inv s)
    (hpending : ∀ w ∈ t.session.pending, Storage.keyOf σ w ∈ t.session.held)
    (hguard : ∀ {key k err}, t.program = .lock key k err → D.Guard t.call (t.session.view s) key)
    (hkept : D.wp t.call (fun a _ => D.Post t.call a) (fun _ _ _ => True) t.program t.session s)
    (h : advance free n s t.session t.program = some (p, ses, ws)) :
    Moved D free t s p ses ws := by
  cases hp : t.program with
  | pure a => simp [hp, advance] at h
  | throw e => simp [hp, advance] at h
  | halt => simp [hp, advance] at h
  | select k err =>
    simp only [hp, advance, Option.some.injEq, Prod.mk.injEq] at h
    obtain ⟨rfl, rfl, rfl⟩ := h
    rw [hp] at hkept
    exact .of_read hpending (hkept s .refl hinv).1
  | lock key k err =>
    simp only [hp, advance, Option.ite_none_right_eq_some, Option.some.injEq, Prod.mk.injEq] at h
    obtain ⟨hfree, rfl, rfl, rfl⟩ := h
    rw [hp] at hkept
    have hk := (hkept s .refl hinv).1 (hguard hp)
    refine ⟨Or.inl rfl, hk, fun key' hkey => ?_, by simp, fun w hw => ?_⟩
    · unfold Session.acquire at hkey
      split_ifs at hkey
      · obtain rfl | hkey := List.mem_cons.mp hkey
        · exact Or.inr hfree
        · exact Or.inl hkey
      · exact Or.inl hkey
    · unfold Session.acquire at hw ⊢
      split_ifs at hw ⊢
      · exact List.mem_cons_of_mem _ (hpending w hw)
      · exact hpending w hw
  | update us k err =>
    simp only [hp, advance, Option.ite_none_right_eq_some, Option.some.injEq, Prod.mk.injEq,
      List.all_eq_true] at h
    obtain ⟨hfree, rfl, rfl, rfl⟩ := h
    rw [hp] at hkept
    obtain ⟨hpub, hk, -⟩ := hkept s .refl hinv
    exact .of_write hpending hfree hpub hk
  | insert row k err =>
    simp only [hp, advance, Option.ite_none_right_eq_some, Option.some.injEq, Prod.mk.injEq,
      Bool.and_eq_true, Bool.not_eq_true'] at h
    obtain ⟨⟨hfree, hfresh⟩, rfl, rfl, rfl⟩ := h
    rw [hp] at hkept
    obtain ⟨hpub, hk⟩ := (hkept s .refl hinv).1 n hfresh
    exact .of_write hpending (by simpa using hfree) hpub hk
  | choose k =>
    simp only [hp, advance, Option.some.injEq, Prod.mk.injEq] at h
    obtain ⟨rfl, rfl, rfl⟩ := h
    rw [hp] at hkept
    exact .of_read hpending (hkept s .refl hinv n)
  | emit ws k =>
    simp only [hp, advance, Option.ite_none_right_eq_some, Option.some.injEq, Prod.mk.injEq,
      List.all_eq_true] at h
    obtain ⟨hfree, rfl, rfl, rfl⟩ := h
    rw [hp] at hkept
    obtain ⟨hpub, hk⟩ := hkept s .refl hinv
    exact ⟨hpub, hk, fun _ hkey => Or.inl hkey, fun w hw => Or.inr (hfree w hw), hpending⟩
  | start k =>
    simp only [hp, advance, Option.some.injEq, Prod.mk.injEq] at h
    obtain ⟨rfl, rfl, rfl⟩ := h
    rw [hp] at hkept
    exact ⟨Or.inl rfl, hkept s .refl hinv, by simp [Session.opened], by simp,
      by simp [Session.opened]⟩
  | commit k err =>
    simp only [hp, advance, Option.some.injEq, Prod.mk.injEq] at h
    obtain ⟨rfl, rfl, rfl⟩ := h
    rw [hp] at hkept
    obtain ⟨hpub, hk, -⟩ := hkept s .refl hinv
    exact ⟨hpub, hk, by simp [Session.idle], fun w hw => Or.inl (hpending w hw),
      by simp [Session.idle]⟩
  | rollback k =>
    simp only [hp, advance, Option.some.injEq, Prod.mk.injEq] at h
    obtain ⟨rfl, rfl, rfl⟩ := h
    rw [hp] at hkept
    exact .of_idle (hkept s .refl hinv)

/-- A failing statement of a call that keeps to the discipline. -/
theorem moved_of_failing {free : κ → Bool} {t : Thread τ σ κ ω ε α} {s : σ}
    {p : Program σ κ ω ε α} {ses : Session κ ω} {ws : List ω} (hinv : D.Inv s)
    (hpending : ∀ w ∈ t.session.pending, Storage.keyOf σ w ∈ t.session.held)
    (hkept : D.wp t.call (fun a _ => D.Post t.call a) (fun _ _ _ => True) t.program t.session s)
    (h : failing t.session t.program = some (p, ses, ws)) : Moved D free t s p ses ws := by
  cases hp : t.program <;> rw [hp] at hkept <;>
    simp only [hp, failing, Option.some.injEq, Prod.mk.injEq, reduceCtorEq] at h
  case select => obtain ⟨rfl, rfl, rfl⟩ := h; exact .of_read hpending (hkept s .refl hinv).2
  case lock => obtain ⟨rfl, rfl, rfl⟩ := h; exact .of_read hpending (hkept s .refl hinv).2
  case update => obtain ⟨rfl, rfl, rfl⟩ := h; exact .of_read hpending (hkept s .refl hinv).2.2
  case insert => obtain ⟨rfl, rfl, rfl⟩ := h; exact .of_read hpending (hkept s .refl hinv).2
  case commit => obtain ⟨rfl, rfl, rfl⟩ := h; exact .of_idle (hkept s .refl hinv).2.2

variable [DecidableEq κ]

/-- Any step of a call, in a system that keeps to the discipline. -/
theorem Sound.moved (hsound : D.Sound sys) {a : Action} (hmeets : D.Admits sys a)
    {t : Thread τ σ κ ω ε α} {p : Program σ κ ω ε α} {ses : Session κ ω} {ws : List ω}
    (ht : sys.threads[System.mover a]? = some t) (hmove : sys.move t a = some (p, ses, ws)) :
    Moved D (sys.free (System.mover a)) t sys.store p ses ws := by
  have hmem : t ∈ sys.threads := List.mem_of_getElem? ht
  cases a with
  | run i n =>
    exact moved_of_advance hsound.inv (hsound.pending t hmem) (fun hp => hmeets.guarded rfl ht hp)
      (hsound.kept t hmem) hmove
  | fail i => exact moved_of_failing hsound.inv (hsound.pending t hmem) (hsound.kept t hmem) hmove
  | crash i =>
    simp only [System.move, Option.some.injEq, Prod.mk.injEq] at hmove
    obtain ⟨rfl, rfl, rfl⟩ := hmove
    exact .of_idle trivial

/-- What a step publishes is legal for the call that takes it. -/
theorem Sound.publishes (hsound : D.Sound sys) {a : Action} (hmeets : D.Admits sys a) {c : τ}
    {ws : List ω} (h : sys.published a = some (c, ws)) :
    ∃ held, D.Publishes c held sys.store ws := by
  obtain ⟨t, p, ses, ht, rfl, hmove⟩ := System.published_eq_some.mp h
  exact ⟨t.session.held, (hsound.moved hmeets ht hmove).publishes⟩

omit [Storage σ κ ω] in
theorem free_eq_true {i j : ℕ} {u : Thread τ σ κ ω ε α} {key : κ} (hij : j ≠ i)
    (hu : sys.threads[j]? = some u) (h : sys.free i key = true) : key ∉ u.session.held := by
  have hmem : u ∈ sys.threads.eraseIdx i := List.mem_eraseIdx_iff_getElem?.mpr ⟨j, hij, hu⟩
  simpa using List.all_eq_true.mp h u hmem

private theorem getElem?_set_cases {γ : Type} {l : List γ} {i j : ℕ} {x u : γ}
    (h : (l.set i x)[j]? = some u) : j = i ∧ u = x ∨ j ≠ i ∧ l[j]? = some u := by
  rw [List.getElem?_set] at h
  split_ifs at h with hij hlt
  · exact Or.inl ⟨hij.symm, (Option.some.inj h).symm⟩
  · exact Or.inr ⟨fun hji => hij hji.symm, h⟩

/-- Every step of the system keeps the global invariant. -/
theorem Sound.step (hsound : D.Sound sys) {a : Action} (hmeets : D.Admits sys a)
    (h : sys.step a = some sys') : D.Sound sys' := by
  obtain ⟨t, p, ses, ws, ht, hmove, rfl⟩ := System.step_eq_some.mp h
  have hm := hsound.moved hmeets ht hmove
  have hpub := System.published_eq_some.mpr ⟨t, p, ses, ht, rfl, hmove⟩
  have hapart : ∀ {j : ℕ} {u : Thread τ σ κ ω ε α}, ws ≠ [] → j ≠ System.mover a →
      sys.threads[j]? = some u → D.Apart u.call u.session.held t.call t.session.held :=
    fun hne hj hu => hmeets.apart hpub hne ht hj hu
  generalize System.mover a = i at ht hm hapart
  have hinv : D.Inv (publish sys.store ws) := by
    obtain rfl | hlegal := hm.publishes
    · exact hsound.inv
    · exact D.inv_legal hsound.inv hlegal
  have hother : ∀ {j : ℕ} {u : Thread τ σ κ ω ε α}, j ≠ i → sys.threads[j]? = some u →
      u.session.held.Disjoint ses.held := by
    intro j u hji hu key hkey hkey'
    obtain hk | hk := hm.held key hkey'
    · exact hsound.exclusive hji hu ht hkey hk
    · exact free_eq_true hji hu hk hkey
  have hlater : ∀ {j : ℕ} {u : Thread τ σ κ ω ε α}, j ≠ i → sys.threads[j]? = some u →
      D.Later u.call u.session.held sys.store (publish sys.store ws) := by
    intro j u hji hu
    by_cases hne : ws = []
    · subst hne
      exact .refl
    · have hlegal := hm.publishes.resolve_left hne
      refine .single ⟨t.call, t.session.held, ws, hlegal, hsound.exclusive hji hu ht,
        fun w hw hk => ?_, hapart hne hji hu, hsound.inv, rfl⟩
      obtain hheld | hfree := hm.keys w hw
      · exact hsound.exclusive hji hu ht hk hheld
      · exact free_eq_true hji hu hfree hk
  refine ⟨hinv, fun {j k u v} hjk hu hv => ?_, fun u hu => ?_, fun u hu => ?_⟩
  · obtain ⟨rfl, rfl⟩ | ⟨hj, hu'⟩ := getElem?_set_cases hu
    · obtain ⟨rfl, -⟩ | ⟨hk, hv'⟩ := getElem?_set_cases hv
      · exact absurd rfl hjk
      · exact fun key hkey hkey' => hother hk hv' hkey' hkey
    · obtain ⟨rfl, rfl⟩ | ⟨hk, hv'⟩ := getElem?_set_cases hv
      · exact hother hj hu'
      · exact hsound.exclusive hjk hu' hv'
  · obtain ⟨j, hu⟩ := List.mem_iff_getElem?.mp hu
    obtain ⟨-, rfl⟩ | ⟨-, hu'⟩ := getElem?_set_cases hu
    · exact hm.pending
    · exact hsound.pending u (List.mem_of_getElem? hu')
  · obtain ⟨j, hu⟩ := List.mem_iff_getElem?.mp hu
    obtain ⟨-, rfl⟩ | ⟨hj, hu'⟩ := getElem?_set_cases hu
    · exact hm.kept
    · exact wp_later (hlater hj hu') (hsound.kept u (List.mem_of_getElem? hu'))

omit [DecidableEq κ] in
/-- Calls that have not started yet and keep to the discipline from any store. -/
theorem Sound.initial {s : σ} {calls : List (Thread τ σ κ ω ε α)} (hinv : D.Inv s)
    (hidle : ∀ t ∈ calls, t.session = .idle)
    (hkept : ∀ t ∈ calls, D.wp t.call (fun a _ => D.Post t.call a) (fun _ _ _ => True)
      t.program .idle s) : D.Sound ⟨s, calls⟩ := by
  refine ⟨hinv, fun {i j t u} _ ht _ => ?_, fun t ht => ?_, fun t ht => ?_⟩
  · rw [hidle t (List.mem_of_getElem? ht)]
    simp [Session.idle]
  · rw [hidle t ht]
    simp [Session.idle]
  · rw [hidle t ht]
    exact hkept t ht

/-- Every state of a run that the assumptions admit satisfies the global invariant. -/
theorem Sound.run {ok : System τ σ κ ω ε α → Action → Prop}
    (hok : ∀ sys a, ok sys a → D.Admits sys a) (h : System.Run ok sys sys')
    (hsound : D.Sound sys) : D.Sound sys' :=
  h.invariant (fun sys a _ hs ha hstep => hs.step (hok sys a ha) hstep) hsound

omit [DecidableEq κ] in
/-- What a call has returned is right about the store, from then on. -/
theorem Sound.post (hsound : D.Sound sys) {t : Thread τ σ κ ω ε α} (ht : t ∈ sys.threads) {a : α}
    (ha : t.program.result = some a) : D.Post t.call a sys.store := by
  have hkept := hsound.kept t ht
  rw [Program.result_eq_some.mp ha] at hkept
  exact hkept sys.store .refl hsound.inv

end Discipline

end Soundness

end NexaStays.RelyGuarantee
