import NexaStays.Phases
import Mathlib.Logic.Relation

/-!
# Calls that run one after the other

A call that runs alone knows the whole store: nothing changes it but its own statements.
`alone law` is the protocol of such a call, where `law` relates the store before a statement
that makes writes visible to the store after it. A run of the call, in which statements may
fail and which may stop anywhere, is then a chain of lawful changes. In a `Sequence` each
call runs from where the one before it ended or was stopped.
-/
namespace NexaStays.Sequences

open NexaStays.Transactions NexaStays.Phases NexaStays.Phases.Protocol

variable {τ σ κ ω ε α β ξ : Type} [Storage σ κ ω]

/-- The protocol of a call that runs alone: its phase is the store. -/
def alone (law : σ → σ → Prop) : Protocol σ κ ω ε α (Option σ) where
  At _ _ := True
  Knows g s := ∀ t, g = some t → t = s
  Step _ s ws g' := law s (publish s ws) ∧ g' = some (publish s ws)
  Fail _ _ := False
  dead := none

/-- From `s`, the program makes lawful changes, and where it returns `b` outside of a
transaction and leaves the store `t`, `P b t` holds. -/
def Returns (law : σ → σ → Prop) (P : β → σ → Prop) (p : Program σ κ ω ε β) (s : σ) : Prop :=
  ∀ (α : Type) (ctx : Program σ κ ω ε β → Program σ κ ω ε α),
    (alone law).Refines ctx (fun r ses g => ∀ b, r = .ok b → ses = .idle ∧
      ∃ t, g = some t ∧ P b t) p .idle (some s)

/-- In a transaction that has written `ws`, the program makes nothing visible, and `P` holds
of what it returns and of all that is written then. -/
def Stages (P : β → List ω → Prop) (p : Program σ κ ω ε β) (ws : List ω) (s : σ) : Prop :=
  ∀ (α : Type) (ctx : Program σ κ ω ε β → Program σ κ ω ε α) (law : σ → σ → Prop)
    (ses : Session κ ω), ses.active = true → ses.pending = ws →
    (alone law).Refines ctx (fun r ses g => g = some s ∧
      ∀ b, r = .ok b → ses.active = true ∧ P b ses.pending) p ses (some s)

section Rules

variable {law : σ → σ → Prop} {P : β → σ → Prop} {P' : ξ → σ → Prop} {s : σ} {e : ε}

theorem Returns.pure {b : β} (h : P b s) : Returns law P (.pure b : Program σ κ ω ε β) s := by
  intro α ctx b' hb
  obtain rfl := Except.ok.inj hb
  exact ⟨rfl, s, rfl, h⟩

theorem Returns.throw : Returns law P (.throw e : Program σ κ ω ε β) s := by
  intro α ctx b hb
  cases hb

theorem Returns.mono {Q : β → σ → Prop} {p : Program σ κ ω ε β} (h : Returns law P p s)
    (hPQ : ∀ b t, P b t → Q b t) : Returns law Q p s := by
  intro α ctx
  refine (h α ctx).mono fun r ses g hr b hb => ?_
  obtain ⟨hses, t, hg, hP⟩ := hr b hb
  exact ⟨hses, t, hg, hPQ b t hP⟩

theorem Returns.bind {p : Program σ κ ω ε β} {k : β → Program σ κ ω ε ξ}
    (h : Returns law P p s) (hk : ∀ b t, P b t → Returns law P' (k b) t) :
    Returns law P' (p >>= k) s := by
  intro α ctx
  refine Refines.bind (h α _) (fun b ses g hr => ?_) fun e ses g _ b hb => nomatch hb
  obtain ⟨rfl, t, rfl, hP⟩ := hr b rfl
  exact hk b t hP α ctx

theorem Returns.query {f : σ → β} (h : P (f s) s) :
    Returns law P (Program.query e f : Program σ κ ω ε β) s := by
  intro α ctx
  refine ⟨trivial, fun t ht => .stay fun b hb => ?_, .stay fun b hb => nomatch hb⟩
  obtain rfl := ht s rfl
  obtain rfl := Except.ok.inj hb
  exact ⟨rfl, s, rfl, h⟩

theorem Returns.findOne {f : σ → List β} {P : Option β → σ → Prop}
    (h : ∀ n, P (Program.pick n (f s)) s) :
    Returns law P (Program.findOne e f : Program σ κ ω ε (Option β)) s := by
  intro α ctx
  refine ⟨trivial, fun t n _ => .stay ?_⟩
  exact (Returns.query (f := fun s => Program.pick n (f s)) (h n) : Returns law P _ s) α fun _ =>
    ctx (Program.findOne e f)

theorem Returns.receive {P : ℕ → σ → Prop} (h : ∀ n, P n s) :
    Returns law P (Program.receive : Program σ κ ω ε ℕ) s := by
  intro α ctx
  refine ⟨trivial, fun t n _ => .stay fun b hb => ?_⟩
  obtain rfl := Except.ok.inj hb
  exact ⟨rfl, s, rfl, h n⟩

theorem Returns.expect {o : Option β} (h : ∀ b, o = some b → P b s) :
    Returns law P (Program.expect o e : Program σ κ ω ε β) s := by
  cases o with
  | none => exact Returns.throw
  | some b => exact Returns.pure (h b rfl)

theorem Returns.require {p : Prop} [Decidable p] {P : Unit → σ → Prop} (h : p → P () s) :
    Returns law P (Program.require p e : Program σ κ ω ε Unit) s := by
  by_cases hp : p
  · rw [Program.require, if_pos hp]
    exact Returns.pure (h hp)
  · rw [Program.require, if_neg hp]
    exact Returns.throw

theorem Returns.ofExcept {x : Except ε β} (h : ∀ b, x = .ok b → P b s) :
    Returns law P (Program.ofExcept x : Program σ κ ω ε β) s := by
  cases x with
  | ok b => exact Returns.pure (h b rfl)
  | error e => exact Returns.throw

/-- A write that every other call sees at once. -/
theorem Returns.writeRows {ws : σ → List ω} {P : List ω → σ → Prop}
    (hlaw : law s (publish s (ws s))) (h : P (ws s) (publish s (ws s))) :
    Returns law P (Program.writeRows e ws : Program σ κ ω ε (List ω)) s := by
  intro α ctx
  refine ⟨trivial, fun t ht => ?_, .stay fun b hb => nomatch hb⟩
  obtain rfl := ht s rfl
  refine .step ⟨hlaw, rfl⟩ fun b hb => ?_
  obtain rfl := Except.ok.inj hb
  exact ⟨rfl, _, rfl, h⟩

theorem Returns.insertRow {row : ℕ → ω} {P : ℕ → σ → Prop}
    (h : ∀ n, Storage.present s (Storage.keyOf σ (row n)) = false →
      law s (publish s [row n]) ∧ P n (publish s [row n])) :
    Returns law P (Program.insertRow e row : Program σ κ ω ε ℕ) s := by
  intro α ctx
  refine ⟨trivial, fun t n ht hfresh => ?_, .stay fun b hb => nomatch hb⟩
  obtain rfl := ht s rfl
  obtain ⟨hlaw, hP⟩ := h n hfresh
  refine .step ⟨hlaw, rfl⟩ fun b hb => ?_
  obtain rfl := Except.ok.inj hb
  exact ⟨rfl, _, rfl, hP⟩

/-- A loop that leaves the store as it is. -/
theorem Returns.forEach {f : β → Program σ κ ω ε Unit} {xs : List β} {P : Unit → σ → Prop}
    (h : ∀ x ∈ xs, Returns law (fun _ t => t = s) (f x) s) (hP : P () s) :
    Returns law P (Program.forEach f xs) s := by
  induction xs with
  | nil => exact Returns.pure hP
  | cons x xs ih =>
    refine (h x List.mem_cons_self).bind fun _ t ht => ?_
    obtain rfl := ht
    exact ih fun y hy => h y (List.mem_cons_of_mem x hy)

/-- A failure is thrown on as another one. -/
theorem Returns.attempt {p : Program σ κ ω ε β} {f : ε → ε} (h : Returns law P p s) :
    Returns law P (Program.attempt p fun e => .throw (f e)) s := by
  intro α ctx
  refine Refines.handle ((h α _).mono fun r ses g hr => ?_)
  cases r with
  | ok b => exact hr
  | error e => exact fun b hb => nomatch hb

/-- A transaction changes the store where it commits. -/
theorem Returns.transaction {p : Program σ κ ω ε β}
    (h : Stages (fun b ws => law s (publish s ws) ∧ P b (publish s ws)) p [] s) :
    Returns law P (Program.transaction e p) s := by
  intro α ctx
  refine ⟨trivial, fun t _ => .stay (Refines.handle ((h α _ law .opened rfl rfl).mono
    fun r ses g hr => ?_))⟩
  obtain ⟨rfl, hr⟩ := hr
  cases r with
  | ok b =>
    obtain ⟨-, hlaw, hP⟩ := hr b rfl
    refine ⟨trivial, fun t ht => ?_, .stay fun b hb => nomatch hb⟩
    obtain rfl := ht s rfl
    refine .step ⟨hlaw, rfl⟩ fun b' hb => ?_
    obtain rfl := Except.ok.inj hb
    exact ⟨rfl, _, rfl, hP⟩
  | error e' => exact ⟨trivial, fun t _ => .stay fun b hb => nomatch hb⟩

variable {ws : List ω} {S : β → List ω → Prop} {S' : ξ → List ω → Prop}

theorem Stages.pure {b : β} (h : S b ws) : Stages S (.pure b : Program σ κ ω ε β) ws s := by
  intro α ctx law ses hactive hpending
  refine ⟨rfl, fun b' hb => ?_⟩
  obtain rfl := Except.ok.inj hb
  exact ⟨hactive, hpending ▸ h⟩

theorem Stages.mono {T : β → List ω → Prop} {p : Program σ κ ω ε β} (h : Stages S p ws s)
    (hST : ∀ b ws', S b ws' → T b ws') : Stages T p ws s := by
  intro α ctx law ses hactive hpending
  refine (h α ctx law ses hactive hpending).mono fun r ses g hr => ⟨hr.1, fun b hb => ?_⟩
  obtain ⟨hactive, hS⟩ := hr.2 b hb
  exact ⟨hactive, hST b _ hS⟩

theorem Stages.bind {p : Program σ κ ω ε β} {k : β → Program σ κ ω ε ξ}
    (h : Stages S p ws s) (hk : ∀ b ws', S b ws' → Stages S' (k b) ws' s) :
    Stages S' (p >>= k) ws s := by
  intro α ctx law ses hactive hpending
  refine Refines.bind (h α _ law ses hactive hpending) (fun b ses g hr => ?_) fun e ses g hr => ?_
  · obtain ⟨rfl, hr⟩ := hr
    obtain ⟨hactive, hS⟩ := hr b rfl
    exact hk b _ hS α ctx law ses hactive rfl
  · exact ⟨hr.1, fun b hb => nomatch hb⟩

theorem Stages.receive {S : ℕ → List ω → Prop} (h : ∀ n, S n ws) :
    Stages S (Program.receive : Program σ κ ω ε ℕ) ws s := by
  intro α ctx law ses hactive hpending
  refine ⟨trivial, fun t n _ => .stay ⟨rfl, fun b hb => ?_⟩⟩
  obtain rfl := Except.ok.inj hb
  exact ⟨hactive, hpending ▸ h n⟩

theorem Stages.throw : Stages S (.throw e : Program σ κ ω ε β) ws s :=
  fun _ _ _ _ _ _ => ⟨rfl, fun _ hb => nomatch hb⟩

theorem Stages.query {f : σ → β} (h : S (f (publish s ws)) ws) :
    Stages S (Program.query e f : Program σ κ ω ε β) ws s := by
  intro α ctx law ses hactive hpending
  subst hpending
  refine ⟨trivial, fun t ht => .stay ⟨rfl, fun b hb => ?_⟩, .stay ⟨rfl, fun b hb => nomatch hb⟩⟩
  obtain rfl := ht s rfl
  obtain rfl := Except.ok.inj hb
  exact ⟨hactive, h⟩

theorem Stages.findOne {f : σ → List β} {S : Option β → List ω → Prop}
    (h : ∀ n, S (Program.pick n (f (publish s ws))) ws) :
    Stages S (Program.findOne e f : Program σ κ ω ε (Option β)) ws s := by
  intro α ctx law ses hactive hpending
  refine ⟨trivial, fun t n _ => .stay ?_⟩
  exact (Stages.query (f := fun s => Program.pick n (f s)) (h n) : Stages S _ ws s) α
    (fun _ => ctx (Program.findOne e f)) law ses hactive hpending

theorem Stages.lockRow {key : κ} {f : σ → β} (h : S (f (publish s ws)) ws) :
    Stages S (Program.lockRow e key f : Program σ κ ω ε β) ws s := by
  intro α ctx law ses hactive hpending
  subst hpending
  refine ⟨trivial, fun t ht => .stay ⟨rfl, fun b hb => ?_⟩, .stay ⟨rfl, fun b hb => by cases hb⟩⟩
  obtain rfl := ht s rfl
  obtain rfl := Except.ok.inj hb
  rw [Session.acquire]
  split <;> exact ⟨hactive, h⟩

theorem Stages.expect {o : Option β} (h : ∀ b, o = some b → S b ws) :
    Stages S (Program.expect o e : Program σ κ ω ε β) ws s := by
  cases o with
  | none => exact Stages.throw
  | some b => exact Stages.pure (h b rfl)

theorem Stages.require {p : Prop} [Decidable p] {S : Unit → List ω → Prop} (h : p → S () ws) :
    Stages S (Program.require p e : Program σ κ ω ε Unit) ws s := by
  by_cases hp : p
  · rw [Program.require, if_pos hp]
    exact Stages.pure (h hp)
  · rw [Program.require, if_neg hp]
    exact Stages.throw

theorem Stages.ofExcept {x : Except ε β} (h : ∀ b, x = .ok b → S b ws) :
    Stages S (Program.ofExcept x : Program σ κ ω ε β) ws s := by
  cases x with
  | ok b => exact Stages.pure (h b rfl)
  | error e => exact Stages.throw

theorem Stages.writeRows {rows : σ → List ω} {S : List ω → List ω → Prop}
    (h : S (rows (publish s ws)) (ws ++ rows (publish s ws))) :
    Stages S (Program.writeRows e rows : Program σ κ ω ε (List ω)) ws s := by
  intro α ctx law ses hactive hpending
  subst hpending
  refine ⟨trivial, fun t ht => ?_, .stay ⟨rfl, fun b hb => nomatch hb⟩⟩
  obtain rfl := ht s rfl
  rw [Session.visible, if_pos hactive, Session.stage, if_pos hactive]
  refine .stay ⟨rfl, fun b hb => ?_⟩
  obtain rfl := Except.ok.inj hb
  exact ⟨hactive, h⟩

theorem Stages.insertRow {row : ℕ → ω} {S : ℕ → List ω → Prop}
    (h : ∀ n, Storage.present (publish s ws) (Storage.keyOf σ (row n)) = false →
      S n (ws ++ [row n])) :
    Stages S (Program.insertRow e row : Program σ κ ω ε ℕ) ws s := by
  intro α ctx law ses hactive hpending
  subst hpending
  refine ⟨trivial, fun t n ht hfresh => ?_, .stay ⟨rfl, fun b hb => nomatch hb⟩⟩
  obtain rfl := ht s rfl
  rw [Session.visible, if_pos hactive, Session.stage, if_pos hactive]
  refine .stay ⟨rfl, fun b hb => ?_⟩
  obtain rfl := Except.ok.inj hb
  exact ⟨hactive, h n hfresh⟩

/-- A loop: `I` holds of the members that are done and of what is written then. -/
theorem Stages.forEach {f : β → Program σ κ ω ε Unit} {xs : List β}
    (I : List β → List ω → Prop)
    (hstep : ∀ done x ws', I done ws' → Stages (fun _ => I (done ++ [x])) (f x) ws' s)
    (h : I [] ws) : Stages (fun _ => I xs) (Program.forEach f xs) ws s := by
  have hloop : ∀ rest done ws', I done ws' →
      Stages (fun _ => I (done ++ rest)) (Program.forEach f rest) ws' s := by
    intro rest
    induction rest with
    | nil =>
      intro done ws' hdone
      exact Stages.pure (by rwa [List.append_nil])
    | cons x rest ih =>
      intro done ws' hdone
      refine (hstep done x ws' hdone).bind fun _ ws'' hnext => ?_
      have hrest := ih (done ++ [x]) ws'' hnext
      rwa [List.append_assoc] at hrest
  exact hloop xs [] ws h

end Rules

section Runs

variable [DecidableEq κ] {law : σ → σ → Prop} {program : τ → Program σ κ ω ε α}

/-- The protocol `alone law`, whose phase tells also with what a call may end. -/
def ending (law : σ → σ → Prop) (E : α → σ → Prop) : Protocol σ κ ω ε α (Option σ) :=
  { (alone law : Protocol σ κ ω ε α (Option σ)) with
    At := fun g p => ∀ a, p = .pure a → ∃ t, g = some t ∧ E a t }

omit [DecidableEq κ] in
/-- Before its end a program does not see the difference. -/
theorem refines_ending {E : α → σ → Prop} {Q : Except ε α → Session κ ω → Option σ → Prop}
    {p : Program σ κ ω ε α} {ses : Session κ ω} {g : Option σ}
    (h : (alone law).Refines id Q p ses g) : (ending law E).Refines id Q p ses g := by
  have hgoes : ∀ {g s ws} {R R' : Option σ → Prop}, (∀ g', R g' → R' g') →
      (alone law : Protocol σ κ ω ε α (Option σ)).Goes g s ws R →
      (ending law E : Protocol σ κ ω ε α (Option σ)).Goes g s ws R' :=
    fun hR h => h.imp (fun h => ⟨h.1, hR _ h.2⟩) fun ⟨g', hs, h⟩ => ⟨g', hs, hR _ h⟩
  have hfails : ∀ {g} {R R' : Option σ → Prop}, (∀ g', R g' → R' g') →
      (alone law : Protocol σ κ ω ε α (Option σ)).Fails g R →
      (ending law E : Protocol σ κ ω ε α (Option σ)).Fails g R' :=
    fun hR h => h.imp (hR _) fun ⟨g', hs, h⟩ => ⟨g', hs, hR _ h⟩
  induction p generalizing ses g with
  | pure | throw | halt => exact h
  | select k err ihk iherr | lock key k err ihk iherr | update ws k err ihk iherr =>
    exact ⟨fun a ha => (nomatch ha), fun s hs => hgoes (fun _ h => ihk _ h) (h.2.1 s hs),
      hfails (fun _ h => iherr h) h.2.2⟩
  | insert row k err ihk iherr =>
    exact ⟨fun a ha => (nomatch ha), fun s n hs hn => hgoes (fun _ h => ihk _ h) (h.2.1 s n hs hn),
      hfails (fun _ h => iherr h) h.2.2⟩
  | choose k ih =>
    exact ⟨fun a ha => (nomatch ha), fun s n hs => hgoes (fun _ h => ih _ h) (h.2 s n hs)⟩
  | emit ws k ih =>
    exact ⟨fun a ha => (nomatch ha), fun s hs => hgoes (fun _ h => ih _ h) (h.2 s hs)⟩
  | start k ih | rollback k ih =>
    exact ⟨fun a ha => (nomatch ha), fun s hs => hgoes (fun _ h => ih h) (h.2 s hs)⟩
  | commit k err ihk iherr =>
    exact ⟨fun a ha => (nomatch ha), fun s hs => hgoes (fun _ h => ihk h) (h.2.1 s hs),
      hfails (fun _ h => iherr h) h.2.2⟩

/-- A run of a call that is alone is a chain of lawful changes, and where the call has
returned, `P` holds of what it returned and of the store. -/
theorem chain_and_return {c : τ} {s : σ} {P : α → σ → Prop} {sys : System τ σ κ ω ε α}
    (h : Returns law P (program c) s)
    (hrun : System.Run (fun _ _ => True) (launch program s [c]) sys) :
    Relation.ReflTransGen law s sys.store ∧
      ∀ t ∈ sys.threads, ∀ a, t.program = .pure a → P a sys.store := by
  have hkeeps : (ending law P : Protocol σ κ ω ε α (Option σ)).Keeps (τ := τ) (fun _ _ => True)
      fun gs t => gs.length = 1 ∧ (∀ g ∈ gs, ∀ u, g = some u → u = t) ∧
        Relation.ReflTransGen law s t := by
    refine ⟨fun hJ hg => hJ.2.1 _ hg, fun _ hJ hm hs => ?_, fun _ _ _ hf => hf.elim,
      fun _ hJ hm => ?_⟩
    · obtain ⟨hlength, -, hchain⟩ := hJ
      refine ⟨by simpa using hlength, fun x hx u hu => ?_, hchain.tail hs.1⟩
      obtain rfl | ⟨j, hj, hx⟩ := mem_set_cases hx
      · rw [hs.2] at hu
        exact (Option.some.inj hu).symm
      · have hj' := (List.getElem?_eq_some_iff.mp hx).1
        have hi' := (List.getElem?_eq_some_iff.mp hm.phase).1
        simp only [System.mover] at hi'
        omega
    · obtain ⟨hlength, hknows, hchain⟩ := hJ
      refine ⟨by simpa using hlength, fun x hx u hu => ?_, hchain⟩
      obtain rfl | ⟨j, -, hx⟩ := mem_set_cases hx
      · cases hu
      · exact hknows x (List.mem_of_getElem? hx) u hu
  have hstart : (ending law P : Protocol σ κ ω ε α (Option σ)).Consistent
      (launch program s [c]) [some s] := by
    refine .cons ((refines_ending (h α id)).mono fun r ses g hr => ?_) .nil
    cases r with
    | ok a =>
      intro a' ha
      obtain rfl := Program.pure.inj ha
      exact (hr a rfl).2
    | error e => exact fun a ha => nomatch ha
  obtain ⟨gs, hgs, -, hknows, hchain⟩ := hkeeps.run hrun hstart
    ⟨rfl, by simp [launch], Relation.ReflTransGen.refl⟩
  refine ⟨hchain, fun t ht a ha => ?_⟩
  obtain ⟨i, hi⟩ := List.mem_iff_getElem?.mp ht
  obtain ⟨g, hg, hfollows⟩ := hgs.phase hi
  obtain hat | ⟨hhalt, -⟩ := hfollows.at
  · obtain ⟨u, rfl, hP⟩ := hat a ha
    rwa [hknows _ (List.mem_of_getElem? hg) u rfl] at hP
  · rw [ha] at hhalt
    cases hhalt

/-- A run of a call that is alone is a chain of lawful changes. -/
theorem chain_of_run {c : τ} {s : σ} {sys : System τ σ κ ω ε α}
    (h : Returns law (fun _ _ => True) (program c) s)
    (hrun : System.Run (fun _ _ => True) (launch program s [c]) sys) :
    Relation.ReflTransGen law s sys.store :=
  (chain_and_return h hrun).1

/-- A call of a sequence, with the store from which it ran and the one it left. -/
structure Turn (τ σ : Type) where
  call : τ
  before : σ
  after : σ

/-- Calls that run one after the other, each to its end or until it is stopped. -/
inductive Sequence (program : τ → Program σ κ ω ε α) (s : σ) : List (Turn τ σ) → σ → Prop where
  | nil : Sequence program s [] s
  | snoc {turns t c sys} (turns_run : Sequence program s turns t)
    (run : System.Run (fun _ _ => True) (launch program t [c]) sys) :
    Sequence program s (turns ++ [⟨c, t, sys.store⟩]) sys.store

/-- What every turn keeps holds at the end of a sequence. -/
theorem Sequence.invariant {s t : σ} {turns : List (Turn τ σ)} {P : σ → Prop}
    {ok : Turn τ σ → Prop} (h : Sequence program s turns t) (hs : P s)
    (hok : ∀ turn ∈ turns, ok turn)
    (hstep : ∀ turn, ok turn → (∃ sys, System.Run (fun _ _ => True)
      (launch program turn.before [turn.call]) sys ∧ sys.store = turn.after) →
      P turn.before → P turn.after) : P t := by
  induction h with
  | nil => exact hs
  | snoc turns_run run ih =>
    have hbefore := ih fun turn hturn => hok turn (List.mem_append_left _ hturn)
    exact hstep _ (hok _ (List.mem_append_right _ (List.mem_singleton.mpr rfl)))
      ⟨_, run, rfl⟩ hbefore

/-- The answer can be any of the rows. -/
theorem exists_pick {rows : List β} {b : β} (h : b ∈ rows) :
    ∃ n, Program.pick n rows = some b := by
  obtain ⟨n, hn, hb⟩ := List.mem_iff_getElem.mp h
  refine ⟨n, ?_⟩
  rw [Program.pick, Nat.mod_eq_of_lt hn, List.getElem?_eq_getElem hn, hb]

/-- A call that is alone, outside of a transaction, with the rest of its program. -/
def solo (c : τ) (s : σ) (p : Program σ κ ω ε α) : System τ σ κ ω ε α := ⟨s, [⟨c, .idle, p⟩]⟩

section Solo

variable {c : τ} {s : σ} {e : ε}

theorem solo_query (f : σ → β) (k : β → Program σ κ ω ε α) :
    System.Run (fun _ _ => True) (solo c s (Program.query e f >>= k)) (solo c s (k (f s))) := by
  refine .tail (a := .run 0 0) (.refl _) trivial ?_
  rfl

theorem solo_findOne (n : ℕ) (f : σ → List β) (k : Option β → Program σ κ ω ε α) :
    System.Run (fun _ _ => True) (solo c s (Program.findOne e f >>= k))
      (solo c s (k (Program.pick n (f s)))) := by
  refine .tail (a := .run 0 0) (.tail (a := .run 0 n) (.refl _) trivial rfl) trivial ?_
  rfl

theorem solo_writeRows (ws : σ → List ω) (k : List ω → Program σ κ ω ε α) :
    System.Run (fun _ _ => True) (solo c s (Program.writeRows e ws >>= k))
      (solo c (publish s (ws s)) (k (ws s))) := by
  refine .tail (a := .run 0 0) (.refl _) trivial ?_
  simp [System.step, System.move, System.mover, solo, Program.writeRows, bind, Program.handle,
    Transactions.advance, Session.view, Session.idle, Session.visible, Session.stage, System.free]

end Solo

/-- The store that a call leaves that runs by a schedule. -/
def leave (program : τ → Program σ κ ω ε α) (s : σ) (c : τ) (as : List Action) : σ :=
  (after (launch program s [c]) as).store

/-- The turns of calls that run by their schedules. -/
def turnsOf (program : τ → Program σ κ ω ε α) (s : σ) : List (τ × List Action) → List (Turn τ σ)
  | [] => []
  | (c, as) :: plan => ⟨c, s, leave program s c as⟩ :: turnsOf program (leave program s c as) plan

def endOf (program : τ → Program σ κ ω ε α) (s : σ) (plan : List (τ × List Action)) : σ :=
  plan.foldl (fun t turn => leave program t turn.1 turn.2) s

/-- Every schedule can be run. -/
def playable (program : τ → Program σ κ ω ε α) (s : σ) : List (τ × List Action) → Bool
  | [] => true
  | (c, as) :: plan => (System.exec (fun _ _ => True) (launch program s [c]) as).isSome &&
    playable program (leave program s c as) plan

theorem sequence_of_plan {s : σ} {plan : List (τ × List Action)}
    (h : playable program s plan = true) :
    Sequence program s (turnsOf program s plan) (endOf program s plan) := by
  have happend : ∀ {plan : List (τ × List Action)} {turns t}, Sequence program s turns t →
      playable program t plan = true →
      Sequence program s (turns ++ turnsOf program t plan) (endOf program t plan) := by
    intro plan
    induction plan with
    | nil =>
      intro turns t hturns _
      rwa [turnsOf, List.append_nil]
    | cons turn plan ih =>
      intro turns t hturns hplay
      obtain ⟨hexec, hplay⟩ := Bool.and_eq_true_iff.mp hplay
      have hnext := ih (hturns.snoc (run_after hexec)) hplay
      rwa [List.append_assoc] at hnext
  exact happend .nil h

end Runs

end NexaStays.Sequences
