import NexaStays.Completions

/-!
# Saving an entity

The object mapper saves an entity that was loaded before: it reads the row again, and writes
the columns in which the entity differs from what it has just read.
-/
namespace NexaStays.EntitySave

open NexaStays.Transactions NexaStays.Phases NexaStays.Phases.Protocol NexaStays.Sequences
open NexaStays.Snapshots NexaStays.Completions

variable {τ σ κ ω ε α β ρ : Type} [Storage σ κ ω]

/-- A column of a row that is saved as `new`: it is written where it differs from `old`. -/
def column {β : Type} [DecidableEq β] (old new row : β) : β := if new = old then row else new

@[simp] theorem column_self {β : Type} [DecidableEq β] (old new : β) : column old new old = new := by
  by_cases h : new = old <;> simp [column, h]

@[simp] theorem column_same {β : Type} [DecidableEq β] (old row : β) : column old old row = row := by
  simp [column]

/-- Rows that are saved column by column: `merge old new row` is `row` after it. -/
class Columns (ρ : Type) where
  merge : ρ → ρ → ρ → ρ
  merge_self : ∀ old new, merge old new old = new

/-- A table that entities are saved to: how a row is found and how it is written. -/
structure Saved (σ ω ρ : Type) where
  find : σ → Option ρ
  put : ρ → ω

variable [DecidableEq ρ] [Columns ρ]

/-- `repository.save(entity)`. -/
def saveEntity (table : Saved σ ω ρ) (e : ε) (new : ρ) : Program σ κ ω ε Unit := do
  let found ← Program.query e table.find
  match found with
  | none => do
    let _ ← Program.writeRows e fun _ => [table.put new]
  | some old =>
    if old = new then pure ()
    else do
      let _ ← Program.writeRows e fun s =>
        (table.find s).toList.map fun row => table.put (Columns.merge old new row)

variable {view : σ → Option ρ} {law : τ → Option ρ → ρ → Prop}
  {span : Program σ κ ω ε α → Prop} {G : Spot τ ρ → Prop}
  {Q : Except ε Unit → Session κ ω → Spot τ ρ → Prop}
  {ctx : Program σ κ ω ε Unit → Program σ κ ω ε β}

/-- The save of another row. -/
theorem leaves_saveEntity {table : Saved σ ω ρ} {e : ε} {new : ρ}
    (hnew : Spares view (table.put new)) (hmerge : ∀ s row old, table.find s = some row →
      Spares view (table.put (Columns.merge old new row))) :
    Leaves view (saveEntity table e new : Program σ κ ω ε Unit) := by
  refine Leaves.query.bind fun found => ?_
  cases found with
  | none =>
    refine (Leaves.writeRows fun s w hw => ?_).bind fun _ => trivial
    rw [List.mem_singleton.mp hw]
    exact hnew
  | some old =>
    by_cases hsame : old = new
    · simp only [if_pos hsame]
      trivial
    · simp only [if_neg hsame]
      refine (Leaves.writeRows fun s w hw => ?_).bind fun _ => trivial
      obtain ⟨row, hrow, rfl⟩ := List.mem_map.mp hw
      exact hmerge s row old (Option.mem_toList.mp hrow)

theorem plain_saveEntity {ξ : Type} {part : σ → Option ξ} {table : Saved σ ω ρ} {e : ε} {new : ρ}
    (hput : ∀ row, Spares part (table.put row)) :
    Plain part (saveEntity table e new : Program σ κ ω ε Unit) := by
  refine Plain.query.bind fun found => ?_
  cases found with
  | none =>
    refine (Plain.writeRows fun s w hw => ?_).bind fun _ => trivial
    rw [List.mem_singleton.mp hw]
    exact hput new
  | some old =>
    by_cases hsame : old = new
    · simp only [if_pos hsame]
      trivial
    · simp only [if_neg hsame]
      refine (Plain.writeRows fun s w hw => ?_).bind fun _ => trivial
      obtain ⟨row, -, rfl⟩ := List.mem_map.mp hw
      exact hput _

/-- Such a save can always be carried out. -/
theorem canEnd_saveEntity {table : Saved σ ω ρ} {e : ε} {new : ρ} :
    CanEnd (saveEntity table e new : Program σ κ ω ε Unit) := by
  refine CanEnd.query.bind fun found => ?_
  cases found with
  | none => exact CanEnd.writeRows.bind fun _ => CanEnd.pure
  | some old =>
    by_cases hsame : old = new
    · simp only [if_pos hsame]
      exact CanEnd.pure
    · simp only [if_neg hsame]
      exact CanEnd.writeRows.bind fun _ => CanEnd.pure

/-- A call that has read the row and saves it, outside of a transaction. -/
theorem refines_saveEntity {table : Saved σ ω ρ} {e : ε} {c : τ} {v new : ρ} (hG : ∀ g, G g)
    (hfind : table.find = view)
    (hput : ∀ s, view s = some v → view (publish s [table.put new]) = some new)
    (hlaw : law c (some v) new) (hok : Q (.ok ()) .idle (.idle c))
    (herror : Q (.error e) .idle (.idle c)) :
    (loose (changes view law span) G).Refines ctx Q (saveEntity table e new) .idle
      (.holding c v) := by
  subst hfind
  refine Refines.query (hG _) (fun s hs => ?_) (.step ⟨c, v, rfl, rfl⟩ herror)
  rw [hs v rfl]
  by_cases hsame : v = new
  · simp only [if_pos hsame]
    exact .step (.release rfl) hok
  · simp only [if_neg hsame]
    refine .stay (Refines.writeRows (hG _) (fun s hs => ?_) (.step ⟨c, v, rfl, rfl⟩ herror))
    rw [hs v rfl]
    simp only [Option.toList_some, List.map_cons, List.map_nil, Columns.merge_self]
    exact .step (.write (hput s (hs v rfl)) hlaw) hok

/-- The save in a transaction that has written nothing yet: the commit will change the row. -/
theorem refines_saveEntity_active {table : Saved σ ω ρ} {e : ε} {c : τ} {v new : ρ}
    (hG : ∀ g, G g) (hfind : table.find = view)
    (hput : ∀ s, view s = some v → view (publish s [table.put new]) = some new)
    {ses : Session κ ω} (hactive : ses.active = true) (hpending : ses.pending = [])
    (hok : ∀ ses', (∀ s, view s = some v → view (publish s ses'.pending) = some new) →
      Q (.ok ()) ses' (.holding c v))
    (herror : Q (.error e) ses (.idle c)) :
    (loose (changes view law span) G).Refines ctx Q (saveEntity table e new) ses
      (.holding c v) := by
  subst hfind
  have hview : ∀ s : σ, ses.view s = s := fun s => by rw [Session.view, hpending, publish_nil]
  refine ⟨hG _, fun s hs => .stay ?_, .step ⟨c, v, rfl, rfl⟩ herror⟩
  simp only [hview, hs v rfl, Program.handle]
  by_cases hsame : v = new
  · simp only [if_pos hsame]
    refine hok ses fun s' hs' => ?_
    rw [hpending, publish_nil, hs', hsame]
  · simp only [if_neg hsame]
    refine ⟨hG _, fun s hs => ?_, .step ⟨c, v, rfl, rfl⟩ herror⟩
    simp only [hview, hs v rfl, Option.toList_some, List.map_cons, List.map_nil, Columns.merge_self,
      Session.visible, Session.stage, hactive, if_true, hpending, List.nil_append]
    exact .stay (hok _ hput)

/-- The save of a row by a call that runs alone; the row that is written as it is stays. -/
theorem returns_saveEntity {law : σ → σ → Prop} {P : Unit → σ → Prop} {table : Saved σ ω ρ}
    {e : ε} {s : σ} {old new : ρ} (hfound : table.find s = some old)
    (hsame : publish s [table.put old] = s) (hlaw : law s (publish s [table.put new]))
    (h : P () (publish s [table.put new])) :
    Returns law P (saveEntity table e new : Program σ κ ω ε Unit) s := by
  have hread : Returns law (fun found t => found = some old ∧ t = s)
      (Program.query e table.find : Program σ κ ω ε (Option ρ)) s := Returns.query ⟨hfound, rfl⟩
  refine hread.bind fun found t ht => ?_
  obtain ⟨rfl, rfl⟩ := ht
  by_cases heq : old = new
  · simp only [if_pos heq]
    subst heq
    rw [hsame] at h
    exact Returns.pure h
  · simp only [if_neg heq]
    refine Returns.bind (P := fun _ u => u = publish t [table.put new]) (Returns.writeRows ?_ ?_)
      fun _ u hu => ?_
    · simpa [hfound, Columns.merge_self] using hlaw
    · simp [hfound, Columns.merge_self]
    · obtain rfl := hu
      exact Returns.pure h

/-- The save of a row in a transaction. -/
theorem stages_saveEntity {S : Unit → List ω → Prop} {table : Saved σ ω ρ} {e : ε} {s : σ}
    {ws : List ω} {old new : ρ} (hfound : table.find (publish s ws) = some old)
    (hsame : publish (publish s ws) [table.put old] = publish s ws)
    (h : ∀ ws', publish s ws' = publish (publish s ws) [table.put new] → S () ws') :
    Stages S (saveEntity table e new : Program σ κ ω ε Unit) ws s := by
  have hread : Stages (fun found ws' => found = some old ∧ ws' = ws)
      (Program.query e table.find : Program σ κ ω ε (Option ρ)) ws s := Stages.query ⟨hfound, rfl⟩
  refine hread.bind fun found ws' hws => ?_
  obtain ⟨rfl, rfl⟩ := hws
  by_cases heq : old = new
  · simp only [if_pos heq]
    subst heq
    exact Stages.pure (h _ hsame.symm)
  · simp only [if_neg heq]
    refine Stages.bind (S := fun _ ws'' => publish s ws'' = publish (publish s ws') [table.put new])
      (Stages.writeRows ?_) fun _ ws'' hws => Stages.pure (h _ hws)
    simp [hfound, Columns.merge_self, publish_append]

/-- Such a save can be carried out. -/
theorem solo_saveEntity [DecidableEq κ] {c : τ} {table : Saved σ ω ρ} {e : ε} {s : σ} {v w : ρ}
    (hfound : table.find s = some v) (hsame : publish s [table.put v] = s)
    (k : Unit → Program σ κ ω ε α) :
    System.Run (fun _ _ => True) (solo c s (saveEntity table e w >>= k))
      (solo c (publish s [table.put w]) (k ())) := by
  have hread := solo_query (c := c) (s := s) (e := e) table.find fun found =>
    (match found with
      | none => do
        let _ ← Program.writeRows e fun _ => [table.put w]
      | some old =>
        if old = w then pure ()
        else do
          let _ ← Program.writeRows e fun s =>
            (table.find s).toList.map fun row => table.put (Columns.merge old w row)) >>= k
  refine System.Run.trans hread ?_
  simp only [hfound]
  by_cases heq : v = w
  · subst heq
    rw [if_pos rfl, hsame]
    exact .refl _
  · rw [if_neg heq]
    have hwrite := solo_writeRows (c := c) (s := s) (e := e) (fun s =>
      (table.find s).toList.map fun row => table.put (Columns.merge v w row)) fun _ => k ()
    simp only [hfound, Option.toList_some, List.map_cons, List.map_nil, Columns.merge_self] at hwrite
    exact hwrite

end NexaStays.EntitySave
