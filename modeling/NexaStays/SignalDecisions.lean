import NexaStays.OperationalSignals

/-!
# Decisions on operational signals

An administrator's decision on a signal stands until an evaluation that has read the decided row
as resolved raises it again. This is so in the runs in which no save changes the standing of the
row between the read and the save of another call.
-/
namespace NexaStays.SignalDecisions
open KeyedTable OperationalSignals

/-- The columns of a row that decisions are written to. -/
structure Standing where
  status : OperationalSignalStatus
  acknowledgedAt : Option ℤ
  acknowledgedByAdminId : Option String
  resolvedAt : Option ℤ
  resolvedByAdminId : Option String
  deriving DecidableEq, Repr

def standing (row : StaysSupportOperationalSignal) : Standing :=
  ⟨row.status, row.acknowledgedAt, row.acknowledgedByAdminId, row.resolvedAt,
    row.resolvedByAdminId⟩

/-- No decision is on record that the status does not show. -/
structure Standing.Proper (v : Standing) : Prop where
  active : v.status = .active → v.acknowledgedByAdminId = none ∧ v.resolvedByAdminId = none
  acknowledged : v.status = .acknowledged → v.resolvedByAdminId = none

/-- An administrator has acknowledged or resolved the signal. -/
def Standing.ByAdmin (v : Standing) : Prop :=
  v.status = .acknowledged ∨ v.status = .resolved ∧ v.resolvedByAdminId ≠ none

/-- A decided signal is not active again, and who decided stays on record. -/
structure Keeps (v w : Standing) : Prop where
  status : v.ByAdmin → w.status ≠ .active
  acknowledged : v.acknowledgedByAdminId ≠ none →
    w.acknowledgedByAdminId = v.acknowledgedByAdminId
  resolved : v.resolvedByAdminId ≠ none → w.resolvedByAdminId = v.resolvedByAdminId

theorem Keeps.refl (v : Standing) : Keeps v v := by
  refine ⟨fun h hactive => ?_, fun _ => rfl, fun _ => rfl⟩
  obtain h | ⟨h, -⟩ := h
  · simp [h] at hactive
  · simp [h] at hactive

/-- Both rows record the same decisions, made at the same times. -/
def SameDecisions (v w : Standing) : Prop :=
  v.acknowledgedAt = w.acknowledgedAt ∧ v.acknowledgedByAdminId = w.acknowledgedByAdminId ∧
    v.resolvedAt = w.resolvedAt ∧ v.resolvedByAdminId = w.resolvedByAdminId

/-- What a call makes of a standing that it has read: a proper one, and unless that was a resolved
one the decisions stand. -/
structure Moves (v w : Standing) : Prop where
  proper : v.Proper → w.Proper
  keeps : v.Proper → v.status ≠ .resolved → Keeps v w

/-- What the rules that hold make of a standing: only a resolved one changes. -/
structure Raises (v w : Standing) : Prop where
  proper : v.Proper → w.Proper
  same : v.status ≠ .resolved → w = v

theorem Raises.moves {v w : Standing} (h : Raises v w) : Moves v w :=
  ⟨h.proper, fun _ hstatus => h.same hstatus ▸ Keeps.refl v⟩

theorem Standing.Proper.resolvedBy_eq_none {v : Standing} (h : v.Proper)
    (hstatus : v.status ≠ .resolved) : v.resolvedByAdminId = none := by
  cases hv : v.status with
  | active => exact (h.active hv).2
  | acknowledged => exact h.acknowledged hv
  | resolved => exact absurd hv hstatus

variable {read : List StaysSupportOperationalSignal} {a : Pass} {now : ℤ} {newId : String → ℕ}
  {v : Standing} {row : StaysSupportOperationalSignal}

@[simp] theorem dedupeKey_detected (row : StaysSupportOperationalSignal) (desire : DesiredSignal) :
    (row.detected desire now).dedupeKey = row.dedupeKey := by
  unfold StaysSupportOperationalSignal.detected
  dsimp only
  split_ifs <;> rfl

/-- A rule that holds leaves a standing as it is, or makes a resolved row active. -/
theorem standing_detected (row : StaysSupportOperationalSignal) (desire : DesiredSignal) :
    standing (row.detected desire now) =
      if row.status = .resolved then ⟨.active, none, none, none, none⟩ else standing row := by
  unfold StaysSupportOperationalSignal.detected
  dsimp only
  split_ifs <;> rfl

theorem proper_fresh : Standing.Proper ⟨.active, none, none, none, none⟩ :=
  ⟨fun _ => ⟨rfl, rfl⟩, fun _ => rfl⟩

theorem Raises.detected (h : Raises v (standing row)) (desire : DesiredSignal) :
    Raises v (standing (row.detected desire now)) := by
  rw [standing_detected]
  split_ifs with hstatus
  · refine ⟨fun _ => proper_fresh, fun hv => ?_⟩
    have hsame : row.status = v.status := congrArg Standing.status (h.same hv)
    exact absurd (hsame.symm.trans hstatus) hv
  · exact h

/-- A rule that no longer holds resolves a row and drops no decision but on a resolved one. -/
theorem Moves.cleared (h : Moves v (standing row)) (extra : Option Metadata) :
    Moves v (standing (row.cleared extra now)) := by
  refine ⟨fun _ => ⟨fun hactive => (by cases hactive), fun hack => (by cases hack)⟩,
    fun hproper hstatus => ?_⟩
  have hkeeps := h.keeps hproper hstatus
  exact ⟨fun _ hactive => (by cases hactive), hkeeps.acknowledged,
    fun hdecided => absurd (hproper.resolvedBy_eq_none hstatus) hdecided⟩

/-- A patch that passes its checks takes a signal forward. -/
theorem moves_patched {nextStatus : OperationalSignalStatus} {adminUserId : String} {actor : Actor}
    (hcheck : checkPatch row nextStatus actor = .ok ()) :
    Moves (standing row) (standing (row.patched nextStatus adminUserId now)) := by
  have hallowed : row.status = .active ∧ (nextStatus = .acknowledged ∨ nextStatus = .resolved) ∨
      row.status = .acknowledged ∧ nextStatus = .resolved := by
    unfold checkPatch at hcheck
    split_ifs at hcheck with _ _ h
    exact h
  obtain ⟨hactive, rfl | rfl⟩ | ⟨hack, rfl⟩ := hallowed
  · refine ⟨fun h => ⟨fun h => (by cases h), fun _ => (h.active hactive).2⟩, fun h _ => ?_⟩
    exact ⟨fun _ h => (by cases h), fun hdecided => absurd (h.active hactive).1 hdecided,
      fun _ => rfl⟩
  · refine ⟨fun _ => ⟨fun h => (by cases h), fun h => (by cases h)⟩, fun h _ => ?_⟩
    exact ⟨fun _ h => (by cases h), fun _ => rfl,
      fun hdecided => absurd (h.active hactive).2 hdecided⟩
  · refine ⟨fun _ => ⟨fun h => (by cases h), fun h => (by cases h)⟩, fun h _ => ?_⟩
    exact ⟨fun _ h => (by cases h), fun _ => rfl,
      fun hdecided => absurd (h.acknowledged hack) hdecided⟩

/-- Each row of a pass comes from one that was read, as `R` says. -/
def Related (R : Standing → Standing → Prop) (read : List StaysSupportOperationalSignal)
    (a : Pass) : Prop :=
  ∀ row ∈ a.rows, ∃ r ∈ read, r.dedupeKey = row.dedupeKey ∧ R (standing r) (standing row)

/-- The rows to insert are new ones. -/
def Fresh (a : Pass) : Prop :=
  ∀ row ∈ a.created, standing row = ⟨.active, none, none, none, none⟩

theorem Related.touch {R : Standing → Standing → Prop} (h : Related R read a) {key : String}
    {f : StaysSupportOperationalSignal → StaysSupportOperationalSignal}
    (hkey : ∀ row, (f row).dedupeKey = row.dedupeKey)
    (hf : ∀ v row, R v (standing row) → R v (standing (f row))) : Related R read (a.touch key f) := by
  intro row hrow
  obtain ⟨row', hrow', rfl⟩ := List.mem_map.mp hrow
  obtain ⟨r, hr, hsame, hR⟩ := h row' hrow'
  split_ifs
  · exact ⟨r, hr, hsame.trans (hkey row').symm, hf _ _ hR⟩
  · exact ⟨r, hr, hsame, hR⟩

theorem Related.upsert (h : Related Raises read a) (desire : DesiredSignal) :
    Related Raises read (a.upsert now newId desire) := by
  unfold Pass.upsert
  split
  · exact h
  · split_ifs
    · exact h
    · exact h.touch (fun row => dedupeKey_detected row desire) fun _ _ hR => hR.detected desire

theorem Related.resolve (h : Related Moves read a) (resolveMetadata : String → Option Metadata)
    (key : String) : Related Moves read (a.resolve now resolveMetadata key) := by
  unfold Pass.resolve
  split
  · exact h
  · split_ifs
    · exact h
    · exact h.touch (fun _ => rfl) fun _ _ hR => hR.cleared (resolveMetadata key)

theorem Fresh.upsert (h : Fresh a) (desire : DesiredSignal) :
    Fresh (a.upsert now newId desire) := by
  unfold Pass.upsert
  split
  · intro row hrow
    obtain hrow | hrow := List.mem_append.mp hrow
    · exact h row hrow
    · rw [List.mem_singleton.mp hrow]
      rfl
  · split_ifs <;> exact h

theorem Fresh.resolve (h : Fresh a) (resolveMetadata : String → Option Metadata) (key : String) :
    Fresh (a.resolve now resolveMetadata key) := by
  unfold Pass.resolve
  split
  · exact h
  · split_ifs <;> exact h

/-- What is preserved by every step of a loop is preserved by the loop. -/
theorem foldl_preserves {α β : Type} {P : α → Prop} {f : α → β → α}
    (hf : ∀ a b, P a → P (f a b)) (l : List β) {a : α} (h : P a) : P (l.foldl f a) := by
  induction l generalizing a with
  | nil => exact h
  | cons b l ih => exact ih (hf a b h)

variable {upserts : List DesiredSignal} {resolveKeys : List String}
  {resolveMetadata : String → Option Metadata}

theorem related_desires :
    Related Moves read (desires now newId upserts resolveKeys resolveMetadata read) := by
  refine foldl_preserves (fun _ key h => h.resolve resolveMetadata key) resolveKeys ?_
  have hraised : Related Raises read (upserts.foldl (Pass.upsert now newId) ⟨read, [], []⟩) :=
    foldl_preserves (fun _ desire h => h.upsert desire) upserts
      fun row hrow => ⟨row, hrow, rfl, fun h => h, fun _ => rfl⟩
  intro row hrow
  obtain ⟨r, hr, hkey, hR⟩ := hraised row hrow
  exact ⟨r, hr, hkey, hR.moves⟩

theorem fresh_desires :
    Fresh (desires now newId upserts resolveKeys resolveMetadata read) := by
  refine foldl_preserves (fun _ key h => h.resolve resolveMetadata key) resolveKeys ?_
  exact foldl_preserves (fun _ desire h => h.upsert desire) upserts fun row hrow => by cases hrow

theorem find?_putAll_cases (t : Signals) (rows : List StaysSupportOperationalSignal) (k : String) :
    (t.putAll rows).find? k = t.find? k ∨
      ∃ row ∈ rows, row.dedupeKey = k ∧ (t.putAll rows).find? k = some row := by
  induction rows generalizing t with
  | nil => exact Or.inl rfl
  | cons r rows ih =>
    rw [Table.putAll_cons]
    obtain hsame | ⟨row, hrow, hkey, hfind⟩ := ih (t.put r)
    · by_cases hkey : r.dedupeKey = k
      · exact Or.inr ⟨r, List.mem_cons_self, hkey, by rw [hsame, Table.find?_put, if_pos hkey.symm]⟩
      · exact Or.inl (by rw [hsame, Table.find?_put_of_ne (Ne.symm hkey)])
    · exact Or.inr ⟨row, List.mem_cons_of_mem _ hrow, hkey, hfind⟩

/-- The checks of a patch have passed on the rows that it holds. -/
def Checked (rows : List StaysSupportOperationalSignal) : Request → Prop
  | .evaluate _ _ _ => True
  | .patch _ nextStatus _ actor => ∀ row ∈ rows, checkPatch row nextStatus actor = .ok ()

/-- What a save leaves under a key: what was there, a row it has read and moved, or a new one. -/
theorem save_cases (signals : Signals) (retried : Bool) (now : ℤ) (newId : String → ℕ)
    {request : Request} (hchecked : Checked read request) (k : String) :
    (save signals retried read now newId request).1.find? k = signals.find? k ∨
      (∃ r ∈ read, r.dedupeKey = k ∧ ∃ row,
        (save signals retried read now newId request).1.find? k = some row ∧
        Moves (standing r) (standing row)) ∨
      signals.find? k = none ∧ ∃ row,
        (save signals retried read now newId request).1.find? k = some row ∧
        (standing row).Proper := by
  cases request with
  | evaluate upserts resolveKeys resolveMetadata =>
    unfold save
    dsimp only
    by_cases hconflict :
        Conflicts signals (desires now newId upserts resolveKeys resolveMetadata read).created
    · rw [if_pos hconflict]
      exact Or.inl rfl
    · rw [if_neg hconflict]
      have hnew : ∀ row ∈ (desires now newId upserts resolveKeys resolveMetadata read).created,
          ∀ x ∈ signals.rows, x.dedupeKey ≠ row.dedupeKey :=
        fun row hrow x hx hkey => hconflict (Or.inr (Or.inr ⟨row, hrow, x, hx, Or.inl hkey⟩))
      obtain hsame | ⟨row, hrow, hkey, hfind⟩ := find?_putAll_cases
        (signals.putAll (desires now newId upserts resolveKeys resolveMetadata read).saved)
        (desires now newId upserts resolveKeys resolveMetadata read).created k
      · rw [hsame]
        obtain hsame | ⟨row, hrow, hkey, hfind⟩ := find?_putAll_cases signals
          (desires now newId upserts resolveKeys resolveMetadata read).saved k
        · exact Or.inl hsame
        · obtain ⟨r, hr, hrkey, hmoves⟩ := related_desires row (List.mem_filter.mp hrow).1
          exact Or.inr (Or.inl ⟨r, hr, hrkey.trans hkey, row, hfind, hmoves⟩)
      · refine Or.inr (Or.inr ⟨?_, row, hfind, fresh_desires row hrow ▸ proper_fresh⟩)
        exact Table.find?_eq_none.mpr fun x hx hxk =>
          hnew row hrow x hx (hxk.trans hkey.symm)
  | patch signalId nextStatus adminUserId actor =>
    unfold save
    obtain hsame | ⟨row, hrow, hkey, hfind⟩ := find?_putAll_cases signals
      (read.map fun row => row.patched nextStatus adminUserId now) k
    · exact Or.inl hsame
    · obtain ⟨r, hr, rfl⟩ := List.mem_map.mp hrow
      have hsame : (r.patched nextStatus adminUserId now).dedupeKey = r.dedupeKey := by
        unfold StaysSupportOperationalSignal.patched
        dsimp only
        split_ifs <;> rfl
      exact Or.inr (Or.inl ⟨r, hr, hsame.symm.trans hkey, _, hfind, moves_patched (hchecked r hr)⟩)

section Runs

variable {requests : ℕ → Request} {k : String} {sys sys' : System} {action : Action}

/-- The call has read the row and is yet to save it. -/
def Holds (k : String) (stage : Stage) : Prop :=
  ∃ retried rows, stage = .holding retried rows ∧ ∃ r ∈ rows, r.dedupeKey = k

/-- The standing of the row does not change while another call holds it. -/
def Undisturbed (k : String) (sys : System) (action : Action) (sys' : System) : Prop :=
  (sys'.signals.find? k).map standing ≠ (sys.signals.find? k).map standing →
    ∀ i, i ≠ action.caller → ¬ Holds k (sys.stages i)

/-- The step is the save of an evaluation that has read the row as resolved, with the decisions
that it has now. -/
def ReadResolved (requests : ℕ → Request) (k : String) (v : Standing) (sys : System)
    (action : Action) : Prop :=
  ∃ i now newId retried rows upserts resolveKeys resolveMetadata, action = .save i now newId ∧
    requests i = .evaluate upserts resolveKeys resolveMetadata ∧
    sys.stages i = .holding retried rows ∧ ∃ r ∈ rows, r.dedupeKey = k ∧ r.status = .resolved ∧
      SameDecisions (standing r) v

/-- A step keeps the decisions on the row, unless it raises the row anew. -/
def Lawful (requests : ℕ → Request) (k : String) (sys : System) (action : Action)
    (sys' : System) : Prop :=
  ∀ row, sys.signals.find? k = some row → ∃ row', sys'.signals.find? k = some row' ∧
    (Keeps (standing row) (standing row') ∨ ReadResolved requests k (standing row) sys action)

/-- What holds of the row and of the calls that hold it. -/
structure Agrees (requests : ℕ → Request) (k : String) (sys : System) : Prop where
  held : ∀ i retried rows, sys.stages i = .holding retried rows → ∀ r ∈ rows, r.dedupeKey = k →
    (sys.signals.find? k).map standing = some (standing r)
  checked : ∀ i retried rows, sys.stages i = .holding retried rows → Checked rows (requests i)
  proper : ∀ row, sys.signals.find? k = some row → (standing row).Proper

/-- A call reads the rows as they are, and goes on when its checks pass. -/
theorem of_look {signals : Signals} {retried retried' : Bool} {request : Request}
    {rows : List StaysSupportOperationalSignal}
    (h : look signals retried request = .holding retried' rows) :
    (∀ r ∈ rows, r ∈ signals.rows) ∧ Checked rows request := by
  cases request with
  | evaluate upserts resolveKeys resolveMetadata =>
    unfold look at h
    dsimp only at h
    split_ifs at h
    cases h
    exact ⟨fun r hr => List.mem_of_mem_filter hr, trivial⟩
  | patch signalId nextStatus adminUserId actor =>
    unfold look at h
    dsimp only at h
    split_ifs at h
    split at h
    · cases h
    · next row hfind =>
      split at h
      · cases h
      · next hcheck =>
        cases h
        refine ⟨fun r hr => ?_, fun r hr => ?_⟩
        · rw [List.mem_singleton.mp hr]
          exact List.mem_of_find?_eq_some hfind
        · rw [List.mem_singleton.mp hr]
          exact hcheck

theorem Agrees.start {signals : Signals}
    (h : ∀ row ∈ signals.rows, (standing row).Proper) :
    Agrees requests k (OperationalSignals.start signals) :=
  ⟨fun _ _ _ hstage => (by cases hstage), fun _ _ _ hstage => (by cases hstage),
    fun row hrow => h row (Table.mem_of_find? hrow)⟩

/-- A step that leaves the rows alone is lawful. -/
theorem lawful_of_signals_eq (h : sys'.signals = sys.signals) :
    Lawful requests k sys action sys' :=
  fun row hrow => ⟨row, h ▸ hrow, Or.inl (Keeps.refl _)⟩

/-- A patch holds no resolved row. -/
theorem not_resolved_of_checked {nextStatus : OperationalSignalStatus} {actor : Actor}
    {row : StaysSupportOperationalSignal} (h : checkPatch row nextStatus actor = .ok ()) :
    row.status ≠ .resolved := by
  intro hresolved
  unfold checkPatch at h
  simp only [hresolved] at h
  split_ifs at h
  simp_all

theorem save_not_holding (signals : Signals) (retried retried' : Bool)
    (rows rows' : List StaysSupportOperationalSignal) (now : ℤ) (newId : String → ℕ)
    (request : Request) :
    (save signals retried rows now newId request).2 ≠ .holding retried' rows' := by
  intro h
  cases request with
  | evaluate upserts resolveKeys resolveMetadata =>
    unfold save at h
    dsimp only at h
    split_ifs at h
  | patch => cases h

/-- What a save leaves under the key of a row that it agrees on. -/
theorem Agrees.save_lawful (h : Agrees requests k sys) {i : ℕ} {retried : Bool}
    {rows : List StaysSupportOperationalSignal} (hstage : sys.stages i = .holding retried rows)
    {row : StaysSupportOperationalSignal} (hrow : sys.signals.find? k = some row) :
    ∃ row', (save sys.signals retried rows now newId (requests i)).1.find? k = some row' ∧
      (Keeps (standing row) (standing row') ∨
        ReadResolved requests k (standing row) sys (.save i now newId)) := by
  have hchecked := h.checked i retried rows hstage
  obtain hsame | ⟨r, hr, hkey, row', hfind, hmoves⟩ | ⟨hnone, -⟩ :=
    save_cases sys.signals retried now newId hchecked k
  · exact ⟨row, hsame.trans hrow, Or.inl (Keeps.refl _)⟩
  · have hstanding : standing row = standing r := by
      have hheld := h.held i retried rows hstage r hr hkey
      rw [hrow] at hheld
      exact Option.some.inj hheld
    refine ⟨row', hfind, ?_⟩
    by_cases hresolved : r.status = .resolved
    · cases hrequest : requests i with
      | evaluate upserts resolveKeys resolveMetadata =>
        refine Or.inr ⟨i, now, newId, retried, rows, upserts, resolveKeys, resolveMetadata, rfl,
          hrequest, hstage, r, hr, hkey, hresolved, ?_⟩
        rw [hstanding]
        exact ⟨rfl, rfl, rfl, rfl⟩
      | patch signalId nextStatus adminUserId actor =>
        rw [hrequest] at hchecked
        exact absurd hresolved (not_resolved_of_checked (hchecked r hr))
    · rw [hstanding]
      exact Or.inl (hmoves.keeps (hstanding ▸ h.proper row hrow) hresolved)
  · simp [hnone] at hrow

/-- What a save leaves under the key is proper. -/
theorem Agrees.save_proper (h : Agrees requests k sys) {i : ℕ} {retried : Bool}
    {rows : List StaysSupportOperationalSignal} (hstage : sys.stages i = .holding retried rows)
    {row : StaysSupportOperationalSignal}
    (hrow : (save sys.signals retried rows now newId (requests i)).1.find? k = some row) :
    (standing row).Proper := by
  obtain hsame | ⟨r, hr, hkey, row', hfind, hmoves⟩ | ⟨-, row', hfind, hproper⟩ :=
    save_cases sys.signals retried now newId (h.checked i retried rows hstage) k
  · exact h.proper row (hsame.symm.trans hrow)
  · obtain rfl : row = row' := Option.some.inj (hrow.symm.trans hfind)
    have hheld := h.held i retried rows hstage r hr hkey
    obtain ⟨row₀, hrow₀, hstanding⟩ := Option.map_eq_some_iff.mp hheld
    exact hmoves.proper (hstanding ▸ h.proper row₀ hrow₀)
  · obtain rfl : row = row' := Option.some.inj (hrow.symm.trans hfind)
    exact hproper

/-- One call moves on: the others keep what they hold. -/
theorem Agrees.update (h : Agrees requests k sys) {i : ℕ} {signals : Signals} {stage : Stage}
    (hothers : ∀ j, j ≠ i → Holds k (sys.stages j) →
      (signals.find? k).map standing = (sys.signals.find? k).map standing)
    (hself : ∀ retried rows, stage = .holding retried rows →
      (∀ r ∈ rows, r.dedupeKey = k → (signals.find? k).map standing = some (standing r)) ∧
        Checked rows (requests i))
    (hproper : ∀ row, signals.find? k = some row → (standing row).Proper) :
    Agrees requests k ⟨signals, Function.update sys.stages i stage⟩ := by
  have hcases : ∀ j retried rows, Function.update sys.stages i stage j = .holding retried rows →
      j = i ∧ stage = .holding retried rows ∨ j ≠ i ∧ sys.stages j = .holding retried rows := by
    intro j retried rows hstage
    by_cases hj : j = i
    · subst hj
      rw [Function.update_self] at hstage
      exact Or.inl ⟨rfl, hstage⟩
    · rw [Function.update_of_ne hj] at hstage
      exact Or.inr ⟨hj, hstage⟩
  refine ⟨fun j retried rows hstage r hr hkey => ?_, fun j retried rows hstage => ?_, hproper⟩
  · obtain ⟨-, hown⟩ | ⟨hj, hother⟩ := hcases j retried rows hstage
    · exact (hself retried rows hown).1 r hr hkey
    · exact (hothers j hj ⟨retried, rows, hother, r, hr, hkey⟩).trans
        (h.held j retried rows hother r hr hkey)
  · obtain ⟨rfl, hown⟩ | ⟨-, hother⟩ := hcases j retried rows hstage
    · exact (hself retried rows hown).2
    · exact h.checked j retried rows hother

/-- An undisturbed step is lawful, and leaves the calls in agreement on the row. -/
theorem Agrees.step (h : Agrees requests k sys) (hstep : step requests sys action = some sys')
    (hundisturbed : Undisturbed k sys action sys') :
    Agrees requests k sys' ∧ Lawful requests k sys action sys' := by
  cases action with
  | look i =>
    simp only [OperationalSignals.step] at hstep
    split at hstep
    · next retried hwaiting =>
      cases hstep
      refine ⟨h.update (fun _ _ _ => rfl) (fun retried' rows hstage => ?_) h.proper,
        lawful_of_signals_eq rfl⟩
      obtain ⟨hread, hchecked⟩ := of_look hstage
      refine ⟨fun r hr hkey => ?_, hchecked⟩
      rw [← hkey, Table.find?_key (hread r hr)]
      rfl
    · cases hstep
  | save i now newId =>
    simp only [OperationalSignals.step] at hstep
    split at hstep
    · next retried rows hholding =>
      cases hstep
      refine ⟨h.update (fun j hj hholds => ?_) (fun retried' rows' hstage => ?_)
        (fun row hrow => ?_), fun row hrow => ?_⟩
      · by_contra hchanged
        exact hundisturbed hchanged j hj hholds
      · exact (save_not_holding _ _ _ _ _ _ _ _ hstage).elim
      · exact h.save_proper hholding hrow
      · exact h.save_lawful hholding hrow
    · cases hstep
  | fail i =>
    simp only [OperationalSignals.step] at hstep
    split at hstep
    · cases hstep
    · cases hstep
      exact ⟨h.update (fun _ _ _ => rfl) (fun _ _ hstage => by cases hstage) h.proper,
        lawful_of_signals_eq rfl⟩

theorem agrees_of_run {signals : Signals} (hproper : ∀ row ∈ signals.rows, (standing row).Proper)
    (hrun : Run requests (Undisturbed k) (start signals) sys) : Agrees requests k sys := by
  induction hrun with
  | refl => exact Agrees.start hproper
  | tail _ hstep hok ih => exact (ih.step hstep hok).1

/-- The decisions on a row stand at every step of a run in which its standing does not change
while another call holds it. -/
theorem decided_signals_stand {signals : Signals}
    (hproper : ∀ row ∈ signals.rows, (standing row).Proper)
    (hrun : Run requests (Undisturbed k) (start signals) sys)
    (hstep : step requests sys action = some sys')
    (hundisturbed : Undisturbed k sys action sys') : Lawful requests k sys action sys' :=
  ((agrees_of_run hproper hrun).step hstep hundisturbed).2

end Runs

def breachedKey : String := "v1:SLA_BREACHED:TICKET:1"

def breached : DesiredSignal :=
  { type := .slaBreached, severity := .high, subjectType := .ticket, subjectId := "1"
    ticketId := some 1, metadata := [] }

/-- The one signal there is. -/
def raised : Signals := Table.empty.put (createSignal breached 0 1)

/-- An evaluation that finds the ticket breached, and an administrator who resolves the signal. -/
def evaluatedAndResolved : ℕ → Request
  | 0 => .evaluate [breached] [] fun _ => none
  | _ => .patch 1 .resolved "admin" .admin

theorem proper_raised : ∀ row ∈ raised.rows, (standing row).Proper := by
  intro row hrow
  obtain rfl := List.mem_singleton.mp hrow
  exact proper_fresh

/-- The decision of an administrator who is alone stands. -/
theorem decided_signals_stand_alone : ∃ sys sys',
    step evaluatedAndResolved sys (.save 1 10 fun _ => 2) = some sys' ∧
      Lawful evaluatedAndResolved breachedKey sys (.save 1 10 fun _ => 2) sys' := by
  have hlook : Run evaluatedAndResolved (Undisturbed breachedKey) (start raised) _ :=
    .tail (a := .look 1) .refl rfl fun hchanged => absurd rfl hchanged
  refine ⟨_, _, rfl, decided_signals_stand proper_raised hlook rfl fun _ i hi => ?_⟩
  rintro ⟨retried, rows, hstage, -⟩
  have hwaiting : Stage.waiting false = .holding retried rows :=
    (Function.update_of_ne hi _ _).symm.trans hstage
  cases hwaiting

/-- An evaluation that has read the signal as active makes it active again after it has been
resolved. -/
theorem decision_overwritten :
    ¬ ∀ (requests : ℕ → Request) (signals : Signals) (k : String) (sys sys' : System)
      (action : Action), (∀ row ∈ signals.rows, (standing row).Proper) →
      Run requests (fun _ _ _ => True) (start signals) sys →
      step requests sys action = some sys' → Lawful requests k sys action sys' := by
  intro h
  have hrun : Run evaluatedAndResolved (fun _ _ _ => True) (start raised) _ :=
    .tail (a := .save 1 10 fun _ => 2) (.tail (a := .look 1) (.tail (a := .look 0) .refl rfl trivial)
      rfl trivial) rfl trivial
  obtain ⟨row', hrow', hkeeps | hread⟩ :=
    h _ _ breachedKey _ _ (.save 0 20 fun _ => 3) proper_raised hrun rfl _ rfl
  · have hactive : some OperationalSignalStatus.active = some (standing row').status :=
      congrArg (Option.map fun r => (standing r).status) hrow'
    exact hkeeps.status (Or.inr ⟨rfl, by simp [standing, StaysSupportOperationalSignal.patched]⟩)
      (Option.some.inj hactive).symm
  · obtain ⟨i, now, newId, retried, rows, _, _, _, haction, -, hstage, r, hr, -, hresolved, -⟩ :=
      hread
    cases haction
    have hrows : Stage.holding false [createSignal breached 0 1] = .holding retried rows := hstage
    cases hrows
    obtain rfl := List.mem_singleton.mp hr
    cases hresolved

end NexaStays.SignalDecisions
