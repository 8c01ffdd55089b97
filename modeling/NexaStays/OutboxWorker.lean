import Mathlib
import NexaStays.KeyedTable
import NexaStays.Keyset

/-!
# The workers of the messaging outbox

Every instance of the service has a worker that claims rows of the shared outbox, publishes their
events and writes how that went. Before it claims, it puts rows back that seem to have been left
behind, going by the time at which they were made.
-/
namespace NexaStays.OutboxWorker

open NexaStays.KeyedTable

inductive OutboxStatus where
  | pending | processing | done | failed
  deriving DecidableEq, Repr

structure StaysMessagingOutbox where
  id : ℕ
  eventType : String
  payload : String
  status : OutboxStatus := .pending
  attempts : ℕ := 0
  nextRetryAt : ℤ
  createdAt : ℤ
  processedAt : Option ℤ := none
  deriving DecidableEq, Repr

abbrev Outbox := Table StaysMessagingOutbox.id

def maxOutboxAttempts : ℕ := 5

/-- How the publication of an event ends. -/
inductive Outcome where
  | published | validationError | error
  deriving DecidableEq, Repr

/-- The row of a new event. -/
def enqueued (id : ℕ) (eventType payload : String) (now : ℤ) : StaysMessagingOutbox :=
  { id, eventType, payload, nextRetryAt := now, createdAt := now }

/-- A row in processing that was made more than a minute ago. -/
def stale (now : ℤ) (row : StaysMessagingOutbox) : Bool :=
  row.status = .processing && row.processedAt.isNone && row.createdAt < now - 60000

def requeued (now : ℤ) (row : StaysMessagingOutbox) : StaysMessagingOutbox :=
  { row with status := .pending, nextRetryAt := now }

def recoverStaleProcessingRows (now : ℤ) (outbox : Outbox) : Outbox :=
  outbox.putAll ((outbox.rows.filter (stale now)).map (requeued now))

/-- The rows that a claim takes: the oldest that are due and that nobody else has locked. -/
def due (now : ℤ) (locked : List ℕ) (limit : ℕ) (outbox : Outbox) : List StaysMessagingOutbox :=
  (Keyset.orderBy (·.createdAt) (outbox.rows.filter fun row =>
    row.status = .pending && row.nextRetryAt ≤ now && row.id ∉ locked)).take limit

def claimed (row : StaysMessagingOutbox) : StaysMessagingOutbox :=
  { row with status := .processing }

def claimPendingRows (now : ℤ) (locked : List ℕ) (limit : ℕ) (outbox : Outbox) :
    Outbox × List StaysMessagingOutbox :=
  let rows := (due now locked limit outbox).map claimed
  (outbox.putAll rows, rows)

/-- The columns that the last update of a row sets, from the row that was claimed. -/
def settled (row : StaysMessagingOutbox) (outcome : Outcome) (now : ℤ)
    (current : StaysMessagingOutbox) : StaysMessagingOutbox :=
  if outcome = .published then { current with status := .done, processedAt := some now }
  else
    let attempts := row.attempts + 1
    let isPermanentFailure := outcome = .validationError ∨ attempts ≥ maxOutboxAttempts
    let delayMs := min 60000 (1000 * 2 ^ attempts)
    { current with
      status := if isPermanentFailure then .failed else .pending
      attempts
      nextRetryAt := if isPermanentFailure then row.nextRetryAt else now + delayMs }

def settle (row : StaysMessagingOutbox) (outcome : Outcome) (now : ℤ) (outbox : Outbox) : Outbox :=
  ((outbox.find? row.id).map fun current =>
    outbox.put (settled row outcome now current)).getD outbox

/-- Where `processOutbox` of an instance stands. -/
inductive Stage where
  | idle
  | recovered
  | working (rows : List StaysMessagingOutbox)
  | handled (row : StaysMessagingOutbox) (outcome : Outcome) (rest : List StaysMessagingOutbox)
  deriving DecidableEq, Repr

/-- The rows that an instance has claimed and not settled. -/
def Stage.rows : Stage → List StaysMessagingOutbox
  | .idle | .recovered => []
  | .working rows => rows
  | .handled row _ rest => row :: rest

/-- The outbox, the instances, and the rows whose events have been published so far. -/
structure System where
  outbox : Outbox
  stages : ℕ → Stage
  log : List ℕ

def start : System := ⟨Table.empty, fun _ => .idle, []⟩

inductive Action where
  | enqueue (id : ℕ) (eventType payload : String) (now : ℤ)
  | recover (i : ℕ) (now : ℤ)
  | claim (i : ℕ) (now : ℤ) (locked : List ℕ)
  | handle (i : ℕ) (outcome : Outcome)
  | update (i : ℕ) (now : ℤ)
  | updateFails (i : ℕ)
  | crash (i : ℕ)
  deriving DecidableEq, Repr

/-- The log once an event has been handled. -/
def logged (row : StaysMessagingOutbox) : Outcome → List ℕ → List ℕ
  | .published, log => log ++ [row.id]
  | _, log => log

def System.goto (sys : System) (i : ℕ) (stage : Stage) : System :=
  { sys with stages := Function.update sys.stages i stage }

@[simp] theorem goto_outbox (sys : System) (i : ℕ) (stage : Stage) :
    (sys.goto i stage).outbox = sys.outbox := rfl

@[simp] theorem goto_log (sys : System) (i : ℕ) (stage : Stage) :
    (sys.goto i stage).log = sys.log := rfl

@[simp] theorem goto_self (sys : System) (i : ℕ) (stage : Stage) :
    (sys.goto i stage).stages i = stage := Function.update_self ..

theorem goto_of_ne (sys : System) {i j : ℕ} (stage : Stage) (h : j ≠ i) :
    (sys.goto i stage).stages j = sys.stages j := Function.update_of_ne h ..

/-- One step of an instance, or of whoever enqueues an event. -/
def step (sys : System) : Action → Option System
  | .enqueue id eventType payload now =>
    if (sys.outbox.find? id).isSome then none
    else some { sys with outbox := sys.outbox.put (enqueued id eventType payload now) }
  | .recover i now =>
    match sys.stages i with
    | .idle =>
      some ({ sys with outbox := recoverStaleProcessingRows now sys.outbox }.goto i .recovered)
    | _ => none
  | .claim i now locked =>
    match sys.stages i with
    | .recovered =>
      let (outbox, rows) := claimPendingRows now locked 20 sys.outbox
      some ({ sys with outbox }.goto i (.working rows))
    | _ => none
  | .handle i outcome =>
    match sys.stages i with
    | .working [] => some (sys.goto i .idle)
    | .working (row :: rest) =>
      -- a row without an event type is passed over
      if row.eventType = "" then some (sys.goto i (.working rest))
      else some ({ sys with log := logged row outcome sys.log }.goto i (.handled row outcome rest))
    | _ => none
  | .update i now =>
    match sys.stages i with
    | .handled row outcome rest =>
      some ({ sys with outbox := settle row outcome now sys.outbox }.goto i (.working rest))
    | _ => none
  | .updateFails i =>
    match sys.stages i with
    -- the update to `DONE` is inside the `try`, the other one leaves the loop
    | .handled row .published rest => some (sys.goto i (.handled row .error rest))
    | .handled _ _ _ => some (sys.goto i .idle)
    | _ => none
  | .crash i => some (sys.goto i .idle)

/-- What a step does, by its action. -/
inductive Moves (sys : System) : Action → System → Prop where
  | enqueue {id : ℕ} {eventType payload : String} {now : ℤ} (fresh : sys.outbox.find? id = none) :
    Moves sys (.enqueue id eventType payload now)
      { sys with outbox := sys.outbox.put (enqueued id eventType payload now) }
  | recover {i : ℕ} {now : ℤ} (stage : sys.stages i = .idle) : Moves sys (.recover i now)
    ({ sys with outbox := recoverStaleProcessingRows now sys.outbox }.goto i .recovered)
  | claim {i : ℕ} {now : ℤ} {locked : List ℕ} (stage : sys.stages i = .recovered) :
    Moves sys (.claim i now locked)
      ({ sys with outbox := (claimPendingRows now locked 20 sys.outbox).1 }.goto i
        (.working (claimPendingRows now locked 20 sys.outbox).2))
  | finish {i : ℕ} {outcome : Outcome} (stage : sys.stages i = .working []) :
    Moves sys (.handle i outcome) (sys.goto i .idle)
  | pass {i : ℕ} {outcome : Outcome} {row : StaysMessagingOutbox} {rest : List StaysMessagingOutbox}
    (stage : sys.stages i = .working (row :: rest)) :
    Moves sys (.handle i outcome) (sys.goto i (.working rest))
  | handle {i : ℕ} {outcome : Outcome} {row : StaysMessagingOutbox}
    {rest : List StaysMessagingOutbox} (stage : sys.stages i = .working (row :: rest)) :
    Moves sys (.handle i outcome)
      ({ sys with log := logged row outcome sys.log }.goto i (.handled row outcome rest))
  | update {i : ℕ} {now : ℤ} {row : StaysMessagingOutbox} {outcome : Outcome}
    {rest : List StaysMessagingOutbox} (stage : sys.stages i = .handled row outcome rest) :
    Moves sys (.update i now)
      ({ sys with outbox := settle row outcome now sys.outbox }.goto i (.working rest))
  | caught {i : ℕ} {row : StaysMessagingOutbox} {rest : List StaysMessagingOutbox}
    (stage : sys.stages i = .handled row .published rest) :
    Moves sys (.updateFails i) (sys.goto i (.handled row .error rest))
  | leave {i : ℕ} : Moves sys (.updateFails i) (sys.goto i .idle)
  | crash {i : ℕ} : Moves sys (.crash i) (sys.goto i .idle)

variable {sys sys' : System} {a : Action}

theorem moves_of_step (h : step sys a = some sys') : Moves sys a sys' := by
  cases a with
  | enqueue id eventType payload now =>
    simp only [step] at h
    split_ifs at h with hfound
    obtain rfl := Option.some.inj h
    exact .enqueue (by simpa using hfound)
  | recover i now =>
    simp only [step] at h
    split at h
    · obtain rfl := Option.some.inj h
      exact .recover ‹_›
    · cases h
  | claim i now locked =>
    simp only [step] at h
    split at h
    · obtain rfl := Option.some.inj h
      exact .claim ‹_›
    · cases h
  | handle i outcome =>
    simp only [step] at h
    split at h
    · obtain rfl := Option.some.inj h
      exact .finish ‹_›
    · split_ifs at h
      · obtain rfl := Option.some.inj h
        exact .pass ‹_›
      · obtain rfl := Option.some.inj h
        exact .handle ‹_›
    · cases h
  | update i now =>
    simp only [step] at h
    split at h
    · obtain rfl := Option.some.inj h
      exact .update ‹_›
    · cases h
  | updateFails i =>
    simp only [step] at h
    split at h
    · obtain rfl := Option.some.inj h
      exact .caught ‹_›
    · obtain rfl := Option.some.inj h
      exact .leave
    · cases h
  | crash i =>
    obtain rfl := Option.some.inj h
    exact .crash

/-- A run whose every step meets `ok`, a condition on the state before it. -/
inductive Run (ok : System → Action → Prop) (sys : System) : System → Prop where
  | refl : Run ok sys sys
  | tail {mid sys' : System} {a : Action} (run : Run ok sys mid) (meets : ok mid a)
      (step : step mid a = some sys') : Run ok sys sys'

theorem Run.invariant {ok : System → Action → Prop} {P : System → Prop}
    (hstep : ∀ sys a sys', P sys → ok sys a → Moves sys a sys' → P sys') (h : Run ok sys sys')
    (hP : P sys) : P sys' := by
  induction h with
  | refl => exact hP
  | tail _ meets step ih => exact hstep _ _ _ ih meets (moves_of_step step)

variable {outbox : Outbox} {now : ℤ} {locked : List ℕ} {limit id : ℕ} {row : StaysMessagingOutbox}
  {outcome : Outcome}

theorem find?_recover : (recoverStaleProcessingRows now outbox).find? id =
    (outbox.find? id).map fun r => if stale now r then requeued now r else r :=
  Table.find?_update (f := requeued now) (fun _ => rfl) outbox (stale now) id

theorem mem_due (h : row ∈ due now locked limit outbox) :
    outbox.find? row.id = some row ∧ row.status = .pending := by
  have hrow := Keyset.mem_orderBy.mp (List.mem_of_mem_take h)
  obtain ⟨hmem, hdue⟩ := List.mem_filter.mp hrow
  simp only [Bool.and_eq_true, decide_eq_true_eq] at hdue
  exact ⟨Table.find?_key hmem, hdue.1.1⟩

theorem nodup_due : ((due now locked limit outbox).map (·.id)).Nodup := by
  have hrows := Table.nodup_filter outbox fun row =>
    row.status = .pending && row.nextRetryAt ≤ now && row.id ∉ locked
  have hperm : (Keyset.orderBy (fun row : StaysMessagingOutbox => row.createdAt)
      (outbox.rows.filter fun row =>
        row.status = .pending && row.nextRetryAt ≤ now && row.id ∉ locked)).Perm _ :=
    Keyset.orderBy_perm _
  have hsorted := (hperm.map StaysMessagingOutbox.id).nodup_iff.mpr hrows
  exact hsorted.sublist ((List.take_sublist _ _).map _)

theorem ids_claimed : ((due now locked limit outbox).map claimed).map (·.id) =
    (due now locked limit outbox).map (·.id) := by
  simp [claimed]

theorem find?_claim_of_due (h : row ∈ due now locked limit outbox) :
    (claimPendingRows now locked limit outbox).1.find? row.id = some (claimed row) :=
  Table.find?_putAll_of_mem (r := claimed row) (by rw [ids_claimed]; exact nodup_due)
    (List.mem_map_of_mem h)

theorem find?_claim_of_not_due (h : ∀ r ∈ due now locked limit outbox, r.id ≠ id) :
    (claimPendingRows now locked limit outbox).1.find? id = outbox.find? id := by
  refine Table.find?_putAll_of_notMem ?_
  rw [ids_claimed]
  intro hmem
  obtain ⟨r, hr, hid⟩ := List.mem_map.mp hmem
  exact h r hr hid

theorem settled_id {current : StaysMessagingOutbox} :
    (settled row outcome now current).id = current.id := by
  unfold settled
  split <;> rfl

theorem find?_settle : (settle row outcome now outbox).find? id =
    if id = row.id then (outbox.find? id).map (settled row outcome now) else outbox.find? id := by
  unfold settle
  cases hcurrent : outbox.find? row.id with
  | none =>
    by_cases hid : id = row.id
    · simp [hid, hcurrent]
    · simp [hid]
  | some current =>
    have hkey : current.id = row.id := Table.key_of_find? hcurrent
    by_cases hid : id = row.id
    · simp [hid, hcurrent, settled_id, hkey]
    · simp [hid, settled_id, hkey]

/-- How a step changes a row. -/
inductive RowMoves (sys : System) (a : Action) (row : StaysMessagingOutbox) :
    StaysMessagingOutbox → Prop where
  | same : RowMoves sys a row row
  | requeue {i : ℕ} {now : ℤ} (action : a = .recover i now) (left : stale now row = true) :
    RowMoves sys a row (requeued now row)
  | claim (pending : row.status = .pending) : RowMoves sys a row (claimed row)
  | settle {i : ℕ} {held : StaysMessagingOutbox} {outcome : Outcome}
    {rest : List StaysMessagingOutbox} {now : ℤ} (action : a = .update i now)
    (stage : sys.stages i = .handled held outcome rest) (same : held.id = row.id) :
    RowMoves sys a row (settled held outcome now row)

theorem row_moves (h : Moves sys a sys') (hrow : sys.outbox.find? id = some row) :
    ∃ row', sys'.outbox.find? id = some row' ∧ RowMoves sys a row row' := by
  have hid : row.id = id := Table.key_of_find? hrow
  cases h with
  | @enqueue new eventType payload now fresh =>
    have hne : id ≠ new := by
      rintro rfl
      rw [fresh] at hrow
      cases hrow
    exact ⟨row, by rw [Table.find?_put_of_ne hne, hrow], .same⟩
  | @recover i now =>
    refine ⟨if stale now row then requeued now row else row, ?_, ?_⟩
    · show (recoverStaleProcessingRows now sys.outbox).find? id = _
      rw [find?_recover, hrow, Option.map_some]
    · split_ifs with hstale
      · exact .requeue rfl hstale
      · exact .same
  | @claim i now locked =>
    by_cases hdue : row ∈ due now locked 20 sys.outbox
    · exact ⟨claimed row, hid ▸ find?_claim_of_due hdue, .claim (mem_due hdue).2⟩
    · refine ⟨row, (find?_claim_of_not_due fun r hr heq => hdue ?_).trans hrow, .same⟩
      obtain rfl : r = row := Option.some.inj ((mem_due hr).1.symm.trans (by rw [heq, hrow]))
      exact hr
  | @update i now held outcome rest stage =>
    refine ⟨if id = held.id then settled held outcome now row else row, ?_, ?_⟩
    · show (settle held outcome now sys.outbox).find? id = _
      rw [find?_settle, hrow]
      split_ifs <;> rfl
    · split_ifs with heq
      · exact .settle rfl stage (heq.symm.trans hid.symm)
      · exact .same
  | finish | pass | handle | caught | leave | crash => exact ⟨row, hrow, .same⟩

/-- Where a row comes from. -/
theorem row_origin (h : Moves sys a sys') {row' : StaysMessagingOutbox}
    (hrow' : sys'.outbox.find? id = some row') :
    (∃ row, sys.outbox.find? id = some row ∧ RowMoves sys a row row') ∨
      sys.outbox.find? id = none ∧
        ∃ eventType payload now, row' = enqueued id eventType payload now := by
  cases hrow : sys.outbox.find? id with
  | some row =>
    obtain ⟨moved, hmoved, hmoves⟩ := row_moves h hrow
    obtain rfl : moved = row' := Option.some.inj (hmoved.symm.trans hrow')
    exact .inl ⟨row, rfl, hmoves⟩
  | none =>
    refine .inr ⟨rfl, ?_⟩
    cases h with
    | @enqueue new eventType payload now =>
      rw [Table.find?_put] at hrow'
      split_ifs at hrow' with hid
      · exact ⟨eventType, payload, now, by rw [hid]; exact (Option.some.inj hrow').symm⟩
      · rw [hrow] at hrow'
        cases hrow'
    | @recover i now =>
      have habsent : (recoverStaleProcessingRows now sys.outbox).find? id = none := by
        rw [find?_recover, hrow, Option.map_none]
      cases habsent.symm.trans hrow'
    | @claim i now locked =>
      have habsent : (claimPendingRows now locked 20 sys.outbox).1.find? id = none := by
        refine (find?_claim_of_not_due fun r hr heq => ?_).trans hrow
        rw [← heq, (mem_due hr).1] at hrow
        cases hrow
      cases habsent.symm.trans hrow'
    | @update i now held outcome rest =>
      have habsent : (settle held outcome now sys.outbox).find? id = none := by
        rw [find?_settle, hrow]
        split_ifs <;> rfl
      cases habsent.symm.trans hrow'
    | finish | pass | handle | caught | leave | crash => cases hrow.symm.trans hrow'

/-- Where a row that an instance holds comes from. -/
theorem held_origin (h : Moves sys a sys') {i : ℕ} (hheld : row ∈ (sys'.stages i).rows) :
    row ∈ (sys.stages i).rows ∨ sys.stages i = .recovered ∧
      ∃ now locked before, a = .claim i now locked ∧ before ∈ due now locked 20 sys.outbox ∧
        row = claimed before := by
  cases h with
  | enqueue => exact .inl hheld
  | @claim j now locked stage =>
    by_cases hi : i = j
    · subst hi
      rw [goto_self] at hheld
      obtain ⟨before, hbefore, rfl⟩ := List.mem_map.mp hheld
      exact .inr ⟨stage, now, locked, before, rfl, hbefore, rfl⟩
    · rw [goto_of_ne _ _ hi] at hheld
      exact .inl hheld
  | @recover j _ stage | @finish j _ stage | @pass j _ _ _ stage | @handle j _ _ _ stage
  | @update j _ _ _ _ stage | @caught j _ _ stage =>
    by_cases hi : i = j
    · subst hi
      rw [goto_self] at hheld
      rw [stage]
      simp only [Stage.rows, List.mem_cons] at hheld ⊢
      tauto
    · rw [goto_of_ne _ _ hi] at hheld
      exact .inl hheld
  | @leave j | @crash j =>
    by_cases hi : i = j
    · subst hi
      rw [goto_self] at hheld
      cases hheld
    · rw [goto_of_ne _ _ hi] at hheld
      exact .inl hheld

def exec (sys : System) : List Action → Option System
  | [] => some sys
  | a :: as => (step sys a).bind fun sys' => exec sys' as

section Schedules

variable {ok ok' : System → Action → Prop} {mid : System} {as : List Action}

theorem Run.trans (h : Run ok sys mid) (h' : Run ok mid sys') : Run ok sys sys' := by
  induction h' with
  | refl => exact h
  | tail _ meets step ih => exact .tail ih meets step

theorem Run.mono (himp : ∀ sys a, ok sys a → ok' sys a) (h : Run ok sys sys') :
    Run ok' sys sys' := by
  induction h with
  | refl => exact .refl
  | tail _ meets step ih => exact .tail ih (himp _ _ meets) step

theorem run_of_exec (hok : ∀ mid, ∀ a ∈ as, ok mid a) (h : exec sys as = some sys') :
    Run ok sys sys' := by
  induction as generalizing sys with
  | nil =>
    obtain rfl : sys = sys' := by simpa [exec] using h
    exact .refl
  | cons a as ih =>
    obtain ⟨mid, hstep, hrest⟩ := Option.bind_eq_some_iff.mp h
    exact Run.trans (.tail .refl (hok sys a List.mem_cons_self) hstep)
      (ih (fun mid b hb => hok mid b (List.mem_cons_of_mem a hb)) hrest)

end Schedules

/-- What holds of the outbox, also where instances die and rows are put back too early. -/
structure Sound (sys : System) : Prop where
  bounded : ∀ id row, sys.outbox.find? id = some row → row.attempts ≤ maxOutboxAttempts
  unfinished : ∀ id row, sys.outbox.find? id = some row → row.status ∈ [.pending, .processing] →
    row.attempts < maxOutboxAttempts
  held : ∀ i, ∀ row ∈ (sys.stages i).rows, row.attempts < maxOutboxAttempts
  done : ∀ id row, sys.outbox.find? id = some row → row.status = .done → id ∈ sys.log
  handled : ∀ i row rest, sys.stages i = .handled row .published rest → row.id ∈ sys.log

theorem sound_start : Sound start := by
  refine ⟨fun id row h => ?_, fun id row h => ?_, fun i row h => ?_, fun id row h => ?_,
    fun i row rest h => ?_⟩
  all_goals cases h

theorem subset_logged (row : StaysMessagingOutbox) (outcome : Outcome) (log : List ℕ) :
    log ⊆ logged row outcome log := by
  cases outcome with
  | published => exact List.subset_append_left _ _
  | validationError | error => exact List.Subset.refl _

theorem log_moves (h : Moves sys a sys') : sys.log ⊆ sys'.log := by
  cases h with
  | handle => exact subset_logged _ _ _
  | _ => exact List.Subset.refl _

/-- An instance that has published an event has just done so. -/
theorem handled_origin (h : Moves sys a sys') {i : ℕ} {rest : List StaysMessagingOutbox}
    (hstage : sys'.stages i = .handled row .published rest) :
    sys.stages i = .handled row .published rest ∨
      sys.stages i = .working (row :: rest) ∧ sys'.log = sys.log ++ [row.id] := by
  cases h with
  | enqueue => exact .inl hstage
  | @handle j outcome row' rest' stage =>
    by_cases hi : i = j
    · subst hi
      rw [goto_self] at hstage
      cases hstage
      exact .inr ⟨stage, rfl⟩
    · exact .inl (by rwa [goto_of_ne _ _ hi] at hstage)
  | @recover j | @claim j | @finish j | @pass j | @update j | @caught j | @leave j | @crash j =>
    by_cases hi : i = j
    · subst hi
      rw [goto_self] at hstage
      cases hstage
    · exact .inl (by rwa [goto_of_ne _ _ hi] at hstage)

theorem attempts_settled {held : StaysMessagingOutbox} (hheld : held.attempts < maxOutboxAttempts)
    (hrow : row.attempts ≤ maxOutboxAttempts) :
    (settled held outcome now row).attempts ≤ maxOutboxAttempts := by
  unfold settled
  split_ifs
  · exact hrow
  · exact hheld

theorem attempts_of_settled {held : StaysMessagingOutbox}
    (h : (settled held outcome now row).status ∈ [OutboxStatus.pending, .processing]) :
    (settled held outcome now row).attempts < maxOutboxAttempts := by
  unfold settled at h ⊢
  split_ifs at h ⊢ with hpublished
  · simp at h
  · dsimp only at h ⊢
    split_ifs at h with hfailure
    · simp at h
    · rw [not_or] at hfailure
      omega

theorem sound_moves (hs : Sound sys) (h : Moves sys a sys') : Sound sys' where
  bounded id row' hrow' := by
    obtain ⟨row, hrow, hmoves⟩ | ⟨-, _, _, _, rfl⟩ := row_origin h hrow'
    · cases hmoves with
      | same => exact hs.bounded id row' hrow
      | requeue | claim => exact hs.bounded id row hrow
      | @settle i held _ rest _ _ stage =>
        exact attempts_settled (hs.held i held (by rw [stage]; exact List.mem_cons_self))
          (hs.bounded id row hrow)
    · exact Nat.zero_le _
  unfinished id row' hrow' hstatus := by
    obtain ⟨row, hrow, hmoves⟩ | ⟨-, _, _, _, rfl⟩ := row_origin h hrow'
    · cases hmoves with
      | same => exact hs.unfinished id row' hrow hstatus
      | requeue _ left =>
        refine hs.unfinished id row hrow ?_
        simp only [stale, Bool.and_eq_true, decide_eq_true_eq] at left
        simp [left.1.1]
      | claim pending => exact hs.unfinished id row hrow (by simp [pending])
      | settle => exact attempts_of_settled hstatus
    · exact Nat.zero_lt_succ _
  held i row hheld := by
    obtain hold | ⟨-, _, _, before, -, hdue, rfl⟩ := held_origin h hheld
    · exact hs.held i row hold
    · exact hs.unfinished _ before (mem_due hdue).1 (by simp [(mem_due hdue).2])
  done id row' hrow' hstatus := by
    obtain ⟨row, hrow, hmoves⟩ | ⟨-, _, _, _, rfl⟩ := row_origin h hrow'
    · cases hmoves with
      | same => exact log_moves h (hs.done id row' hrow hstatus)
      | requeue | claim => cases hstatus
      | @settle i held outcome rest _ _ stage same =>
        have hid : row.id = id := Table.key_of_find? hrow
        unfold settled at hstatus
        split_ifs at hstatus with hpublished
        · subst hpublished
          rw [← hid, ← same]
          exact log_moves h (hs.handled i held rest stage)
        · dsimp only at hstatus
          split_ifs at hstatus
    · cases hstatus
  handled i row rest hstage := by
    obtain hold | ⟨-, hlog⟩ := handled_origin h hstage
    · exact log_moves h (hs.handled i row rest hold)
    · rw [hlog]
      exact List.mem_append_right _ List.mem_cons_self

/-- The event of a row, which nothing changes. -/
def SameEvent (row row' : StaysMessagingOutbox) : Prop :=
  row'.id = row.id ∧ row'.eventType = row.eventType ∧ row'.payload = row.payload ∧
    row'.createdAt = row.createdAt

theorem sameEvent_of_moves {row' : StaysMessagingOutbox} (h : RowMoves sys a row row') :
    SameEvent row row' := by
  cases h with
  | same | requeue | claim => exact ⟨rfl, rfl, rfl, rfl⟩
  | settle =>
    unfold settled
    split <;> exact ⟨rfl, rfl, rfl, rfl⟩

/-- No event is lost: its row stays, with at most five attempts, fewer while it is not finished,
and a row that is done has been published. -/
theorem no_event_lost {sys sys' : System} (h : Run (fun _ _ => True) start sys)
    (hrun : Run (fun _ _ => True) sys sys') {id : ℕ} {row : StaysMessagingOutbox}
    (hrow : sys.outbox.find? id = some row) :
    ∃ row', sys'.outbox.find? id = some row' ∧ SameEvent row row' ∧
      row'.attempts ≤ maxOutboxAttempts ∧
      (row'.status ∈ [.pending, .processing] → row'.attempts < maxOutboxAttempts) ∧
      (row'.status = .done → id ∈ sys'.log) := by
  have hstays : ∃ row', sys'.outbox.find? id = some row' ∧ SameEvent row row' := by
    induction hrun with
    | refl => exact ⟨row, hrow, rfl, rfl, rfl, rfl⟩
    | tail _ _ step ih =>
      obtain ⟨mid, hmid, h₁, h₂, h₃, h₄⟩ := ih
      obtain ⟨row', hrow', hmoves⟩ := row_moves (moves_of_step step) hmid
      obtain ⟨h₁', h₂', h₃', h₄'⟩ := sameEvent_of_moves hmoves
      exact ⟨row', hrow', h₁'.trans h₁, h₂'.trans h₂, h₃'.trans h₃, h₄'.trans h₄⟩
  have hsound : Sound sys' := hrun.invariant (fun _ _ _ hs _ => sound_moves hs)
    (h.invariant (fun _ _ _ hs _ => sound_moves hs) sound_start)
  obtain ⟨row', hrow', hsame⟩ := hstays
  exact ⟨row', hrow', hsame, hsound.bounded id row' hrow', hsound.unfinished id row' hrow',
    hsound.done id row' hrow'⟩

/-- Two events are enqueued, and two instances start. -/
def sampleStart : List Action :=
  [.enqueue 1 "MESSAGE_SENT" "first" 0, .enqueue 2 "MESSAGE_SENT" "second" 0, .recover 0 1,
    .recover 1 1]

/-- The first instance takes one event while the second has locked the other. -/
def sampleClaims : List Action := [.claim 0 1 [2], .claim 1 1 []]

def sampleUpdates : List Action :=
  [.handle 1 .published, .handle 0 .published, .update 0 2, .update 1 2]

/-- The states of this schedule. -/
theorem exists_sample : ∃ s₁ s₂ s₃ : System, exec start sampleStart = some s₁ ∧
    exec s₁ sampleClaims = some s₂ ∧ exec s₂ sampleUpdates = some s₃ ∧
    s₂.outbox.rows.map (·.status) = [.processing, .processing] ∧ s₃.log = [2, 1] ∧
    s₃.outbox.rows.map (·.status) = [.done, .done] := by
  refine ⟨_, _, _, rfl, rfl, rfl, ?_, ?_, ?_⟩
  · decide +kernel
  · decide +kernel
  · decide +kernel

theorem no_event_lost_sample : ∃ sys sys' : System,
    sys.outbox.rows.map (·.status) = [.processing, .processing] ∧ ∀ row ∈ sys.outbox.rows,
      ∃ row', sys'.outbox.find? row.id = some row' ∧ SameEvent row row' ∧
        row'.attempts ≤ maxOutboxAttempts ∧
        (row'.status ∈ [.pending, .processing] → row'.attempts < maxOutboxAttempts) ∧
        (row'.status = .done → row.id ∈ sys'.log) := by
  obtain ⟨s₁, s₂, s₃, h₁, h₂, h₃, hstatus, -⟩ := exists_sample
  have hany : ∀ {sys sys' : System} {as : List Action}, exec sys as = some sys' →
      Run (fun _ _ => True) sys sys' := run_of_exec fun _ _ _ => trivial
  exact ⟨s₂, s₃, hstatus, fun row hrow =>
    no_event_lost ((hany h₁).trans (hany h₂)) (hany h₃) (Table.find?_key hrow)⟩

/-- The step puts a row back that an instance still works on. -/
def Sweeps (sys : System) (a : Action) : Prop :=
  ∃ i now, a = .recover i now ∧ ∃ j, ∃ row ∈ (sys.stages j).rows, ∃ current,
    sys.outbox.find? row.id = some current ∧ stale now current = true

/-- What an instance has claimed is in processing and unchanged, and no other has it. -/
structure Exclusive (sys : System) : Prop where
  current : ∀ i, ∀ row ∈ (sys.stages i).rows,
    sys.outbox.find? row.id = some row ∧ row.status = .processing
  once : ∀ i, ((sys.stages i).rows.map (·.id)).Nodup
  apart : ∀ i j, i ≠ j → ∀ row ∈ (sys.stages i).rows, ∀ row' ∈ (sys.stages j).rows, row.id ≠ row'.id

theorem exclusive_start : Exclusive start := by
  refine ⟨fun i row h => ?_, fun i => List.nodup_nil, fun i j _ row h => ?_⟩
  · cases h
  · cases h

/-- The row that an instance writes is no longer one of its own. -/
theorem not_held_of_update (hs : Exclusive sys) {i : ℕ} {held : StaysMessagingOutbox}
    {rest : List StaysMessagingOutbox} (stage : sys.stages i = .handled held outcome rest)
    (h : Moves sys (.update i now) sys') {j : ℕ} (hrow : row ∈ (sys'.stages j).rows) :
    row.id ≠ held.id := by
  have hheld : held ∈ (sys.stages i).rows := by
    rw [stage]
    exact List.mem_cons_self
  by_cases hj : j = i
  · subst hj
    have honce := hs.once j
    rw [stage] at honce
    cases h with
    | update stage' =>
      obtain ⟨rfl, rfl, rfl⟩ := Stage.handled.inj (stage.symm.trans stage')
      rw [goto_self] at hrow
      exact fun hid => (List.nodup_cons.mp honce).1 (List.mem_map.mpr ⟨row, hrow, hid⟩)
  · obtain hold | ⟨-, _, _, _, haction, -⟩ := held_origin h hrow
    · exact hs.apart j i hj row hold held hheld
    · cases haction

theorem exclusive_moves (hs : Exclusive sys) (ha : ¬Sweeps sys a) (h : Moves sys a sys') :
    Exclusive sys' where
  current i row hheld := by
    obtain hold | ⟨-, now, locked, before, haction, hdue, rfl⟩ := held_origin h hheld
    · obtain ⟨hrow, hstatus⟩ := hs.current i row hold
      obtain ⟨row', hrow', hmoves⟩ := row_moves h hrow
      cases hmoves with
      | same => exact ⟨hrow', hstatus⟩
      | requeue action left => exact absurd ⟨_, _, action, i, row, hold, row, hrow, left⟩ ha
      | claim pending =>
        rw [hstatus] at pending
        cases pending
      | settle action stage same =>
        subst action
        exact absurd same.symm (not_held_of_update hs stage h hheld)
    · subst haction
      have hclaim := find?_claim_of_due hdue
      cases h with
      | claim => exact ⟨hclaim, rfl⟩
  once i := by
    cases h with
    | enqueue => exact hs.once i
    | @claim j now locked =>
      by_cases hi : i = j
      · subst hi
        rw [goto_self]
        show (((due now locked 20 sys.outbox).map claimed).map (·.id)).Nodup
        rw [ids_claimed]
        exact nodup_due
      · rw [goto_of_ne _ _ hi]
        exact hs.once i
    | @pass j _ _ _ stage | @update j _ _ _ _ stage =>
      by_cases hi : i = j
      · subst hi
        have honce := hs.once i
        rw [stage] at honce
        rw [goto_self]
        exact (List.nodup_cons.mp honce).2
      · rw [goto_of_ne _ _ hi]
        exact hs.once i
    | @handle j _ _ _ stage | @caught j _ _ stage =>
      by_cases hi : i = j
      · subst hi
        have honce := hs.once i
        rw [stage] at honce
        rw [goto_self]
        exact honce
      · rw [goto_of_ne _ _ hi]
        exact hs.once i
    | @recover j | @finish j | @leave j | @crash j =>
      by_cases hi : i = j
      · subst hi
        rw [goto_self]
        exact List.nodup_nil
      · rw [goto_of_ne _ _ hi]
        exact hs.once i
  apart i j hij row hrow row' hrow' := by
    have hnew : ∀ {before held : StaysMessagingOutbox} {k : ℕ} {now : ℤ} {locked : List ℕ},
        before ∈ due now locked 20 sys.outbox → held ∈ (sys.stages k).rows →
          before.id ≠ held.id := by
      intro before held k now locked hdue hheld hid
      obtain ⟨hfound, hpending⟩ := mem_due hdue
      obtain ⟨hcurrent, hprocessing⟩ := hs.current k held hheld
      rw [hid, hcurrent] at hfound
      rw [Option.some.inj hfound, hpending] at hprocessing
      cases hprocessing
    obtain hold | ⟨hstage, now, locked, before, haction, hdue, rfl⟩ := held_origin h hrow
    · obtain hold' | ⟨-, _, _, before, -, hdue, rfl⟩ := held_origin h hrow'
      · exact hs.apart i j hij row hold row' hold'
      · exact fun hid => hnew hdue hold hid.symm
    · obtain hold' | ⟨hstage', _, _, _, haction', -⟩ := held_origin h hrow'
      · exact fun hid => hnew hdue hold' hid
      · rw [haction] at haction'
        exact absurd (Action.claim.inj haction').1 hij

/-- A row that is done or has failed stays as it is. -/
theorem settled_stays (hs : Exclusive sys) (h : Moves sys a sys')
    (hrow : sys.outbox.find? id = some row) (hstatus : row.status ∈ [.done, .failed]) :
    sys'.outbox.find? id = some row := by
  have hid : row.id = id := Table.key_of_find? hrow
  obtain ⟨row', hrow', hmoves⟩ := row_moves h hrow
  cases hmoves with
  | same => exact hrow'
  | requeue _ left =>
    simp only [stale, Bool.and_eq_true, decide_eq_true_eq] at left
    simp [left.1.1] at hstatus
  | claim pending => simp [pending] at hstatus
  | @settle i held _ _ _ _ stage same =>
    obtain ⟨hcurrent, hprocessing⟩ := hs.current i held (by rw [stage]; exact List.mem_cons_self)
    rw [same, hid, hrow] at hcurrent
    rw [← Option.some.inj hcurrent] at hprocessing
    simp [hprocessing] at hstatus

/-- While no row is put back that an instance works on, no two instances have the same row, each
has its rows as they are, and a row that is done or has failed stays so. -/
theorem one_worker_at_a_time {sys sys' : System} (h : Run (fun sys a => ¬Sweeps sys a) start sys)
    (hrun : Run (fun sys a => ¬Sweeps sys a) sys sys') :
    Exclusive sys' ∧ ∀ id row, sys.outbox.find? id = some row → row.status ∈ [.done, .failed] →
      sys'.outbox.find? id = some row := by
  have hreach : Exclusive sys :=
    h.invariant (fun _ _ _ hs ha => exclusive_moves hs ha) exclusive_start
  have hboth : Exclusive sys' ∧ ∀ id row, sys.outbox.find? id = some row →
      row.status ∈ [OutboxStatus.done, .failed] → sys'.outbox.find? id = some row := by
    induction hrun with
    | refl => exact ⟨hreach, fun _ _ hrow _ => hrow⟩
    | tail _ meets step ih =>
      obtain ⟨hs, hstays⟩ := ih
      refine ⟨exclusive_moves hs meets (moves_of_step step), fun id row hrow hstatus => ?_⟩
      exact settled_stays hs (moves_of_step step) (hstays id row hrow hstatus) hstatus
  exact hboth

theorem not_sweeps_of_action (h : ∀ i now, a ≠ .recover i now) : ¬Sweeps sys a := by
  rintro ⟨i, now, haction, -⟩
  exact h i now haction

/-- Before anything is claimed nothing is put back. -/
theorem run_of_unclaimed {ok : System → Action → Prop} {as : List Action}
    (hok : ∀ mid, ∀ a ∈ as, ¬Sweeps mid a → ok mid a) (hrows : ∀ i, (sys.stages i).rows = [])
    (has : ∀ a ∈ as, ∀ i now locked, a ≠ .claim i now locked) (h : exec sys as = some sys') :
    Run ok sys sys' := by
  induction as generalizing sys with
  | nil =>
    obtain rfl : sys = sys' := by simpa [exec] using h
    exact .refl
  | cons a as ih =>
    obtain ⟨mid, hstep, hrest⟩ := Option.bind_eq_some_iff.mp h
    have hsweeps : ¬Sweeps sys a := by
      rintro ⟨-, -, -, j, row, hrow, -⟩
      rw [hrows j] at hrow
      cases hrow
    have hnone : ∀ i, (mid.stages i).rows = [] := by
      intro i
      refine List.eq_nil_iff_forall_not_mem.mpr fun row hrow => ?_
      obtain hold | ⟨-, now, locked, _, haction, -⟩ := held_origin (moves_of_step hstep) hrow
      · rw [hrows i] at hold
        cases hold
      · exact has a List.mem_cons_self i now locked haction
    exact Run.trans (.tail .refl (hok sys a List.mem_cons_self hsweeps) hstep)
      (ih (fun mid b hb => hok mid b (List.mem_cons_of_mem a hb)) hnone
        (fun b hb => has b (List.mem_cons_of_mem a hb)) hrest)

theorem one_worker_at_a_time_sample : ∃ sys sys' : System,
    sys.outbox.rows.map (·.status) = [.processing, .processing] ∧
    Exclusive sys' ∧ ∀ id row, sys.outbox.find? id = some row → row.status ∈ [.done, .failed] →
      sys'.outbox.find? id = some row := by
  obtain ⟨s₁, s₂, s₃, h₁, h₂, h₃, hstatus, -⟩ := exists_sample
  have hrun₁ : Run (fun sys a => ¬Sweeps sys a) start s₁ :=
    run_of_unclaimed (fun _ _ _ h => h) (fun _ => rfl) (by simp [sampleStart]) h₁
  have hrun₂ : Run (fun sys a => ¬Sweeps sys a) s₁ s₂ :=
    run_of_exec (fun _ a ha => not_sweeps_of_action (by revert a; simp [sampleClaims])) h₂
  have hrun₃ : Run (fun sys a => ¬Sweeps sys a) s₂ s₃ :=
    run_of_exec (fun _ a ha => not_sweeps_of_action (by revert a; simp [sampleUpdates])) h₃
  exact ⟨s₂, s₃, hstatus, one_worker_at_a_time (hrun₁.trans hrun₂) hrun₃⟩

/-- The step loses that an event was published: it keeps its instance from writing so. -/
def Forgets (sys : System) (a : Action) : Prop :=
  ∃ i row rest, sys.stages i = .handled row .published rest ∧ (a = .crash i ∨ a = .updateFails i)

/-- The event of the row is published, and its instance is about to write so. -/
def InFlight (sys : System) (id : ℕ) : Prop :=
  ∃ i row rest, sys.stages i = .handled row .published rest ∧ row.id = id

structure PublishedOnce (sys : System) : Prop where
  nodup : sys.log.Nodup
  known : ∀ id ∈ sys.log, (∃ row, sys.outbox.find? id = some row ∧ row.status = .done) ∨
    InFlight sys id

theorem inFlight_moves (hs : Exclusive sys) (ha : ¬Forgets sys a) (h : Moves sys a sys')
    (hflight : InFlight sys id) :
    (∃ row, sys'.outbox.find? id = some row ∧ row.status = .done) ∨ InFlight sys' id := by
  obtain ⟨i, row, rest, hstage, hid⟩ := hflight
  have hother : ∀ {j : ℕ} {stage : Stage} {sys₁ : System}, sys₁.stages = sys.stages → i ≠ j →
      InFlight (sys₁.goto j stage) id := by
    intro j stage sys₁ hsame hij
    exact ⟨i, row, rest, by rw [goto_of_ne _ _ hij, hsame, hstage], hid⟩
  cases h with
  | enqueue => exact .inr ⟨i, row, rest, hstage, hid⟩
  | @update j now held outcome rest' stage =>
    by_cases hij : i = j
    · subst hij
      obtain ⟨rfl, rfl, rfl⟩ := Stage.handled.inj (hstage.symm.trans stage)
      obtain ⟨hcurrent, -⟩ := hs.current i row (by rw [hstage]; exact List.mem_cons_self)
      refine .inl ⟨settled row .published now row, ?_, rfl⟩
      rw [goto_outbox]
      show (settle row .published now sys.outbox).find? id = _
      rw [find?_settle, if_pos hid.symm, ← hid, hcurrent, Option.map_some]
    · exact .inr (hother rfl hij)
  | @recover j _ stage | @claim j _ _ stage | @finish j _ stage | @pass j _ _ _ stage
  | @handle j _ _ _ stage =>
    by_cases hij : i = j
    · subst hij
      rw [hstage] at stage
      cases stage
    · exact .inr (hother rfl hij)
  | @caught j | @leave j =>
    by_cases hij : i = j
    · subst hij
      exact absurd ⟨i, row, rest, hstage, .inr rfl⟩ ha
    · exact .inr (hother rfl hij)
  | @crash j =>
    by_cases hij : i = j
    · subst hij
      exact absurd ⟨i, row, rest, hstage, .inl rfl⟩ ha
    · exact .inr (hother rfl hij)

theorem publishedOnce_moves (hs : Exclusive sys) (hp : PublishedOnce sys) (ha : ¬Forgets sys a)
    (h : Moves sys a sys') : PublishedOnce sys' := by
  have hkept : ∀ id ∈ sys.log, (∃ row, sys'.outbox.find? id = some row ∧ row.status = .done) ∨
      InFlight sys' id := by
    intro id hid
    obtain ⟨row, hrow, hstatus⟩ | hflight := hp.known id hid
    · exact .inl ⟨row, settled_stays hs h hrow (by simp [hstatus]), hstatus⟩
    · exact inFlight_moves hs ha h hflight
  cases h with
  | @handle i outcome row rest stage =>
    cases outcome with
    | published =>
      have hheld : row ∈ (sys.stages i).rows := by
        rw [stage]
        exact List.mem_cons_self
      -- the event was not published before: its row is neither done nor in flight
      have hnew : row.id ∉ sys.log := by
        intro hmem
        obtain ⟨current, hcurrent, hdone⟩ | ⟨j, row', rest', hstage, hid⟩ := hp.known _ hmem
        · obtain ⟨hrow, hprocessing⟩ := hs.current i row hheld
          rw [← Option.some.inj (hrow.symm.trans hcurrent), hprocessing] at hdone
          cases hdone
        · by_cases hij : j = i
          · subst hij
            rw [hstage] at stage
            cases stage
          · refine hs.apart j i hij row' ?_ row hheld hid
            rw [hstage]
            exact List.mem_cons_self
      refine ⟨?_, fun id hid => ?_⟩
      · exact List.nodup_append.mpr ⟨hp.nodup, List.nodup_singleton _, fun a ha b hb hab => hnew
          (by rw [← List.mem_singleton.mp hb, ← hab]; exact ha)⟩
      · obtain hid | hid := List.mem_append.mp hid
        · exact hkept id hid
        · exact .inr ⟨i, row, rest, goto_self .., (List.mem_singleton.mp hid).symm⟩
    | validationError | error => exact ⟨hp.nodup, hkept⟩
  | _ => exact ⟨hp.nodup, hkept⟩

/-- If moreover no instance stops between a publication and its update, no event is published
twice. -/
theorem published_at_most_once {sys : System}
    (h : Run (fun sys a => ¬Sweeps sys a ∧ ¬Forgets sys a) start sys) : sys.log.Nodup := by
  have hboth : Exclusive sys ∧ PublishedOnce sys := by
    refine h.invariant (P := fun sys => Exclusive sys ∧ PublishedOnce sys)
      (fun sys a sys' hs ha hmoves => ?_) ⟨exclusive_start, ⟨List.nodup_nil, fun _ h => by cases h⟩⟩
    exact ⟨exclusive_moves hs.1 ha.1 hmoves, publishedOnce_moves hs.1 hs.2 ha.2 hmoves⟩
  exact hboth.2.nodup

theorem not_forgets_of_action (h : ∀ i, a ≠ .crash i ∧ a ≠ .updateFails i) : ¬Forgets sys a := by
  rintro ⟨i, -, -, -, haction | haction⟩
  · exact (h i).1 haction
  · exact (h i).2 haction

theorem published_at_most_once_sample : ∃ sys : System, sys.log = [2, 1] ∧ sys.log.Nodup := by
  obtain ⟨s₁, s₂, s₃, h₁, h₂, h₃, -, hlog, -⟩ := exists_sample
  have hrun₁ : Run (fun sys a => ¬Sweeps sys a ∧ ¬Forgets sys a) start s₁ :=
    run_of_unclaimed (fun _ a ha h => ⟨h, not_forgets_of_action (by
      revert a; simp [sampleStart])⟩) (fun _ => rfl) (by simp [sampleStart]) h₁
  have hrest : ∀ a ∈ sampleClaims ++ sampleUpdates, (∀ i now, a ≠ .recover i now) ∧
      ∀ i, a ≠ .crash i ∧ a ≠ .updateFails i := by
    simp [sampleClaims, sampleUpdates]
  have hok : ∀ {as : List Action}, as ⊆ sampleClaims ++ sampleUpdates → ∀ mid, ∀ a ∈ as,
      ¬Sweeps mid a ∧ ¬Forgets mid a := fun hsub _ a ha =>
    ⟨not_sweeps_of_action (hrest a (hsub ha)).1, not_forgets_of_action (hrest a (hsub ha)).2⟩
  have hrun₂ := run_of_exec (hok (List.subset_append_left _ _)) h₂
  have hrun₃ := run_of_exec (hok (List.subset_append_right _ _)) h₃
  exact ⟨s₃, hlog, published_at_most_once ((hrun₁.trans hrun₂).trans hrun₃)⟩

end NexaStays.OutboxWorker
