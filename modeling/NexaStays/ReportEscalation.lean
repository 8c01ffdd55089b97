import NexaStays.ReportTickets

/-!
# One ticket for each report

Whatever the order of the calls, a report has one ticket at most, the calls that return have it,
and no conversation or number is used up without a ticket.
-/
namespace NexaStays.ReportEscalation

open NexaStays.KeyedTable NexaStays.ReportTickets
open NexaStays.MessagingStore (MessagingError StaysConversation)

/-- The columns of a ticket that no call changes. -/
structure Same (t u : ReportTicket) : Prop where
  id : u.id = t.id
  conversation : u.conversationId = t.conversationId
  number : u.ticketNumber = t.ticketNumber
  report : u.reportId = t.reportId
  safetyIssue : u.safetyIssueId = t.safetyIssueId

/-- A ticket answers a call about a report and perhaps a safety issue. -/
def Serves (t : ReportTicket) (reportId safetyIssueId : Option ℕ) : Prop :=
  (∀ r, reportId = some r → t.reportId = some r) ∨
    ∃ s, safetyIssueId = some s ∧ t.safetyIssueId = some s

variable {t u v t' u' : ReportTicket}

theorem Same.refl (t : ReportTicket) : Same t t := ⟨rfl, rfl, rfl, rfl, rfl⟩

theorem Same.trans (h : Same t u) (h' : Same u v) : Same t v :=
  ⟨h'.id.trans h.id, h'.conversation.trans h.conversation, h'.number.trans h.number,
    h'.report.trans h.report, h'.safetyIssue.trans h.safetyIssue⟩

theorem same_raised (t : ReportTicket) : Same t (raised t) := ⟨rfl, rfl, rfl, rfl, rfl⟩

theorem clashes_symm (h : clashes t u) : clashes u t := by
  obtain ⟨hsome, heq⟩ | ⟨hsome, heq⟩ | heq | heq := h
  · exact Or.inl ⟨heq ▸ hsome, heq.symm⟩
  · exact Or.inr (Or.inl ⟨heq ▸ hsome, heq.symm⟩)
  · exact Or.inr (Or.inr (Or.inl heq.symm))
  · exact Or.inr (Or.inr (Or.inr heq.symm))

theorem clashes_of_same (ht : Same t t') (hu : Same u u') (h : clashes t' u') : clashes t u := by
  unfold clashes at h ⊢
  rw [ht.report, hu.report, ht.safetyIssue, hu.safetyIssue, ht.number, hu.number,
    ht.conversation, hu.conversation] at h
  exact h

theorem Serves.same {reportId safetyIssueId : Option ℕ} (h : Serves t reportId safetyIssueId)
    (hsame : Same t u) : Serves u reportId safetyIssueId := by
  unfold Serves
  rw [hsame.report, hsame.safetyIssue]
  exact h

/-- The unique columns of tickets are unique. -/
def Unique (db : Database) : Prop :=
  ∀ t ∈ db.tickets.rows, ∀ u ∈ db.tickets.rows, clashes t u → t = u

/-- The support conversations and the numbers that were not there at first have their tickets. -/
structure Tidy (base db : Database) : Prop where
  one : Unique db
  conversations : ∀ c ∈ db.conversations.rows, c.type = .support →
    c ∈ base.conversations.rows ∨ ∃ t ∈ db.tickets.rows, t.conversationId = c.id
  numbers : ∀ year n, base.counters year < n → n ≤ db.counters year →
    ∃ t ∈ db.tickets.rows, t.ticketNumber = ⟨year, n⟩

/-- The counters once the ticket of a transaction has its number. -/
def countersWith (counters : ℕ → ℕ) : Option Pending → ℕ → ℕ
  | none => counters
  | some p => Function.update counters p.ticket.ticketNumber.year p.ticket.ticketNumber.counter

@[simp] theorem countersWith_some (counters : ℕ → ℕ) (q : Pending) :
    countersWith counters (some q) = Function.update counters q.ticket.ticketNumber.year
      q.ticket.ticketNumber.counter := rfl

/-- A commit adds the rows of its transaction, and keeps what tickets are about. -/
structure Committed (db db' : Database) (p : Option Pending) : Prop where
  back : ∀ t' ∈ db'.tickets.rows, (∃ t ∈ db.tickets.rows, Same t t') ∨
    ∃ q, p = some q ∧ Same q.ticket t'
  kept : ∀ t ∈ db.tickets.rows, ∃ t' ∈ db'.tickets.rows, Same t t'
  added : ∀ q, p = some q → ∃ t' ∈ db'.tickets.rows, Same q.ticket t'
  conversations : ∀ c ∈ db'.conversations.rows, c ∈ db.conversations.rows ∨
    ∃ q, p = some q ∧ c = q.conversation
  counters : db'.counters = countersWith db.counters p

variable {base db db' db'' : Database} {p : Option Pending}

theorem Committed.refl (db : Database) : Committed db db none :=
  ⟨fun t' ht' => Or.inl ⟨t', ht', Same.refl t'⟩, fun t ht => ⟨t, ht, Same.refl t⟩,
    fun _ hq => (by cases hq), fun _ hc => Or.inl hc, rfl⟩

theorem Committed.trans (h : Committed db db' p) (h' : Committed db' db'' none) :
    Committed db db'' p := by
  refine ⟨fun t'' ht'' => ?_, fun t ht => ?_, fun q hq => ?_, fun c hc => ?_,
    h'.counters.trans h.counters⟩
  · obtain ⟨t', ht', hsame'⟩ | ⟨q, hq, -⟩ := h'.back t'' ht''
    · obtain ⟨t, ht, hsame⟩ | ⟨q, hq, hsame⟩ := h.back t' ht'
      · exact Or.inl ⟨t, ht, hsame.trans hsame'⟩
      · exact Or.inr ⟨q, hq, hsame.trans hsame'⟩
    · cases hq
  · obtain ⟨t', ht', hsame⟩ := h.kept t ht
    obtain ⟨t'', ht'', hsame'⟩ := h'.kept t' ht'
    exact ⟨t'', ht'', hsame.trans hsame'⟩
  · obtain ⟨t', ht', hsame⟩ := h.added q hq
    obtain ⟨t'', ht'', hsame'⟩ := h'.kept t' ht'
    exact ⟨t'', ht'', hsame.trans hsame'⟩
  · obtain hc | ⟨q, hq, -⟩ := h'.conversations c hc
    · exact h.conversations c hc
    · cases hq

theorem committed_insert {q : Pending} (hfresh : db.tickets.find? q.ticket.id = none) :
    Committed db (db.insert q) (some q) := by
  refine ⟨fun t' ht' => ?_, fun t ht => ?_, fun r hr => ?_, fun c hc => ?_, rfl⟩
  · obtain rfl | ⟨hmem, -⟩ := Table.mem_put.mp ht'
    · exact Or.inr ⟨q, rfl, Same.refl _⟩
    · exact Or.inl ⟨t', hmem, Same.refl _⟩
  · have hne : t.key ≠ q.ticket.key := fun heq => Table.find?_eq_none.mp hfresh t ht heq
    exact ⟨t, Table.mem_put.mpr (Or.inr ⟨ht, hne⟩), Same.refl _⟩
  · cases hr
    exact ⟨q.ticket, Table.mem_put_self _ _, Same.refl _⟩
  · obtain rfl | ⟨hmem, -⟩ := Table.mem_put.mp hc
    · exact Or.inr ⟨q, rfl, rfl⟩
    · exact Or.inl hmem

theorem committed_writes (caller : Caller) (ticketId : ℕ) (db : Database) :
    Committed db (caller.writes ticketId db) none := by
  cases caller with
  | customer | ensure => exact Committed.refl db
  | provision report =>
    exact ⟨fun t' ht' => Or.inl ⟨t', ht', Same.refl t'⟩, fun t ht => ⟨t, ht, Same.refl t⟩,
      fun _ hq => (by cases hq), fun _ hc => Or.inl hc, rfl⟩
  | escalate row =>
    unfold Caller.writes
    cases hfind : db.tickets.find? ticketId with
    | none =>
      exact ⟨fun t' ht' => Or.inl ⟨t', ht', Same.refl t'⟩, fun t ht => ⟨t, ht, Same.refl t⟩,
        fun _ hq => (by cases hq), fun _ hc => Or.inl hc, rfl⟩
    | some t₀ =>
      have hmem := Table.mem_of_find? hfind
      refine ⟨fun t' ht' => ?_, fun t ht => ?_, fun _ hq => (by cases hq), fun _ hc => Or.inl hc,
        rfl⟩
      · obtain rfl | ⟨hrow, -⟩ := Table.mem_put.mp ht'
        · exact Or.inl ⟨t₀, hmem, same_raised t₀⟩
        · exact Or.inl ⟨t', hrow, Same.refl t'⟩
      · by_cases hkey : t.key = (raised t₀).key
        · obtain rfl := db.tickets.eq_of_key_eq ht hmem hkey
          exact ⟨raised t, Table.mem_put_self _ _, same_raised t⟩
        · exact ⟨t, Table.mem_put.mpr (Or.inr ⟨ht, hkey⟩), Same.refl t⟩

abbrev Entries := List (ℕ × Pending)

/-- The rows of a call clash with nothing, and have the number that comes next. -/
structure Apart (db : Database) (entries : Entries) (counting : ℕ → Option ℕ) (i : ℕ)
    (p : Pending) : Prop where
  ids : p.ticket.conversationId = p.ticket.id ∧ p.conversation.id = p.ticket.id
  fresh : db.tickets.find? p.ticket.id = none
  clear : ∀ t ∈ db.tickets.rows, ¬ clashes p.ticket t
  others : ∀ q ∈ entries, q.1 ≠ i → ¬ clashes p.ticket q.2.ticket ∧ q.2.ticket.id ≠ p.ticket.id
  alone : ∀ q ∈ entries, q.1 = i → q.2 = p
  counting : counting p.ticket.ticketNumber.year = some i
  counter : p.ticket.ticketNumber.counter = db.counters p.ticket.ticketNumber.year + 1

/-- A call has written no ticket that is not committed. -/
def Empty (entries : Entries) (i : ℕ) : Prop := ∀ q ∈ entries, q.1 ≠ i

/-- What is to be inserted is linked to what the call is about. -/
structure Asks (caller : Caller) (draft : Draft) : Prop where
  report : draft.dto.reportId = caller.reportId
  safetyIssue : draft.dto.safetyIssueId = caller.safetyIssueId
  links : draft.links.reportId = draft.dto.reportId

/-- A committed ticket answers the call. -/
def Answered (db : Database) (reportId safetyIssueId : Option ℕ) (ticketId : ℕ) : Prop :=
  ∃ t ∈ db.tickets.rows, t.id = ticketId ∧ Serves t reportId safetyIssueId

/-- A ticket of the call's own answers it. -/
def Written (entries : Entries) (i : ℕ) (caller : Caller) (ticketId : ℕ) : Prop :=
  ∃ p, (i, p) ∈ entries ∧ p.ticket.id = ticketId ∧
    Serves p.ticket caller.reportId caller.safetyIssueId

/-- The call knows a ticket that answers it. -/
def Known (db : Database) (entries : Entries) (i : ℕ) (caller : Caller) (ticketId : ℕ) : Prop :=
  Written entries i caller ticketId ∨
    Empty entries i ∧ Answered db caller.reportId caller.safetyIssueId ticketId

/-- What a call knows at each of its stages. -/
def Placed (db : Database) (entries : Entries) (counting : ℕ → Option ℕ) (i : ℕ) : Stage → Prop
  | .waiting => Empty entries i
  | .ensuring caller report _ =>
    Empty entries i ∧ caller.reportId = some report.id ∧ caller.safetyIssueId = none
  | .creating caller _ dto _ =>
    Empty entries i ∧ dto.reportId = caller.reportId ∧ dto.safetyIssueId = caller.safetyIssueId
  | .inserting caller draft | .reusing caller draft => Empty entries i ∧ Asks caller draft
  | .numbered caller draft number => Empty entries i ∧ Asks caller draft ∧
      counting number.year = some i ∧ number.counter = db.counters number.year + 1
  | .inserted caller ticketId => Written entries i caller ticketId
  | .created caller ticketId =>
    Known db entries i caller ticketId ∧ (caller.nested = false → Empty entries i)
  | .found caller ticketId => Known db entries i caller ticketId
  | .ended (.ok a) => Empty entries i ∧ Answered db a.reportId a.safetyIssueId a.ticketId
  | .ended (.error _) => Empty entries i

/-- What a call is about. -/
def About : Call → Caller → Prop
  | .createTicketForUser _ dto, .customer dto' => dto' = dto
  | .ensureTicketForReport report _, .ensure report' => report' = report
  | .provisionReportWithTicket input, .provision report => ∃ id, report = createReport input id
  | .escalate row, .escalate row' => row' = row
  | _, _ => False

/-- A call creates its ticket for what it is about, and answers with it. -/
def Agreed (call : Call) : Stage → Prop
  | .waiting | .ended (.error _) => True
  | .ensuring caller _ _ | .creating caller _ _ _ | .inserting caller _ | .numbered caller _ _
  | .inserted caller _ | .reusing caller _ | .created caller _ | .found caller _ =>
    About call caller
  | .ended (.ok a) => ∃ caller, About call caller ∧ a = caller.answer a.ticketId

structure Inv (base : Database) (calls : ℕ → Call) (sys : System) : Prop where
  tidy : Tidy base sys.db
  apart : ∀ q ∈ sys.uncommitted, Apart sys.db sys.uncommitted sys.counting q.1 q.2
  placed : ∀ i, Placed sys.db sys.uncommitted sys.counting i (sys.stages i)
  agreed : ∀ i, Agreed (calls i) (sys.stages i)

/-- A step of one call takes nothing from the others. -/
structure Later (i : ℕ) (sys sys' : System) : Prop where
  stages : ∀ j, j ≠ i → sys'.stages j = sys.stages j
  entries : ∀ q : ℕ × Pending, q.1 ≠ i → (q ∈ sys'.uncommitted ↔ q ∈ sys.uncommitted)
  counting : ∀ year j, j ≠ i → sys.counting year = some j →
    sys'.counting year = some j ∧ sys'.db.counters year = sys.db.counters year
  kept : ∀ t ∈ sys.db.tickets.rows, ∃ t' ∈ sys'.db.tickets.rows, Same t t'
  back : ∀ t' ∈ sys'.db.tickets.rows, (∃ t ∈ sys.db.tickets.rows, Same t t') ∨
    ∃ q ∈ sys.uncommitted, q.1 = i ∧ Same q.2.ticket t'
  mine : ∀ q ∈ sys'.uncommitted, q.1 = i → q ∈ sys.uncommitted ∨
    ∀ r ∈ sys.uncommitted, ¬ clashes r.2.ticket q.2.ticket ∧ q.2.ticket.id ≠ r.2.ticket.id

variable {sys sys' : System} {i j : ℕ}

theorem Answered.later {reportId safetyIssueId : Option ℕ} {ticketId : ℕ}
    (h : Answered db reportId safetyIssueId ticketId)
    (hkept : ∀ t ∈ db.tickets.rows, ∃ t' ∈ db'.tickets.rows, Same t t') :
    Answered db' reportId safetyIssueId ticketId := by
  obtain ⟨t, ht, hid, hserves⟩ := h
  obtain ⟨t', ht', hsame⟩ := hkept t ht
  exact ⟨t', ht', hsame.id.trans hid, hserves.same hsame⟩

theorem Empty.later (hlater : Later i sys sys') (hj : j ≠ i) (h : Empty sys.uncommitted j) :
    Empty sys'.uncommitted j := by
  rintro q hq rfl
  exact h q ((hlater.entries q hj).mp hq) rfl

theorem Written.later {caller : Caller} {ticketId : ℕ} (hlater : Later i sys sys') (hj : j ≠ i)
    (h : Written sys.uncommitted j caller ticketId) :
    Written sys'.uncommitted j caller ticketId := by
  obtain ⟨p, hp, hid, hserves⟩ := h
  exact ⟨p, (hlater.entries (j, p) hj).mpr hp, hid, hserves⟩

theorem Known.later {caller : Caller} {ticketId : ℕ} (hlater : Later i sys sys') (hj : j ≠ i)
    (h : Known sys.db sys.uncommitted j caller ticketId) :
    Known sys'.db sys'.uncommitted j caller ticketId := by
  obtain hwritten | ⟨hempty, hanswered⟩ := h
  · exact Or.inl (hwritten.later hlater hj)
  · exact Or.inr ⟨hempty.later hlater hj, hanswered.later hlater.kept⟩

theorem Placed.later (hlater : Later i sys sys') (hj : j ≠ i) {stage : Stage}
    (h : Placed sys.db sys.uncommitted sys.counting j stage) :
    Placed sys'.db sys'.uncommitted sys'.counting j stage := by
  cases stage with
  | waiting => exact Empty.later hlater hj h
  | ensuring | creating | inserting | reusing => exact ⟨Empty.later hlater hj h.1, h.2⟩
  | numbered caller draft number =>
    obtain ⟨hempty, hasks, hcounting, hcounter⟩ := h
    obtain ⟨hcounting', hcounters⟩ := hlater.counting number.year j hj hcounting
    exact ⟨hempty.later hlater hj, hasks, hcounting', by rw [hcounters]; exact hcounter⟩
  | inserted => exact Written.later hlater hj h
  | created => exact ⟨h.1.later hlater hj, fun halone => (h.2 halone).later hlater hj⟩
  | found => exact Known.later hlater hj h
  | ended result =>
    cases result with
    | ok a => exact ⟨Empty.later hlater hj h.1, h.2.later hlater.kept⟩
    | error e => exact Empty.later hlater hj h

theorem Apart.later (hlater : Later i sys sys') (hj : j ≠ i) {p : Pending}
    (h : Apart sys.db sys.uncommitted sys.counting j p) (hp : (j, p) ∈ sys.uncommitted) :
    Apart sys'.db sys'.uncommitted sys'.counting j p := by
  obtain ⟨hcounting, hcounters⟩ := hlater.counting _ j hj h.counting
  refine ⟨h.ids, ?_, fun t' ht' hclash => ?_, fun q hq hne => ?_, fun q hq hqj => ?_, hcounting,
    by rw [hcounters]; exact h.counter⟩
  · refine Table.find?_eq_none.mpr fun t' ht' hkey => ?_
    obtain ⟨t, ht, hsame⟩ | ⟨q, hq, hqi, hsame⟩ := hlater.back t' ht'
    · exact Table.find?_eq_none.mp h.fresh t ht (hsame.id.symm.trans hkey)
    · exact (h.others q hq (by rw [hqi]; exact Ne.symm hj)).2 (hsame.id.symm.trans hkey)
  · obtain ⟨t, ht, hsame⟩ | ⟨q, hq, hqi, hsame⟩ := hlater.back t' ht'
    · exact h.clear t ht (clashes_of_same (Same.refl _) hsame hclash)
    · exact (h.others q hq (by rw [hqi]; exact Ne.symm hj)).1
        (clashes_of_same (Same.refl _) hsame hclash)
  · by_cases hqi : q.1 = i
    · obtain hold | hnew := hlater.mine q hq hqi
      · exact h.others q hold hne
      · exact hnew (j, p) hp
    · exact h.others q ((hlater.entries q hqi).mp hq) hne
  · exact h.alone q ((hlater.entries q (by rw [hqj]; exact hj)).mp hq) hqj

/-- Committed tickets are there to stay. -/
def Kept (sys sys' : System) : Prop :=
  ∀ t ∈ sys.db.tickets.rows, ∃ t' ∈ sys'.db.tickets.rows, Same t t'

variable {calls : ℕ → Call} {stage : Stage}

/-- The invariant after a step of one call. -/
theorem Inv.later (h : Inv base calls sys) (hlater : Later i sys sys') (htidy : Tidy base sys'.db)
    (hplaced : Placed sys'.db sys'.uncommitted sys'.counting i (sys'.stages i))
    (hagreed : Agreed (calls i) (sys'.stages i))
    (hapart : ∀ q ∈ sys'.uncommitted, q.1 = i →
      Apart sys'.db sys'.uncommitted sys'.counting i q.2) : Inv base calls sys' ∧ Kept sys sys' := by
  refine ⟨⟨htidy, fun q hq => ?_, fun j => ?_, fun j => ?_⟩, hlater.kept⟩
  · by_cases hqi : q.1 = i
    · rw [hqi]
      exact hapart q hq hqi
    · have hold := (hlater.entries q hqi).mp hq
      exact (h.apart q hold).later hlater hqi hold
  · by_cases hj : j = i
    · rw [hj]
      exact hplaced
    · rw [hlater.stages j hj]
      exact (h.placed j).later hlater hj
  · by_cases hj : j = i
    · rw [hj]
      exact hagreed
    · rw [hlater.stages j hj]
      exact h.agreed j

theorem stages_goto : (sys.goto i stage).stages i = stage := Function.update_self _ _ _

/-- A statement that reads. -/
theorem Inv.goto (h : Inv base calls sys)
    (hplaced : Placed sys.db sys.uncommitted sys.counting i stage)
    (hagreed : Agreed (calls i) stage) :
    Inv base calls (sys.goto i stage) ∧ Kept sys (sys.goto i stage) := by
  refine h.later (i := i) ⟨fun j hj => Function.update_of_ne hj _ _, fun _ _ => Iff.rfl,
    fun _ _ _ hheld => ⟨hheld, rfl⟩, fun t ht => ⟨t, ht, Same.refl t⟩,
    fun t' ht' => Or.inl ⟨t', ht', Same.refl t'⟩, fun q hq _ => Or.inl hq⟩ h.tidy ?_ ?_
    fun q hq hqi => hqi ▸ h.apart q hq
  · rw [stages_goto]
    exact hplaced
  · rw [stages_goto]
    exact hagreed

theorem mem_release {q : ℕ × Pending} :
    q ∈ (sys.release i).uncommitted ↔ q ∈ sys.uncommitted ∧ q.1 ≠ i := by
  simp [System.release]

theorem empty_release : Empty (sys.release i).uncommitted i := fun _ hq => (mem_release.mp hq).2

theorem counting_release {year : ℕ} (hj : j ≠ i) (h : sys.counting year = some j) :
    (sys.release i).counting year = some j := by
  unfold System.release
  dsimp only
  rw [if_neg, h]
  rw [h]
  exact fun heq => hj (Option.some.inj heq)

/-- A transaction, or what follows its savepoint, is undone. -/
theorem Inv.release (h : Inv base calls sys)
    (hplaced : Placed sys.db (sys.release i).uncommitted (sys.release i).counting i stage)
    (hagreed : Agreed (calls i) stage) :
    Inv base calls ((sys.release i).goto i stage) ∧ Kept sys ((sys.release i).goto i stage) := by
  refine h.later (i := i) ⟨fun j hj => Function.update_of_ne hj _ _,
    fun q hq => ⟨fun hmem => (mem_release.mp hmem).1, fun hmem => mem_release.mpr ⟨hmem, hq⟩⟩,
    fun _ _ hj hheld => ⟨counting_release hj hheld, rfl⟩, fun t ht => ⟨t, ht, Same.refl t⟩,
    fun t' ht' => Or.inl ⟨t', ht', Same.refl t'⟩, fun q hq _ => Or.inl (mem_release.mp hq).1⟩
    h.tidy ?_ ?_ fun q hq hqi => absurd hqi (mem_release.mp hq).2
  · rw [stages_goto]
    exact hplaced
  · rw [stages_goto]
    exact hagreed

theorem Inv.fail (h : Inv base calls sys) (error : MessagingError) :
    Inv base calls (sys.fail i error) ∧ Kept sys (sys.fail i error) :=
  h.release empty_release trivial

theorem mem_of_pending {q : Pending} (h : sys.pending i = some q) : (i, q) ∈ sys.uncommitted := by
  obtain ⟨r, hfind, rfl⟩ := Option.map_eq_some_iff.mp h
  have hid : r.1 = i := by simpa using List.find?_some hfind
  rw [← hid]
  exact List.mem_of_find?_eq_some hfind

theorem pending_of_mem (h : Inv base calls sys) {q : Pending} (hq : (i, q) ∈ sys.uncommitted) :
    sys.pending i = some q := by
  cases hpending : sys.pending i with
  | none =>
    have hnone := List.find?_eq_none.mp (Option.map_eq_none_iff.mp hpending) (i, q) hq
    exact absurd (decide_eq_true rfl) hnone
  | some r =>
    have hsame : r = q := (h.apart (i, q) hq).alone (i, r) (mem_of_pending hpending) rfl
    rw [hsame]

/-- A commit adds the rows of its call. -/
theorem committed_commit (h : Inv base calls sys) (caller : Caller) (ticketId : ℕ) :
    Committed sys.db (sys.commit i caller ticketId).db (sys.pending i) := by
  unfold System.commit
  dsimp only
  cases hpending : sys.pending i with
  | none => exact (Committed.refl sys.db).trans (committed_writes caller ticketId sys.db)
  | some q =>
    exact (committed_insert (h.apart (i, q) (mem_of_pending hpending)).fresh).trans
      (committed_writes caller ticketId _)

/-- What a commit adds clashes with nothing. -/
theorem Committed.tidy {entries : Entries} {counting : ℕ → Option ℕ}
    (hcommitted : Committed db db' p) (h : Tidy base db)
    (hapart : ∀ q, p = some q → Apart db entries counting i q) : Tidy base db' := by
  refine ⟨fun t' ht' u' hu' hclash => ?_, fun c hc hsupport => ?_, fun year n hpos hle => ?_⟩
  · refine db'.tickets.eq_of_key_eq ht' hu' ?_
    obtain ⟨t, ht, htsame⟩ | ⟨q, hq, htsame⟩ := hcommitted.back t' ht' <;>
      obtain ⟨u, hu, husame⟩ | ⟨r, hr, husame⟩ := hcommitted.back u' hu'
    · have heq := h.one t ht u hu (clashes_of_same htsame husame hclash)
      exact htsame.id.trans ((congrArg (fun x : ReportTicket => x.id) heq).trans husame.id.symm)
    · exact absurd (clashes_symm (clashes_of_same htsame husame hclash)) ((hapart r hr).clear t ht)
    · exact absurd (clashes_of_same htsame husame hclash) ((hapart q hq).clear u hu)
    · obtain rfl := Option.some.inj (hq.symm.trans hr)
      exact htsame.id.trans husame.id.symm
  · obtain hold | ⟨q, hq, rfl⟩ := hcommitted.conversations c hc
    · obtain hbase | ⟨t, ht, hid⟩ := h.conversations c hold hsupport
      · exact Or.inl hbase
      · obtain ⟨t', ht', hsame⟩ := hcommitted.kept t ht
        exact Or.inr ⟨t', ht', hsame.conversation.trans hid⟩
    · obtain ⟨t', ht', hsame⟩ := hcommitted.added q hq
      obtain ⟨hticket, hconversation⟩ := (hapart q hq).ids
      exact Or.inr ⟨t', ht', hsame.conversation.trans (hticket.trans hconversation.symm)⟩
  · have hold : n ≤ db.counters year → ∃ t' ∈ db'.tickets.rows, t'.ticketNumber = ⟨year, n⟩ := by
      intro hle
      obtain ⟨t, ht, hnumber⟩ := h.numbers year n hpos hle
      obtain ⟨t', ht', hsame⟩ := hcommitted.kept t ht
      exact ⟨t', ht', hsame.number.trans hnumber⟩
    rw [hcommitted.counters] at hle
    cases hp : p with
    | none =>
      rw [hp] at hle
      exact hold hle
    | some q =>
      rw [hp, countersWith_some] at hle
      have hcounter := (hapart q hp).counter
      by_cases hyear : year = q.ticket.ticketNumber.year
      · rw [hyear, Function.update_self] at hle
        obtain hlt | heq := Nat.lt_or_eq_of_le hle
        · refine hold ?_
          rw [hyear]
          omega
        · obtain ⟨t', ht', hsame⟩ := hcommitted.added q hp
          refine ⟨t', ht', hsame.number.trans ?_⟩
          rw [hyear, heq]
      · rw [Function.update_of_ne hyear] at hle
        exact hold hle

theorem Inv.commit (h : Inv base calls sys) (caller : Caller) (ticketId : ℕ)
    (hplaced : Placed (sys.commit i caller ticketId).db (sys.release i).uncommitted
      (sys.release i).counting i stage) (hagreed : Agreed (calls i) stage) :
    Inv base calls ((sys.commit i caller ticketId).goto i stage) ∧
      Kept sys ((sys.commit i caller ticketId).goto i stage) := by
  have hcommitted := committed_commit (i := i) h caller ticketId
  have hapart : ∀ q, sys.pending i = some q →
      Apart sys.db sys.uncommitted sys.counting i q := fun q hq =>
    h.apart (i, q) (mem_of_pending hq)
  refine h.later (i := i) ⟨fun j hj => Function.update_of_ne hj _ _,
    fun q hq => ⟨fun hmem => (mem_release.mp hmem).1, fun hmem => mem_release.mpr ⟨hmem, hq⟩⟩,
    fun year j hj hheld => ⟨counting_release hj hheld, ?_⟩, hcommitted.kept, fun t' ht' => ?_,
    fun q hq _ => Or.inl (mem_release.mp hq).1⟩ (hcommitted.tidy h.tidy hapart) ?_ ?_
    fun q hq hqi => absurd hqi (mem_release.mp hq).2
  · change (sys.commit i caller ticketId).db.counters year = _
    rw [hcommitted.counters]
    cases hpending : sys.pending i with
    | none => rfl
    | some q =>
      refine Function.update_of_ne ?_ _ _
      rintro rfl
      rw [(hapart q hpending).counting] at hheld
      exact hj (Option.some.inj hheld).symm
  · obtain hold | ⟨q, hq, hsame⟩ := hcommitted.back t' ht'
    · exact Or.inl hold
    · exact Or.inr ⟨(i, q), mem_of_pending hq, rfl, hsame⟩
  · rw [stages_goto]
    exact hplaced
  · rw [stages_goto]
    exact hagreed

/-- After its commit the ticket that a call knows is committed. -/
theorem Known.commit (h : Inv base calls sys) {caller caller' : Caller} {ticketId ticketId' : ℕ}
    (hknown : Known sys.db sys.uncommitted i caller ticketId) :
    Answered (sys.commit i caller' ticketId').db caller.reportId caller.safetyIssueId ticketId := by
  have hcommitted := committed_commit (i := i) h caller' ticketId'
  obtain ⟨q, hq, hid, hserves⟩ | ⟨-, hanswered⟩ := hknown
  · obtain ⟨t', ht', hsame⟩ := hcommitted.added q (pending_of_mem h hq)
    exact ⟨t', ht', hsame.id.trans hid, hserves.same hsame⟩
  · exact hanswered.later hcommitted.kept

theorem answered_of_ticketOfReport {reportId : ℕ} (h : ticketOfReport db reportId = some t) :
    Answered db (some reportId) none t.id := by
  refine ⟨t, List.mem_of_find?_eq_some h, rfl, Or.inl fun r hr => ?_⟩
  obtain rfl := Option.some.inj hr
  simpa using List.find?_some h

theorem answered_of_existing {userId : ℕ} {dto : CreateSupportTicketDto}
    (h : existing db userId dto = some t) : Answered db dto.reportId dto.safetyIssueId t.id := by
  simp only [existing, Option.orElse_eq_or, Option.or_eq_some_iff] at h
  obtain hreport | ⟨-, hsafety⟩ := h
  · obtain ⟨reportId, hid, hfind⟩ := Option.bind_eq_some_iff.mp hreport
    refine ⟨t, List.mem_of_find?_eq_some hfind, rfl, Or.inl fun r hr => ?_⟩
    obtain rfl := Option.some.inj (hid.symm.trans hr)
    have hmatches := List.find?_some hfind
    simp only [decide_eq_true_eq] at hmatches
    exact hmatches.1
  · obtain ⟨safetyIssueId, hid, hfind⟩ := Option.bind_eq_some_iff.mp hsafety
    have hmatches := List.find?_some hfind
    simp only [decide_eq_true_eq] at hmatches
    exact ⟨t, List.mem_of_find?_eq_some hfind, rfl, Or.inr ⟨safetyIssueId, hid, hmatches.1⟩⟩

theorem ownedReport_ok {reports : Table StaysConversationReport.id} {userId : ℕ}
    {reportId r : Option ℕ} (h : ownedReport reports userId reportId = .ok r) : r = reportId := by
  unfold ownedReport at h
  cases reportId with
  | none =>
    cases h
    rfl
  | some reportId =>
    dsimp only at h
    split at h
    · cases h
    · next report hfind =>
      cases h
      rw [show report.id = reportId from
        Table.key_of_find? (Option.filter_eq_some_iff.mp hfind).1]

theorem reportId_of_resolveOwnedLinks {dir : Directory}
    {reports : Table StaysConversationReport.id} {userId : ℕ}
    {party : MessagingStore.SupportTicketParty} {dto : CreateSupportTicketDto} {links : Links}
    (h : resolveOwnedLinks dir reports userId party dto = .ok links) :
    links.reportId = dto.reportId := by
  unfold resolveOwnedLinks at h
  cases hbooking : ownedBooking dir userId dto.bookingId with
  | error e =>
    rw [hbooking] at h
    cases h
  | ok booking =>
    rw [hbooking] at h
    cases hlisting : ownedListing dir userId party booking.1 booking.2 dto.listingId with
    | error e =>
      simp only [bind, Except.bind, hlisting] at h
      cases h
    | ok listingId =>
      cases hreport : ownedReport reports userId dto.reportId with
      | error e =>
        simp only [bind, Except.bind, hlisting, hreport] at h
        cases h
      | ok reportId =>
        cases hsafety : ownedSafetyIssue dir userId dto.safetyIssueId with
        | error e =>
          simp only [bind, Except.bind, hlisting, hreport, hsafety] at h
          cases h
        | ok safetyIssueId =>
          simp only [bind, Except.bind, hlisting, hreport, hsafety, pure, Except.pure] at h
          cases h
          exact ownedReport_ok hreport

variable {dir : Directory} {now : ℤ} {year newId : ℕ}

/-- A call takes the number of its ticket. -/
theorem Inv.number (h : Inv base calls sys) {caller : Caller} {draft : Draft}
    (hstage : sys.stages i = .inserting caller draft) (hfree : sys.counting year = none) :
    Inv base calls ({ sys with counting := Function.update sys.counting year (some i) }.goto i
        (.numbered caller draft ⟨year, sys.db.counters year + 1⟩)) ∧
      Kept sys ({ sys with counting := Function.update sys.counting year (some i) }.goto i
        (.numbered caller draft ⟨year, sys.db.counters year + 1⟩)) := by
  have hplaced := h.placed i
  have hagreed := h.agreed i
  rw [hstage] at hplaced hagreed
  obtain ⟨hempty, hasks⟩ := hplaced
  refine h.later (i := i) ⟨fun j hj => Function.update_of_ne hj _ _, fun _ _ => Iff.rfl,
    fun y j _ hheld => ⟨(Function.update_of_ne ?_ _ _).trans hheld, rfl⟩,
    fun t ht => ⟨t, ht, Same.refl t⟩, fun t' ht' => Or.inl ⟨t', ht', Same.refl t'⟩,
    fun q hq _ => Or.inl hq⟩ h.tidy ?_ ?_ fun q hq hqi => absurd hqi (hempty q hq)
  · rintro rfl
    rw [hfree] at hheld
    cases hheld
  · rw [stages_goto]
    exact ⟨hempty, hasks, Function.update_self _ _ _, rfl⟩
  · rw [stages_goto]
    exact hagreed

/-- A call inserts its ticket. -/
theorem Inv.insert (h : Inv base calls sys) {caller : Caller} {draft : Draft} {number : TicketNumber}
    (hstage : sys.stages i = .numbered caller draft number)
    (hfresh : sys.db.tickets.find? newId = none)
    (hids : ∀ q ∈ sys.uncommitted, q.2.ticket.id ≠ newId)
    (hwaits : ∀ q ∈ sys.uncommitted,
      ¬ clashes (insertTicket dir draft number now newId).ticket q.2.ticket)
    (hclear : ∀ t ∈ sys.db.tickets.rows,
      ¬ clashes (insertTicket dir draft number now newId).ticket t) :
    Inv base calls ({ sys with
        uncommitted := (i, insertTicket dir draft number now newId) :: sys.uncommitted }.goto i
          (.inserted caller newId)) ∧
      Kept sys ({ sys with
        uncommitted := (i, insertTicket dir draft number now newId) :: sys.uncommitted }.goto i
          (.inserted caller newId)) := by
  have hplaced := h.placed i
  have hagreed := h.agreed i
  rw [hstage] at hplaced hagreed
  obtain ⟨hempty, hasks, hcounting, hcounter⟩ := hplaced
  refine h.later (i := i) ⟨fun j hj => Function.update_of_ne hj _ _, fun q hq => ?_,
    fun _ _ _ hheld => ⟨hheld, rfl⟩, fun t ht => ⟨t, ht, Same.refl t⟩,
    fun t' ht' => Or.inl ⟨t', ht', Same.refl t'⟩, fun q hq hqi => ?_⟩ h.tidy ?_ ?_ fun q hq hqi => ?_
  · refine ⟨fun hmem => ?_, List.mem_cons_of_mem _⟩
    obtain rfl | hmem := List.mem_cons.mp hmem
    · exact absurd rfl hq
    · exact hmem
  · obtain rfl | hmem := List.mem_cons.mp hq
    · exact Or.inr fun r hr => ⟨fun hclash => hwaits r hr (clashes_symm hclash),
        Ne.symm (hids r hr)⟩
    · exact Or.inl hmem
  · rw [stages_goto]
    refine ⟨insertTicket dir draft number now newId, List.mem_cons_self, rfl, Or.inl fun r hr => ?_⟩
    exact hasks.links.trans (hasks.report.trans hr)
  · rw [stages_goto]
    exact hagreed
  · obtain rfl | hmem := List.mem_cons.mp hq
    · refine ⟨⟨rfl, rfl⟩, hfresh, hclear, fun r hr hne => ?_, fun r hr hri => ?_, hcounting, hcounter⟩
      · obtain rfl | hold := List.mem_cons.mp hr
        · exact absurd rfl hne
        · exact ⟨hwaits r hold, hids r hold⟩
      · obtain rfl | hold := List.mem_cons.mp hr
        · rfl
        · exact absurd hri (hempty r hold)
    · exact absurd hqi (hempty q hmem)

theorem Inv.waiting (h : Inv base calls sys) (hstage : sys.stages i = .waiting)
    (hstep : next dir calls sys i now year newId = some sys') :
    Inv base calls sys' ∧ Kept sys sys' := by
  have hempty := h.placed i
  rw [hstage] at hempty
  simp only [next, hstage] at hstep
  cases hcall : calls i with
  | createTicketForUser userId dto =>
    simp only [hcall] at hstep
    cases hstep
    exact h.goto ⟨hempty, rfl, rfl⟩ (by rw [hcall]; exact rfl)
  | ensureTicketForReport report sourceConversation =>
    simp only [hcall] at hstep
    cases hstep
    exact h.goto ⟨hempty, rfl, rfl⟩ (by rw [hcall]; exact rfl)
  | provisionReportWithTicket input =>
    simp only [hcall] at hstep
    split_ifs at hstep
    cases hstep
    exact h.goto ⟨hempty, rfl, rfl⟩ (by rw [hcall]; exact ⟨newId, rfl⟩)
  | escalate row =>
    simp only [hcall] at hstep
    split at hstep
    · next ticket hticket =>
      cases hstep
      exact h.goto (Or.inr ⟨hempty, answered_of_ticketOfReport hticket⟩) (by rw [hcall]; exact rfl)
    · split at hstep
      · cases hstep
        exact h.fail _
      · cases hstep
        exact h.goto ⟨hempty, rfl, rfl⟩ (by rw [hcall]; exact rfl)

theorem Inv.next (h : Inv base calls sys) (hstep : next dir calls sys i now year newId = some sys') :
    Inv base calls sys' ∧ Kept sys sys' := by
  have hplaced := h.placed i
  have hagreed := h.agreed i
  cases hstage : sys.stages i with
  | waiting => exact h.waiting hstage hstep
  | ensuring caller report sourceConversation =>
    rw [hstage] at hplaced hagreed
    simp only [ReportTickets.next, hstage] at hstep
    obtain ⟨hempty, hreport, hsafety⟩ := hplaced
    split at hstep
    · next ticket hticket =>
      cases hstep
      refine h.goto (Or.inr ⟨hempty, ?_⟩) hagreed
      rw [hreport, hsafety]
      exact answered_of_ticketOfReport hticket
    · cases hstep
      exact h.goto ⟨hempty, hreport.symm, hsafety.symm⟩ hagreed
  | creating caller userId dto party =>
    rw [hstage] at hplaced hagreed
    simp only [ReportTickets.next, hstage] at hstep
    obtain ⟨hempty, hreport, hsafety⟩ := hplaced
    split at hstep
    · next ticket hticket =>
      cases hstep
      refine h.goto ⟨Or.inr ⟨hempty, ?_⟩, fun _ => hempty⟩ hagreed
      rw [← hreport, ← hsafety]
      exact answered_of_existing hticket
    · split at hstep
      · cases hstep
        exact h.fail _
      · next links hlinks =>
        cases hstep
        exact h.goto ⟨hempty, hreport, hsafety, reportId_of_resolveOwnedLinks hlinks⟩ hagreed
  | inserting caller draft =>
    simp only [ReportTickets.next, hstage] at hstep
    split_ifs at hstep with hheld
    cases hstep
    exact h.number hstage (by simpa using hheld)
  | numbered caller draft number =>
    rw [hstage] at hplaced hagreed
    simp only [ReportTickets.next, hstage] at hstep
    split_ifs at hstep with htaken hwaits hclash
    · cases hstep
      exact h.release ⟨empty_release, hplaced.2.1⟩ hagreed
    · cases hstep
      push Not at htaken hwaits hclash
      obtain ⟨hfresh, -, hids⟩ := htaken
      exact h.insert hstage (by simpa using hfresh) hids hwaits hclash
  | inserted caller ticketId =>
    rw [hstage] at hplaced hagreed
    simp only [ReportTickets.next, hstage] at hstep
    split_ifs at hstep with hnested
    · cases hstep
      exact h.goto ⟨Or.inl hplaced, fun halone => absurd hnested (by simp [halone])⟩ hagreed
    · cases hstep
      exact h.commit caller ticketId ⟨Or.inr ⟨empty_release, Known.commit h (Or.inl hplaced)⟩,
        fun _ => empty_release⟩ hagreed
  | reusing caller draft =>
    rw [hstage] at hplaced hagreed
    simp only [ReportTickets.next, hstage] at hstep
    obtain ⟨hempty, hasks⟩ := hplaced
    split at hstep
    · next ticket hticket =>
      cases hstep
      refine h.goto ⟨Or.inr ⟨hempty, ?_⟩, fun _ => hempty⟩ hagreed
      rw [← hasks.report, ← hasks.safetyIssue]
      exact answered_of_existing hticket
    · cases hstep
      exact h.fail _
  | created caller ticketId =>
    rw [hstage] at hplaced hagreed
    simp only [ReportTickets.next, hstage] at hstep
    split at hstep
    · next dto =>
      cases hstep
      have hempty := hplaced.2 rfl
      obtain ⟨q, hq, -⟩ | ⟨-, hanswered⟩ := hplaced.1
      · exact absurd rfl (hempty (i, q) hq)
      · exact h.goto ⟨hempty, hanswered⟩ ⟨.customer dto, hagreed, rfl⟩
    · split_ifs at hstep
      · cases hstep
        exact h.goto hplaced.1 hagreed
      · cases hstep
        exact h.fail _
  | found caller ticketId =>
    rw [hstage] at hplaced hagreed
    simp only [ReportTickets.next, hstage] at hstep
    cases hstep
    exact h.commit caller ticketId ⟨empty_release, Known.commit h hplaced⟩
      ⟨caller, hagreed, rfl⟩
  | ended result =>
    simp only [ReportTickets.next, hstage] at hstep
    cases hstep

theorem Inv.step (h : Inv base calls sys) {action : Action}
    (hstep : step dir calls sys action = some sys') : Inv base calls sys' ∧ Kept sys sys' := by
  cases action with
  | next i now year newId => exact h.next hstep
  | fail i =>
    simp only [ReportTickets.step] at hstep
    split at hstep
    · cases hstep
    · cases hstep
      exact h.fail _

/-- A step of some call. -/
def Next (dir : Directory) (calls : ℕ → Call) (sys sys' : System) : Prop :=
  ∃ action, step dir calls sys action = some sys'

theorem inv_start (h : Unique db) : Inv db calls (start db) :=
  ⟨⟨h, fun _ hc _ => Or.inl hc, fun _ _ hlt hle => absurd hle (Nat.not_le.mpr hlt)⟩, fun _ hq => (by cases hq), fun _ _ hq => (by cases hq), fun _ => trivial⟩

theorem Inv.run (h : Inv base calls sys) (hrun : Relation.ReflTransGen (Next dir calls) sys sys') :
    Inv base calls sys' ∧ Kept sys sys' := by
  induction hrun with
  | refl => exact ⟨h, fun t ht => ⟨t, ht, Same.refl t⟩⟩
  | tail _ hnext ih =>
    obtain ⟨action, hstep⟩ := hnext
    obtain ⟨hinv, hkept⟩ := ih
    obtain ⟨hinv', hkept'⟩ := hinv.step hstep
    refine ⟨hinv', fun t ht => ?_⟩
    obtain ⟨u, hu, hsame⟩ := hkept t ht
    obtain ⟨v, hv, hsame'⟩ := hkept' u hu
    exact ⟨v, hv, hsame.trans hsame'⟩

/-- Between two states: a report has one ticket, which stays; what calls have returned answers
them; each support conversation and each number that is new has its ticket. -/
structure OneTicket (base : Database) (calls : ℕ → Call) (sys sys' : System) : Prop where
  one : ∀ t ∈ sys'.db.tickets.rows, ∀ u ∈ sys'.db.tickets.rows, t.reportId.isSome →
    t.reportId = u.reportId → t = u
  kept : Kept sys sys'
  returned : ∀ i a, sys'.stages i = .ended (.ok a) →
    (∃ caller, About (calls i) caller ∧ a = caller.answer a.ticketId) ∧
      Answered sys'.db a.reportId a.safetyIssueId a.ticketId
  conversations : ∀ c ∈ sys'.db.conversations.rows, c.type = .support →
    c ∈ base.conversations.rows ∨ ∃ t ∈ sys'.db.tickets.rows, t.conversationId = c.id
  numbers : ∀ year n, base.counters year < n → n ≤ sys'.db.counters year →
    ∃ t ∈ sys'.db.tickets.rows, t.ticketNumber = ⟨year, n⟩

/-- However the calls overlap, a report has one ticket, and they return it. -/
theorem one_ticket (hdb : Unique db) {mid last : System}
    (hbefore : Relation.ReflTransGen (Next dir calls) (start db) mid)
    (hafter : Relation.ReflTransGen (Next dir calls) mid last) : OneTicket db calls mid last := by
  obtain ⟨hmid, -⟩ := (inv_start hdb).run hbefore
  obtain ⟨hlast, hkept⟩ := hmid.run hafter
  refine ⟨fun t ht u hu hsome heq => hlast.tidy.one t ht u hu (Or.inl ⟨hsome, heq⟩), hkept,
    fun i a hended => ?_, hlast.tidy.conversations, hlast.tidy.numbers⟩
  have hplaced := hlast.placed i
  have hagreed := hlast.agreed i
  rw [hended] at hplaced hagreed
  exact ⟨hagreed, hplaced.2⟩

/-- The people and bookings of an empty directory, in which guest 10 has reported safety issue 8. -/
def directory : Directory where
  booking := fun _ => none
  listingHost := fun _ => none
  safetyReporter := fun id => if id = 8 then some 10 else none
  isHost := fun _ => false
  fullName := fun _ => none
  email := fun _ => none
  requesterLanguage := fun _ => none

def aReport : StaysConversationReport :=
  { id := 4, conversationId := 3, reporterUserId := 10, reason := none, attachmentIds := [],
    bookingId := none, listingId := none, reportedUserId := none }

/-- Guest 10 has a report without a ticket. -/
def reported : Database :=
  { reports := Table.empty.put aReport
    tickets := Table.empty
    conversations := Table.empty
    messages := []
    counters := fun _ => 0 }

theorem unique_reported : Unique reported := fun _ ht => (by cases ht)

/-- Two tickets are asked for at once: the first call inserts, the second one waits, clashes and
returns the ticket of the first. -/
def twice : ℕ → Call := fun _ =>
  .createTicketForUser 10
    { category := "OTHER", subject := "Report", message := "Rude", reportId := some 4 }

theorem one_ticket_twice : ∃ mid last,
    Relation.ReflTransGen (Next directory twice) (start reported) mid ∧
      Relation.ReflTransGen (Next directory twice) mid last ∧ OneTicket reported twice mid last ∧
      last.stages 1 = .ended (.ok ⟨some 4, none, 5⟩) := by
  have hruns : ∃ mid last,
      Relation.ReflTransGen (Next directory twice) (start reported) mid ∧
        Relation.ReflTransGen (Next directory twice) mid last ∧
        last.stages 1 = .ended (.ok ⟨some 4, none, 5⟩) :=
    ⟨_, _,
      .tail (.tail (.tail (.tail (.tail (.tail (.tail .refl
        ⟨.next 0 0 2026 0, rfl⟩) ⟨.next 1 0 2026 0, rfl⟩) ⟨.next 0 0 2026 0, rfl⟩)
        ⟨.next 1 0 2026 0, rfl⟩) ⟨.next 0 0 2026 0, rfl⟩) ⟨.next 0 0 2026 5, rfl⟩)
        ⟨.next 0 0 2026 0, rfl⟩,
      .tail (.tail (.tail (.tail .refl
        ⟨.next 1 0 2026 0, rfl⟩) ⟨.next 1 0 2026 6, rfl⟩) ⟨.next 1 0 2026 0, rfl⟩)
        ⟨.next 1 0 2026 0, rfl⟩,
      rfl⟩
  obtain ⟨mid, last, hbefore, hafter, hended⟩ := hruns
  exact ⟨mid, last, hbefore, hafter, one_ticket unique_reported hbefore hafter, hended⟩

/-- Guest 10 asks for a ticket of the safety issue, and then for one of the report and the safety
issue. -/
def both : ℕ → Call
  | 0 => .createTicketForUser 10
      { category := "FRAUD", subject := "Safety", message := "Unsafe", safetyIssueId := some 8 }
  | _ => .createTicketForUser 10
      { category := "OTHER", subject := "Report", message := "Rude", reportId := some 4,
        safetyIssueId := some 8 }

/-- The second call returns the ticket of the safety issue, which is not one of the report. -/
theorem other_ticket_returned : ∃ sys,
    Relation.ReflTransGen (Next directory both) (start reported) sys ∧
      sys.stages 1 = .ended (.ok ⟨some 4, some 8, 5⟩) ∧
      ∀ t ∈ sys.db.tickets.rows, t.reportId ≠ some 4 := by
  refine ⟨_, .tail (.tail (.tail (.tail (.tail (.tail (.tail (.tail (.tail .refl
    ⟨.next 0 0 2026 0, rfl⟩) ⟨.next 0 0 2026 0, rfl⟩) ⟨.next 0 0 2026 0, rfl⟩)
    ⟨.next 0 0 2026 5, rfl⟩) ⟨.next 0 0 2026 0, rfl⟩) ⟨.next 0 0 2026 0, rfl⟩)
    ⟨.next 1 0 2026 0, rfl⟩) ⟨.next 1 0 2026 0, rfl⟩) ⟨.next 1 0 2026 0, rfl⟩, rfl, fun t ht => ?_⟩
  obtain rfl := List.mem_singleton.mp ht
  decide

end NexaStays.ReportEscalation
