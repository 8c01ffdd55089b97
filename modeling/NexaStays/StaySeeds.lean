import NexaStays.MessageBlocks

/-!
# The messages at the end of a stay

The review card and the notice of the archive are seeded once because a transaction looks for
them before it inserts them. It looks before it locks the conversation, so two transactions
that look before either of them commits both insert.
-/
namespace NexaStays.StaySeeds

open NexaStays.KeyedTable NexaStays.Transactions NexaStays.Phases NexaStays.Phases.Protocol
open NexaStays.Snapshots NexaStays.Blocks NexaStays.RowOrder
open NexaStays.MessagingStore NexaStays.Messages NexaStays.ConversationStates
open NexaStays.MessageBlocks

inductive Call where
  | enterPostStay (bookingId : ℕ)
  | archiveConversation (conversationId : ℕ) (reason : String)
  | syncFromBooking (bookingId : ℕ)
  | archiveDueConversations
  deriving DecidableEq, Repr

def program (env : Env) : Call → Messaging Unit
  | .enterPostStay bookingId => enterPostStay env bookingId
  | .archiveConversation conversationId reason => archiveConversation conversationId reason
  | .syncFromBooking bookingId => syncFromBooking env bookingId
  | .archiveDueConversations => archiveDueConversations

def isReviewCard (m : StaysMessage) : Bool := m.type = .reviewCard

def isCheckoutComplete (m : StaysMessage) : Bool :=
  m.type = .systemEvent && m.body = some "Checkout complete"

def isArchiveNotice (m : StaysMessage) : Bool :=
  m.type = .systemNotice && m.metadata.kind = some "archive"

/-- No conversation has two review cards, two events of a checkout or two notices of its
archive. -/
def AtMostOnce (s : Store) : Prop :=
  ∀ id, (messagesOf s id).countP isReviewCard ≤ 1 ∧ (messagesOf s id).countP isCheckoutComplete ≤ 1 ∧
    (messagesOf s id).countP isArchiveNotice ≤ 1

/-- The two sets of messages that are seeded once. -/
inductive Kind where
  | checkout | archive
  deriving DecidableEq, Repr

namespace Kind

/-- The type of message that is looked for. -/
def type : Kind → MessageType
  | .checkout => .reviewCard
  | .archive => .systemNotice

def seeds : Kind → List MessageInput
  | .checkout => checkoutCompleteSeeds
  | .archive => conversationArchivedSeeds

/-- One of the messages of the set. -/
def has : Kind → StaysMessage → Bool
  | .checkout, m => isReviewCard m || isCheckoutComplete m
  | .archive, m => isArchiveNotice m

/-- What may be there of the set. -/
def Once : Kind → List StaysMessage → Prop
  | .checkout, ms => ms.countP isReviewCard ≤ 1 ∧
    ms.countP isCheckoutComplete ≤ ms.countP isReviewCard
  | .archive, ms => ms.countP isArchiveNotice ≤ 1

end Kind

/-- The messages of one set in one conversation. -/
def seeded (k : Kind) (id : ℕ) (s : Store) : List StaysMessage := (messagesOf s id).filter k.has

/-- What one of the jobs leaves behind: the event of a checkout comes with its review card. -/
def Proper (s : Store) : Prop := ∀ k id, Kind.Once k (seeded k id s)

theorem countP_seeded {k : Kind} {p : StaysMessage → Bool} (h : ∀ m, p m = true → k.has m = true)
    (id : ℕ) (s : Store) : (seeded k id s).countP p = (messagesOf s id).countP p := by
  rw [seeded, List.countP_filter]
  refine List.countP_congr fun m _ => ?_
  cases hm : p m
  · simp
  · simp [h m hm]

theorem Proper.atMostOnce {s : Store} (h : Proper s) : AtMostOnce s := by
  intro id
  obtain ⟨hcard, hevent⟩ := h .checkout id
  have hnotice := h .archive id
  simp only [Kind.Once] at hnotice
  rw [countP_seeded fun m hm => by simp [Kind.has, hm]] at hcard hnotice
  rw [countP_seeded fun m hm => by simp [Kind.has, hm],
    countP_seeded fun m hm => by simp [Kind.has, hm]] at hevent
  exact ⟨hcard, hevent.trans hcard, hnotice⟩

variable {env : Env} {k : Kind} {id : ℕ} {s : Store}

/-- The view of the seeded messages. -/
def seedView (k : Kind) (id : ℕ) (s : Store) : Option (List StaysMessage) := some (seeded k id s)

/-- The set is seeded where nothing of the type is. -/
def SeedLaw (k : Kind) (id : ℕ) (_ : Call) (before : Option (List StaysMessage))
    (after : List StaysMessage) : Prop :=
  ∃ ms new, before = some ms ∧ (∀ m ∈ ms, m.type ≠ k.type) ∧ after = ms ++ new ∧
    List.Forall₂ (fun m seed => Made id seed m) new k.seeds

theorem has_of_made {m : StaysMessage} {seed : MessageInput} (h : Made id seed m)
    (hseed : seed ∈ k.seeds) : k.has m = true := by
  obtain ⟨sequence, now, n, rfl⟩ := h
  cases k
  · simp only [Kind.seeds, checkoutCompleteSeeds, List.mem_cons, List.not_mem_nil, or_false] at hseed
    obtain rfl | rfl := hseed <;> rfl
  · simp only [Kind.seeds, conversationArchivedSeeds, List.mem_singleton] at hseed
    subst hseed
    rfl

theorem not_has_of_made {k' : Kind} {m : StaysMessage} {seed : MessageInput} (h : Made id seed m)
    (hseed : seed ∈ k'.seeds) (hk : k' ≠ k) : k.has m = false := by
  obtain ⟨sequence, now, n, rfl⟩ := h
  cases k' <;> cases k
  · exact absurd rfl hk
  · simp only [Kind.seeds, checkoutCompleteSeeds, List.mem_cons, List.not_mem_nil, or_false] at hseed
    obtain rfl | rfl := hseed <;> rfl
  · simp only [Kind.seeds, conversationArchivedSeeds, List.mem_singleton] at hseed
    subst hseed
    rfl
  · exact absurd rfl hk

theorem spares_conversation {c : StaysConversation} : Spares (seedView k id) (.conversation c) :=
  fun _ => rfl

theorem spares_message {m : StaysMessage} (h : m.conversationId = id → k.has m = false) :
    Spares (seedView k id) (.message m) := by
  intro s
  by_cases hid : m.conversationId = id
  · simp [seedView, seeded, messagesOf, Store.write, hid, h hid]
  · simp [seedView, seeded, messagesOf, Store.write, hid]

theorem keeping_seeds {k' : Kind} {conv : StaysConversation} (h : conv.id = id → k' ≠ k) :
    Keeping (seedView k id) (seedAll conv k'.seeds) := by
  refine keeping_seedAll (fun _ _ => spares_conversation) rfl fun seed hseed m hm => ?_
  refine spares_message fun hid => not_has_of_made hm hseed (h ?_)
  obtain ⟨_, _, _, rfl⟩ := hm
  exact hid

/-- The writes add the messages to the conversation and none to another one. -/
def Appends (id : ℕ) (ws : List Write) (ms : List StaysMessage) : Prop :=
  ∀ s, messagesOf (publish s ws) id = messagesOf s id ++ ms

theorem Appends.message {ws : List Write} {ms : List StaysMessage} {m : StaysMessage}
    (h : Appends id ws ms) (hm : m.conversationId = id) : Appends id (ws ++ [.message m]) (ms ++ [m]) := by
  intro s
  rw [publish_append, ← List.append_assoc, ← h s]
  simp [messagesOf, Store.write, hm]

theorem Appends.updateConversation {ws : List Write} {ms : List StaysMessage} (h : Appends id ws ms)
    {conversationId : ℕ} {f : StaysConversation → StaysConversation} (t : Store) :
    Appends id (ws ++ updateConversation conversationId f t) ms := by
  intro s
  rw [publish_append, ← h s, MessagingStore.updateConversation]
  cases t.conversations.find? conversationId <;> rfl

variable {view : Store → Option (List StaysMessage)} {v : List StaysMessage}

theorem writes_seedAll {conv : StaysConversation} {seeds : List MessageInput} :
    Writes view v (fun _ ws => ∃ ms, List.Forall₂ (fun m seed => Made conv.id seed m) ms seeds ∧
      Appends conv.id ws ms) (seedAll conv seeds) [] := by
  refine Writes.forEach (fun done ws => ∃ ms, List.Forall₂ (fun m seed => Made conv.id seed m) ms done ∧
    Appends conv.id ws ms) ?_ ⟨[], .nil, fun s => by simp⟩
  rintro done seed ws ⟨ms, hmade, happend⟩
  refine Writes.bind (writes_insertMessage (Q := fun m ws => Made conv.id seed m ∧
    Appends conv.id ws (ms ++ [m])) ?_) fun m ws ⟨hm, hws⟩ => Writes.pure ?_
  · intro s t locked sequence now n _ _ hlocked
    have hid : locked.id = conv.id := Table.key_of_find? hlocked
    refine ⟨⟨_, _, _, by rw [← hid]⟩, ?_⟩
    exact Appends.updateConversation (happend.message hid) _
  · exact ⟨ms ++ [m], List.rel_append hmade (.cons hm .nil), hws⟩

theorem mem_of_forall₂ {α β : Type} {R : α → β → Prop} {xs : List α} {ys : List β}
    (h : List.Forall₂ R xs ys) : ∀ x ∈ xs, ∃ y ∈ ys, R x y := by
  induction h with
  | nil => simp
  | cons hxy _ ih =>
    intro x hx
    obtain rfl | hx := List.mem_cons.mp hx
    · exact ⟨_, List.mem_cons_self, hxy⟩
    · obtain ⟨y, hy, hR⟩ := ih x hx
      exact ⟨y, List.mem_cons_of_mem _ hy, hR⟩

theorem Appends.seeded {ws : List Write} {ms : List StaysMessage} (h : Appends id ws ms)
    (hms : List.Forall₂ (fun m seed => Made id seed m) ms k.seeds) :
    seeded k id (publish s ws) = seeded k id s ++ ms := by
  have hall : ms.filter k.has = ms := List.filter_eq_self.mpr fun m hm => by
    obtain ⟨seed, hseed, hmade⟩ := mem_of_forall₂ hms m hm
    exact has_of_made hmade hseed
  rw [StaySeeds.seeded, h s, List.filter_append, hall, StaySeeds.seeded]

/-- What runs after the look, if nothing was found. -/
def seedBody (k : Kind) (conv : StaysConversation) (f : StaysConversation → StaysConversation) :
    Messaging Unit := do
  seedAll conv k.seeds
  let _ ← Messaging.update (updateConversation conv.id f)
  pure ()

/-- Between the look that found nothing and the commit. -/
def Seeding (k : Kind) (id : ℕ) (p : Messaging Unit) : Prop :=
  ∃ conv f, conv.id = id ∧ Inside (closing .database (seedBody k conv f)) p

theorem Seeding.handle {p : Messaging Unit} {f : Unit → Messaging Unit}
    {g : MessagingError → Messaging Unit} (h : Seeding k id p) : Seeding k id (p.handle f g) := by
  obtain ⟨conv, f', hid, hin⟩ := h
  exact ⟨conv, f', hid, hin.handle⟩

/-- The transaction of both jobs. -/
def seedTransaction (k : Kind) (conv : StaysConversation)
    (f : StaysConversation → StaysConversation) : Messaging Unit :=
  Program.transaction .database do
    seedOnce conv k.type k.seeds
    let _ ← Messaging.update (updateConversation conv.id f)
    pure ()

section Protocol

variable {c : Call} {ctx : Messaging Unit → Messaging Unit} {ses : Session Key Write}

/-- A part of a call that holds nothing of the set. -/
def Ended (k : Kind) (id : ℕ) (c : Call) {β : Type} (_ : Except MessagingError β)
    (ses : Session Key Write) (g : Spot Call (List StaysMessage)) : Prop :=
  g = .idle c ∧ ∀ w ∈ ses.pending, Spares (seedView k id) w

theorem ended_idle {β : Type} {r : Except MessagingError β} : Ended k id c r .idle (.idle c) :=
  ⟨rfl, by simp [Session.idle]⟩

abbrev looking (k : Kind) (id : ℕ) :
    Protocol Store Key Write MessagingError Unit (Spot Call (List StaysMessage)) :=
  changes (seedView k id) (SeedLaw k id) (Seeding k id)

theorem leaves_update {conv : StaysConversation} {f : StaysConversation → StaysConversation} :
    Leaves (seedView k id) (do
      let _ ← Messaging.update (updateConversation conv.id f)
      (pure () : Messaging Unit)) :=
  (Leaves.writeRows (spares_updateConversation fun _ _ => spares_conversation)).bind fun _ => trivial

theorem leaves_seedTransaction {k' : Kind} {conv : StaysConversation}
    {f : StaysConversation → StaysConversation} (h : conv.id = id → k' ≠ k) :
    Leaves (seedView k id) (seedTransaction k' conv f) := by
  refine Leaves.transaction (Leaves.bind ?_ fun _ => leaves_update)
  refine Leaves.query.bind fun present => ?_
  split_ifs
  · trivial
  · exact (keeping_seeds h).leaves

/-- The end of the seeding, which found nothing when it looked. -/
theorem refines_seedBody {conv : StaysConversation} {f : StaysConversation → StaysConversation}
    {ms : List StaysMessage} (hid : conv.id = id) (hms : ∀ m ∈ ms, m.type ≠ k.type) :
    (loose (looking k id) fun _ => True).Refines (fun q => q) (Ended k id c)
      (closing .database (seedBody k conv f)) .opened (.holding c ms) := by
  subst hid
  have hwrites : Writes (seedView k conv.id) ms (fun _ ws => ∃ new, List.Forall₂ (fun m seed => Made conv.id seed m) new k.seeds ∧
      Appends conv.id ws new) (seedBody k conv f) [] :=
    writes_seedAll.bind fun _ ws ⟨new, hnew, happend⟩ => Writes.bind
      (Writes.writeRows (Q := fun _ ws => Appends conv.id ws new) fun t _ =>
        happend.updateConversation _) fun _ _ hws => Writes.pure ⟨new, hnew, hws⟩
  refine Refines.handle ((refines_of_writes (rests_loose trivial) (fun s hs => hs ms rfl) hwrites
    rfl rfl).mono ?_)
  rintro r ses _ ⟨rfl, hok⟩
  cases r with
  | error e => exact ⟨trivial, fun s hs => .step (.release rfl) ended_idle⟩
  | ok u =>
    obtain ⟨-, new, hnew, happend⟩ := hok u rfl
    have hpending : ∀ s, seedView k conv.id s = some ms →
        seedView k conv.id (publish s ses.pending) = some (ms ++ new) := by
      intro s hs
      rw [seedView, happend.seeded hnew]
      exact congrArg (fun ms => some (ms ++ new)) (Option.some.inj hs)
    exact refines_commit (fun _ => trivial) hpending ⟨ms, new, rfl, hms, rfl, hnew⟩ ended_idle
      ended_idle

/-- What the look has told of the messages that are there. -/
theorem not_present {ms : List StaysMessage} {type : MessageType} {p : StaysMessage → Bool}
    (h : ms.any (fun m => m.type = type) = false) : ∀ m ∈ ms.filter p, m.type ≠ type := by
  intro m hm
  have hne := List.any_eq_false.mp h m (List.mem_of_mem_filter hm)
  simpa using hne

theorem refines_seedTransaction (k' : Kind) {conv : StaysConversation}
    {f : StaysConversation → StaysConversation}
    (hctx : ∀ q, Seeding k id q → Seeding k id (ctx q))
    (hses : ∀ w ∈ ses.pending, Spares (seedView k id) w) :
    (looking k id).Refines ctx (Ended k id c) (seedTransaction k' conv f) ses (.idle c) := by
  by_cases hother : conv.id = id ∧ k' = k
  · obtain ⟨hid, rfl⟩ := hother
    refine ⟨at_idle, fun s _ => .stay ⟨at_idle, fun s _ => ?_,
      .stay ⟨at_idle, fun _ _ => .stay ended_idle⟩⟩⟩
    cases hpresent : (messagesOf s conv.id).any fun m => m.type = k'.type with
    | true =>
      simp only [Session.opened, Session.view, publish_nil, hpresent]
      exact .stay (refines_leaves leaves_update.closing (by simp) fun _ _ h => ⟨rfl, h⟩)
    | false =>
      simp only [Session.opened, Session.view, publish_nil, hpresent]
      refine goes_read rfl (fun q hres hq => hctx q ⟨conv, f, hid, inside_self hres hq⟩)
        (refines_seedBody hid ?_)
      exact not_present (hid ▸ hpresent)
  · exact refines_leaves (leaves_seedTransaction fun hid hk => hother ⟨hid, hk⟩) hses
      fun _ _ h => ⟨rfl, h⟩

variable {β : Type}

/-- A read outside of the transaction. -/
theorem refines_read {f : Store → β} {p : β → Messaging Unit}
    (hses : ∀ w ∈ ses.pending, Spares (seedView k id) w)
    (h : ∀ b, (looking k id).Refines ctx (Ended k id c) (p b) ses (.idle c)) :
    (looking k id).Refines ctx (Ended k id c) (Messaging.read f >>= p) ses (.idle c) :=
  ⟨at_idle, fun _ _ => .stay (h _), .stay ⟨rfl, hses⟩⟩

theorem refines_now {p : ℕ → Messaging Unit}
    (h : ∀ n, (looking k id).Refines ctx (Ended k id c) (p n) ses (.idle c)) :
    (looking k id).Refines ctx (Ended k id c) (Messaging.now >>= p) ses (.idle c) :=
  ⟨at_idle, fun _ _ _ => .stay (h _)⟩

variable (hctx : ∀ q, Seeding k id q → Seeding k id (ctx q))
  (hses : ∀ w ∈ ses.pending, Spares (seedView k id) w)

include hctx hses

theorem refines_enterPostStay {bookingId : ℕ} :
    (looking k id).Refines ctx (Ended k id c) (enterPostStay env bookingId) ses (.idle c) := by
  refine refines_read hses fun booking => refines_read hses fun conv => ?_
  split
  · split_ifs
    · exact ⟨rfl, hses⟩
    · exact refines_read hses fun listing => refines_seedTransaction .checkout hctx hses
  · exact ⟨rfl, hses⟩

theorem refines_archiveConversation {conversationId : ℕ} {reason : String} :
    (looking k id).Refines ctx (Ended k id c) (archiveConversation conversationId reason) ses
      (.idle c) := by
  refine refines_read hses fun conv => ?_
  split
  · exact ⟨rfl, hses⟩
  · exact refines_now fun now => refines_seedTransaction .archive hctx hses

theorem refines_syncFromBooking {bookingId : ℕ} :
    (looking k id).Refines ctx (Ended k id c) (syncFromBooking env bookingId) ses (.idle c) := by
  refine refines_read hses fun booking => refines_read hses fun conv => ?_
  split
  · refine refines_now fun now => ?_
    split_ifs
    · exact refines_leaves leaves_update hses fun _ _ h => ⟨rfl, h⟩
    · exact ⟨rfl, hses⟩
    · exact refines_archiveConversation hctx hses
    · exact refines_enterPostStay hctx hses
    · exact ⟨rfl, hses⟩
  · exact ⟨rfl, hses⟩

omit hses in
theorem refines_archiveEach {due : List StaysConversation} {ses : Session Key Write}
    (hses : ∀ w ∈ ses.pending, Spares (seedView k id) w) :
    (looking k id).Refines ctx (Ended k id c) (Program.forEach (fun conv =>
      Program.attempt (archiveConversation conv.id "AUTO") fun _ => pure ()) due) ses (.idle c) := by
  induction due generalizing ses with
  | nil => exact ⟨rfl, hses⟩
  | cons conv due ih =>
    refine Refines.handle (Refines.handle ?_)
    refine (refines_archiveConversation (fun q hq => hctx _ hq.handle.handle) hses).mono ?_
    rintro r ses' _ ⟨rfl, hses'⟩
    cases r with
    | ok u => exact ih hses'
    | error e => exact ih hses'

theorem refines_archiveDueConversations :
    (looking k id).Refines ctx (Ended k id c) archiveDueConversations ses (.idle c) :=
  refines_now fun _ => ⟨at_idle, fun _ _ _ => .stay
    (refines_read hses fun _ => refines_archiveEach hctx hses)⟩

end Protocol

theorem program_refines (c : Call) :
    (looking k id).Refines (fun q => q) (looking k id).Done (program env c) .idle (.idle c) := by
  have hidle : ∀ w ∈ (Session.idle : Session Key Write).pending, Spares (seedView k id) w := by
    simp [Session.idle]
  have hprogram : (looking k id).Refines (fun q => q) (Ended k id c) (program env c) .idle
      (.idle c) := by
    cases c with
    | enterPostStay => exact refines_enterPostStay (fun _ hq => hq) hidle
    | archiveConversation => exact refines_archiveConversation (fun _ hq => hq) hidle
    | syncFromBooking => exact refines_syncFromBooking (fun _ hq => hq) hidle
    | archiveDueConversations => exact refines_archiveDueConversations (fun _ hq => hq) hidle
  refine hprogram.mono ?_
  rintro r ses _ ⟨rfl, -⟩
  exact done_idle

/-- The law keeps the set from being there twice. -/
theorem SeedLaw.once {c : Call} {before : Option (List StaysMessage)} {after : List StaysMessage}
    (h : SeedLaw k id c before after) (hbefore : ∀ ms ∈ before, Kind.Once k ms) :
    Kind.Once k after := by
  obtain ⟨ms, new, rfl, hnone, rfl, hnew⟩ := h
  have honce := hbefore ms rfl
  cases k with
  | checkout =>
    have hcard : ms.countP isReviewCard = 0 := List.countP_eq_zero.mpr fun m hm => by
      simp [isReviewCard, show m.type ≠ .reviewCard from hnone m hm]
    have hevent : ms.countP isCheckoutComplete = 0 := Nat.le_zero.mp (hcard ▸ honce.2)
    obtain ⟨_, _, ⟨_, _, _, rfl⟩, hrest, rfl⟩ := List.forall₂_cons_right_iff.mp hnew
    obtain ⟨_, _, ⟨_, _, _, rfl⟩, hnil, rfl⟩ := List.forall₂_cons_right_iff.mp hrest
    obtain rfl := List.forall₂_nil_right_iff.mp hnil
    simp only [Kind.Once, List.countP_append, hcard, hevent]
    exact ⟨Nat.le_refl 1, Nat.le_refl 1⟩
  | archive =>
    have hms : ms.countP isArchiveNotice = 0 := List.countP_eq_zero.mpr fun m hm => by
      simp [isArchiveNotice, show m.type ≠ .systemNotice from hnone m hm]
    have hone := List.countP_le_length (p := isArchiveNotice) (l := new)
    rw [hnew.length_eq] at hone
    simp only [Kind.Once, List.countP_append, hms]
    simpa [Kind.seeds, conversationArchivedSeeds] using hone

/-- No transaction makes a set of messages visible while another one has looked for it and
found none. -/
def SeedsApart (sys : System Call Store Key Write MessagingError Unit) (a : Action) : Prop :=
  ∀ k id, Apart (Seeding k id) sys a

/-- Where the transactions that seed a conversation do not overlap, each message is there at
most once. -/
theorem each_once {s : Store} {calls : List Call} (hs : Proper s)
    {sys : System Call Store Key Write MessagingError Unit}
    (hrun : System.Run SeedsApart (launch (program env) s calls) sys) : AtMostOnce sys.store := by
  have hproper : Proper sys.store := by
    intro k id
    have hstart : ∀ v ∈ seedView k id s, Kind.Once k v := by
      intro v hv
      rw [← Option.some.inj hv]
      exact hs k id
    exact holds_of_run (fun _ _ h => h k id) program_refines (fun c o v hlaw ho => hlaw.once ho)
      hstart hrun _ rfl
  exact hproper.atMostOnce

section Sample

def sampleConversation : StaysConversation :=
  { id := 1, bookingId := some 1, type := .booking, guestUserId := some 1, hostUserId := some 2 }

def sampleBooking : StaysBooking :=
  { id := 1
    listingId := 1
    guestUserId := some 1
    status := .completed
    checkoutDate := 0
    completedAt := none }

/-- A completed booking with a conversation that has no messages yet. -/
def completedStay : Store :=
  { Store.blank with
    conversations := Table.empty.put sampleConversation
    bookings := Table.empty.put sampleBooking }

theorem proper_completedStay : Proper completedStay := by
  intro k id
  cases k with
  | checkout => exact ⟨Nat.zero_le 1, Nat.le_refl 0⟩
  | archive => exact Nat.zero_le 1

/-- One job ends the stay. -/
theorem each_once_alone :
    let sys := after (launch (program {}) completedStay [.enterPostStay 1]) (System.turns 0 0 17)
    answerOf sys 0 = some () ∧ AtMostOnce sys.store := by
  have hnone : ∀ j, j ≠ 0 →
      (launch (program {}) completedStay [.enterPostStay 1]).threads[j]? = none := by
    intro j hj
    exact List.getElem?_eq_none (by simp [launch]; omega)
  refine ⟨by decide +kernel, each_once proper_completedStay
    (run_solo (i := 0) (by decide +kernel) (by decide) fun sys' a ha hsame => ?_)⟩
  obtain ⟨n, rfl⟩ := eq_run_of_mem_turns ha
  exact fun k id => apart_alone fun j hj => (hsame j hj).trans (hnone j hj)

/-- Two jobs look for the review card before either of them commits. -/
theorem seeded_twice :
    let calls : List Call := [.enterPostStay 1, .enterPostStay 1]
    let sys := after (launch (program {}) completedStay calls)
      (System.turns 0 0 5 ++ System.turns 1 5 5 ++ System.turns 0 10 12 ++ System.turns 1 22 12)
    System.Run (fun _ _ => True) (launch (program {}) completedStay calls) sys ∧
      answerOf sys 0 = some () ∧ answerOf sys 1 = some () ∧ ¬AtMostOnce sys.store := by
  refine ⟨run_after (by decide +kernel), by decide +kernel, by decide +kernel, fun h => ?_⟩
  exact absurd (h 1).1 (by decide +kernel)

end Sample

end NexaStays.StaySeeds
