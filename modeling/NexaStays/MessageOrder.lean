import NexaStays.ConversationLocks
import NexaStays.MessageBlocks
import NexaStays.RelyGuarantee

/-!
# The order of the messages

The number of a message is read and written behind the row lock of its conversation. So in every
state that the calls reach, whatever they overlap with, the numbers of a conversation go up in the
order of the commits, and a run adds messages at the end only.
-/
namespace NexaStays.MessageOrder

open NexaStays.KeyedTable NexaStays.Transactions NexaStays.Snapshots NexaStays.Blocks
open NexaStays.RelyGuarantee NexaStays.RowOrder NexaStays.MessagingStore NexaStays.Messages
open NexaStays.ConversationStates NexaStays.MessageBlocks

open NexaStays.RelyGuarantee.Discipline (wp_pure wp_throw wp_handle wp_mono wp_lockRow
  wp_expect wp_query wp_receive wp_stageInsert wp_stage)

inductive Call where
  | conversation (call : ConversationLocks.Call)
  | sendAdminMessage (ticketId adminUserId : ℕ) (body : String) (actor : SupportStaffActor)
  | markRead (conversationId userId : ℕ)
  | listMessages (conversationId userId : ℕ) (limit : ℤ) (beforeSequence : Option ℕ)
  | archiveConversation (conversationId : ℕ) (reason : String)
  | markReviewCardSubmitted (bookingId : ℕ)
  deriving DecidableEq, Repr

inductive Answer where
  | conversation (answer : ConversationLocks.Answer)
  | message (m : StaysMessage)
  | version (n : ℕ)
  | page (slice : List StaysMessage) (hasMore : Bool)
  | done
  deriving DecidableEq, Repr

def program (env : Env) : Call → Messaging Answer
  | .conversation call => .conversation <$> ConversationLocks.program env call
  | .sendAdminMessage ticketId adminUserId body actor =>
    .message <$> Messages.sendAdminMessage ticketId adminUserId body actor
  | .markRead conversationId userId => .version <$> Messages.markRead conversationId userId
  | .listMessages conversationId userId limit beforeSequence =>
    (fun page => .page page.1 page.2) <$>
      Messages.listMessages conversationId userId limit beforeSequence
  | .archiveConversation conversationId reason =>
    (fun _ => .done) <$> ConversationStates.archiveConversation conversationId reason
  | .markReviewCardSubmitted bookingId =>
    (fun _ => .done) <$> ConversationStates.markReviewCardSubmitted bookingId

abbrev MessagingSystem := System Call Store Key Write MessagingError Answer

/-- The system at the start of a run. -/
def initial (env : Env) (s : Store) (calls : List Call) : MessagingSystem :=
  ⟨s, calls.map fun c => ⟨c, .idle, program env c⟩⟩

/-- The states that the calls reach from a store without messages. -/
def Reachable (env : Env) (sys : MessagingSystem) : Prop :=
  ∃ s calls, s.messages = [] ∧ System.Run (fun _ _ => True) (initial env s calls) sys

/-- A message without what is written of it later: its delivery, and the state of its card. -/
def letter (m : StaysMessage) : StaysMessage :=
  { m with metadata := { source := "" }, status := .persisted, deliveredAt := none, readAt := none }

@[simp] theorem letter_id (m : StaysMessage) : (letter m).id = m.id := rfl

@[simp] theorem letter_conversationId (m : StaysMessage) :
    (letter m).conversationId = m.conversationId := rfl

@[simp] theorem letter_sequence (m : StaysMessage) :
    (letter m).conversationSequence = m.conversationSequence := rfl

def letters (s : Store) : List StaysMessage := s.messages.map letter

def Write.sent? : Write → Option StaysMessage
  | .message m => some (letter m)
  | _ => none

def Write.edit? : Write → Option StaysMessage
  | .messageUpdate m => some (letter m)
  | _ => none

/-- The messages that are sent with the writes. -/
def sent (ws : List Write) : List StaysMessage := ws.filterMap Write.sent?

/-- The messages that are written again. -/
def edits (ws : List Write) : List StaysMessage := ws.filterMap Write.edit?

/-- Messages of one conversation are numbered in order. -/
def Precedes (a b : StaysMessage) : Prop :=
  a.id ≠ b.id ∧
    (a.conversationId = b.conversationId → a.conversationSequence < b.conversationSequence)

def Ordered (l : List StaysMessage) : Prop := l.Pairwise Precedes

/-- The writes of a transaction with the locks `held`: what it sends comes after all that is
there, in conversations that it has locked; what it edits is there, or is sent. -/
structure Staged (held : List Key) (ws : List Write) (s : Store) : Prop where
  locked : ∀ m ∈ sent ws, Key.conversation m.conversationId ∈ held
  named : ∀ m ∈ sent ws, Key.message m.id ∈ held
  kept : ∀ m ∈ edits ws, m ∈ letters s ++ sent ws
  ordered : Ordered (letters s ++ sent ws)

variable {s s' : Store} {held : List Key} {ws us : List Write}

theorem sent_append : sent (ws ++ us) = sent ws ++ sent us := List.filterMap_append

theorem edits_append : edits (ws ++ us) = edits ws ++ edits us := List.filterMap_append

theorem letters_message (m : StaysMessage) :
    letters (s.write (.message m)) = letters s ++ [letter m] := by
  simp [letters, Store.write]

theorem eq_of_id {l : List StaysMessage} (h : Ordered l) {a b : StaysMessage} (ha : a ∈ l)
    (hb : b ∈ l) (hid : a.id = b.id) : a = b := by
  have hnodup : (l.map (·.id)).Nodup := List.pairwise_map.mpr (h.imp fun hab => hab.1)
  exact List.inj_on_of_nodup_map hnodup ha hb hid

/-- An edit leaves the letters as they are. -/
theorem letters_edit {m : StaysMessage} {l : List StaysMessage} (hs : Ordered (letters s ++ l))
    (hm : letter m ∈ letters s ++ l) : letters (s.write (.messageUpdate m)) = letters s := by
  simp only [letters, Store.write, List.map_map]
  refine List.map_congr_left fun x hx => ?_
  simp only [Function.comp_apply]
  split_ifs with hid
  · have hx' : letter x ∈ letters s ++ l := List.mem_append_left _ (List.mem_map_of_mem hx)
    exact (eq_of_id hs hx' hm hid).symm
  · rfl

/-- What is published is added at the end. -/
theorem letters_publish (h : Staged held ws s) : letters (publish s ws) = letters s ++ sent ws := by
  induction ws generalizing s with
  | nil => simp [sent]
  | cons w ws ih =>
    have hsplit : sent (w :: ws) = sent [w] ++ sent ws := @sent_append [w] ws
    have hedits : edits (w :: ws) = edits [w] ++ edits ws := @edits_append [w] ws
    have hwrite : letters (s.write w) = letters s ++ sent [w] := by
      cases w with
      | message m => exact letters_message m
      | messageUpdate m =>
        rw [letters_edit h.ordered (h.kept _ (by simp [edits, Write.edit?]))]
        simp [sent, Write.sent?]
      | _ => simp [letters, Store.write, sent, Write.sent?]
    rw [publish_cons, storage_write, ih (s := s.write w) ?_, hwrite, hsplit, List.append_assoc]
    refine ⟨fun m hm => h.locked m ?_, fun m hm => h.named m ?_, fun m hm => ?_, ?_⟩
    · rw [hsplit]
      exact List.mem_append_right _ hm
    · rw [hsplit]
      exact List.mem_append_right _ hm
    · rw [hwrite, List.append_assoc, ← hsplit]
      exact h.kept m (by rw [hedits]; exact List.mem_append_right _ hm)
    · rw [hwrite, List.append_assoc, ← hsplit]
      exact h.ordered

/-- Everyone publishes at the end, behind the locks of the conversations. -/
def discipline : Discipline Call Store Key Write Answer where
  Inv s := Ordered (letters s)
  Legal _ held s ws := Staged held ws s
  Post _ _ _ := True
  Guard _ _ _ := True
  Apart _ _ _ _ := True
  inv_legal _ h := by
    rw [letters_publish h]
    exact h.ordered

variable {c : Call}

/-- The message of a write is named by its key. -/
theorem key_of_sent {m : StaysMessage} (h : m ∈ sent ws) : ∃ w ∈ ws, w.key = .message m.id := by
  obtain ⟨w, hw, hsent⟩ := List.mem_filterMap.mp h
  cases w with
  | message x =>
    obtain rfl : letter x = m := Option.some.inj hsent
    exact ⟨_, hw, rfl⟩
  | _ => cases hsent

/-- While the locks are held, what the others publish comes before. -/
theorem stable_staged : discipline.Stable c held (Staged held ws) := by
  rintro s _ hs ⟨c', held', us, hlegal, hdisjoint, hkeys, -, -, rfl⟩
  have hlegal' : Staged held' us s := hlegal
  have hletters := letters_publish hlegal'
  refine ⟨hs.locked, hs.named, fun m hm => ?_, ?_⟩
  · rw [hletters, List.append_assoc]
    obtain hm | hm := List.mem_append.mp (hs.kept m hm)
    · exact List.mem_append_left _ hm
    · exact List.mem_append_right _ (List.mem_append_right _ hm)
  · obtain ⟨-, hsent, hcross⟩ := List.pairwise_append.mp hs.ordered
    rw [hletters]
    refine List.pairwise_append.mpr ⟨hlegal'.ordered, hsent, fun a ha b hb => ?_⟩
    obtain ha | ha := List.mem_append.mp ha
    · exact hcross a ha b hb
    · refine ⟨fun hid => ?_, fun hconv => ?_⟩
      · obtain ⟨w, hw, hkey⟩ := key_of_sent ha
        exact hkeys w hw (by rw [storage_keyOf, hkey, hid]; exact hs.named b hb)
      · exact absurd (hlegal'.locked a ha) fun hlock =>
          hdisjoint (hs.locked b hb) (by rwa [← hconv])

/-- No message of a locked conversation is sent by the others. -/
theorem stable_below {id n : ℕ} (hlock : Key.conversation id ∈ held) :
    discipline.Stable c held fun s => Staged held ws s ∧
      ∀ m ∈ letters s ++ sent ws, m.conversationId = id → m.conversationSequence < n := by
  rintro s s' ⟨hs, hbelow⟩ h
  refine ⟨stable_staged hs h, ?_⟩
  obtain ⟨c', held', us, hlegal, hdisjoint, -, -, -, rfl⟩ := h
  have hlegal' : Staged held' us s := hlegal
  rw [letters_publish hlegal']
  intro m hm hid
  obtain hm | hm := List.mem_append.mp hm
  · obtain hm | hm := List.mem_append.mp hm
    · exact hbelow m (List.mem_append_left _ hm) hid
    · exact absurd (hlegal'.locked m hm) fun hkey => hdisjoint hlock (by rwa [← hid])
  · exact hbelow m (List.mem_append_right _ hm) hid

/-- The messages as they are. -/
def messagesView (s : Store) : Option (List StaysMessage) := some s.messages

theorem conversational_messagesView : Conversational messagesView :=
  ⟨fun _ messages => some messages, fun _ => rfl⟩

theorem sent_of_spares {w : Write} (h : Spares messagesView w) :
    sent [w] = [] ∧ edits [w] = [] := by
  cases w with
  | message m =>
    have hblank : some ([] ++ [m]) = some [] := h Store.blank
    cases hblank
  | messageUpdate m =>
    let other : StaysMessage := { m with isSystem := !m.isSystem }
    have hother := h { Store.blank with messages := [other] }
    simp only [messagesView, storage_write, Store.write, other, List.map_cons, List.map_nil,
      if_pos, Option.some.injEq, List.cons.injEq, and_true] at hother
    have hflag : m.isSystem = !m.isSystem := congrArg StaysMessage.isSystem hother
    cases hvalue : m.isSystem <;> rw [hvalue] at hflag <;> cases hflag
  | _ => exact ⟨rfl, rfl⟩

theorem silent_of_spares (h : ∀ w ∈ ws, Spares messagesView w) : sent ws = [] ∧ edits ws = [] := by
  induction ws with
  | nil => exact ⟨rfl, rfl⟩
  | cons w ws ih =>
    obtain ⟨hsent, hedits⟩ := ih fun v hv => h v (List.mem_cons_of_mem w hv)
    obtain ⟨hw, hw'⟩ := sent_of_spares (h w List.mem_cons_self)
    exact ⟨by rw [← List.singleton_append, sent_append, hw, hsent]; rfl,
      by rw [← List.singleton_append, edits_append, hw', hedits]; rfl⟩

theorem Staged.mono {held' : List Key} (h : Staged held ws s) (hsub : held ⊆ held') :
    Staged held' ws s :=
  ⟨fun m hm => hsub (h.locked m hm), fun m hm => hsub (h.named m hm), h.kept, h.ordered⟩

theorem Staged.append (h : Staged held ws s) (hsent : sent us = [])
    (hedits : ∀ m ∈ edits us, m ∈ letters s ++ sent ws) : Staged held (ws ++ us) s := by
  have hsame : sent (ws ++ us) = sent ws := by rw [sent_append, hsent, List.append_nil]
  refine ⟨by rw [hsame]; exact h.locked, by rw [hsame]; exact h.named, fun m hm => ?_,
    by rw [hsame]; exact h.ordered⟩
  rw [hsame]
  rw [edits_append] at hm
  obtain hm | hm := List.mem_append.mp hm
  · exact h.kept m hm
  · exact hedits m hm

theorem staged_nil (h : Ordered (letters s)) (hsent : sent us = [])
    (hedits : ∀ m ∈ edits us, m ∈ letters s) : Staged held us s := by
  refine ⟨by simp [hsent], by simp [hsent], fun m hm => List.mem_append_left _ (hedits m hm), ?_⟩
  rw [hsent, List.append_nil]
  exact h

/-- Where a session may stand. -/
def Fits (ses : Session Key Write) (s : Store) : Prop :=
  Staged ses.held ses.pending s ∧ (ses.active = false → ses.pending = [])

/-- A program that keeps to the discipline, inside a transaction or outside of any. -/
def Orderly {α : Type} (active : Bool) (p : Messaging α) : Prop :=
  ∀ c ses s, ses.active = active → Fits ses s →
    discipline.wp c (fun _ ses s => ses.active = active ∧ Fits ses s)
      (fun _ ses s => ses.active = active ∧ Fits ses s) p ses s

section Rules

variable {α β : Type} {active : Bool} {ses : Session Key Write}

theorem stable_fits : discipline.Stable c ses.held (Fits ses) :=
  fun _ _ hs h => ⟨stable_staged hs.1 h, hs.2⟩

theorem stable_stands : discipline.Stable c ses.held fun s => ses.active = active ∧ Fits ses s :=
  fun _ _ hs h => ⟨hs.1, stable_fits hs.2 h⟩

/-- A session that publishes or keeps writes that send nothing. -/
theorem fits_stage {us : List Write} (hinv : discipline.Inv s) (hs : Fits ses s)
    (hsent : sent us = []) (hedits : ∀ m ∈ edits us, m ∈ letters s ++ sent ses.pending) :
    discipline.Publishes c ses.held s (ses.visible us) ∧
      Fits (ses.stage (σ := Store) us) (publish s (ses.visible us)) := by
  by_cases hactive : ses.active = true
  · simp only [Session.visible, Session.stage, hactive, if_true]
    refine ⟨.inl rfl, ?_, fun h => ?_⟩
    · exact (hs.1.append hsent hedits).mono (List.subset_append_right _ _)
    · cases h
  · simp only [Session.visible, Session.stage, if_neg hactive]
    rw [hs.2 (Bool.eq_false_iff.mpr hactive)] at hedits
    have hlegal : Staged ses.held us s := staged_nil hinv hsent fun m hm => by
      simpa [sent] using hedits m hm
    have hsame : letters (publish s us) = letters s := by
      rw [letters_publish hlegal, hsent, List.append_nil]
    refine ⟨.inr hlegal, ⟨hs.1.locked, hs.1.named, ?_, ?_⟩, hs.2⟩
    · rw [hsame]
      exact hs.1.kept
    · rw [hsame]
      exact hs.1.ordered

theorem active_stage (us : List Write) : (ses.stage (σ := Store) us).active = ses.active := by
  unfold Session.stage
  split_ifs <;> rfl

theorem Orderly.pure {a : α} : Orderly active (Pure.pure a : Messaging α) :=
  fun _ _ _ hactive hs => wp_pure stable_stands ⟨hactive, hs⟩

theorem Orderly.throw {e : MessagingError} : Orderly active (.throw e : Messaging α) :=
  fun _ _ _ hactive hs => wp_throw stable_stands ⟨hactive, hs⟩

theorem Orderly.handle {p : Messaging α} {k : α → Messaging β} {g : MessagingError → Messaging β}
    (hp : Orderly active p) (hk : ∀ a, Orderly active (k a)) (hg : ∀ e, Orderly active (g e)) :
    Orderly active (p.handle k g) := by
  intro c ses s hactive hs
  refine wp_handle (wp_mono (fun a ses s _ h => ?_) (fun e ses s _ h => ?_)
    (hp c ses s hactive hs))
  · exact hk a c ses s h.1 h.2
  · exact hg e c ses s h.1 h.2

theorem Orderly.bind {p : Messaging α} {k : α → Messaging β} (hp : Orderly active p)
    (hk : ∀ a, Orderly active (k a)) : Orderly active (p >>= k) :=
  hp.handle hk fun _ => Orderly.throw

theorem Orderly.map {p : Messaging α} {f : α → β} (hp : Orderly active p) :
    Orderly active (f <$> p) :=
  hp.bind fun _ => Orderly.pure

theorem Orderly.forEach {f : β → Messaging Unit} {xs : List β} (h : ∀ x, Orderly active (f x)) :
    Orderly active (Program.forEach f xs) := by
  induction xs with
  | nil => exact Orderly.pure
  | cons x xs ih => exact (h x).bind fun _ => ih

/-- A part that writes no message. -/
theorem Orderly.keeping {p : Messaging α} (h : Keeping messagesView p) : Orderly active p := by
  intro c ses s hactive hs
  induction p generalizing ses s with
  | pure a => exact Orderly.pure c ses s hactive hs
  | throw e => exact Orderly.throw c ses s hactive hs
  | select k err ihk iherr =>
    intro s' hl hi
    have hs' := stable_fits.later hs hl
    exact ⟨ihk _ (h.1 _) ses s' hactive hs', iherr h.2 ses s' hactive hs'⟩
  | lock key k err ihk iherr =>
    intro s' hl hi
    have hs' := stable_fits.later hs hl
    refine ⟨fun _ => ihk _ (h.1 _) _ s' ?_ ?_, iherr h.2 ses s' hactive hs'⟩
    · unfold Session.acquire
      split_ifs <;> exact hactive
    · unfold Session.acquire
      split_ifs
      · exact ⟨hs'.1.mono (List.subset_cons_self _ _), hs'.2⟩
      · exact hs'
  | update us k err ihk iherr =>
    intro s' hl hi
    have hs' := stable_fits.later hs hl
    obtain ⟨hsent, hedits⟩ := silent_of_spares (h.1 (ses.view s'))
    obtain ⟨hpub, hfits⟩ := fits_stage (c := c) hi hs' hsent (by simp [hedits])
    exact ⟨hpub, ihk _ (h.2.1 _) _ _ ((active_stage _).trans hactive) hfits,
      iherr h.2.2 ses s' hactive hs'⟩
  | insert row k err ihk iherr =>
    intro s' hl hi
    have hs' := stable_fits.later hs hl
    refine ⟨fun n _ => ?_, iherr h.2.2 ses s' hactive hs'⟩
    obtain ⟨hsent, hedits⟩ := sent_of_spares (h.1 n)
    obtain ⟨hpub, hfits⟩ := fits_stage (c := c) hi hs' hsent (by simp [hedits])
    exact ⟨hpub, ihk _ (h.2.1 _) _ _ ((active_stage _).trans hactive) hfits⟩
  | choose k ih =>
    intro s' hl hi n
    exact ih n (h n) ses s' hactive (stable_fits.later hs hl)
  | emit us k ih =>
    intro s' hl hi
    have hs' := stable_fits.later hs hl
    obtain ⟨hsent, hedits⟩ := silent_of_spares (h.1 (ses.view s'))
    have hlegal : Staged ses.held (us (ses.view s')) s' := staged_nil hi hsent (by simp [hedits])
    have hsame : letters (publish s' (us (ses.view s'))) = letters s' := by
      rw [letters_publish hlegal, hsent, List.append_nil]
    refine ⟨.inr hlegal, ih _ (h.2 _) ses _ hactive ⟨⟨hs'.1.locked, hs'.1.named, ?_, ?_⟩, hs'.2⟩⟩
    · rw [hsame]
      exact hs'.1.kept
    · rw [hsame]
      exact hs'.1.ordered
  | halt | start | commit | rollback => exact h.elim

theorem Orderly.query {e : MessagingError} {f : Store → α} :
    Orderly active (Program.query e f : Messaging α) := .keeping Keeping.query

theorem Orderly.receive : Orderly active (Program.receive : Messaging ℕ) := .keeping Keeping.receive

theorem Orderly.require {p : Prop} [Decidable p] {e : MessagingError} :
    Orderly active (Program.require p e : Messaging Unit) := .keeping Keeping.require

theorem Orderly.expect {o : Option α} {e : MessagingError} :
    Orderly active (Program.expect o e : Messaging α) := .keeping Keeping.expect

/-- Messages that are there are written again. -/
theorem Orderly.edit {ws : Store → List Write} (hsent : ∀ s, sent (ws s) = [])
    (hedits : ∀ s, ∀ m ∈ edits (ws s), m ∈ letters s) :
    Orderly active (Messaging.update ws) := by
  intro c ses s hactive hs s' hl hi
  have hs' := stable_fits.later hs hl
  obtain ⟨hpub, hfits⟩ := fits_stage (c := c) hi hs' (hsent (ses.view s')) fun m hm => by
    rw [← letters_publish hs'.1]
    exact hedits _ m hm
  exact ⟨hpub, Orderly.pure c _ _ ((active_stage _).trans hactive) hfits,
    Orderly.throw c ses s' hactive hs'⟩

/-- A transaction publishes what it has staged. -/
theorem Orderly.transaction {p : Messaging α} {e : MessagingError} (hp : Orderly true p) :
    Orderly false (p.transaction e) := by
  intro c ses s hactive hs s' hl hi
  have hidle : ∀ s, discipline.Inv s → Fits .idle s := fun s hi =>
    ⟨staged_nil hi rfl (by simp [edits, Session.idle]), fun _ => rfl⟩
  have hopened : Fits .opened s' :=
    ⟨staged_nil hi rfl (by simp [edits, Session.opened]), fun h => by cases h⟩
  refine wp_handle (wp_mono (fun a ses s _ h => ?_) (fun e ses s _ h => ?_)
    (hp c .opened s' rfl hopened))
  · intro t hlt hit
    have hstaged := stable_staged.later h.2.1 hlt
    refine ⟨.inr hstaged, Orderly.pure c _ _ rfl (hidle _ ?_),
      Orderly.throw c _ _ rfl (hidle _ hit)⟩
    exact discipline.inv_legal (c := c) hit hstaged
  · intro t hlt hit
    exact Orderly.throw c _ _ rfl (hidle _ hit)

end Rules

theorem lockConversation_bind {β : Type} {id : ℕ} {k : StaysConversation → Messaging β} :
    lockConversation id >>= k = Program.lockRow .database (.conversation id)
      (fun s : Store => s.conversations.find? id) >>= fun locked =>
        Program.expect locked (.internal "Conversation not found") >>= k := rfl

/-- The numbers of a conversation are at most the maximum. -/
theorem le_maxSequence {m : StaysMessage} {id : ℕ} (hm : m ∈ letters s)
    (hid : m.conversationId = id) :
    m.conversationSequence ≤ maxSequence s id := by
  obtain ⟨x, hx, rfl⟩ := List.mem_map.mp hm
  have hmem : x.conversationSequence ∈ (messagesOf s id).map (·.conversationSequence) :=
    List.mem_map_of_mem (List.mem_filter.mpr ⟨hx, decide_eq_true hid⟩)
  unfold maxSequence
  generalize (messagesOf s id).map (·.conversationSequence) = l at hmem
  induction l with
  | nil => cases hmem
  | cons n l ih =>
    rw [List.foldr_cons]
    obtain rfl | hmem := List.mem_cons.mp hmem
    · exact le_max_left _ _
    · exact (ih hmem).trans (le_max_right _ _)

/-- A message that is numbered above all of its conversation. -/
theorem staged_message {m : StaysMessage} (h : Staged held ws s)
    (hlock : Key.conversation m.conversationId ∈ held)
    (hbelow : ∀ x ∈ letters s ++ sent ws, x.conversationId = m.conversationId →
      x.conversationSequence < m.conversationSequence)
    (hfresh : ∀ x ∈ letters s ++ sent ws, x.id ≠ m.id) :
    Staged (.message m.id :: held) (ws ++ [.message m]) s := by
  have hsent : sent (ws ++ [.message m]) = sent ws ++ [letter m] := sent_append
  have hedits : edits (ws ++ [.message m]) = edits ws := by
    rw [edits_append]
    exact List.append_nil _
  refine ⟨fun x hx => ?_, fun x hx => ?_, fun x hx => ?_, ?_⟩
  · rw [hsent] at hx
    obtain hx | hx := List.mem_append.mp hx
    · exact List.mem_cons_of_mem _ (h.locked x hx)
    · rw [List.mem_singleton.mp hx]
      exact List.mem_cons_of_mem _ hlock
  · rw [hsent] at hx
    obtain hx | hx := List.mem_append.mp hx
    · exact List.mem_cons_of_mem _ (h.named x hx)
    · rw [List.mem_singleton.mp hx]
      exact List.mem_cons_self
  · rw [hsent, ← List.append_assoc]
    rw [hedits] at hx
    exact List.mem_append_left _ (h.kept x hx)
  · rw [hsent, ← List.append_assoc]
    refine List.pairwise_append.mpr ⟨h.ordered, List.pairwise_singleton _ _, fun a ha b hb => ?_⟩
    rw [List.mem_singleton.mp hb]
    exact ⟨hfresh a ha, hbelow a ha⟩

theorem not_present_message {n : ℕ} (h : Storage.present s (Key.message n) = false)
    {x : StaysMessage}
    (hx : x ∈ letters s) : x.id ≠ n := by
  obtain ⟨y, hy, rfl⟩ := List.mem_map.mp hx
  simp only [storage_present, Store.present, List.any_eq_false, decide_eq_true_eq] at h
  exact h y hy

theorem silent_updateConversation (id : ℕ) (f : StaysConversation → StaysConversation) (s : Store) :
    sent (updateConversation id f s) = [] ∧ edits (updateConversation id f s) = [] := by
  unfold updateConversation
  cases s.conversations.find? id <;> exact ⟨rfl, rfl⟩

theorem stands_of_staged (h : Staged held ws s) :
    (⟨held, ws, true⟩ : Session Key Write).active = true ∧ Fits ⟨held, ws, true⟩ s :=
  ⟨rfl, h, fun hactive => by cases hactive⟩

/-- The number is read behind the lock, so nobody takes it before the transaction commits. -/
theorem orderly_insertMessage {conv : StaysConversation} {input : MessageInput} :
    Orderly true (insertMessage conv input) := by
  rintro c ⟨held, ws, _⟩ s rfl ⟨hs, -⟩
  unfold insertMessage
  rw [lockConversation_bind]
  refine wp_lockRow stable_staged hs (fun s₁ _ hs₁ _ => ?_) fun s' _ h => stands_of_staged h
  have hview : ∀ s' : Store, Session.view ⟨held, ws, true⟩ s' = publish s' ws := fun _ => rfl
  rw [hview]
  cases hlocked : (publish s₁ ws).conversations.find? conv.id with
  | none =>
    have hfree : Session.acquire ⟨held, ws, true⟩ (publish s₁ ws) (.conversation conv.id) =
        ⟨held, ws, true⟩ := by
      simp [Session.acquire, Store.present, hlocked]
    rw [hfree]
    exact Orderly.throw c _ _ rfl (stands_of_staged hs₁).2
  | some locked =>
    have hid : locked.id = conv.id := Table.key_of_find? hlocked
    have htaken : Session.acquire ⟨held, ws, true⟩ (publish s₁ ws) (.conversation conv.id) =
        ⟨.conversation conv.id :: held, ws, true⟩ := by
      simp [Session.acquire, Store.present, hlocked]
    rw [htaken, ← hid]
    have hlock : Key.conversation locked.id ∈ Key.conversation locked.id :: held :=
      List.mem_cons_self
    have hs₂ : Staged (.conversation locked.id :: held) ws s₁ :=
      hs₁.mono (List.subset_cons_self _ _)
    change discipline.wp c _ _ (Messaging.read (fun s => maxSequence s locked.id) >>= _) _ _
    refine wp_query stable_staged hs₂ (fun s₃ _ hs₃ => ?_) fun s' _ h => stands_of_staged h
    -- the number stays above those of the conversation while the lock is held
    have hbelow : ∀ m ∈ letters s₃ ++ sent ws, m.conversationId = locked.id →
        m.conversationSequence < max locked.lastMessageSequence
          (maxSequence (publish s₃ ws) locked.id) + 1 := by
      intro m hm hconv
      rw [← letters_publish hs₃] at hm
      have hle := le_maxSequence hm hconv
      omega
    refine wp_receive (stable_below hlock) ⟨hs₃, hbelow⟩ fun s₄ now _ hs₄ => ?_
    refine wp_stageInsert (stable_below hlock) hs₄ (fun s₅ n _ hs₅ hfresh => ?_)
      fun s' _ h => stands_of_staged h.1
    have hs₆ := staged_message (m := newMessage locked.id _ input now n) hs₅.1 hlock hs₅.2
      fun x hx => not_present_message hfresh (by rwa [letters_publish hs₅.1])
    refine wp_stage stable_staged hs₆ (fun s₇ _ hs₇ => ?_) fun s' _ h => stands_of_staged h
    obtain ⟨hsent, hedits⟩ := silent_updateConversation locked.id
      (afterMessage locked _ input now n) (publish s₇ (ws ++ [.message _]))
    refine Orderly.pure c _ _ rfl (stands_of_staged ?_).2
    exact (hs₇.append hsent (by simp [hedits])).mono (List.subset_append_right _ _)

theorem Orderly.wp {α : Type} {active : Bool} {p : Messaging α} (h : Orderly active p) (c : Call)
    (ses : Session Key Write) (s : Store) (hactive : ses.active = active) (hs : Fits ses s) :
    discipline.wp c (fun _ ses s => ses.active = active ∧ Fits ses s)
      (fun _ ses s => ses.active = active ∧ Fits ses s) p ses s :=
  h c ses s hactive hs

-- a statement about a long program is not to be unfolded into its steps
attribute [irreducible] Orderly

section Programs

variable {α : Type} {active : Bool} {env : Env} {conversationId userId bookingId : ℕ}

theorem keeping_updateConversation {id : ℕ} {f : StaysConversation → StaysConversation} :
    Keeping messagesView (Messaging.update (updateConversation id f)) :=
  Keeping.writeRows (spares_updateConversation fun _ _ _ => rfl)

theorem keeping_enqueueDeliveryEvents {conv : StaysConversation} {message : StaysMessage} :
    Keeping messagesView (enqueueDeliveryEvents conv message userId) := by
  have henqueue : ∀ {event}, Keeping messagesView (enqueue event) :=
    conversational_messagesView.enqueue
  refine Keeping.query.bind fun refreshed => ?_
  cases recipientOf conv userId with
  | none => exact henqueue.bind fun _ => keeping_updateConversation.bind fun _ => trivial
  | some recipientId =>
    exact henqueue.bind fun _ => henqueue.bind fun _ => keeping_updateConversation.bind fun _ =>
      trivial

theorem keeping_prepare {conv : StaysConversation} :
    Keeping messagesView (prepareCustomerSupportSend conv userId) := by
  unfold prepareCustomerSupportSend
  split_ifs
  · trivial
  · trivial
  · refine Keeping.findOne.bind fun found => ?_
    cases found with
    | none => trivial
    | some ticket =>
      refine Keeping.lockRow.bind fun locked => ?_
      cases locked with
      | none => trivial
      | some ticket => exact Keeping.require.bind fun _ => trivial

theorem keeping_linkToMessage {messageId : ℕ} {attachmentIds : List ℕ} {id : Option ℕ} :
    Keeping messagesView (linkToMessage messageId attachmentIds id) := by
  unfold linkToMessage
  split_ifs
  · trivial
  · refine (Keeping.writeRows conversational_messagesView.link).bind fun _ => ?_
    cases id with
    | none => trivial
    | some id =>
      refine Keeping.query.bind fun conv => ?_
      cases conv with
      | none => trivial
      | some conv => exact keeping_updateConversation.bind fun _ => trivial

theorem orderly_seedAll {conv : StaysConversation} {seeds : List MessageInput} :
    Orderly true (seedAll conv seeds) :=
  Orderly.forEach fun _ => Orderly.bind orderly_insertMessage fun _ => Orderly.pure

theorem orderly_storeMessage {conv : StaysConversation} {input : MessageInput}
    {link : StaysMessage → Messaging Unit} (hlink : ∀ m, Keeping messagesView (link m)) :
    Orderly false (storeMessage conv userId input link) := by
  refine Orderly.transaction ((Orderly.keeping keeping_prepare).bind fun ticket => ?_)
  refine Orderly.bind orderly_insertMessage fun message => ?_
  refine (Orderly.keeping (hlink message)).bind fun _ => ?_
  refine (Orderly.keeping keeping_enqueueDeliveryEvents).bind fun _ => Orderly.keeping ?_
  cases ticket with
  | none => trivial
  | some ticket =>
    exact conversational_messagesView.applyCustomerSupportMessageEffects.bind fun _ => trivial

theorem keeping_getParticipantConversation :
    Keeping messagesView (getParticipantConversation conversationId userId) :=
  Keeping.query.bind fun _ => Keeping.expect

theorem keeping_findExisting {clientMessageId : Option String} :
    Keeping messagesView (findExisting conversationId clientMessageId) := by
  unfold findExisting
  cases clientMessageId.filter fun c => c ≠ "" with
  | none => trivial
  | some client => exact Keeping.findOne

theorem keeping_assertCanSend : Keeping messagesView assertCanSend :=
  Keeping.receive.bind fun _ => Keeping.require

/-- What every send does first. -/
theorem orderly_checked {k : StaysConversation → Messaging α}
    (hk : ∀ conv, Orderly active (k conv)) :
    Orderly active (do
      let conv ← getParticipantConversation conversationId userId
      Program.require ((resolve conv userId {}).canSend = true) (.forbidden "Cannot send messages")
      k conv) :=
  (Orderly.keeping keeping_getParticipantConversation).bind fun conv =>
    Orderly.require.bind fun _ => hk conv

theorem orderly_sendText {body : String} {clientMessageId : Option String} :
    Orderly false (sendText conversationId userId body clientMessageId) := by
  refine Orderly.require.bind fun _ => Orderly.require.bind fun _ => ?_
  refine orderly_checked fun conv => ?_
  refine (Orderly.keeping keeping_findExisting).bind fun existing => ?_
  cases existing with
  | some message => exact Orderly.pure
  | none =>
    exact (Orderly.keeping keeping_assertCanSend).bind fun _ =>
      orderly_storeMessage fun _ => trivial

theorem keeping_loadForMessage {message : StaysMessage} :
    Keeping messagesView (loadForMessage message) := keeping_linkToMessage

theorem keeping_assertReadyForSend {attachmentIds : List ℕ} :
    Keeping messagesView (assertReadyForSend conversationId userId attachmentIds) := by
  unfold assertReadyForSend
  split_ifs
  · trivial
  · exact Keeping.query.bind fun _ => Keeping.require.bind fun _ => Keeping.require

theorem orderly_sendWithAttachments {type : MessageType} {attachmentIds : List ℕ}
    {caption clientMessageId : Option String} :
    Orderly false (sendWithAttachments conversationId userId type attachmentIds caption
      clientMessageId) := by
  refine orderly_checked fun conv => (Orderly.keeping keeping_findExisting).bind fun existing => ?_
  cases existing with
  | some message => exact (Orderly.keeping keeping_loadForMessage).bind fun _ => Orderly.pure
  | none =>
    refine (Orderly.keeping keeping_assertReadyForSend).bind fun _ =>
      (Orderly.keeping keeping_assertCanSend).bind fun _ => ?_
    refine (orderly_storeMessage fun _ => keeping_linkToMessage).bind fun _ => ?_
    exact (Orderly.keeping keeping_loadForMessage).bind fun _ => Orderly.pure

theorem keeping_assertSessionReadyForSend {sessionId : ℕ} :
    Keeping messagesView (assertSessionReadyForSend conversationId userId sessionId) :=
  Keeping.query.bind fun _ => Keeping.expect.bind fun _ => Keeping.require.bind fun _ =>
    Keeping.receive.bind fun _ => Keeping.require.bind fun _ => Keeping.query.bind fun _ =>
      Keeping.require.bind fun _ => Keeping.require.bind fun _ => trivial

theorem orderly_sendWithSession {type : MessageType} {sessionId : ℕ}
    {caption clientMessageId : Option String} :
    Orderly false
      (sendWithSession conversationId userId type sessionId caption clientMessageId) := by
  refine orderly_checked fun conv => (Orderly.keeping keeping_findExisting).bind fun existing => ?_
  cases existing with
  | some message => exact (Orderly.keeping keeping_loadForMessage).bind fun _ => Orderly.pure
  | none =>
    refine (Orderly.keeping keeping_assertSessionReadyForSend).bind fun _ =>
      (Orderly.keeping keeping_assertCanSend).bind fun _ => ?_
    refine (orderly_storeMessage fun _ => keeping_linkToMessage.bind fun _ =>
      conversational_messagesView.finalizeSession).bind fun _ => ?_
    exact (Orderly.keeping keeping_loadForMessage).bind fun _ => Orderly.pure

theorem orderly_sendAdminMessage {ticketId adminUserId : ℕ} {body : String}
    {actor : SupportStaffActor} :
    Orderly false (sendAdminMessage ticketId adminUserId body actor) := by
  refine Orderly.require.bind fun _ => Orderly.bind (Orderly.transaction ?_)
    fun saved => Orderly.keeping ?_
  · refine (Orderly.keeping Keeping.lockRow).bind fun ticket =>
      Orderly.expect.bind fun ticket => ?_
    refine Orderly.require.bind fun _ =>
      Orderly.require.bind fun _ => ?_
    refine Orderly.query.bind fun conv =>
      Orderly.expect.bind fun conv => ?_
    refine Orderly.bind orderly_insertMessage fun message => Orderly.keeping ?_
    exact keeping_updateConversation.bind fun _ => Keeping.receive.bind fun _ =>
      (Keeping.writeRows conversational_messagesView.updateTicket).bind fun _ => trivial
  · obtain ⟨message, requesterUserId, conv⟩ := saved
    cases requesterUserId with
    | none => trivial
    | some requesterUserId => exact conversational_messagesView.enqueue.bind fun _ => trivial

/-- Rows of messages that were read are written again. -/
theorem edits_of_rows {rows : List StaysMessage} {f : StaysMessage → StaysMessage}
    (hrows : rows ⊆ s.messages) (hf : ∀ m, letter (f m) = letter m) :
    sent (rows.map fun m => .messageUpdate (f m)) = [] ∧
      ∀ m ∈ edits (rows.map fun m => .messageUpdate (f m)), m ∈ letters s := by
  constructor
  · rw [sent, List.filterMap_map]
    exact List.filterMap_eq_nil_iff.mpr fun _ _ => rfl
  · intro m hm
    obtain ⟨w, hw, hedit⟩ := List.mem_filterMap.mp hm
    obtain ⟨x, hx, rfl⟩ := List.mem_map.mp hw
    obtain rfl : letter (f x) = m := Option.some.inj hedit
    rw [hf]
    exact List.mem_map_of_mem (hrows hx)

/-- Rows that are read and written again at once. -/
theorem orderly_edit {rows : Store → List StaysMessage} {f : StaysMessage → StaysMessage}
    (hrows : ∀ s, rows s ⊆ s.messages) (hf : ∀ m, letter (f m) = letter m) :
    Orderly active (Messaging.update fun s => (rows s).map fun m => .messageUpdate (f m)) :=
  Orderly.edit (fun s => (edits_of_rows (hrows s) hf).1) fun s => (edits_of_rows (hrows s) hf).2

theorem orderly_markMessagesRead {now : ℤ} :
    Orderly active (Messaging.update (markMessagesRead conversationId userId now)) := by
  refine orderly_edit (fun s m hm => ?_) ?_
  · exact (List.mem_filter.mp (List.mem_filter.mp hm).1).1
  · exact fun _ => rfl

theorem orderly_markDelivered {ids : List ℕ} {now : ℤ} :
    Orderly active (Messaging.update (markDelivered ids now)) := by
  refine orderly_edit (fun s m hm => ?_) ?_
  · exact (List.mem_filter.mp hm).1
  · exact fun _ => rfl

theorem orderly_markRead : Orderly false (markRead conversationId userId) := by
  refine (Orderly.keeping keeping_getParticipantConversation).bind fun conv => ?_
  refine Orderly.receive.bind fun now => ?_
  have hbody : ∀ lastMsg : Option StaysMessage, Orderly false (do
      Program.transaction .database do
        let _ ← Messaging.update (updateConversation conv.id
          (afterRead conv userId (lastMsg.map (·.id)) now))
        let _ ← Messaging.update (markMessagesRead conv.id userId now)
        enqueue (.messageRead conv.id userId)
      pure (conv.conversationVersion + 1)) := by
    intro lastMsg
    refine (Orderly.transaction ?_).bind fun _ => Orderly.pure
    refine (Orderly.keeping keeping_updateConversation).bind fun _ => ?_
    exact Orderly.bind orderly_markMessagesRead fun _ =>
      Orderly.keeping conversational_messagesView.enqueue
  cases conv.lastMessageId with
  | none => exact hbody none
  | some lastMessageId => exact Orderly.query.bind hbody

theorem orderly_listMessages {limit : ℤ} {beforeSequence : Option ℕ} :
    Orderly false (listMessages conversationId userId limit beforeSequence) := by
  refine (Orderly.keeping keeping_getParticipantConversation).bind fun conv => ?_
  refine Orderly.query.bind fun rows => ?_
  have hloaded : ∀ slice : List StaysMessage, Orderly false (do
      Program.forEach loadForMessage slice
      pure (slice, decide (rows.length > pageSize limit))) := fun slice =>
    (Orderly.forEach fun _ => Orderly.keeping keeping_loadForMessage).bind fun _ => Orderly.pure
  dsimp only
  split_ifs
  · exact hloaded _
  · exact Orderly.receive.bind fun now => Orderly.bind orderly_markDelivered fun _ => hloaded _

theorem keeping_updateVisibility {action : VisibilityAction} :
    Keeping messagesView (updateVisibility conversationId userId action) :=
  keeping_getParticipantConversation.bind fun _ => Keeping.require.bind fun _ =>
    Keeping.require.bind fun _ => keeping_updateConversation.bind fun _ => trivial

theorem keeping_block : Keeping messagesView (block conversationId userId) :=
  keeping_getParticipantConversation.bind fun _ => Keeping.receive.bind fun _ =>
    keeping_updateConversation.bind fun _ => trivial

theorem keeping_listingOf {booking : Option StaysBooking} :
    Keeping messagesView (listingOf booking) := by
  cases booking with
  | none => trivial
  | some booking => exact Keeping.query

theorem keeping_reopenConversation {options : ReopenOptions} :
    Keeping messagesView (reopenConversation env conversationId userId options) :=
  keeping_getParticipantConversation.bind fun _ => Keeping.query.bind fun _ =>
    Keeping.expect.bind fun _ => Keeping.query.bind fun _ => keeping_listingOf.bind fun _ =>
      keeping_updateConversation.bind fun _ => Keeping.query.bind fun _ => Keeping.expect

theorem orderly_provision {booking : StaysBooking} {listingId : ℕ} :
    Orderly true (provisionWithinTransaction booking listingId) := by
  refine Orderly.query.bind fun existing => ?_
  cases existing with
  | some conv => exact Orderly.pure
  | none =>
    refine Orderly.query.bind fun listing => ?_
    split
    · exact Orderly.pure
    · refine (Orderly.keeping (Keeping.insertRow fun _ _ => rfl)).bind fun id => ?_
      refine Orderly.bind orderly_seedAll fun _ => Orderly.keeping ?_
      exact conversational_messagesView.enqueue.bind fun _ =>
        conversational_messagesView.enqueue.bind fun _ => trivial

theorem orderly_ensureForBooking : Orderly false (ensureForBooking bookingId userId) := by
  refine Orderly.bind (Orderly.transaction ?_) fun conv =>
    Orderly.keeping (conversational_messagesView.enqueue.bind fun _ => trivial)
  refine Orderly.query.bind fun existing => ?_
  cases existing with
  | some conv =>
    exact Orderly.require.bind fun _ =>
      Orderly.keeping (conversational_messagesView.enqueue.bind fun _ => trivial)
  | none =>
    refine Orderly.query.bind fun booking => Orderly.expect.bind fun booking => ?_
    refine Orderly.query.bind fun listing => Orderly.require.bind fun _ => ?_
    exact Orderly.require.bind fun _ => Orderly.bind orderly_provision fun _ => Orderly.expect

theorem orderly_seedOnce {conv : StaysConversation} {type : MessageType}
    {seeds : List MessageInput} : Orderly true (seedOnce conv type seeds) := by
  refine Orderly.query.bind fun present => ?_
  split_ifs
  · exact Orderly.pure
  · exact orderly_seedAll

theorem orderly_archiveConversation {reason : String} :
    Orderly false (archiveConversation conversationId reason) := by
  refine Orderly.query.bind fun conv => ?_
  split
  · exact Orderly.pure
  · refine Orderly.receive.bind fun now => Orderly.transaction ?_
    refine Orderly.bind orderly_seedOnce fun _ => ?_
    exact (Orderly.keeping keeping_updateConversation).bind fun _ => Orderly.pure

theorem orderly_enterPostStay : Orderly false (enterPostStay env bookingId) := by
  refine Orderly.query.bind fun booking => Orderly.query.bind fun conv => ?_
  split
  · split_ifs
    · exact Orderly.pure
    · refine (Orderly.keeping keeping_listingOf).bind fun listing => Orderly.transaction ?_
      exact Orderly.bind orderly_seedOnce fun _ =>
        (Orderly.keeping keeping_updateConversation).bind fun _ => Orderly.pure
  · exact Orderly.pure

theorem orderly_syncFromBooking : Orderly false (syncFromBooking env bookingId) := by
  refine Orderly.query.bind fun booking => Orderly.query.bind fun conv => ?_
  split
  · refine Orderly.receive.bind fun now => ?_
    split_ifs
    · exact (Orderly.keeping keeping_updateConversation).bind fun _ => Orderly.pure
    · exact Orderly.pure
    · exact orderly_archiveConversation
    · exact orderly_enterPostStay
    · exact Orderly.pure
  · exact Orderly.pure

theorem orderly_archiveDueConversations : Orderly false archiveDueConversations := by
  refine Orderly.receive.bind fun now => Orderly.bind ?_ fun due => Orderly.forEach fun conv => ?_
  · exact Orderly.keeping (Keeping.receive.bind fun _ => Keeping.query)
  · exact Orderly.handle orderly_archiveConversation (fun _ => Orderly.pure) fun _ => Orderly.pure

theorem orderly_markReviewCardSubmitted : Orderly false (markReviewCardSubmitted bookingId) := by
  refine Orderly.query.bind fun conv => ?_
  cases conv with
  | none => exact Orderly.pure
  | some conv =>
    refine Orderly.query.bind fun reviewCard => ?_
    split
    · exact Orderly.pure
    · refine Orderly.bind (orderly_edit (fun s m hm => ?_) ?_) fun _ => ?_
      · exact (List.mem_filter.mp hm).1
      · exact fun _ => rfl
      · exact (Orderly.keeping keeping_updateConversation).bind fun _ => Orderly.pure

/-- Every call keeps to the discipline. -/
theorem orderly_program (env : Env) (c : Call) : Orderly false (program env c) := by
  cases c with
  | conversation call =>
    refine Orderly.map ?_
    cases call with
    | sendText => exact Orderly.map orderly_sendText
    | sendWithAttachments => exact Orderly.map orderly_sendWithAttachments
    | sendWithSession => exact Orderly.map orderly_sendWithSession
    | reopenConversation => exact (Orderly.keeping keeping_reopenConversation).map
    | updateVisibility => exact (Orderly.keeping keeping_updateVisibility).map
    | block => exact (Orderly.keeping keeping_block).map
    | ensureForBooking => exact Orderly.map orderly_ensureForBooking
    | syncFromBooking => exact Orderly.map orderly_syncFromBooking
    | enterPostStay => exact Orderly.map orderly_enterPostStay
    | archiveDueConversations => exact Orderly.map orderly_archiveDueConversations
    | bookingChanged row =>
      refine Orderly.map ((Orderly.keeping (Keeping.writeRows fun s w hw => ?_)).bind fun _ =>
        Orderly.pure)
      rw [List.mem_singleton.mp hw]
      exact fun _ => rfl
  | sendAdminMessage => exact Orderly.map orderly_sendAdminMessage
  | markRead => exact Orderly.map orderly_markRead
  | listMessages => exact Orderly.map orderly_listMessages
  | archiveConversation => exact Orderly.map orderly_archiveConversation
  | markReviewCardSubmitted => exact Orderly.map orderly_markReviewCardSubmitted

end Programs

section Runs

variable {env : Env} {sys sys' : MessagingSystem} {a : Action}

theorem admits_any (sys : MessagingSystem) (a : Action) : discipline.Admits sys a :=
  ⟨fun _ _ _ _ _ => trivial, fun _ _ _ => trivial⟩

theorem sound_of_reachable (h : Reachable env sys) : discipline.Sound sys := by
  obtain ⟨s, calls, hfresh, hrun⟩ := h
  have hinv : discipline.Inv s := by
    show Ordered (letters s)
    rw [letters, hfresh]
    exact List.Pairwise.nil
  have hidle : Fits .idle s := ⟨staged_nil hinv rfl (by simp [edits, Session.idle]), fun _ => rfl⟩
  refine Discipline.Sound.run (fun sys a _ => admits_any sys a) hrun
    (Discipline.Sound.initial hinv (fun t ht => ?_) fun t ht => ?_)
  · obtain ⟨c, -, rfl⟩ := List.mem_map.mp ht
    rfl
  · obtain ⟨c, -, rfl⟩ := List.mem_map.mp ht
    exact wp_mono (fun _ _ _ _ _ => trivial) (fun _ _ _ _ _ => trivial)
      (Orderly.wp (orderly_program env c) c .idle s rfl hidle)

theorem Reachable.trans (h : Reachable env sys) (hrun : System.Run (fun _ _ => True) sys sys') :
    Reachable env sys' := by
  obtain ⟨s, calls, hfresh, hstart⟩ := h
  exact ⟨s, calls, hfresh, hstart.trans hrun⟩

/-- A step adds messages at the end, or none. -/
theorem letters_step (h : Reachable env sys) (hstep : sys.step a = some sys') :
    ∃ new, letters sys'.store = letters sys.store ++ new := by
  obtain ⟨t, p, ses, ws, ht, hmove, rfl⟩ := System.step_eq_some.mp hstep
  have hpub : sys.published a = some (t.call, ws) :=
    System.published_eq_some.mpr ⟨t, p, ses, ht, rfl, hmove⟩
  obtain ⟨held, rfl | hlegal⟩ := (sound_of_reachable h).publishes (admits_any sys a) hpub
  · exact ⟨[], (List.append_nil _).symm⟩
  · exact ⟨sent ws, letters_publish hlegal⟩

theorem letters_run (h : Reachable env sys) (hrun : System.Run (fun _ _ => True) sys sys') :
    ∃ new, letters sys'.store = letters sys.store ++ new := by
  induction hrun with
  | refl => exact ⟨[], (List.append_nil _).symm⟩
  | tail run _ step ih =>
    obtain ⟨new, hnew⟩ := ih
    obtain ⟨more, hmore⟩ := letters_step (h.trans run) step
    exact ⟨new ++ more, by rw [hmore, hnew, List.append_assoc]⟩

theorem ordered_of_reachable (h : Reachable env sys) : Ordered (letters sys.store) :=
  (sound_of_reachable h).inv

end Runs

/-- Guest 2 and host 3 have one conversation. -/
def sampleStore : Store :=
  { Store.blank with
    conversations := Table.ofRows [{ id := 1, bookingId := none, type := .booking,
                                     hostUserId := some 3, guestUserId := some 2 }] }

/-- Two messages of the guest, and one of the host in between. -/
def sampleSends : List Call :=
  [.conversation (.sendText 1 2 "one" none), .conversation (.sendText 1 3 "two" none),
    .conversation (.sendText 1 2 "three" none)]

/-- The first two sends overlap. -/
def sampleOverlap : List Action :=
  System.turns 0 1 3 ++ System.turns 1 20 3 ++ System.turns 0 4 12 ++ System.turns 1 23 12

section Schedules

variable (calls : List Call) (as as' : List Action) (p p' : MessagingSystem → Bool)

/-- A state that a schedule reaches in this deployment. -/
theorem exists_reachable
    (h : (System.exec (fun _ _ => True) (initial {} sampleStore calls) as).any p = true) :
    ∃ sys, Reachable {} sys ∧ p sys = true := by
  obtain ⟨sys, hrun, hp⟩ := System.exists_run h
  exact ⟨sys, ⟨sampleStore, calls, rfl, hrun⟩, hp⟩

/-- A state that a schedule reaches in this deployment, and a run from there. -/
theorem exists_reachable_run
    (h : (System.exec (fun _ _ => True) (initial {} sampleStore calls) as).any (fun sys =>
      p sys && (System.exec (fun _ _ => True) sys as').any p') = true) :
    ∃ sys sys', Reachable {} sys ∧ System.Run (fun _ _ => True) sys sys' ∧ p sys = true ∧
      p' sys' = true := by
  obtain ⟨sys, hreach, hboth⟩ := exists_reachable calls as _ h
  obtain ⟨hp, hrest⟩ := Bool.and_eq_true_iff.mp hboth
  obtain ⟨sys', hrun, hp'⟩ := System.exists_run hrest
  exact ⟨sys, sys', hreach, hrun, hp, hp'⟩

end Schedules

/-- The numbers of a conversation go up in the order in which its messages were committed. -/
theorem numbered_in_commit_order {env : Env} {sys : MessagingSystem} (h : Reachable env sys)
    (conversationId : ℕ) :
    ((messagesOf sys.store conversationId).map (·.conversationSequence)).Pairwise (· < ·) := by
  have hletters : (sys.store.messages.map letter).Pairwise Precedes := ordered_of_reachable h
  refine List.pairwise_map.mpr (List.pairwise_filter.mpr ?_)
  refine (List.pairwise_map.mp hletters).imp fun hab ha hb => hab.2 ?_
  exact (of_decide_eq_true ha).trans (of_decide_eq_true hb).symm

/-- Two sends that overlap. -/
theorem numbered_in_commit_order_sends : ∃ sys : MessagingSystem,
    (messagesOf sys.store 1).map (·.body) = [some "one", some "two"] ∧
    ((messagesOf sys.store 1).map (·.conversationSequence)).Pairwise (· < ·) := by
  obtain ⟨sys, hreach, hbodies⟩ := exists_reachable sampleSends sampleOverlap
    (fun sys => (messagesOf sys.store 1).map (·.body) = [some "one", some "two"])
    (by decide +kernel)
  exact ⟨sys, of_decide_eq_true hbodies, numbered_in_commit_order hreach 1⟩

/-- A run adds messages at the end: none is lost, renumbered, moved or rewritten. -/
theorem messages_only_added {env : Env} {sys sys' : MessagingSystem} (h : Reachable env sys)
    (hrun : System.Run (fun _ _ => True) sys sys') :
    sys.store.messages.map letter <+: sys'.store.messages.map letter := by
  obtain ⟨new, hnew⟩ := letters_run h hrun
  exact ⟨new, hnew.symm⟩

/-- The third message comes after the two that were there. -/
theorem messages_only_added_third : ∃ sys sys' : MessagingSystem,
    (messagesOf sys.store 1).map (·.body) = [some "one", some "two"] ∧
    (messagesOf sys'.store 1).map (·.body) = [some "one", some "two", some "three"] ∧
    sys.store.messages.map letter <+: sys'.store.messages.map letter := by
  obtain ⟨sys, sys', hreach, hrun, hbefore, hafter⟩ := exists_reachable_run sampleSends
    sampleOverlap (System.turns 2 40 15)
    (fun sys => (messagesOf sys.store 1).map (·.body) = [some "one", some "two"])
    (fun sys => (messagesOf sys.store 1).map (·.body) = [some "one", some "two", some "three"])
    (by decide +kernel)
  exact ⟨sys, sys', of_decide_eq_true hbefore, of_decide_eq_true hafter,
    messages_only_added hreach hrun⟩

end NexaStays.MessageOrder
