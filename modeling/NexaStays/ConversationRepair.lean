import NexaStays.KeyedTable
import NexaStays.Keyset
import NexaStays.Messages

/-!
# Merging two conversations of one booking

Legacy data may hold two conversations of a booking. The repair moves the messages of one to the
other in a transaction, while participants send into both. Sends take the lock of the row of their
conversation; the merge takes the lock of the kept row with the first message it moves there, since
a foreign key leads to it, and the lock of the dropped row with its deletion.
-/
namespace NexaStays.ConversationRepair

open NexaStays.KeyedTable NexaStays.MessagingStore NexaStays.Messages

/-- A message with the time at which its row was made. -/
structure MessageRow extends StaysMessage where
  createdAt : ℤ
  deriving DecidableEq, Repr

def MessageRow.key (m : MessageRow) : ℕ := m.id

structure Threads where
  conversations : Table StaysConversation.id
  messages : Table MessageRow.key

/-- The messages of a conversation. -/
def Threads.thread (s : Threads) (conversationId : ℕ) : List MessageRow :=
  s.messages.rows.filter fun m => m.conversationId = conversationId

/-- `ORDER BY conversation_sequence ASC`. -/
def bySequence (messages : List MessageRow) : List MessageRow :=
  Keyset.orderBy (·.conversationSequence) messages

/-- The first row of `ORDER BY conversation_sequence DESC`. -/
def lastMessage (messages : List MessageRow) : Option MessageRow :=
  (bySequence messages).getLast?

/-- `COALESCE(MAX(conversation_sequence), 0)`. -/
def maxSequence (messages : List MessageRow) : ℕ :=
  (messages.map (·.conversationSequence)).foldr max 0

/-- The transaction that holds the lock of a conversation. -/
inductive Party where
  | merge
  | send (i : ℕ)
  deriving DecidableEq, Repr

/-- Where `mergeMessagesIntoConversation` stands. The rows that it has moved are seen by the
others from its commit on. -/
inductive MergeStage where
  | waiting
  | read (orphanMessages : List MessageRow)
  | moving (orphanMessages : List MessageRow) (nextSeq : ℕ) (moved : List MessageRow)
  | named (moved : List MessageRow) (last : Option MessageRow)
  | ended (committed : Bool)

/-- Where an `insertMessage` stands. -/
inductive SendStage where
  | waiting
  | locked (conversation : StaysConversation)
  | ended (committed : Bool)

structure Send where
  conversationId : ℕ
  input : MessageInput

structure System where
  threads : Threads
  holder : ℕ → Option Party
  merge : MergeStage
  sends : ℕ → SendStage

def start (threads : Threads) : System := ⟨threads, fun _ => none, .waiting, fun _ => .waiting⟩

/-- The locks without those of a transaction that ends. -/
def released (holder : ℕ → Option Party) (party : Party) : ℕ → Option Party :=
  fun id => if holder id = some party then none else holder id

/-- A message as the merge writes it. -/
def moveTo (toConversationId sequence : ℕ) (message : MessageRow) : MessageRow :=
  { message with conversationId := toConversationId, conversationSequence := sequence }

/-- What the merge reads after it has moved messages. -/
def Threads.withMoved (s : Threads) (moved : List MessageRow) : Threads :=
  { s with messages := s.messages.putAll moved }

/-- The conversation whose last message is named anew. -/
def naming (last : MessageRow) (c : StaysConversation) : StaysConversation :=
  { c with
    lastMessageId := some last.id
    lastMessageSequence := last.conversationSequence
    lastMessageAt := some last.createdAt }

/-- The deletion of a conversation takes its messages along. -/
def Threads.drop (s : Threads) (conversationId : ℕ) : Threads :=
  { conversations := s.conversations.delete conversationId
    messages := s.messages.deleteAll (s.thread conversationId) }

/-- The threads once the merge has committed. -/
def Threads.merged (s : Threads) (fromConversationId toConversationId : ℕ)
    (moved : List MessageRow) (last : Option MessageRow) : Threads :=
  let named :=
    match last, s.conversations.find? toConversationId with
    | some last, some c => s.conversations.put (naming last c)
    | _, _ => s.conversations
  { s.withMoved moved with conversations := named }.drop fromConversationId

/-- The merge ends. -/
def System.endMerge (sys : System) (threads : Threads) (committed : Bool) : System :=
  { sys with threads, holder := released sys.holder .merge, merge := .ended committed }

/-- The deletion waits for the lock of the row, and the commit follows. -/
def System.commitMerge (sys : System) (fromConversationId toConversationId : ℕ)
    (moved : List MessageRow) (last : Option MessageRow) : Option System :=
  if (sys.holder fromConversationId).isSome then none
  else some (sys.endMerge
    (sys.threads.merged fromConversationId toConversationId moved last) true)

/-- The next statement of `mergeMessagesIntoConversation`. -/
def mergeMessagesIntoConversation (fromConversationId toConversationId : ℕ) (sys : System) :
    Option System :=
  match sys.merge with
  | .waiting =>
    some { sys with merge := .read (bySequence (sys.threads.thread fromConversationId)) }
  | .read [] => sys.commitMerge fromConversationId toConversationId [] none
  | .read orphanMessages =>
    some { sys with
      merge := .moving orphanMessages (maxSequence (sys.threads.thread toConversationId)) [] }
  | .moving (message :: rest) nextSeq moved =>
    if sys.holder toConversationId ≠ none ∧ sys.holder toConversationId ≠ some .merge then none
    -- a number that is taken, or a conversation that is gone, aborts the transaction
    else if (∃ m ∈ (sys.threads.withMoved moved).thread toConversationId,
        m.conversationSequence = nextSeq + 1) ∨
        sys.threads.conversations.find? toConversationId = none then
      some (sys.endMerge sys.threads false)
    else some { sys with
      holder := Function.update sys.holder toConversationId (some .merge)
      merge := .moving rest (nextSeq + 1)
        (moved ++ [moveTo toConversationId (nextSeq + 1) message]) }
  | .moving [] _ moved =>
    some { sys with
      merge := .named moved
        (lastMessage ((sys.threads.withMoved moved).thread toConversationId)) }
  | .named moved last => sys.commitMerge fromConversationId toConversationId moved last
  | .ended _ => none

def System.endSend (sys : System) (i : ℕ) (threads : Threads) (committed : Bool) : System :=
  { sys with
    threads
    holder := released sys.holder (.send i)
    sends := Function.update sys.sends i (.ended committed) }

/-- `SELECT … FOR UPDATE` of the conversation. -/
def lockConversation (send : Send) (i : ℕ) (sys : System) : Option System :=
  if (sys.holder send.conversationId).isSome then none
  else match sys.threads.conversations.find? send.conversationId with
    | none => some (sys.endSend i sys.threads false)
    | some conversation => some { sys with
        holder := Function.update sys.holder send.conversationId (some (.send i))
        sends := Function.update sys.sends i (.locked conversation) }

/-- The number that a message gets behind the lock. -/
def nextSequence (s : Threads) (locked : StaysConversation) : ℕ :=
  max locked.lastMessageSequence (maxSequence (s.thread locked.id)) + 1

/-- The threads once an `insertMessage` has committed; `none` when its row cannot be written. -/
def insertMessage (s : Threads) (locked : StaysConversation) (input : MessageInput) (now : ℤ)
    (newId : ℕ) : Option Threads :=
  if (s.messages.find? newId).isSome then none
  else (s.conversations.find? locked.id).map fun c =>
    { conversations :=
        s.conversations.put (afterMessage locked (nextSequence s locked) input now newId c)
      messages := s.messages.put
        ⟨newMessage locked.id (nextSequence s locked) input now newId, now⟩ }

inductive Action where
  | merge
  | failMerge
  | lock (i : ℕ)
  | commit (i : ℕ) (now : ℤ) (newId : ℕ)
  | fail (i : ℕ)
  deriving DecidableEq, Repr

def step (fromConversationId toConversationId : ℕ) (sends : ℕ → Send) (sys : System) :
    Action → Option System
  | .merge => mergeMessagesIntoConversation fromConversationId toConversationId sys
  | .failMerge =>
    match sys.merge with
    | .ended _ => none
    | _ => some (sys.endMerge sys.threads false)
  | .lock i =>
    match sys.sends i with
    | .waiting => lockConversation (sends i) i sys
    | _ => none
  | .commit i now newId =>
    match sys.sends i with
    | .locked conversation =>
      match insertMessage sys.threads conversation (sends i).input now newId with
      | none => some (sys.endSend i sys.threads false)
      | some threads => some (sys.endSend i threads true)
    | _ => none
  | .fail i =>
    match sys.sends i with
    | .ended _ => none
    | _ => some (sys.endSend i sys.threads false)

end NexaStays.ConversationRepair
