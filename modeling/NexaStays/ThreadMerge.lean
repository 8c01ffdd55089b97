import NexaStays.ConversationRepair

/-!
# What a merge of two conversations keeps

In the runs in which nobody sends into the dropped conversation between the reading of its
messages and its deletion, every message ends up in the kept conversation, in its order.
-/
namespace NexaStays.ThreadMerge

open NexaStays.KeyedTable NexaStays.ConversationRepair
open NexaStays.MessagingStore (StaysConversation)
open NexaStays.Messages (MessageInput newMessage afterMessage textInput)

/-- No number is given twice in a conversation. -/
def Numbered (s : Threads) : Prop :=
  ∀ m ∈ s.messages.rows, ∀ n ∈ s.messages.rows, m.conversationId = n.conversationId →
    m.conversationSequence = n.conversationSequence → m = n

/-- A conversation names its message with the greatest number. -/
def Pointed (s : Threads) (conversationId : ℕ) : Prop :=
  ∀ m ∈ s.thread conversationId,
    (∀ n ∈ s.thread conversationId, n.conversationSequence ≤ m.conversationSequence) →
      ∃ c, s.conversations.find? conversationId = some c ∧ c.lastMessageId = some m.id ∧
        c.lastMessageSequence = m.conversationSequence

/-- The messages of two conversations. -/
def Ours (a b : ℕ) (m : MessageRow) : Prop := m.conversationId = a ∨ m.conversationId = b

/-- Messages of two conversations stay with them, in the order of each. -/
structure Carries (a b : ℕ) (s s' : Threads) : Prop where
  kept : ∀ m ∈ s.messages.rows, Ours a b m → ∃ m' ∈ s'.messages.rows, m'.id = m.id ∧ Ours a b m'
  order : ∀ m ∈ s.messages.rows, ∀ n ∈ s.messages.rows, Ours a b m →
    m.conversationId = n.conversationId → m.conversationSequence < n.conversationSequence →
    ∀ m' ∈ s'.messages.rows, ∀ n' ∈ s'.messages.rows, m'.id = m.id → n'.id = n.id →
      m'.conversationId = n'.conversationId ∧ m'.conversationSequence < n'.conversationSequence

variable {a b : ℕ} {s s' s'' : Threads}

theorem mem_thread {m : MessageRow} {conversationId : ℕ} :
    m ∈ s.thread conversationId ↔ m ∈ s.messages.rows ∧ m.conversationId = conversationId := by
  simp [Threads.thread]

theorem eq_of_id {m n : MessageRow} (hm : m ∈ s.messages.rows) (hn : n ∈ s.messages.rows)
    (h : m.id = n.id) : m = n :=
  s.messages.eq_of_key_eq hm hn h

theorem Carries.refl (s : Threads) : Carries a b s s := by
  refine ⟨fun m hm hours => ⟨m, hm, rfl, hours⟩, ?_⟩
  intro m hm n hn _ hsame hlt m' hm' n' hn' hmid hnid
  obtain rfl := eq_of_id hm' hm hmid
  obtain rfl := eq_of_id hn' hn hnid
  exact ⟨hsame, hlt⟩

theorem Carries.trans (h : Carries a b s s') (h' : Carries a b s' s'') : Carries a b s s'' := by
  refine ⟨fun m hm hours => ?_, ?_⟩
  · obtain ⟨m', hm', hid, hours'⟩ := h.kept m hm hours
    obtain ⟨m'', hm'', hid', hours''⟩ := h'.kept m' hm' hours'
    exact ⟨m'', hm'', hid'.trans hid, hours''⟩
  · intro m hm n hn hours hsame hlt m'' hm'' n'' hn'' hmid hnid
    have hours' : Ours a b n := by
      unfold Ours
      rw [← hsame]
      exact hours
    obtain ⟨m', hm', hm'id, hm'ours⟩ := h.kept m hm hours
    obtain ⟨n', hn', hn'id, -⟩ := h.kept n hn hours'
    obtain ⟨hsame', hlt'⟩ := h.order m hm n hn hours hsame hlt m' hm' n' hn' hm'id hn'id
    exact h'.order m' hm' n' hn' hm'ours hsame' hlt' m'' hm'' n'' hn'' (hmid.trans hm'id.symm)
      (hnid.trans hn'id.symm)

theorem le_maxSequence {messages : List MessageRow} {m : MessageRow} (h : m ∈ messages) :
    m.conversationSequence ≤ maxSequence messages := by
  unfold maxSequence
  induction messages with
  | nil => cases h
  | cons n messages ih =>
    simp only [List.map_cons, List.foldr_cons]
    obtain rfl | hmem := List.mem_cons.mp h
    · exact le_max_left _ _
    · exact (ih hmem).trans (le_max_right _ _)

/-- What an `insertMessage` writes: one message with a number greater than all of its conversation,
which the conversation names. -/
structure Inserted (s s' : Threads) (conversationId : ℕ) : Prop where
  message : ∃ new : MessageRow, s.messages.find? new.id = none ∧
    s'.messages.rows = s.messages.rows ++ [new] ∧ new.conversationId = conversationId ∧
    (∀ m ∈ s.thread conversationId, m.conversationSequence < new.conversationSequence) ∧
    ∃ c, s'.conversations.find? conversationId = some c ∧ c.lastMessageId = some new.id ∧
      c.lastMessageSequence = new.conversationSequence
  present : ∃ c, s.conversations.find? conversationId = some c
  others : ∀ id, id ≠ conversationId → s'.conversations.find? id = s.conversations.find? id

theorem inserted_of_insertMessage {locked : StaysConversation} {input : MessageInput} {now : ℤ}
    {newId : ℕ} (h : insertMessage s locked input now newId = some s') :
    Inserted s s' locked.id := by
  unfold insertMessage at h
  split_ifs at h with hfresh
  obtain ⟨c, hfind, rfl⟩ := Option.map_eq_some_iff.mp h
  have hid : c.id = locked.id := Table.key_of_find? hfind
  have hnone : s.messages.find? newId = none := by simpa using hfresh
  refine ⟨⟨⟨newMessage locked.id (nextSequence s locked) input now newId, now⟩, hnone,
    Table.rows_put_of_absent hnone, rfl, fun m hm => ?_,
    afterMessage locked (nextSequence s locked) input now newId c, ?_, rfl, rfl⟩, ⟨c, hfind⟩,
    fun id hne => ?_⟩
  · have hle := le_maxSequence hm
    have hmax : maxSequence (s.thread locked.id) < nextSequence s locked := by
      unfold nextSequence
      omega
    exact lt_of_le_of_lt hle hmax
  · rw [Table.find?_put]
    exact if_pos hid.symm
  · exact Table.find?_put_of_ne fun heq => hne (heq.trans hid)

namespace Inserted

variable {conversationId : ℕ}

theorem thread_of_ne (h : Inserted s s' conversationId) {id : ℕ} (hne : id ≠ conversationId) :
    s'.thread id = s.thread id := by
  obtain ⟨new, -, hrows, hconv, -⟩ := h.message
  unfold Threads.thread
  rw [hrows, List.filter_append]
  have hother : ¬ new.conversationId = id := fun heq => hne (heq.symm.trans hconv)
  simp [hother]

theorem present_of_present (h : Inserted s s' conversationId) {id : ℕ}
    (hpresent : s.conversations.find? id ≠ none) : s'.conversations.find? id ≠ none := by
  by_cases hid : id = conversationId
  · obtain ⟨new, -, -, -, -, c, hfind, -⟩ := h.message
    rw [hid, hfind]
    simp
  · rw [h.others id hid]
    exact hpresent

theorem numbered (h : Inserted s s' conversationId) (hs : Numbered s) : Numbered s' := by
  obtain ⟨new, -, hrows, hconv, hgreater, -⟩ := h.message
  have hless : ∀ m ∈ s.messages.rows, m.conversationId = new.conversationId →
      m.conversationSequence ≠ new.conversationSequence := fun m hm hsame =>
    Nat.ne_of_lt (hgreater m (mem_thread.mpr ⟨hm, hsame.trans hconv⟩))
  intro m hm n hn hsame hseq
  rw [hrows, List.mem_append, List.mem_singleton] at hm hn
  obtain hm | rfl := hm <;> obtain hn | rfl := hn
  · exact hs m hm n hn hsame hseq
  · exact absurd hseq (hless m hm hsame)
  · exact absurd hseq.symm (hless n hn hsame.symm)
  · rfl

theorem pointed (h : Inserted s s' conversationId) : Pointed s' conversationId := by
  obtain ⟨new, -, hrows, hconv, hgreater, c, hfind, hid, hseq⟩ := h.message
  intro m hm hgreatest
  have hnew : new ∈ s'.thread conversationId :=
    mem_thread.mpr ⟨by rw [hrows]; simp, hconv⟩
  obtain ⟨hmem, hmconv⟩ := mem_thread.mp hm
  rw [hrows, List.mem_append, List.mem_singleton] at hmem
  obtain hmem | rfl := hmem
  · have hlt := hgreater m (mem_thread.mpr ⟨hmem, hmconv⟩)
    exact absurd (hgreatest new hnew) (Nat.not_le.mpr hlt)
  · exact ⟨c, hfind, hid, hseq⟩

theorem carries (h : Inserted s s' conversationId) : Carries a b s s' := by
  obtain ⟨new, -, hrows, -⟩ := h.message
  have hsub : ∀ m ∈ s.messages.rows, m ∈ s'.messages.rows := by
    intro m hm
    rw [hrows]
    exact List.mem_append_left _ hm
  refine ⟨fun m hm hours => ⟨m, hsub m hm, rfl, hours⟩, ?_⟩
  intro m hm n hn _ hsame hlt m' hm' n' hn' hmid hnid
  obtain rfl := eq_of_id hm' (hsub m hm) hmid
  obtain rfl := eq_of_id hn' (hsub n hn) hnid
  exact ⟨hsame, hlt⟩

/-- A conversation that names its last message still does. -/
theorem pointed_of_pointed (h : Inserted s s' conversationId) {id : ℕ} (hs : Pointed s id) :
    Pointed s' id := by
  by_cases hid : id = conversationId
  · rw [hid]
    exact h.pointed
  · unfold Pointed
    rw [h.thread_of_ne hid, h.others id hid]
    exact hs

end Inserted

/-- Messages with the numbers after `base`. -/
def moveAll (toConversationId : ℕ) : ℕ → List MessageRow → List MessageRow
  | _, [] => []
  | base, m :: messages =>
    moveTo toConversationId (base + 1) m :: moveAll toConversationId (base + 1) messages

variable {base : ℕ} {l done : List MessageRow}

theorem moveAll_append (m : MessageRow) :
    moveAll b base (l ++ [m]) = moveAll b base l ++ [moveTo b (base + l.length + 1) m] := by
  induction l generalizing base with
  | nil => rfl
  | cons n l ih =>
    simp only [List.cons_append, moveAll, ih, List.length_cons]
    rw [show base + 1 + l.length + 1 = base + (l.length + 1) + 1 by omega]

theorem map_key_moveAll : (moveAll b base l).map MessageRow.key = l.map MessageRow.key := by
  induction l generalizing base with
  | nil => rfl
  | cons m l ih =>
    simp only [moveAll, List.map_cons, ih]
    rfl

/-- A moved message is one of those read, with the number of its place. -/
theorem mem_moveAll {x : MessageRow} : x ∈ moveAll b base l ↔
    ∃ k m, l[k]? = some m ∧ x = moveTo b (base + k + 1) m := by
  induction l generalizing base with
  | nil => simp [moveAll]
  | cons n l ih =>
    simp only [moveAll, List.mem_cons, ih]
    constructor
    · rintro (rfl | ⟨k, m, hk, rfl⟩)
      · exact ⟨0, n, rfl, rfl⟩
      · refine ⟨k + 1, m, hk, ?_⟩
        rw [show base + 1 + k + 1 = base + (k + 1) + 1 by omega]
    · rintro ⟨k, m, hk, rfl⟩
      cases k with
      | zero =>
        obtain rfl := Option.some.inj hk
        exact Or.inl rfl
      | succ k =>
        refine Or.inr ⟨k, m, hk, ?_⟩
        rw [show base + 1 + k + 1 = base + (k + 1) + 1 by omega]

/-- Of two moved messages the one that was read first has the smaller number. -/
theorem lt_of_moveAll (hsorted : l.Pairwise fun m n => m.conversationSequence ≤
      n.conversationSequence) (hnodup : (l.map MessageRow.key).Nodup) {m n m' n' : MessageRow}
    (hm : m ∈ l) (hn : n ∈ l) (hlt : m.conversationSequence < n.conversationSequence)
    (hm' : m' ∈ moveAll b base l) (hn' : n' ∈ moveAll b base l) (hmid : m'.id = m.id)
    (hnid : n'.id = n.id) : m'.conversationSequence < n'.conversationSequence := by
  obtain ⟨i, x, hi, rfl⟩ := mem_moveAll.mp hm'
  obtain ⟨j, y, hj, rfl⟩ := mem_moveAll.mp hn'
  have hinj := List.inj_on_of_nodup_map hnodup
  obtain rfl : x = m := hinj (List.mem_of_getElem? hi) hm hmid
  obtain rfl : y = n := hinj (List.mem_of_getElem? hj) hn hnid
  have hij : i < j := by
    by_contra hnot
    obtain hji | rfl := Nat.lt_or_eq_of_le (Nat.le_of_not_lt hnot)
    · obtain ⟨hi', rfl⟩ := List.getElem?_eq_some_iff.mp hi
      obtain ⟨hj', rfl⟩ := List.getElem?_eq_some_iff.mp hj
      exact absurd (List.pairwise_iff_getElem.mp hsorted j i hj' hi' hji) (Nat.not_le.mpr hlt)
    · rw [hi] at hj
      obtain rfl := Option.some.inj hj
      exact lt_irrefl _ hlt
  show base + i + 1 < base + j + 1
  omega

theorem eq_of_moveAll {x y : MessageRow} (hx : x ∈ moveAll b base l) (hy : y ∈ moveAll b base l)
    (hseq : x.conversationSequence = y.conversationSequence) : x = y := by
  obtain ⟨i, m, hi, rfl⟩ := mem_moveAll.mp hx
  obtain ⟨j, n, hj, rfl⟩ := mem_moveAll.mp hy
  have hij : base + i + 1 = base + j + 1 := hseq
  obtain rfl : i = j := by omega
  rw [hi] at hj
  rw [Option.some.inj hj]

theorem conversationId_moveAll {x : MessageRow} (hx : x ∈ moveAll b base l) :
    x.conversationId = b := by
  obtain ⟨i, m, -, rfl⟩ := mem_moveAll.mp hx
  rfl

theorem mem_bySequence {x : MessageRow} : x ∈ bySequence l ↔ x ∈ l := Keyset.mem_orderBy

theorem pairwise_bySequence (l : List MessageRow) :
    (bySequence l).Pairwise fun m n => m.conversationSequence ≤ n.conversationSequence :=
  Keyset.pairwise_orderBy_le l

theorem nodup_bySequence (s : Threads) (conversationId : ℕ) :
    ((bySequence (s.thread conversationId)).map MessageRow.key).Nodup :=
  ((Keyset.orderBy_perm _).map _).nodup_iff.mpr (Table.nodup_filter _ _)

/-- The last message of a conversation has the greatest number. -/
theorem lastMessage_spec (h : l ≠ []) : ∃ m, lastMessage l = some m ∧ m ∈ l ∧
    ∀ n ∈ l, n.conversationSequence ≤ m.conversationSequence := by
  have hsorted := pairwise_bySequence l
  unfold lastMessage
  obtain hnil | ⟨init, m, hlast⟩ := List.eq_nil_or_concat (bySequence l)
  · obtain ⟨m, hm⟩ := List.exists_mem_of_ne_nil l h
    have hmem := mem_bySequence.mpr hm
    rw [hnil] at hmem
    cases hmem
  · rw [List.concat_eq_append] at hlast
    rw [hlast] at hsorted ⊢
    have hle := (List.pairwise_append.mp hsorted).2.2
    refine ⟨m, by simp, ?_, fun n hn => ?_⟩
    · exact mem_bySequence.mp (by rw [hlast]; simp)
    · have hmem := mem_bySequence.mpr hn
      rw [hlast, List.mem_append, List.mem_singleton] at hmem
      obtain hmem | rfl := hmem
      · exact hle n hmem m (List.mem_singleton.mpr rfl)
      · exact le_rfl

/-- The messages that the merge has moved are among those of the dropped conversation. -/
structure Part (s : Threads) (a : ℕ) (done : List MessageRow) : Prop where
  mem : ∀ m ∈ done, m ∈ s.thread a
  nodup : (done.map MessageRow.key).Nodup

theorem Part.mem_withMoved (h : Part s a done) {x : MessageRow} :
    x ∈ (s.withMoved (moveAll b base done)).messages.rows ↔
      x ∈ moveAll b base done ∨ x ∈ s.messages.rows ∧ x ∉ done := by
  unfold Threads.withMoved
  dsimp only
  rw [Table.mem_putAll (by rw [map_key_moveAll]; exact h.nodup), map_key_moveAll]
  refine or_congr Iff.rfl (and_congr_right fun hx => not_congr ⟨fun hkey => ?_, fun hmem =>
    List.mem_map_of_mem hmem⟩)
  obtain ⟨d, hd, hid⟩ := List.mem_map.mp hkey
  obtain rfl := eq_of_id (mem_thread.mp (h.mem d hd)).1 hx hid
  exact hd

theorem Part.mem_thread_withMoved (h : Part s a done) (hne : a ≠ b) {x : MessageRow} :
    x ∈ (s.withMoved (moveAll b base done)).thread b ↔ x ∈ moveAll b base done ∨ x ∈ s.thread b := by
  rw [mem_thread, h.mem_withMoved, mem_thread]
  constructor
  · rintro ⟨hmoved | ⟨hrow, -⟩, hconv⟩
    · exact Or.inl hmoved
    · exact Or.inr ⟨hrow, hconv⟩
  · rintro (hmoved | ⟨hrow, hconv⟩)
    · exact ⟨Or.inl hmoved, conversationId_moveAll hmoved⟩
    · refine ⟨Or.inr ⟨hrow, fun hdone => hne ?_⟩, hconv⟩
      exact (mem_thread.mp (h.mem x hdone)).2.symm.trans hconv

/-- All messages of the dropped conversation are moved, to numbers that are free. -/
structure Whole (s : Threads) (a b base : ℕ) (done : List MessageRow) : Prop where
  orphans : done = bySequence (s.thread a)
  fresh : ∀ x ∈ moveAll b base done, ∀ y ∈ s.thread b,
    x.conversationSequence ≠ y.conversationSequence

theorem part_bySequence (s : Threads) (a : ℕ) : Part s a (bySequence (s.thread a)) :=
  ⟨fun _ hm => mem_bySequence.mp hm, nodup_bySequence s a⟩

namespace Whole

variable {last : Option MessageRow}

theorem mem_done (h : Whole s a b base done) {m : MessageRow} : m ∈ done ↔ m ∈ s.thread a := by
  rw [h.orphans]
  exact mem_bySequence

theorem part (h : Whole s a b base done) : Part s a done :=
  h.orphans ▸ part_bySequence s a

/-- Nothing of the dropped conversation is left to be deleted with it. -/
theorem thread_withMoved (h : Whole s a b base done) (hne : a ≠ b) :
    (s.withMoved (moveAll b base done)).thread a = [] := by
  refine List.eq_nil_iff_forall_not_mem.mpr fun x hx => ?_
  obtain ⟨hrow, hconv⟩ := mem_thread.mp hx
  obtain hmoved | ⟨hrow, hnot⟩ := h.part.mem_withMoved.mp hrow
  · exact hne (hconv.symm.trans (conversationId_moveAll hmoved))
  · exact hnot (h.mem_done.mpr (mem_thread.mpr ⟨hrow, hconv⟩))

theorem mem_merged (h : Whole s a b base done) (hne : a ≠ b) {x : MessageRow} :
    x ∈ (s.merged a b (moveAll b base done) last).messages.rows ↔
      x ∈ moveAll b base done ∨ x ∈ s.messages.rows ∧ x.conversationId ≠ a := by
  unfold Threads.merged Threads.drop
  dsimp only
  rw [Table.mem_deleteAll, h.part.mem_withMoved]
  change _ ∧ x.key ∉ ((s.withMoved (moveAll b base done)).thread a).map MessageRow.key ↔ _
  rw [h.thread_withMoved hne]
  simp only [List.map_nil, List.not_mem_nil, not_false_iff, and_true]
  refine or_congr Iff.rfl (and_congr_right fun hrow => not_congr ?_)
  rw [h.mem_done, mem_thread]
  exact ⟨fun hmem => hmem.2, fun hconv => ⟨hrow, hconv⟩⟩

theorem mem_thread_merged (h : Whole s a b base done) (hne : a ≠ b) {x : MessageRow} :
    x ∈ (s.merged a b (moveAll b base done) last).thread b ↔
      x ∈ moveAll b base done ∨ x ∈ s.thread b := by
  rw [mem_thread, h.mem_merged hne, mem_thread]
  constructor
  · rintro ⟨hmoved | ⟨hrow, -⟩, hconv⟩
    · exact Or.inl hmoved
    · exact Or.inr ⟨hrow, hconv⟩
  · rintro (hmoved | ⟨hrow, hconv⟩)
    · exact ⟨Or.inl hmoved, conversationId_moveAll hmoved⟩
    · exact ⟨Or.inr ⟨hrow, fun hdropped => hne (hdropped.symm.trans hconv)⟩, hconv⟩

theorem numbered (h : Whole s a b base done) (hne : a ≠ b) (hs : Numbered s) :
    Numbered (s.merged a b (moveAll b base done) last) := by
  intro m hm n hn hsame hseq
  obtain hm | ⟨hm, -⟩ := (h.mem_merged hne).mp hm <;> obtain hn | ⟨hn, -⟩ := (h.mem_merged hne).mp hn
  · exact eq_of_moveAll hm hn hseq
  · have hconv := hsame.symm.trans (conversationId_moveAll hm)
    exact absurd hseq (h.fresh m hm n (mem_thread.mpr ⟨hn, hconv⟩))
  · have hconv := hsame.trans (conversationId_moveAll hn)
    exact absurd hseq.symm (h.fresh n hn m (mem_thread.mpr ⟨hm, hconv⟩))
  · exact hs m hm n hn hsame hseq

/-- A message of the two conversations after the merge. -/
theorem exists_merged (h : Whole s a b base done) (hne : a ≠ b) {m : MessageRow}
    (hm : m ∈ s.messages.rows) (hours : Ours a b m) :
    ∃ m' ∈ (s.merged a b (moveAll b base done) last).messages.rows,
      m'.id = m.id ∧ m'.conversationId = b := by
  obtain hconv | hconv := hours
  · obtain ⟨k, hk, hget⟩ := List.getElem_of_mem (h.mem_done.mpr (mem_thread.mpr ⟨hm, hconv⟩))
    have hmoved : moveTo b (base + k + 1) m ∈ moveAll b base done :=
      mem_moveAll.mpr ⟨k, m, List.getElem?_eq_some_iff.mpr ⟨hk, hget⟩, rfl⟩
    exact ⟨_, (h.mem_merged hne).mpr (Or.inl hmoved), rfl, rfl⟩
  · exact ⟨m, (h.mem_merged hne).mpr (Or.inr ⟨hm, fun ha => hne (ha.symm.trans hconv)⟩), rfl, hconv⟩

/-- A message that was not moved is there as it was. -/
theorem eq_of_merged (h : Whole s a b base done) (hne : a ≠ b) {m m' : MessageRow}
    (hm : m ∈ s.messages.rows) (hconv : m.conversationId ≠ a)
    (hm' : m' ∈ (s.merged a b (moveAll b base done) last).messages.rows) (hid : m'.id = m.id) :
    m' = m :=
  eq_of_id hm' ((h.mem_merged hne).mpr (Or.inr ⟨hm, hconv⟩)) hid

/-- A message that was moved is there as it is written. -/
theorem moved_of_merged (h : Whole s a b base done) (hne : a ≠ b) {m m' : MessageRow}
    (hm : m ∈ s.messages.rows) (hconv : m.conversationId = a)
    (hm' : m' ∈ (s.merged a b (moveAll b base done) last).messages.rows) (hid : m'.id = m.id) :
    m' ∈ moveAll b base done := by
  obtain hmoved | ⟨hrow, hother⟩ := (h.mem_merged hne).mp hm'
  · exact hmoved
  · obtain rfl := eq_of_id hrow hm hid
    exact absurd hconv hother

theorem carries (h : Whole s a b base done) (hne : a ≠ b) :
    Carries a b s (s.merged a b (moveAll b base done) last) := by
  refine ⟨fun m hm hours => ?_, ?_⟩
  · obtain ⟨m', hm', hid, hconv⟩ := h.exists_merged hne hm hours
    exact ⟨m', hm', hid, Or.inr hconv⟩
  · intro m hm n hn hours hsame hlt m' hm' n' hn' hmid hnid
    by_cases hconv : m.conversationId = a
    · have hmoved := h.moved_of_merged hne hm hconv hm' hmid
      have hnoved := h.moved_of_merged hne hn (hsame.symm.trans hconv) hn' hnid
      refine ⟨(conversationId_moveAll hmoved).trans (conversationId_moveAll hnoved).symm, ?_⟩
      have hsorted := pairwise_bySequence (s.thread a)
      rw [← h.orphans] at hsorted
      exact lt_of_moveAll hsorted h.part.nodup (h.mem_done.mpr (mem_thread.mpr ⟨hm, hconv⟩))
        (h.mem_done.mpr (mem_thread.mpr ⟨hn, hsame.symm.trans hconv⟩)) hlt hmoved hnoved hmid hnid
    · obtain rfl := h.eq_of_merged hne hm hconv hm' hmid
      obtain rfl := h.eq_of_merged hne hn (fun ha => hconv (hsame.trans ha)) hn' hnid
      exact ⟨hsame, hlt⟩

end Whole

/-- The dropped conversation is gone, and the kept one names its last message. -/
structure Gone (s : Threads) (a b : ℕ) : Prop where
  conversation : s.conversations.find? a = none
  thread : s.thread a = []
  pointed : Pointed s b

/-- The message that the merge names is the last of the kept conversation. -/
structure Names (s : Threads) (b : ℕ) (moved : List MessageRow) (last : MessageRow) : Prop where
  mem : last ∈ moved ∨ last ∈ s.thread b
  greatest : ∀ n, n ∈ moved ∨ n ∈ s.thread b → n.conversationSequence ≤ last.conversationSequence

namespace Whole

theorem find?_merged (last : Option MessageRow) (moved : List MessageRow) :
    (s.merged a b moved last).conversations.find? a = none := by
  unfold Threads.merged Threads.drop
  exact (Table.find?_delete _ _ _).trans (if_pos rfl)

theorem thread_merged (h : Whole s a b base done) (hne : a ≠ b) {last : Option MessageRow} :
    (s.merged a b (moveAll b base done) last).thread a = [] := by
  refine List.eq_nil_iff_forall_not_mem.mpr fun x hx => ?_
  obtain ⟨hrow, hconv⟩ := mem_thread.mp hx
  obtain hmoved | ⟨-, hother⟩ := (h.mem_merged hne).mp hrow
  · exact hne (hconv.symm.trans (conversationId_moveAll hmoved))
  · exact hother hconv

theorem gone (h : Whole s a b base done) (hne : a ≠ b) (hs : Numbered s) {last : MessageRow}
    (hnames : Names s b (moveAll b base done) last) {c : StaysConversation}
    (hfind : s.conversations.find? b = some c) :
    Gone (s.merged a b (moveAll b base done) (some last)) a b := by
  refine ⟨find?_merged _ _, h.thread_merged hne, fun m hm hgreatest => ?_⟩
  have hlast : last ∈ (s.merged a b (moveAll b base done) (some last)).thread b :=
    (h.mem_thread_merged hne).mpr hnames.mem
  have hseq : m.conversationSequence = last.conversationSequence :=
    le_antisymm (hnames.greatest m ((h.mem_thread_merged hne).mp hm)) (hgreatest last hlast)
  obtain ⟨hmrow, hmconv⟩ := mem_thread.mp hm
  obtain ⟨hlrow, hlconv⟩ := mem_thread.mp hlast
  obtain rfl := h.numbered hne hs m hmrow last hlrow (hmconv.trans hlconv.symm) hseq
  refine ⟨naming m c, ?_, rfl, rfl⟩
  have hid : c.id = b := Table.key_of_find? hfind
  unfold Threads.merged Threads.drop
  simp only [hfind]
  refine (Table.find?_delete _ _ _).trans ((if_neg (Ne.symm hne)).trans ?_)
  exact (Table.find?_put _ _ _).trans (if_pos hid.symm)

/-- A merge of an empty conversation leaves the other one as it is. -/
theorem gone_of_pointed (h : Whole s a b base []) (hne : a ≠ b) (hpointed : Pointed s b) :
    Gone (s.merged a b [] none) a b := by
  refine ⟨find?_merged _ _, h.thread_merged hne, fun m hm hgreatest => ?_⟩
  have hsame : ∀ x, x ∈ (s.merged a b [] none).thread b ↔ x ∈ s.thread b := by
    intro x
    rw [show (s.merged a b [] none).thread b =
      (s.merged a b (moveAll b base []) none).thread b from rfl, h.mem_thread_merged hne]
    simp [moveAll]
  obtain ⟨c, hfind, hpointer⟩ := hpointed m ((hsame m).mp hm) fun n hn => hgreatest n ((hsame n).mpr hn)
  refine ⟨c, ?_, hpointer⟩
  unfold Threads.merged Threads.drop
  exact (Table.find?_delete _ _ _).trans ((if_neg (Ne.symm hne)).trans hfind)

end Whole

/-- The merge has read the messages that it is to move, and has not ended. -/
def Merging : MergeStage → Prop
  | .read _ | .moving _ _ _ | .named _ _ => True
  | .waiting | .ended _ => False

/-- The merge has moved some messages of the dropped conversation, to numbers that are free, and
keeps sends out of the other one. -/
structure Moving (a b : ℕ) (sys : System) (done rest : List MessageRow) (base : ℕ)
    (moved : List MessageRow) : Prop where
  orphans : done ++ rest = bySequence (sys.threads.thread a)
  written : moved = moveAll b base done
  fresh : ∀ x ∈ moved, ∀ y ∈ sys.threads.thread b,
    x.conversationSequence ≠ y.conversationSequence
  held : done ≠ [] → sys.holder b = some .merge ∧ sys.threads.conversations.find? b ≠ none

/-- What the merge knows of the threads. -/
def Standing (a b : ℕ) (sys : System) : Prop :=
  match sys.merge with
  | .waiting | .ended false => True
  | .read orphanMessages => orphanMessages = bySequence (sys.threads.thread a)
  | .moving rest nextSeq moved => ∃ done base, done ++ rest ≠ [] ∧
      Moving a b sys done rest base moved ∧ nextSeq = base + done.length
  | .named moved last => ∃ done base l, done ≠ [] ∧ Moving a b sys done [] base moved ∧
      last = some l ∧ Names sys.threads b moved l
  | .ended true => Gone sys.threads a b

structure Inv (a b : ℕ) (sends : ℕ → Send) (sys : System) : Prop where
  numbered : Numbered sys.threads
  locked : ∀ i c, sys.sends i = .locked c →
    c.id = (sends i).conversationId ∧ sys.holder c.id = some (.send i)
  standing : Standing a b sys

variable {sends : ℕ → Send} {sys sys' : System}

/-- A commit of a send takes nothing from the merge, unless it is into the dropped conversation. -/
structure Aside (a b : ℕ) (sys sys' : System) (conversationId : ℕ) : Prop where
  inserted : Inserted sys.threads sys'.threads conversationId
  dropped : Merging sys.merge → a ≠ conversationId
  kept : sys.holder b = some .merge → b ≠ conversationId

theorem Moving.after {rest moved : List MessageRow} (h : Moving a b sys done rest base moved)
    (hmerging : Merging sys.merge)
    (hholder : sys.holder b = some .merge → sys'.holder b = some .merge)
    (hthreads : sys'.threads = sys.threads ∨ ∃ id, Aside a b sys sys' id) :
    Moving a b sys' done rest base moved := by
  obtain hsame | ⟨id, haside⟩ := hthreads
  · obtain ⟨horphans, hwritten, hfresh, hheld⟩ := h
    refine ⟨by rw [hsame]; exact horphans, hwritten, by rw [hsame]; exact hfresh, fun hdone => ?_⟩
    rw [hsame]
    exact ⟨hholder (hheld hdone).1, (hheld hdone).2⟩
  · have ha := haside.inserted.thread_of_ne (haside.dropped hmerging)
    refine ⟨by rw [ha]; exact h.orphans, h.written, ?_, fun hdone => ?_⟩
    · by_cases hdone : done = []
      · rw [h.written, hdone]
        exact fun x hx => (by cases hx)
      · rw [haside.inserted.thread_of_ne (haside.kept (h.held hdone).1)]
        exact h.fresh
    · obtain ⟨hheld, hpresent⟩ := h.held hdone
      exact ⟨hholder hheld, haside.inserted.present_of_present hpresent⟩

/-- What the merge knows still holds after a step of a send. -/
theorem Standing.after (h : Standing a b sys) (hmerge : sys'.merge = sys.merge)
    (hholder : sys.holder b = some .merge → sys'.holder b = some .merge)
    (hthreads : sys'.threads = sys.threads ∨ ∃ id, Aside a b sys sys' id) :
    Standing a b sys' := by
  unfold Standing at h ⊢
  rw [hmerge]
  have hmoving : ∀ {done rest : List MessageRow} {base : ℕ} {moved : List MessageRow},
      Merging sys.merge → Moving a b sys done rest base moved →
        Moving a b sys' done rest base moved := fun hmerging hmoving =>
    hmoving.after hmerging hholder hthreads
  cases hstage : sys.merge with
  | waiting => trivial
  | read orphanMessages =>
    simp only [hstage] at h
    rw [h]
    obtain hsame | ⟨id, haside⟩ := hthreads
    · rw [hsame]
    · rw [haside.inserted.thread_of_ne (haside.dropped (by rw [hstage]; trivial))]
  | moving rest nextSeq moved =>
    simp only [hstage] at h
    obtain ⟨done, base, hsome, hmoved, hnext⟩ := h
    exact ⟨done, base, hsome, hmoving (by rw [hstage]; trivial) hmoved, hnext⟩
  | named moved last =>
    simp only [hstage] at h
    obtain ⟨done, base, l, hdone, hmoved, hlast, hnames⟩ := h
    refine ⟨done, base, l, hdone, hmoving (by rw [hstage]; trivial) hmoved, hlast, ?_⟩
    obtain hsame | ⟨id, haside⟩ := hthreads
    · rw [hsame]
      exact hnames
    · have hb := haside.inserted.thread_of_ne (haside.kept (hmoved.held hdone).1)
      exact ⟨by rw [hb]; exact hnames.mem, by rw [hb]; exact hnames.greatest⟩
  | ended committed =>
    cases committed with
    | false => trivial
    | true =>
      simp only [hstage] at h
      obtain hsame | ⟨id, haside⟩ := hthreads
      · rw [hsame]
        exact h
      · have hne : a ≠ id := by
          rintro rfl
          obtain ⟨c, hfind⟩ := haside.inserted.present
          rw [h.conversation] at hfind
          cases hfind
        exact ⟨(haside.inserted.others a hne).trans h.conversation,
          (haside.inserted.thread_of_ne hne).trans h.thread,
          haside.inserted.pointed_of_pointed h.pointed⟩

theorem released_eq_some {holder : ℕ → Option Party} {party other : Party} {id : ℕ}
    (h : holder id = some other) (hne : other ≠ party) : released holder party id = some other := by
  unfold released
  rw [if_neg, h]
  rw [h]
  exact fun heq => hne (Option.some.inj heq)

/-- A send ends. -/
theorem Inv.endSend (h : Inv a b sends sys) (i : ℕ) {threads : Threads} {committed : Bool}
    (hnumbered : Numbered threads)
    (hthreads : threads = sys.threads ∨ ∃ id, Aside a b sys (sys.endSend i threads committed) id) :
    Inv a b sends (sys.endSend i threads committed) := by
  refine ⟨hnumbered, fun j c hstage => ?_, h.standing.after rfl (fun hheld => ?_) hthreads⟩
  · by_cases hj : j = i
    · subst hj
      have hover : SendStage.ended committed = .locked c :=
        (Function.update_self _ _ _).symm.trans hstage
      cases hover
    · obtain ⟨hid, hheld⟩ := h.locked j c ((Function.update_of_ne hj _ _).symm.trans hstage)
      exact ⟨hid, released_eq_some hheld fun heq => hj (Party.send.inj heq)⟩
  · exact released_eq_some hheld (by simp)

theorem Inv.lock (h : Inv a b sends sys) {i : ℕ}
    (hstep : lockConversation (sends i) i sys = some sys') :
    Inv a b sends sys' ∧ sys'.threads = sys.threads := by
  unfold lockConversation at hstep
  split_ifs at hstep with hfree
  have hnone : sys.holder (sends i).conversationId = none := by simpa using hfree
  split at hstep
  · cases hstep
    exact ⟨h.endSend i h.numbered (Or.inl rfl), rfl⟩
  · next conversation hfind =>
    cases hstep
    have hother : ∀ {id : ℕ} {party : Party}, sys.holder id = some party →
        id ≠ (sends i).conversationId := by
      rintro id party hheld rfl
      rw [hnone] at hheld
      cases hheld
    refine ⟨⟨h.numbered, fun j c hstage => ?_, h.standing.after rfl (fun hheld => ?_) (Or.inl rfl)⟩,
      rfl⟩
    · by_cases hj : j = i
      · subst hj
        have hlocked : SendStage.locked conversation = .locked c :=
          (Function.update_self _ _ _).symm.trans hstage
        obtain rfl := SendStage.locked.inj hlocked
        have hid : conversation.id = (sends j).conversationId := Table.key_of_find? hfind
        refine ⟨hid, ?_⟩
        dsimp only
        rw [hid, Function.update_self]
      · obtain ⟨hid, hheld⟩ := h.locked j c ((Function.update_of_ne hj _ _).symm.trans hstage)
        exact ⟨hid, (Function.update_of_ne (hother hheld) _ _).trans hheld⟩
    · exact (Function.update_of_ne (hother hheld) _ _).trans hheld

/-- A send that commits. -/
theorem Inv.commit (h : Inv a b sends sys) {i : ℕ} {c : StaysConversation} {now : ℤ} {newId : ℕ}
    {threads : Threads} (hstage : sys.sends i = .locked c)
    (hinsert : insertMessage sys.threads c (sends i).input now newId = some threads)
    (hundisturbed : (sends i).conversationId = a → ¬ Merging sys.merge) :
    Inv a b sends (sys.endSend i threads true) ∧ Carries a b sys.threads threads := by
  have hinserted := inserted_of_insertMessage hinsert
  obtain ⟨hid, hheld⟩ := h.locked i c hstage
  refine ⟨h.endSend i (hinserted.numbered h.numbered) (Or.inr ⟨c.id, hinserted, ?_, ?_⟩),
    hinserted.carries⟩
  · rintro hmerging rfl
    exact hundisturbed hid.symm hmerging
  · rintro hmerge rfl
    rw [hmerge] at hheld
    cases hheld

theorem Inv.endMerge (h : Inv a b sends sys) {threads : Threads} {committed : Bool}
    (hnumbered : Numbered threads) (hgone : committed = true → Gone threads a b) :
    Inv a b sends (sys.endMerge threads committed) := by
  refine ⟨hnumbered, fun i c hstage => ?_, ?_⟩
  · obtain ⟨hid, hheld⟩ := h.locked i c hstage
    exact ⟨hid, released_eq_some hheld (by simp)⟩
  · cases committed with
    | false => trivial
    | true => exact hgone rfl

theorem Moving.part {rest moved : List MessageRow} (h : Moving a b sys done rest base moved) :
    Part sys.threads a done := by
  have hsub : List.Sublist done (bySequence (sys.threads.thread a)) :=
    h.orphans ▸ List.sublist_append_left done rest
  have hpart := part_bySequence sys.threads a
  exact ⟨fun m hm => hpart.mem m (hsub.subset hm), hpart.nodup.sublist (hsub.map _)⟩

/-- The next message is moved. -/
theorem Moving.move {m : MessageRow} {rest moved : List MessageRow}
    (h : Moving a b sys done (m :: rest) base moved) (hne : a ≠ b)
    (hfree : ∀ x ∈ (sys.threads.withMoved moved).thread b,
      x.conversationSequence ≠ base + done.length + 1)
    (hpresent : sys.threads.conversations.find? b ≠ none) (stage : MergeStage) :
    Moving a b { sys with
      holder := Function.update sys.holder b (some .merge)
      merge := stage } (done ++ [m]) rest base
      (moved ++ [moveTo b (base + done.length + 1) m]) := by
  refine ⟨?_, ?_, fun x hx y hy => ?_, fun _ => ⟨Function.update_self _ _ _, hpresent⟩⟩
  · rw [List.append_assoc]
    exact h.orphans
  · rw [h.written, moveAll_append]
  · obtain hx | hx := List.mem_append.mp hx
    · exact h.fresh x hx y hy
    · rw [List.mem_singleton.mp hx]
      rw [h.written] at hfree
      exact (hfree y ((h.part.mem_thread_withMoved hne).mpr (Or.inr hy))).symm

theorem Moving.whole {moved : List MessageRow} (h : Moving a b sys done [] base moved) :
    Whole sys.threads a b base done := by
  have horphans := h.orphans
  rw [List.append_nil] at horphans
  exact ⟨horphans, h.written ▸ h.fresh⟩

/-- A step of the merge. -/
theorem Inv.merge (h : Inv a b sends sys) (hne : a ≠ b)
    (hstep : mergeMessagesIntoConversation a b sys = some sys')
    (hundisturbed : sys.merge = .read [] → Pointed sys.threads b) :
    Inv a b sends sys' ∧ Carries a b sys.threads sys'.threads := by
  have hstanding := h.standing
  unfold Standing at hstanding
  unfold mergeMessagesIntoConversation at hstep
  cases hstage : sys.merge with
  | waiting =>
    simp only [hstage] at hstep
    cases hstep
    exact ⟨⟨h.numbered, h.locked, rfl⟩, Carries.refl _⟩
  | read orphanMessages =>
    simp only [hstage] at hstep hstanding
    cases orphanMessages with
    | nil =>
      simp only [System.commitMerge] at hstep
      split_ifs at hstep
      cases hstep
      have hwhole : Whole sys.threads a b 0 [] := ⟨hstanding, fun x hx => (by cases hx)⟩
      have hcarries : Carries a b sys.threads (sys.threads.merged a b (moveAll b 0 []) none) :=
        hwhole.carries hne
      exact ⟨h.endMerge (hwhole.numbered hne h.numbered) fun _ =>
        hwhole.gone_of_pointed hne (hundisturbed hstage), hcarries⟩
    | cons m rest =>
      cases hstep
      refine ⟨⟨h.numbered, h.locked, [], _, by simp, ⟨hstanding, rfl, fun x hx => (by cases hx),
        fun hdone => absurd rfl hdone⟩, rfl⟩, Carries.refl _⟩
  | moving orphanMessages nextSeq moved =>
    simp only [hstage] at hstep hstanding
    obtain ⟨done, base, hsome, hmoving, rfl⟩ := hstanding
    cases orphanMessages with
    | nil =>
      cases hstep
      have hdone : done ≠ [] := by simpa using hsome
      have hmem : ∀ x, x ∈ (sys.threads.withMoved moved).thread b ↔
          x ∈ moved ∨ x ∈ sys.threads.thread b := by
        intro x
        rw [hmoving.written]
        exact hmoving.part.mem_thread_withMoved hne
      have hthread : (sys.threads.withMoved moved).thread b ≠ [] := by
        intro hnil
        obtain ⟨m, rest, rfl⟩ := List.exists_cons_of_ne_nil hdone
        have hmoved : moveTo b (base + 1) m ∈ moved := by
          rw [hmoving.written]
          exact List.mem_cons_self
        have hin := (hmem _).mpr (Or.inl hmoved)
        rw [hnil] at hin
        cases hin
      obtain ⟨l, hlast, hl, hgreatest⟩ := lastMessage_spec hthread
      exact ⟨⟨h.numbered, h.locked, done, base, l, hdone,
        ⟨hmoving.orphans, hmoving.written, hmoving.fresh, hmoving.held⟩, hlast,
        (hmem l).mp hl, fun n hn => hgreatest n ((hmem n).mpr hn)⟩, Carries.refl _⟩
    | cons m rest =>
      dsimp only at hstep
      split_ifs at hstep with hbusy hfails
      · cases hstep
        exact ⟨h.endMerge h.numbered fun hcommitted => (by cases hcommitted), Carries.refl _⟩
      · cases hstep
        push Not at hbusy hfails
        obtain ⟨hfree, hpresent⟩ := hfails
        refine ⟨⟨h.numbered, fun i c hlocked => ?_, done ++ [m], base, by simp,
          hmoving.move hne hfree hpresent _, by simp; omega⟩, Carries.refl _⟩
        obtain ⟨hid, hheld⟩ := h.locked i c hlocked
        refine ⟨hid, (Function.update_of_ne ?_ _ _).trans hheld⟩
        rintro rfl
        rw [hheld] at hbusy
        exact absurd (hbusy (by simp)) (by simp)
  | named moved last =>
    simp only [hstage] at hstep hstanding
    obtain ⟨done, base, l, hdone, hmoving, rfl, hnames⟩ := hstanding
    simp only [System.commitMerge] at hstep
    split_ifs at hstep
    cases hstep
    obtain ⟨c, hfind⟩ := Option.ne_none_iff_exists'.mp (hmoving.held hdone).2
    have hwhole := hmoving.whole
    rw [hmoving.written] at hnames ⊢
    exact ⟨h.endMerge (hwhole.numbered hne h.numbered) fun _ =>
      hwhole.gone hne h.numbered hnames hfind, hwhole.carries hne⟩
  | ended committed =>
    simp only [hstage] at hstep
    cases hstep

/-- Nobody sends into the dropped conversation while it is merged, and a kept conversation to which
nothing is moved names its last message. -/
def Undisturbed (a b : ℕ) (sends : ℕ → Send) (sys : System) : Action → Prop
  | .commit i _ _ => (sends i).conversationId = a → ¬ Merging sys.merge
  | .merge => sys.merge = .read [] → Pointed sys.threads b
  | _ => True

/-- A step that meets the condition. -/
def Next (a b : ℕ) (sends : ℕ → Send) (sys sys' : System) : Prop :=
  ∃ action, step a b sends sys action = some sys' ∧ Undisturbed a b sends sys action

theorem Inv.next (h : Inv a b sends sys) (hne : a ≠ b) (hnext : Next a b sends sys sys') :
    Inv a b sends sys' ∧ Carries a b sys.threads sys'.threads := by
  obtain ⟨action, hstep, hundisturbed⟩ := hnext
  cases action with
  | merge => exact h.merge hne hstep hundisturbed
  | failMerge =>
    simp only [step] at hstep
    split at hstep
    · cases hstep
    · cases hstep
      exact ⟨h.endMerge h.numbered fun hcommitted => (by cases hcommitted), Carries.refl _⟩
  | lock i =>
    simp only [step] at hstep
    split at hstep
    · obtain ⟨hinv, hsame⟩ := h.lock hstep
      exact ⟨hinv, by rw [hsame]; exact Carries.refl _⟩
    · cases hstep
  | commit i now newId =>
    simp only [step] at hstep
    split at hstep
    · next conversation hstage =>
      split at hstep
      · cases hstep
        exact ⟨h.endSend i h.numbered (Or.inl rfl), Carries.refl _⟩
      · next threads hinsert =>
        cases hstep
        exact h.commit hstage hinsert hundisturbed
    · cases hstep
  | fail i =>
    simp only [step] at hstep
    split at hstep
    · cases hstep
    · cases hstep
      exact ⟨h.endSend i h.numbered (Or.inl rfl), Carries.refl _⟩

theorem inv_start {threads : Threads} (hthreads : Numbered threads) :
    Inv a b sends (start threads) :=
  ⟨hthreads, fun _ _ hstage => (by cases hstage), trivial⟩

theorem Inv.run (h : Inv a b sends sys) (hne : a ≠ b)
    (hrun : Relation.ReflTransGen (Next a b sends) sys sys') :
    Inv a b sends sys' ∧ Carries a b sys.threads sys'.threads := by
  induction hrun with
  | refl => exact ⟨h, Carries.refl _⟩
  | tail _ hnext ih =>
    obtain ⟨hinv, hcarries⟩ := ih
    obtain ⟨hinv', hcarries'⟩ := hinv.next hne hnext
    exact ⟨hinv', hcarries.trans hcarries'⟩

/-- The messages of two conversations are all in the kept one, which numbers them apart and in the
order of each, and names the last of them. -/
structure Merged (a b : ℕ) (s s' : Threads) : Prop where
  kept : ∀ m ∈ s.messages.rows, Ours a b m → ∃ m' ∈ s'.thread b, m'.id = m.id
  order : ∀ m ∈ s.messages.rows, ∀ n ∈ s.messages.rows, Ours a b m →
    m.conversationId = n.conversationId → m.conversationSequence < n.conversationSequence →
    ∀ m' ∈ s'.thread b, ∀ n' ∈ s'.thread b, m'.id = m.id → n'.id = n.id →
      m'.conversationSequence < n'.conversationSequence
  distinct : ∀ m ∈ s'.thread b, ∀ n ∈ s'.thread b,
    m.conversationSequence = n.conversationSequence → m = n
  pointed : Pointed s' b

/-- In every undisturbed run, what was committed to either thread before or during the merge is in
the kept one after it. -/
theorem merged_of_run (hne : a ≠ b) {threads : Threads} (hthreads : Numbered threads)
    {mid last : System} (hbefore : Relation.ReflTransGen (Next a b sends) (start threads) mid)
    (hafter : Relation.ReflTransGen (Next a b sends) mid last)
    (hover : last.merge = .ended true) : Merged a b mid.threads last.threads := by
  obtain ⟨hmid, -⟩ := (inv_start hthreads).run hne hbefore
  obtain ⟨hlast, hcarries⟩ := hmid.run hne hafter
  have hgone : Gone last.threads a b := by
    have hstanding := hlast.standing
    unfold Standing at hstanding
    simpa only [hover] using hstanding
  refine ⟨fun m hm hours => ?_, fun m hm n hn hours hsame hlt m' hm' n' hn' hmid hnid => ?_,
    fun m hm n hn hseq => ?_, hgone.pointed⟩
  · obtain ⟨m', hm', hid, ha | hb⟩ := hcarries.kept m hm hours
    · have hdropped := mem_thread.mpr ⟨hm', ha⟩
      rw [hgone.thread] at hdropped
      cases hdropped
    · exact ⟨m', mem_thread.mpr ⟨hm', hb⟩, hid⟩
  · exact (hcarries.order m hm n hn hours hsame hlt m' (mem_thread.mp hm').1 n'
      (mem_thread.mp hn').1 hmid hnid).2
  · obtain ⟨hmrow, hmconv⟩ := mem_thread.mp hm
    obtain ⟨hnrow, hnconv⟩ := mem_thread.mp hn
    exact hlast.numbered m hmrow n hnrow (hmconv.trans hnconv.symm) hseq

def aMessage (id conversationId sequence : ℕ) : MessageRow :=
  ⟨newMessage conversationId sequence (textInput 10 "Hello" none) 0 id, 0⟩

/-- Two conversations of one booking, of which the first has one message. -/
def twoThreads : Threads :=
  { conversations := (Table.empty.put
        { id := 1, bookingId := some 9, type := .booking, guestUserId := some 10,
          hostUserId := some 20, lastMessageId := some 1, lastMessageSequence := 1 }).put
        { id := 2, bookingId := some 9, type := .booking, guestUserId := some 10,
          hostUserId := some 20 }
    messages := Table.empty.put (aMessage 1 1 1) }

/-- The guest sends into the conversation that is dropped. -/
def lateSend : ℕ → Send := fun _ => ⟨1, textInput 10 "Are you there?" none⟩

theorem numbered_twoThreads : Numbered twoThreads := by
  intro m hm n hn _ _
  rw [List.mem_singleton.mp hm, List.mem_singleton.mp hn]

/-- A message that is sent before the merge is in the kept conversation after it. -/
theorem merged_of_run_before : ∃ mid last,
    Relation.ReflTransGen (Next 1 2 lateSend) (start twoThreads) mid ∧
      Relation.ReflTransGen (Next 1 2 lateSend) mid last ∧ Merged 1 2 mid.threads last.threads := by
  have hruns : ∃ mid last,
      Relation.ReflTransGen (Next 1 2 lateSend) (start twoThreads) mid ∧
        Relation.ReflTransGen (Next 1 2 lateSend) mid last ∧ last.merge = .ended true :=
    ⟨_, _,
      .tail (.tail .refl ⟨.lock 0, rfl, trivial⟩) ⟨.commit 0 5 2, rfl, fun _ hmerging => hmerging⟩,
      .tail (.tail (.tail (.tail (.tail (.tail .refl ⟨.merge, rfl, fun h => (by cases h)⟩)
        ⟨.merge, rfl, fun h => (by cases h)⟩) ⟨.merge, rfl, fun h => (by cases h)⟩)
        ⟨.merge, rfl, fun h => (by cases h)⟩) ⟨.merge, rfl, fun h => (by cases h)⟩)
        ⟨.merge, rfl, fun h => (by cases h)⟩,
      rfl⟩
  obtain ⟨mid, last, hsent, hmerge, hover⟩ := hruns
  exact ⟨mid, last, hsent, hmerge,
    merged_of_run (by decide) numbered_twoThreads hsent hmerge hover⟩

/-- A message that is sent while its conversation is merged is deleted with it. -/
theorem message_lost : ∃ mid last,
    Relation.ReflTransGen (fun sys sys' => ∃ action, step 1 2 lateSend sys action = some sys')
      (start twoThreads) mid ∧
    Relation.ReflTransGen (fun sys sys' => ∃ action, step 1 2 lateSend sys action = some sys')
      mid last ∧
    last.merge = .ended true ∧ ¬ Merged 1 2 mid.threads last.threads := by
  refine ⟨_, _, .tail (.tail (.tail .refl ⟨.merge, rfl⟩) ⟨.lock 0, rfl⟩) ⟨.commit 0 5 2, rfl⟩,
    .tail (.tail (.tail (.tail .refl ⟨.merge, rfl⟩) ⟨.merge, rfl⟩) ⟨.merge, rfl⟩) ⟨.merge, rfl⟩,
    rfl, fun hmerged => ?_⟩
  obtain ⟨m', hm', hid⟩ := hmerged.kept
    ⟨newMessage 1 2 (textInput 10 "Are you there?" none) 5 2, 5⟩
    (Table.mem_of_find? (k := 2) rfl) (Or.inl rfl)
  obtain rfl := List.mem_singleton.mp hm'
  exact absurd hid (by decide)

end NexaStays.ThreadMerge
