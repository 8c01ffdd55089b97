import NexaStays.MessageOrder
import NexaStays.ReadPoints

/-!
# Paging back in a conversation

A page is the end of what is shown below a number, in some state while it is listed. A reader who
pages back while others write sees every message once.
-/
namespace NexaStays.HistoryPages

open NexaStays.KeyedTable NexaStays.Transactions NexaStays.MessagingStore NexaStays.Messages
open NexaStays.ConversationStates NexaStays.MessageOrder NexaStays.Phases NexaStays.Outcomes
open NexaStays.ReadPoints

/-- What a reader may see of a conversation below a number. -/
def Shown (conversationId : ℕ) (before : Option ℕ) (m : StaysMessage) : Prop :=
  m.conversationId = conversationId ∧ m.type ≠ .systemInternal ∧ m.deletedAt = none ∧
    ∀ b ∈ before, m.conversationSequence < b

instance (conversationId : ℕ) (before : Option ℕ) (m : StaysMessage) :
    Decidable (Shown conversationId before m) := inferInstanceAs (Decidable (_ ∧ _ ∧ _ ∧ _))

/-- The messages of a reader, the oldest first. -/
def shown (conversationId : ℕ) (before : Option ℕ) (l : List StaysMessage) : List StaysMessage :=
  l.filter fun m => Shown conversationId before m

section Paging

variable {s : Store} {id : ℕ} {before : Option ℕ} {l new : List StaysMessage}

theorem shown_numbered (id : ℕ) (before : Option ℕ) (h : Ordered l) :
    (shown id before l).Pairwise fun a b => a.conversationSequence < b.conversationSequence := by
  refine List.pairwise_filter.mpr (h.imp fun hab ha hb => hab.2 ?_)
  exact (of_decide_eq_true ha).1.trans (of_decide_eq_true hb).1.symm

theorem shown_letters (s : Store) :
    shown id before (letters s) = (shown id before s.messages).map letter :=
  List.filter_map ..

theorem shown_rows_numbered (id : ℕ) (before : Option ℕ) (h : Ordered (letters s)) :
    ((shown id before s.messages).map (·.conversationSequence)).Pairwise (· < ·) := by
  have hletters := shown_numbered id before h
  rw [shown_letters, List.pairwise_map] at hletters
  exact List.pairwise_map.mpr hletters

/-- The history that is read is what is shown, the newest first. -/
theorem history_eq (h : Ordered (letters s)) :
    history id before s = (shown id before s.messages).reverse := by
  have hrows : (messagesOf s id).filter (fun m => m.type ≠ .systemInternal ∧ m.deletedAt = none ∧
      ∀ b ∈ before, m.conversationSequence < b) = shown id before s.messages := by
    simp only [messagesOf, shown, List.filter_filter]
    exact List.filter_congr fun m _ => by simp [Shown, Bool.and_comm]
  have hnumbered := shown_rows_numbered id before h
  unfold history
  rw [hrows]
  generalize shown id before s.messages = rows at hnumbered
  have hnodup : (rows.map (·.conversationSequence)).Nodup := hnumbered.imp fun hlt => hlt.ne
  have hsorted : (rows.mergeSort fun a b => b.conversationSequence ≤ a.conversationSequence).Pairwise
      fun a b => decide (b.conversationSequence ≤ a.conversationSequence) = true :=
    List.pairwise_mergeSort (fun a b c hab hbc => by simp only [decide_eq_true_eq] at *; omega)
      (fun a b => by simp only [Bool.or_eq_true, decide_eq_true_eq]; omega) rows
  have hreverse : rows.reverse.Pairwise fun a b =>
      decide (b.conversationSequence ≤ a.conversationSequence) = true :=
    List.pairwise_reverse.mpr
      ((List.pairwise_map.mp hnumbered).imp fun hlt => decide_eq_true hlt.le)
  refine List.Perm.eq_of_pairwise (fun a b ha hb hab hba => ?_) hsorted hreverse
    ((List.mergeSort_perm _ _).trans (List.reverse_perm _).symm)
  have heq : a.conversationSequence = b.conversationSequence :=
    le_antisymm (of_decide_eq_true hba) (of_decide_eq_true hab)
  exact List.inj_on_of_nodup_map hnodup (List.mem_mergeSort.mp ha) (List.mem_reverse.mp hb) heq

/-- Below a message that is shown, later messages are not seen. -/
theorem shown_below {m : StaysMessage} (h : Ordered (l ++ new)) (hm : m ∈ shown id before l) :
    shown id (some m.conversationSequence) (l ++ new) =
      (shown id before l).filter fun x => x.conversationSequence < m.conversationSequence := by
  obtain ⟨hml, hshown⟩ := List.mem_filter.mp hm
  obtain ⟨hid, -, -, hbefore⟩ := of_decide_eq_true hshown
  obtain ⟨-, -, hcross⟩ := List.pairwise_append.mp h
  have hnew : shown id (some m.conversationSequence) new = [] := by
    refine List.filter_eq_nil_iff.mpr fun x hx hshown => ?_
    obtain ⟨hxid, -, -, hlt⟩ := of_decide_eq_true hshown
    have hgt := (hcross m hml x hx).2 (hid.trans hxid.symm)
    exact absurd (hlt _ rfl) (by omega)
  rw [shown, List.filter_append, ← shown, ← shown, hnew, List.append_nil, shown, shown,
    List.filter_filter]
  refine List.filter_congr fun x _ => ?_
  rw [← Bool.decide_and]
  refine decide_eq_decide.mpr ⟨fun hx => ?_, fun hx => ?_⟩
  · obtain ⟨hxid, htype, hdeleted, hlt⟩ := hx
    have hbelow := hlt _ rfl
    exact ⟨hbelow, hxid, htype, hdeleted, fun b hb => hbelow.trans (hbefore b hb)⟩
  · obtain ⟨hbelow, hxid, htype, hdeleted, -⟩ := hx
    refine ⟨hxid, htype, hdeleted, fun b hb => ?_⟩
    rwa [← Option.some.inj hb]

/-- The part of a numbered list below one of its rows. -/
theorem filter_below {xs ys : List StaysMessage} {m : StaysMessage}
    (h : (xs ++ m :: ys).Pairwise fun a b => a.conversationSequence < b.conversationSequence) :
    (xs ++ m :: ys).filter (fun x => x.conversationSequence < m.conversationSequence) = xs := by
  obtain ⟨-, htail, hcross⟩ := List.pairwise_append.mp h
  have hxs : xs.filter (fun x => x.conversationSequence < m.conversationSequence) = xs :=
    List.filter_eq_self.mpr fun x hx => decide_eq_true (hcross x hx m List.mem_cons_self)
  have htail' :
      (m :: ys).filter (fun x => x.conversationSequence < m.conversationSequence) = [] := by
    refine List.filter_eq_nil_iff.mpr fun x hx hlt => ?_
    have hlt' := of_decide_eq_true hlt
    obtain rfl | hx := List.mem_cons.mp hx
    · omega
    · have := (List.pairwise_cons.mp htail).1 x hx
      omega
  rw [List.filter_append, hxs, htail', List.append_nil]

/-- The page of a store. -/
def pageAt (id : ℕ) (limit : ℤ) (before : Option ℕ) (s : Store) : List StaysMessage × Bool :=
  let rows := (history id before s).take (pageSize limit + 1)
  ((rows.take (pageSize limit)).reverse, rows.length > pageSize limit)

/-- A page is the end of what is shown. -/
theorem pageAt_eq {limit : ℤ} (h : Ordered (letters s)) : pageAt id limit before s =
    ((shown id before s.messages).drop ((shown id before s.messages).length - pageSize limit),
      decide ((shown id before s.messages).length > pageSize limit)) := by
  unfold pageAt
  rw [history_eq h]
  generalize shown id before s.messages = rows
  generalize pageSize limit = n
  have hslice : ((rows.reverse.take (n + 1)).take n).reverse = rows.drop (rows.length - n) := by
    rw [List.take_take, Nat.min_eq_left (Nat.le_succ n), List.take_reverse, List.reverse_reverse]
  have hmore : (rows.reverse.take (n + 1)).length > n ↔ rows.length > n := by
    rw [List.length_take, List.length_reverse]
    omega
  simp only [hslice, hmore]

/-- A listing reads its page in one statement. -/
theorem awaits_listing (env : Env) (userId : ℕ) (limit : ℤ) :
    Awaits (fun s => Answer.page (pageAt id limit before s).1 (pageAt id limit before s).2)
      (program env (.listMessages id userId limit before)) := by
  refine ⟨Or.inr fun s => ?_, trivial⟩
  simp only [Program.handle]
  cases hconv : (s.conversations.find? id).filter fun c => isParticipant c userId {} with
  | none => trivial
  | some conv =>
    obtain ⟨hfound, -⟩ := Option.filter_eq_some_iff.mp hconv
    obtain rfl : conv.id = id := Table.key_of_find? hfound
    refine ⟨Or.inl fun s ses t => ?_, trivial⟩
    refine settles_map (fun page : List StaysMessage × Bool => Answer.page page.1 page.2) ?_
    show Settles (pageAt conv.id limit before s) (if unreadFromOther userId
      (pageAt conv.id limit before s).1 = [] then _ else _) ses t
    by_cases hunread : unreadFromOther userId (pageAt conv.id limit before s).1 = []
    · rw [if_pos hunread]
      exact settles_bind fun _ _ _ => settles_pure
    · rw [if_neg hunread]
      exact settles_bind fun _ _ _ => settles_bind fun _ _ _ => settles_bind fun _ _ _ =>
        settles_pure

/-- Between `sys` and `sys'` a listing begins and answers. -/
def Lists (env : Env) (id userId : ℕ) (limit : ℤ) (before : Option ℕ) (sys sys' : MessagingSystem)
    (slice : List StaysMessage) (hasMore : Bool) : Prop :=
  ∃ i, sys.threads[i]? = some ⟨.listMessages id userId limit before, .idle,
      program env (.listMessages id userId limit before)⟩ ∧
    System.Run (fun _ _ => True) sys sys' ∧ answerOf sys' i = some (.page slice hasMore)

/-- What is listed is the page of a state on the way. -/
theorem page_of_lists {env : Env} {userId : ℕ} {limit : ℤ} {sys sys' : MessagingSystem}
    {slice : List StaysMessage} {hasMore : Bool}
    (h : Lists env id userId limit before sys sys' slice hasMore) :
    ∃ seen, System.Run (fun _ _ => True) sys seen ∧ System.Run (fun _ _ => True) seen sys' ∧
      pageAt id limit before seen.store = (slice, hasMore) := by
  obtain ⟨i, hi, hrun, hanswer⟩ := h
  obtain ⟨seen, hbefore, hafter, hpage⟩ :=
    answered_on_the_way hi rfl (awaits_listing env userId limit) hrun hanswer
  obtain ⟨hslice, hmore⟩ := Answer.page.inj hpage
  exact ⟨seen, hbefore, hafter, Prod.ext hslice.symm hmore.symm⟩

/-- A reader lists page after page, each from the oldest message of the one before, while the
other calls go on. The first page begins in `sys` and is answered in `mid`. -/
inductive Reads (env : Env) (id userId : ℕ) (limit : ℤ) :
    MessagingSystem → MessagingSystem → Option ℕ → List StaysMessage → Prop where
  | last {sys mid : MessagingSystem} {before : Option ℕ} {slice : List StaysMessage}
    (page : Lists env id userId limit before sys mid slice false) :
    Reads env id userId limit sys mid before (slice.map letter)
  | more {sys mid sys' mid' : MessagingSystem} {before : Option ℕ} {m : StaysMessage}
    {slice older : List StaysMessage}
    (page : Lists env id userId limit before sys mid (m :: slice) true)
    (run : System.Run (fun _ _ => True) mid sys')
    (next : Reads env id userId limit sys' mid' (some m.conversationSequence) older) :
    Reads env id userId limit sys mid before (older ++ (m :: slice).map letter)

/-- A page and what is shown below it are what is shown. -/
theorem shown_page {limit : ℤ} {m : StaysMessage} {slice : List StaysMessage}
    (hs : Ordered (letters s)) (hlater : Ordered (letters s ++ new))
    (page : pageAt id limit before s = (m :: slice, true)) :
    shown id (some m.conversationSequence) (letters s ++ new) ++ (m :: slice).map letter =
      shown id before (letters s) := by
  rw [pageAt_eq hs, Prod.mk.injEq] at page
  obtain ⟨xs, hxs⟩ : ∃ xs, shown id before (letters s) = xs ++ letter m :: slice.map letter := by
    rw [shown_letters, ← List.take_append_drop ((shown id before s.messages).length -
      pageSize limit) (shown id before s.messages), page.1, List.map_append]
    exact ⟨_, rfl⟩
  have hnumbered := shown_numbered id before hs
  have hbelow := shown_below (m := letter m) hlater (by rw [hxs]; simp)
  rw [hxs] at hnumbered hbelow
  rw [filter_below hnumbered, letter_sequence] at hbelow
  rw [hbelow, hxs]
  rfl

end Paging

/-- The pages together are what is shown in a state while the first of them is listed: every
message once, the oldest first. -/
theorem reads_history {env : Env} {sys mid : MessagingSystem} {id userId : ℕ} {limit : ℤ}
    {before : Option ℕ} {out : List StaysMessage} (h : Reachable env sys)
    (hreads : Reads env id userId limit sys mid before out) :
    ∃ seen : MessagingSystem, System.Run (fun _ _ => True) sys seen ∧
      System.Run (fun _ _ => True) seen mid ∧
      out = (history id before seen.store).reverse.map letter := by
  induction hreads with
  | @last sys mid before slice page =>
    obtain ⟨seen, hbefore, hafter, hpage⟩ := page_of_lists page
    have hordered := ordered_of_reachable (h.trans hbefore)
    rw [pageAt_eq hordered, Prod.mk.injEq, decide_eq_false_iff_not] at hpage
    obtain ⟨rfl, hlength⟩ := hpage
    refine ⟨seen, hbefore, hafter, ?_⟩
    rw [history_eq hordered, List.reverse_reverse, Nat.sub_eq_zero_of_le (by omega), List.drop_zero]
  | @more sys mid sys' mid' before m slice older page run _ ih =>
    obtain ⟨seen, hbefore, hafter, hpage⟩ := page_of_lists page
    have hseen := h.trans hbefore
    have hnext := hafter.trans run
    obtain ⟨later, hrest, -, rfl⟩ := ih (hseen.trans hnext)
    have hordered := ordered_of_reachable hseen
    have hlater := ordered_of_reachable (hseen.trans (hnext.trans hrest))
    obtain ⟨new, hnew⟩ := letters_run hseen (hnext.trans hrest)
    refine ⟨seen, hbefore, hafter, ?_⟩
    rw [history_eq hlater, history_eq hordered, List.reverse_reverse, List.reverse_reverse,
      ← shown_letters, ← shown_letters, hnew]
    exact shown_page hordered (hnew ▸ hlater) hpage

/-- A page of one message that the reader sent, without attachments, takes two reads. -/
theorem listing_reads {env : Env} {id userId : ℕ} {limit : ℤ} {before : Option ℕ} :
    ∃ k err, program env (.listMessages id userId limit before) = .select k err ∧
      ∀ s conv, s.conversations.find? id = some conv → isParticipant conv userId {} = true →
        ∃ k' err', k s = .select k' err' ∧ ∀ m hasMore, pageAt id limit before s = ([m], hasMore) →
          m.senderId = some userId → m.metadata.attachmentIds = [] →
          k' s = .pure (.page [m] hasMore) := by
  refine ⟨_, _, rfl, fun s conv hconv hpart => ?_⟩
  obtain rfl : conv.id = id := Table.key_of_find? hconv
  simp only [hconv, Program.handle, Option.filter_some, hpart, if_true, Program.expect]
  refine ⟨_, _, rfl, fun m hasMore hpage hsender hplain => ?_⟩
  obtain ⟨hslice, hmore⟩ := Prod.mk.inj hpage
  have hunread : unreadFromOther userId [m] = [] := by simp [unreadFromOther, hsender]
  have hload : loadForMessage m = .pure () := by
    rw [loadForMessage, linkToMessage, if_pos hplain]
    rfl
  show Program.handle _ _ (if unreadFromOther userId (List.reverse _) = [] then _ else _) = _
  rw [hslice, if_pos hunread, Program.forEach, hload, hmore]
  rfl

/-- The system after such a listing. -/
def listed (id userId : ℕ) (limit : ℤ) (before : Option ℕ) (i : ℕ) (sys : MessagingSystem) :
    MessagingSystem :=
  ⟨sys.store, sys.threads.set i ⟨.listMessages id userId limit before, .idle, .pure (.page
    (pageAt id limit before sys.store).1 (pageAt id limit before sys.store).2)⟩⟩

theorem lists_listed {env : Env} {id userId : ℕ} {limit : ℤ} {before : Option ℕ} {i : ℕ}
    {sys : MessagingSystem} {conv : StaysConversation}
    (hi : sys.threads[i]? = some ⟨.listMessages id userId limit before, .idle,
      program env (.listMessages id userId limit before)⟩)
    (hconv : sys.store.conversations.find? id = some conv)
    (hpart : isParticipant conv userId {} = true) {m : StaysMessage} {hasMore : Bool}
    (hpage : pageAt id limit before sys.store = ([m], hasMore))
    (hsender : m.senderId = some userId) (hplain : m.metadata.attachmentIds = []) :
    Lists env id userId limit before sys (listed id userId limit before i sys) [m] hasMore := by
  have hlength : i < sys.threads.length := (List.getElem?_eq_some_iff.mp hi).1
  obtain ⟨k, err, hprogram, hrest⟩ := @listing_reads env id userId limit before
  obtain ⟨k', err', hread, hpages⟩ := hrest sys.store conv hconv hpart
  have hpure := hpages m hasMore hpage hsender hplain
  refine ⟨i, hi, ?_, answerOf_eq_some.mpr ⟨_, List.getElem?_set_self hlength, by rw [hpage]⟩⟩
  have hfirst : sys.step (.run i 0) = some ⟨sys.store, sys.threads.set i
      ⟨.listMessages id userId limit before, .idle, .select k' err'⟩⟩ :=
    System.step_eq_some.mpr ⟨_, _, _, [], hi, by rw [System.move, hprogram, ← hread]; rfl, rfl⟩
  have hsecond : System.step ⟨sys.store, sys.threads.set i
      ⟨.listMessages id userId limit before, .idle, .select k' err'⟩⟩ (.run i 0) =
        some (listed id userId limit before i sys) := by
    refine System.step_eq_some.mpr ⟨_, _, _, [], List.getElem?_set_self hlength, rfl, ?_⟩
    rw [listed, hpage, ← hpure]
    exact congrArg _ (List.set_set ..).symm
  exact .tail (.tail (.refl _) trivial hfirst) trivial hsecond

/-- What a message of the guest looks like to the reader. -/
def glance (m : StaysMessage) : ℕ × Option String × Option ℕ × List ℕ :=
  (m.conversationSequence, m.body, m.senderId, m.metadata.attachmentIds)

/-- The host writes between the two pages of the guest, who does not see it. -/
theorem reads_history_sends : ∃ (sys mid seen : MessagingSystem) (out : List StaysMessage),
    Reads {} 1 2 1 sys mid none out ∧ out.map (·.body) = [some "one", some "two"] ∧
    System.Run (fun _ _ => True) sys seen ∧ System.Run (fun _ _ => True) seen mid ∧
      out = (history 1 none seen.store).reverse.map letter := by
  have hplan : ((System.exec (fun _ a => System.mover a ≠ 3 ∧ System.mover a ≠ 4)
      (initial {} sampleStore [.conversation (.sendText 1 2 "one" none),
        .conversation (.sendText 1 2 "two" none), .conversation (.sendText 1 3 "three" none),
        .listMessages 1 2 1 none, .listMessages 1 2 1 (some 2)]) sampleOverlap).any fun sys =>
      (System.exec (fun _ a => System.mover a ≠ 4) (listed 1 2 1 none 3 sys)
        (System.turns 2 40 15)).any fun sys' =>
          (sys.store.conversations.find? 1).any (fun c => isParticipant c 2 {}) ∧
          (sys'.store.conversations.find? 1).any (fun c => isParticipant c 2 {}) ∧
          (shown 1 none sys.store.messages).map glance =
            [(1, some "one", some 2, []), (2, some "two", some 2, [])] ∧
          (shown 1 (some 2) sys'.store.messages).map glance = [(1, some "one", some 2, [])] ∧
          sys'.store.messages.length = 3) = true := by
    decide +kernel
  obtain ⟨sys, hrun, hrest⟩ := System.exists_run hplan
  obtain ⟨sys', hrun', hshown⟩ := System.exists_run hrest
  obtain ⟨hconv, hconv', htwo, hone, -⟩ := of_decide_eq_true hshown
  have hreach : Reachable {} sys := ⟨sampleStore, _, rfl, hrun.mono fun _ _ _ => trivial⟩
  obtain ⟨conv, hfound, hpart⟩ := (Option.any_eq_true _ _).mp hconv
  obtain ⟨conv', hfound', hpart'⟩ := (Option.any_eq_true _ _).mp hconv'
  obtain ⟨m₁, l, hl, -, h⟩ := List.map_eq_cons_iff.mp htwo
  obtain ⟨m₂, l, rfl, h₂, h⟩ := List.map_eq_cons_iff.mp h
  obtain rfl := List.map_eq_nil_iff.mp h
  obtain ⟨m, l', hl', hm, h'⟩ := List.map_eq_cons_iff.mp hone
  obtain rfl := List.map_eq_nil_iff.mp h'
  simp only [glance, Prod.mk.injEq] at h₂ hm
  obtain ⟨hsequence, hbody₂, hsender₂, hplain₂⟩ := h₂
  obtain ⟨-, hbody, hsender, hplain⟩ := hm
  have hfirst := lists_listed (untouched (fun _ _ hok => hok.1) hrun) hfound hpart
    (show pageAt 1 1 none sys.store = ([m₂], true) by
      rw [pageAt_eq (ordered_of_reachable hreach), hl]
      rfl) hsender₂ hplain₂
  have hrun₂ : System.Run (fun _ _ => True) (listed 1 2 1 none 3 sys) sys' :=
    hrun'.mono fun _ _ _ => trivial
  have hreach' : Reachable {} sys' := hreach.trans (hfirst.choose_spec.2.1.trans hrun₂)
  have hfourth : sys'.threads[4]? = _ := (untouched (fun _ _ hok => hok) hrun').trans
    ((List.getElem?_set_ne (by decide)).trans (untouched (fun _ _ hok => hok.2) hrun))
  have hsecond := lists_listed hfourth hfound' hpart'
    (show pageAt 1 1 (some 2) sys'.store = ([m], false) by
      rw [pageAt_eq (ordered_of_reachable hreach'), hl']
      rfl) hsender hplain
  have hlast : Reads {} 1 2 1 sys' (listed 1 2 1 (some 2) 4 sys') (some m₂.conversationSequence)
      ([m].map letter) := by
    rw [hsequence]
    exact .last hsecond
  have hreads := Reads.more hfirst hrun₂ hlast
  obtain ⟨seen, hseen, hanswered, hout⟩ := reads_history hreach hreads
  refine ⟨sys, _, seen, _, hreads, ?_, hseen, hanswered, hout⟩
  exact congrArg₂ (fun a b => [a, b]) hbody hbody₂

end NexaStays.HistoryPages
