import Mathlib.Algebra.Order.Ring.Int
import NexaStays.SlidingWindow
import NexaStays.SqlText

/-!
# The rate limit of messages

`MessagingRateLimitService` keeps one bucket for each user and conversation: the times of
the messages it let through, and for each body the times of its own. A bucket is pruned of
the last day at every call and a body of the last minute at each of its messages, so a bucket
never tells the whole past; `Remembers` says what of it is still there.
-/
namespace NexaStays.MessageRate

open NexaStays.SlidingWindow
open NexaStays.SqlText (trim)

structure RateBucket where
  timestamps : List ℤ
  bodies : String → Option (List ℤ)

/-- The map of the service, by `userId:conversationId`. -/
abbrev Buckets := String → Option RateBucket

def perMinute : ℕ := 10
def perDay : ℕ := 500
def identicalPerMinute : ℕ := 5
def minuteMs : ℤ := 60000
def dayMs : ℤ := 86400000

/-- A call of `assertCanSend` at the time `now`. -/
structure Call where
  userId : String
  conversationId : String
  body : String
  now : ℤ
  deriving DecidableEq, Repr

def Call.key (c : Call) : String := s!"{c.userId}:{c.conversationId}"

/-- The messages of the exceptions, each of status 429. -/
inductive TooManyRequests where
  | rateLimitExceeded
  | dailyMessageLimitExceeded
  | duplicateMessageLimitExceeded
  deriving DecidableEq, Repr

def TooManyRequests.message : TooManyRequests → String
  | rateLimitExceeded => "Rate limit exceeded"
  | dailyMessageLimitExceeded => "Daily message limit exceeded"
  | duplicateMessageLimitExceeded => "Duplicate message limit exceeded"

abbrev Verdict := Except TooManyRequests Unit

section Service

variable (toLowerCase : String → String)

/-- `body.trim().toLowerCase()`. -/
def normalized (body : String) : String := toLowerCase (trim body)

def emptyBucket : RateBucket := ⟨[], fun _ => none⟩

def assertCanSend (c : Call) (buckets : Buckets) : Buckets × Verdict :=
  let bucket := (buckets c.key).getD emptyBucket
  let timestamps := recent c.now dayMs bucket.timestamps
  -- the pruned times are stored before any of the checks
  let pruned := Function.update buckets c.key (some { bucket with timestamps })
  if perMinute ≤ (recent c.now minuteMs timestamps).length then
    (pruned, .error .rateLimitExceeded)
  else if perDay ≤ timestamps.length then
    (pruned, .error .dailyMessageLimitExceeded)
  else
    let body := normalized toLowerCase c.body
    let recentBodies := recent c.now minuteMs ((bucket.bodies body).getD [])
    if identicalPerMinute ≤ recentBodies.length then
      (pruned, .error .duplicateMessageLimitExceeded)
    else
      (Function.update buckets c.key (some
        { timestamps := timestamps ++ [c.now]
          bodies := Function.update bucket.bodies body (some (recentBodies ++ [c.now])) }),
        .ok ())

def afterCalls (buckets : Buckets) (calls : List Call) : Buckets :=
  calls.foldl (fun b c => (assertCanSend toLowerCase c b).1) buckets

def verdicts (buckets : Buckets) : List Call → List Verdict
  | [] => []
  | c :: calls =>
    (assertCanSend toLowerCase c buckets).2 ::
      verdicts (assertCanSend toLowerCase c buckets).1 calls

/-- The calls that are let through. -/
def accepted (buckets : Buckets) : List Call → List Call
  | [] => []
  | c :: calls =>
    let (after, verdict) := assertCanSend toLowerCase c buckets
    match verdict with
    | .ok () => c :: accepted after calls
    | .error _ => accepted after calls

/-- The times of the messages of a bucket. -/
def sentAt (history : List Call) (key : String) : List ℤ :=
  (history.filter fun c => c.key = key).map (·.now)

/-- The times of the messages of a bucket with a normalized body. -/
def sentWithBody (history : List Call) (key body : String) : List ℤ :=
  (history.filter fun c => c.key = key ∧ normalized toLowerCase c.body = body).map (·.now)

/-- The verdict on a call after the accepted messages of `history`. -/
def verdictAfter (history : List Call) (c : Call) : Verdict :=
  if perMinute ≤ (recent c.now minuteMs (sentAt history c.key)).length then
    .error .rateLimitExceeded
  else if perDay ≤ (recent c.now dayMs (sentAt history c.key)).length then
    .error .dailyMessageLimitExceeded
  else if identicalPerMinute ≤ (recent c.now minuteMs
      (sentWithBody toLowerCase history c.key (normalized toLowerCase c.body))).length then
    .error .duplicateMessageLimitExceeded
  else .ok ()

/-- The accepted messages, a call later. -/
def extend (history : List Call) (c : Call) : List Call :=
  match verdictAfter toLowerCase history c with
  | .ok () => history ++ [c]
  | .error _ => history

def bucketTimes (buckets : Buckets) (key : String) : List ℤ :=
  ((buckets key).getD emptyBucket).timestamps

def bodyTimes (buckets : Buckets) (key body : String) : List ℤ :=
  (((buckets key).getD emptyBucket).bodies body).getD []

/-- The buckets answer as the accepted messages do, at every time from `latest` on. -/
structure Remembers (history : List Call) (latest : ℤ) (buckets : Buckets) : Prop where
  past : ∀ c ∈ history, c.now ≤ latest
  day : ∀ now, latest ≤ now → ∀ key,
    recent now dayMs (bucketTimes buckets key) = recent now dayMs (sentAt history key)
  body : ∀ now, latest ≤ now → ∀ key body,
    recent now minuteMs (bodyTimes buckets key body) =
      recent now minuteMs (sentWithBody toLowerCase history key body)

end Service

section Run

variable {toLowerCase : String → String} {history : List Call} {latest : ℤ} {buckets : Buckets}
  {c : Call}

theorem mem_sentAt {key : String} {t : ℤ} (h : t ∈ sentAt history key) :
    ∃ c ∈ history, c.now = t := by
  obtain ⟨c, hc, rfl⟩ := List.mem_map.mp h
  exact ⟨c, List.mem_of_mem_filter hc, rfl⟩

theorem mem_sentWithBody {key body : String} {t : ℤ}
    (h : t ∈ sentWithBody toLowerCase history key body) : ∃ c ∈ history, c.now = t := by
  obtain ⟨c, hc, rfl⟩ := List.mem_map.mp h
  exact ⟨c, List.mem_of_mem_filter hc, rfl⟩

theorem sentAt_append (key : String) :
    sentAt (history ++ [c]) key = sentAt history key ++ if c.key = key then [c.now] else [] := by
  rw [sentAt, List.filter_append, List.map_append]
  by_cases h : c.key = key <;> simp [sentAt, h]

theorem sentWithBody_append (key body : String) :
    sentWithBody toLowerCase (history ++ [c]) key body =
      sentWithBody toLowerCase history key body ++
        if c.key = key ∧ normalized toLowerCase c.body = body then [c.now] else [] := by
  rw [sentWithBody, List.filter_append, List.map_append]
  by_cases h : c.key = key ∧ normalized toLowerCase c.body = body <;> simp [sentWithBody, h]

theorem Remembers.verdict_eq (h : Remembers toLowerCase history latest buckets)
    (hnow : latest ≤ c.now) :
    (assertCanSend toLowerCase c buckets).2 = verdictAfter toLowerCase history c := by
  have hday := h.day c.now hnow c.key
  have hbody := h.body c.now hnow c.key (normalized toLowerCase c.body)
  have hminute : recent c.now minuteMs (recent c.now dayMs (sentAt history c.key)) =
      recent c.now minuteMs (sentAt history c.key) := recent_recent le_rfl (by decide) _
  rw [bucketTimes] at hday
  rw [bodyTimes] at hbody
  simp only [assertCanSend, verdictAfter, hday, hbody, hminute]
  split_ifs <;> rfl

/-- A rejected call leaves the pruned bucket behind, which remembers the same. -/
theorem Remembers.pruned (h : Remembers toLowerCase history latest buckets)
    (hnow : latest ≤ c.now) :
    Remembers toLowerCase history c.now (Function.update buckets c.key (some
      { (buckets c.key).getD emptyBucket with
        timestamps := recent c.now dayMs (bucketTimes buckets c.key) })) where
  past d hd := (h.past d hd).trans hnow
  day now hlater key := by
    rw [← h.day now (hnow.trans hlater) key, bucketTimes]
    by_cases hkey : key = c.key
    · subst hkey
      rw [Function.update_self]
      exact recent_recent hlater le_rfl _
    · rw [Function.update_of_ne hkey]
      rfl
  body now hlater key body := by
    rw [← h.body now (hnow.trans hlater) key body, bodyTimes]
    by_cases hkey : key = c.key
    · subst hkey
      rw [Function.update_self]
      rfl
    · rw [Function.update_of_ne hkey]
      rfl

/-- An accepted call is appended to its bucket and to its body. -/
theorem Remembers.recorded (h : Remembers toLowerCase history latest buckets)
    (hnow : latest ≤ c.now) :
    Remembers toLowerCase (history ++ [c]) c.now (Function.update buckets c.key (some
      { timestamps := recent c.now dayMs (bucketTimes buckets c.key) ++ [c.now]
        bodies := Function.update ((buckets c.key).getD emptyBucket).bodies
          (normalized toLowerCase c.body) (some (recent c.now minuteMs
            (bodyTimes buckets c.key (normalized toLowerCase c.body)) ++ [c.now])) })) where
  past d hd := by
    rcases List.mem_append.mp hd with hd | hd
    · exact (h.past d hd).trans hnow
    · rw [List.mem_singleton.mp hd]
  day now hlater key := by
    rw [sentAt_append, recent_append, ← h.day now (hnow.trans hlater) key, bucketTimes]
    by_cases hkey : key = c.key
    · subst hkey
      rw [Function.update_self, Option.getD_some, recent_append, recent_recent hlater le_rfl,
        if_pos rfl]
    · rw [Function.update_of_ne hkey, if_neg (Ne.symm hkey), recent_nil, List.append_nil]
      rfl
  body now hlater key body := by
    rw [sentWithBody_append, recent_append, ← h.body now (hnow.trans hlater) key body, bodyTimes]
    by_cases hkey : key = c.key
    · subst hkey
      rw [Function.update_self, Option.getD_some]
      dsimp only
      by_cases hbody : body = normalized toLowerCase c.body
      · subst hbody
        rw [Function.update_self, Option.getD_some, recent_append, recent_recent hlater le_rfl,
          if_pos ⟨rfl, rfl⟩]
      · rw [Function.update_of_ne hbody, if_neg (fun hb => hbody hb.2.symm), recent_nil,
          List.append_nil]
        rfl
    · rw [Function.update_of_ne hkey, if_neg (fun hk => hkey hk.1.symm), recent_nil,
        List.append_nil]
      rfl

theorem Remembers.step (h : Remembers toLowerCase history latest buckets)
    (hnow : latest ≤ c.now) :
    Remembers toLowerCase (extend toLowerCase history c) c.now
      (assertCanSend toLowerCase c buckets).1 := by
  have hverdict := h.verdict_eq hnow
  rw [extend, ← hverdict]
  simp only [assertCanSend]
  split_ifs
  · exact h.pruned hnow
  · exact h.pruned hnow
  · exact h.pruned hnow
  · exact h.recorded hnow

theorem remembers_nothing (latest : ℤ) :
    Remembers toLowerCase [] latest fun _ => none :=
  ⟨fun _ hc => absurd hc List.not_mem_nil, fun _ _ _ => rfl, fun _ _ _ _ => rfl⟩

/-- Every message of the past found room in its bucket and for its body. -/
structure WithinLimits (toLowerCase : String → String) (history : List Call) : Prop where
  minute : ∀ key, Admitted perMinute minuteMs (sentAt history key)
  day : ∀ key, Admitted perDay dayMs (sentAt history key)
  body : ∀ key body, Admitted identicalPerMinute minuteMs (sentWithBody toLowerCase history key body)

theorem withinLimits_nil : WithinLimits toLowerCase [] :=
  ⟨fun _ => .nil, fun _ => .nil, fun _ _ => .nil⟩

theorem WithinLimits.extend (h : WithinLimits toLowerCase history)
    (hpast : ∀ d ∈ history, d.now ≤ c.now) :
    WithinLimits toLowerCase (extend toLowerCase history c) := by
  rw [MessageRate.extend, verdictAfter]
  split_ifs with hminute hday hbody
  · exact h
  · exact h
  · exact h
  · have hsent : ∀ key, ∀ t ∈ sentAt history key, t ≤ c.now := by
      intro key t ht
      obtain ⟨d, hd, rfl⟩ := mem_sentAt ht
      exact hpast d hd
    refine ⟨fun key => ?_, fun key => ?_, fun key body => ?_⟩
    · rw [sentAt_append]
      split_ifs with hkey
      · subst hkey
        exact (h.minute _).append (hsent _) (not_le.mp hminute)
      · simpa using h.minute key
    · rw [sentAt_append]
      split_ifs with hkey
      · subst hkey
        exact (h.day _).append (hsent _) (not_le.mp hday)
      · simpa using h.day key
    · rw [sentWithBody_append]
      split_ifs with hkey
      · obtain ⟨rfl, rfl⟩ := hkey
        refine (h.body _ _).append (fun t ht => ?_) (not_le.mp hbody)
        obtain ⟨d, hd, rfl⟩ := mem_sentWithBody ht
        exact hpast d hd
      · simpa using h.body key body

theorem accepted_cons (calls : List Call) :
    accepted toLowerCase buckets (c :: calls) =
      (match (assertCanSend toLowerCase c buckets).2 with
        | .ok () => [c]
        | .error _ => []) ++ accepted toLowerCase (assertCanSend toLowerCase c buckets).1 calls := by
  rw [accepted]
  rcases hs : assertCanSend toLowerCase c buckets with ⟨after, _ | _⟩ <;> rfl

/-- The accepted calls of a run extend its past. -/
theorem Remembers.extend_accepted (h : Remembers toLowerCase history latest buckets)
    (hnow : latest ≤ c.now) (calls : List Call) :
    history ++ accepted toLowerCase buckets (c :: calls) =
      extend toLowerCase history c ++
        accepted toLowerCase (assertCanSend toLowerCase c buckets).1 calls := by
  rw [accepted_cons, h.verdict_eq hnow, extend]
  cases verdictAfter toLowerCase history c with
  | error e => rfl
  | ok => exact (List.append_assoc ..).symm

/-- The limits hold of the past that a run leaves. -/
theorem WithinLimits.run {calls : List Call} (h : Remembers toLowerCase history latest buckets)
    (hlimits : WithinLimits toLowerCase history) (hlatest : ∀ c ∈ calls, latest ≤ c.now)
    (hordered : calls.Pairwise fun c d => c.now ≤ d.now) :
    WithinLimits toLowerCase (history ++ accepted toLowerCase buckets calls) := by
  induction calls generalizing history latest buckets with
  | nil => simpa [accepted] using hlimits
  | cons c calls ih =>
    obtain ⟨hfirst, hrest⟩ := List.pairwise_cons.mp hordered
    have hnow : latest ≤ c.now := hlatest c (by simp)
    rw [h.extend_accepted hnow]
    exact ih (h.step hnow)
      (hlimits.extend fun d hd => (h.past d hd).trans hnow) hfirst hrest

/-- Buckets that remember the same past give the same verdicts. -/
theorem Remembers.verdicts_eq {calls : List Call} {earlier : ℤ} {others : Buckets}
    (h : Remembers toLowerCase history latest buckets)
    (h' : Remembers toLowerCase history earlier others) (hlatest : ∀ c ∈ calls, latest ≤ c.now)
    (hearlier : ∀ c ∈ calls, earlier ≤ c.now)
    (hordered : calls.Pairwise fun c d => c.now ≤ d.now) :
    verdicts toLowerCase buckets calls = verdicts toLowerCase others calls := by
  induction calls generalizing history latest earlier buckets others with
  | nil => rfl
  | cons c calls ih =>
    obtain ⟨hfirst, hrest⟩ := List.pairwise_cons.mp hordered
    have hnow : latest ≤ c.now := hlatest c (by simp)
    have hnow' : earlier ≤ c.now := hearlier c (by simp)
    rw [verdicts, verdicts, h.verdict_eq hnow, h'.verdict_eq hnow',
      ih (h.step hnow) (h'.step hnow') hfirst hfirst hrest]

/-- What the buckets remember after a run: the calls that were let through. -/
theorem remembers_afterCalls {calls : List Call} (h : Remembers toLowerCase history latest buckets)
    (hlatest : ∀ c ∈ calls, latest ≤ c.now)
    (hordered : calls.Pairwise fun c d => c.now ≤ d.now) {now : ℤ} (hnow : latest ≤ now)
    (hcalls : ∀ c ∈ calls, c.now ≤ now) :
    ∃ latest', latest' ≤ now ∧ Remembers toLowerCase
      (history ++ accepted toLowerCase buckets calls) latest'
      (afterCalls toLowerCase buckets calls) := by
  induction calls generalizing history latest buckets with
  | nil => exact ⟨latest, hnow, by simpa [accepted, afterCalls] using h⟩
  | cons c calls ih =>
    obtain ⟨hfirst, hrest⟩ := List.pairwise_cons.mp hordered
    have hc : latest ≤ c.now := hlatest c (by simp)
    rw [h.extend_accepted hc]
    exact ih (h.step hc) hfirst hrest (hcalls c (by simp))
      fun d hd => hcalls d (by simp [hd])

/-- The accepted calls of a user in a conversation whose times are in a window. -/
def acceptedIn (calls : List Call) (userId conversationId : String) (start width : ℤ) : List Call :=
  calls.filter fun c => c.userId = userId ∧ c.conversationId = conversationId ∧
    start ≤ c.now ∧ c.now < start + width

theorem length_acceptedIn_le (calls : List Call) (userId conversationId : String)
    (start width : ℤ) :
    (acceptedIn calls userId conversationId start width).length ≤
      (inWindow start width (sentAt calls s!"{userId}:{conversationId}")).length := by
  rw [inWindow, sentAt, List.filter_map, List.length_map, List.filter_filter]
  refine (List.monotone_filter_right calls fun c hc => ?_).length_le
  obtain ⟨rfl, rfl, hwindow⟩ := of_decide_eq_true hc
  simp [Call.key, hwindow]

theorem length_acceptedIn_body_le (calls : List Call) (userId conversationId body : String)
    (start width : ℤ) :
    ((acceptedIn calls userId conversationId start width).filter fun c =>
        normalized toLowerCase c.body = body).length ≤
      (inWindow start width
        (sentWithBody toLowerCase calls s!"{userId}:{conversationId}" body)).length := by
  rw [inWindow, sentWithBody, List.filter_map, List.length_map, List.filter_filter, acceptedIn,
    List.filter_filter]
  refine (List.monotone_filter_right calls fun c hc => ?_).length_le
  simp only [Bool.and_eq_true, decide_eq_true_eq] at hc
  obtain ⟨rfl, rfl, rfl, hwindow⟩ := hc
  simp [Call.key, hwindow]

end Run

/-- Every window of a minute holds at most ten accepted calls of a user in a conversation, and
at most five with one trimmed lower-cased body, every window of a day at most 500; the verdicts
after a rejected call are those without it. -/
theorem every_window_bounded (toLowerCase : String → String) (calls : List Call)
    (hordered : calls.Pairwise fun c d => c.now ≤ d.now) :
    (∀ userId conversationId start,
      (acceptedIn (accepted toLowerCase (fun _ => none) calls) userId conversationId
        start 60000).length ≤ 10 ∧
      (∀ body, ((acceptedIn (accepted toLowerCase (fun _ => none) calls) userId conversationId
        start 60000).filter fun c => toLowerCase (trim c.body) = body).length ≤ 5) ∧
      (acceptedIn (accepted toLowerCase (fun _ => none) calls) userId conversationId
        start 86400000).length ≤ 500) ∧
    ∀ before c after, calls = before ++ c :: after →
      (assertCanSend toLowerCase c (afterCalls toLowerCase (fun _ => none) before)).2 ≠ .ok () →
      verdicts toLowerCase (afterCalls toLowerCase (fun _ => none) (before ++ [c])) after =
        verdicts toLowerCase (afterCalls toLowerCase (fun _ => none) before) after := by
  have hempty : ∀ latest, Remembers toLowerCase [] latest fun _ => none := remembers_nothing
  refine ⟨fun userId conversationId start => ?_, fun before c after hcalls hreject => ?_⟩
  · have hlimits : WithinLimits toLowerCase (accepted toLowerCase (fun _ => none) calls) := by
      cases calls with
      | nil => exact withinLimits_nil
      | cons c calls =>
        obtain ⟨hfirst, -⟩ := List.pairwise_cons.mp hordered
        refine WithinLimits.run (hempty c.now) withinLimits_nil (fun d hd => ?_) hordered
        rcases List.mem_cons.mp hd with rfl | hd
        · exact le_rfl
        · exact hfirst d hd
    refine ⟨?_, fun body => ?_, ?_⟩
    · exact (length_acceptedIn_le ..).trans ((hlimits.minute _).length_inWindow_le start)
    · exact (length_acceptedIn_body_le ..).trans ((hlimits.body _ body).length_inWindow_le start)
    · exact (length_acceptedIn_le ..).trans ((hlimits.day _).length_inWindow_le start)
  · subst hcalls
    obtain ⟨hbefore, hrest, hacross⟩ := List.pairwise_append.mp hordered
    obtain ⟨hafter, hordered'⟩ := List.pairwise_cons.mp hrest
    obtain ⟨first, hfirst, hfirst'⟩ : ∃ first ≤ c.now, ∀ d ∈ before, first ≤ d.now := by
      cases before with
      | nil => exact ⟨c.now, le_rfl, by simp⟩
      | cons d before =>
        refine ⟨d.now, hacross d (by simp) c (by simp), fun e he => ?_⟩
        rcases List.mem_cons.mp he with rfl | he
        · exact le_rfl
        · exact (List.pairwise_cons.mp hbefore).1 e he
    obtain ⟨latest, hlatest, hremembers⟩ := remembers_afterCalls (hempty first) hfirst' hbefore
      hfirst fun d hd => hacross d hd c (by simp)
    have hstep := hremembers.step hlatest
    have hsame : extend toLowerCase ([] ++ accepted toLowerCase (fun _ => none) before) c =
        [] ++ accepted toLowerCase (fun _ => none) before := by
      rw [extend]
      cases hverdict : verdictAfter toLowerCase ([] ++ accepted toLowerCase _ before) c with
      | error e => rfl
      | ok => exact absurd ((hremembers.verdict_eq hlatest).trans hverdict) hreject
    rw [hsame] at hstep
    rw [afterCalls, List.foldl_append]
    exact hstep.verdicts_eq hremembers hafter (fun d hd => hlatest.trans (hafter d hd)) hordered'

/-- Six messages of one second with one text. -/
def burst : List Call := (List.range 6).map fun n => ⟨"guest", "thread", " Hello ", n⟩

theorem every_window_bounded_burst :
    ((acceptedIn (accepted id (fun _ => none) burst) "guest" "thread" 0 60000).filter fun c =>
      trim c.body = "Hello").length ≤ 5 :=
  ((every_window_bounded id burst (by decide)).1 "guest" "thread" 0).2.1 "Hello"

end NexaStays.MessageRate
