import NexaStays.FixedWindow
import NexaStays.PhoneNumbers
import NexaStays.SqlText

/-!
# The limit on sending codes

`OtpSendRateLimitGuard` counts the requests of a phone number and a client address in two
fixed windows. The key has the phone number as the request spells it; the handlers
normalize it afterwards.
-/
namespace NexaStays.OtpSendLimit

open NexaStays.FixedWindow NexaStays.PhoneNumbers

open NexaStays.SqlText (trim)

def minuteMs : ℤ := 60 * 1000

def dayMs : ℤ := 24 * 60 * 60 * 1000

/-- `MAX_PER_MINUTE`, outside production and in it. -/
def maxPerMinute (isDev : Bool) : ℕ := if isDev then 30 else 5

/-- `MAX_PER_DAY`. -/
def maxPerDay (isDev : Bool) : ℕ := if isDev then 100 else 20

/-- The two maps of `OtpSendRateLimitService`. -/
structure OtpSendRateLimit where
  perMinute : String → Option Window
  perDay : String → Option Window

def OtpSendRateLimit.start : OtpSendRateLimit := ⟨fun _ => none, fun _ => none⟩

/-- `${phone}:${ip}`. -/
def key (phone ip : String) : String := phone ++ ":" ++ ip

def setWindow (windows : String → Option Window) (k : String) (w : Window) :
    String → Option Window :=
  fun k' => if k' = k then some w else windows k'

def checkAndIncrement (isDev : Bool) (s : OtpSendRateLimit) (phoneNumber ip : String) (now : ℤ) :
    OtpSendRateLimit × Bool :=
  let k := key phoneNumber ip
  match Window.bump (maxPerMinute isDev) minuteMs now (s.perMinute k) with
  | none => (s, false)
  | some minWindow =>
    let s := { s with perMinute := setWindow s.perMinute k minWindow }
    match Window.bump (maxPerDay isDev) dayMs now (s.perDay k) with
    | none => (s, false)
    | some dayWindow => ({ s with perDay := setWindow s.perDay k dayWindow }, true)

/-- A request to send a code, at the time `now`. `phoneNumber` is the member of the body, if
that is a text. -/
structure SendOtp where
  phoneNumber : Option String
  now : ℤ
  deriving DecidableEq, Repr

/-- `canActivate`, for the address `ip`; a request that it refuses is answered with 429. -/
def canActivate (isDev : Bool) (ip : String) (s : OtpSendRateLimit) (request : SendOtp) :
    OtpSendRateLimit × Bool :=
  match request.phoneNumber with
  | none => (s, true)
  | some phone =>
    if phone = "" then (s, true)
    else checkAndIncrement isDev s (trim phone) (trim ip) request.now

/-- The requests of a sequence that the guard admits. -/
def admitted (isDev : Bool) (ip : String) : OtpSendRateLimit → List SendOtp → List SendOtp
  | _, [] => []
  | s, request :: requests =>
    let (s', allowed) := canActivate isDev ip s request
    if allowed then request :: admitted isDev ip s' requests
    else admitted isDev ip s' requests

/-- The code is sent to `number`. -/
def SendsTo (number : List Char) (request : SendOtp) : Prop :=
  ∃ phone ∈ request.phoneNumber, normalizePhoneNumber phone.toList = .ok number

instance (number : List Char) (request : SendOtp) : Decidable (SendsTo number request) :=
  decidable_of_iff (request.phoneNumber.any fun phone =>
    decide (normalizePhoneNumber phone.toList = .ok number) = true) (by
      cases h : request.phoneNumber <;> simp [SendsTo, h])

/-- The requests to `number` in the interval from `start` to `start + width`. -/
def sentIn (number : List Char) (start width : ℤ) (requests : List SendOtp) : List SendOtp :=
  requests.filter fun r => SendsTo number r ∧ start ≤ r.now ∧ r.now ≤ start + width

variable {isDev : Bool} {ip : String} {s : OtpSendRateLimit}

/-- The guard counts the request under this key. -/
def CountedUnder (ip k : String) (request : SendOtp) : Prop :=
  ∃ phone ∈ request.phoneNumber, phone ≠ "" ∧ key (trim phone) (trim ip) = k

instance (ip k : String) (request : SendOtp) : Decidable (CountedUnder ip k request) :=
  decidable_of_iff (request.phoneNumber.any fun phone =>
    decide (phone ≠ "" ∧ key (trim phone) (trim ip) = k) = true) (by
      cases h : request.phoneNumber <;> simp [CountedUnder, h])

/-- Both windows of a key show what was counted under it. -/
structure KeyTracks (isDev : Bool) (now : ℤ) (k : String) (s : OtpSendRateLimit)
    (minute day : List Counted) : Prop where
  minute : Tracks (maxPerMinute isDev) minuteMs now minute (s.perMinute k)
  day : Tracks (maxPerDay isDev) dayMs now day (s.perDay k)

theorem KeyTracks.start (isDev : Bool) (now : ℤ) (k : String) :
    KeyTracks isDev now k .start [] [] :=
  ⟨rfl, rfl⟩

theorem maxPerMinute_pos (isDev : Bool) : 0 < maxPerMinute isDev := by
  cases isDev <;> decide

theorem maxPerDay_pos (isDev : Bool) : 0 < maxPerDay isDev := by
  cases isDev <;> decide

/-- A request leaves the windows of other keys. -/
theorem windows_of_other {k : String} {phone : String} {now : ℤ} (h : key phone ip ≠ k) :
    (checkAndIncrement isDev s phone ip now).1.perMinute k = s.perMinute k ∧
      (checkAndIncrement isDev s phone ip now).1.perDay k = s.perDay k := by
  have hne : ¬k = key phone ip := fun heq => h heq.symm
  simp only [checkAndIncrement]
  split
  · exact ⟨rfl, rfl⟩
  · split <;> simp [setWindow, hne]

/-- What one request adds to the windows of a key; an admitted request is counted in both. -/
theorem keyTracks_step (ip : String) {k : String} {minute day : List Counted} {earlier : ℤ} {request : SendOtp}
    (hearlier : earlier ≤ request.now) (h : KeyTracks isDev earlier k s minute day) :
    ∃ minuteNew dayNew, KeyTracks isDev request.now k (canActivate isDev ip s request).1
        (minute ++ minuteNew) (day ++ dayNew) ∧
      ((canActivate isDev ip s request).2 = true → CountedUnder ip k request →
        minuteNew.map (·.time) = [request.now] ∧ dayNew.map (·.time) = [request.now]) := by
  have hlater : KeyTracks isDev request.now k s minute day :=
    ⟨h.minute.mono hearlier, h.day.mono hearlier⟩
  have hunchanged : ¬CountedUnder ip k request →
      (canActivate isDev ip s request).1.perMinute k = s.perMinute k ∧
        (canActivate isDev ip s request).1.perDay k = s.perDay k := by
    intro hcounted
    cases hphone : request.phoneNumber with
    | none => simp [canActivate, hphone]
    | some phone =>
      by_cases hempty : phone = ""
      · simp [canActivate, hphone, hempty]
      · have hne : key (trim phone) (trim ip) ≠ k := fun hk =>
          hcounted ⟨phone, hphone, hempty, hk⟩
        simpa only [canActivate, hphone, if_neg hempty] using windows_of_other hne
  by_cases hcounted : CountedUnder ip k request
  · obtain ⟨phone, hphone, hempty, rfl⟩ := hcounted
    have hphone' : request.phoneNumber = some phone := hphone
    simp only [canActivate, hphone', if_neg hempty, checkAndIncrement]
    rcases hmin : Window.bump (maxPerMinute isDev) minuteMs request.now
        (s.perMinute (key (trim phone) (trim ip))) with _ | minWindow
    · exact ⟨[], [], by simpa using hlater, fun hfalse => absurd hfalse (by simp)⟩
    · obtain ⟨c, hc, hminute⟩ :=
        h.minute.bump (maxPerMinute_pos isDev) (by decide) hearlier hmin
      rcases hday : Window.bump (maxPerDay isDev) dayMs request.now
          (s.perDay (key (trim phone) (trim ip))) with _ | dayWindow
      · refine ⟨[c], [], ⟨?_, ?_⟩, fun hfalse => absurd hfalse (by simp)⟩
        · simpa [setWindow] using hminute
        · simpa using hlater.day
      · obtain ⟨d, hd, hdays⟩ := h.day.bump (maxPerDay_pos isDev) (by decide) hearlier hday
        refine ⟨[c], [d], ⟨?_, ?_⟩, fun _ _ => by simp [hc, hd]⟩
        · simpa [setWindow] using hminute
        · simpa [setWindow] using hdays
  · obtain ⟨hminute, hday⟩ := hunchanged hcounted
    refine ⟨[], [], ⟨?_, ?_⟩, fun _ h => absurd h hcounted⟩
    · rw [hminute, List.append_nil]
      exact hlater.minute
    · rw [hday, List.append_nil]
      exact hlater.day

/-- The admitted requests of a key are among those that its windows counted. -/
theorem admitted_counted (ip : String) {k : String} {requests : List SendOtp} {minute day : List Counted}
    {earlier : ℤ} (hfirst : ∀ r ∈ requests, earlier ≤ r.now)
    (hordered : requests.Pairwise fun r r' => r.now ≤ r'.now)
    (h : KeyTracks isDev earlier k s minute day) :
    ∃ minuteNew dayNew, Windows (maxPerMinute isDev) minuteMs (minute ++ minuteNew) ∧
      Windows (maxPerDay isDev) dayMs (day ++ dayNew) ∧
      (((admitted isDev ip s requests).filter fun r => CountedUnder ip k r).map
        (·.now)).Sublist (minuteNew.map (·.time)) ∧
      (((admitted isDev ip s requests).filter fun r => CountedUnder ip k r).map
        (·.now)).Sublist (dayNew.map (·.time)) := by
  induction requests generalizing s minute day earlier with
  | nil =>
    refine ⟨[], [], ?_, ?_, by simp [admitted], by simp [admitted]⟩
    · rw [List.append_nil]
      exact h.minute.windows
    · rw [List.append_nil]
      exact h.day.windows
  | cons request requests ih =>
    obtain ⟨minuteNew, dayNew, hstep, hcounted⟩ := keyTracks_step ip
      (hfirst request (by simp)) h
    obtain ⟨hnext, hrest⟩ := List.pairwise_cons.mp hordered
    obtain ⟨minuteRest, dayRest, hminute, hday, hsubMinute, hsubDay⟩ := ih hnext hrest hstep
    refine ⟨minuteNew ++ minuteRest, dayNew ++ dayRest, ?_, ?_, ?_, ?_⟩
    · rwa [← List.append_assoc]
    · rwa [← List.append_assoc]
    all_goals
      rw [List.map_append]
      by_cases hallowed : (canActivate isDev ip s request).2 = true
      · have hadmitted : admitted isDev ip s (request :: requests) =
            request :: admitted isDev ip (canActivate isDev ip s request).1 requests := by
          simp only [admitted, hallowed, if_true]
        rw [hadmitted, List.filter_cons]
        by_cases hkey : CountedUnder ip k request
        · obtain ⟨hmin, hdays⟩ := hcounted hallowed hkey
          simp only [hkey, decide_true, if_true, List.map_cons, hmin, hdays]
          first
          | exact hsubMinute.cons_cons _
          | exact hsubDay.cons_cons _
        · simp only [hkey, decide_false, Bool.false_eq_true, if_false]
          first
          | exact hsubMinute.trans (List.sublist_append_right _ _)
          | exact hsubDay.trans (List.sublist_append_right _ _)
      · have hadmitted : admitted isDev ip s (request :: requests) =
            admitted isDev ip (canActivate isDev ip s request).1 requests := by
          simp only [admitted, hallowed, Bool.false_eq_true, if_false]
        rw [hadmitted]
        first
        | exact hsubMinute.trans (List.sublist_append_right _ _)
        | exact hsubDay.trans (List.sublist_append_right _ _)

theorem countedUnder_of_sendsTo {number : List Char} {request : SendOtp} {phone : String}
    (hphone : request.phoneNumber = some phone)
    (h : normalizePhoneNumber phone.toList = .ok number) :
    CountedUnder ip (key (trim phone) (trim ip)) request := by
  refine ⟨phone, hphone, ?_, rfl⟩
  rintro rfl
  have hempty : normalizePhoneNumber "".toList = .error "Invalid phone number: too few digits" := by
    decide
  rw [hempty] at h
  cases h

theorem admitted_sublist (isDev : Bool) (ip : String) (s : OtpSendRateLimit)
    (requests : List SendOtp) : (admitted isDev ip s requests).Sublist requests := by
  induction requests generalizing s with
  | nil => simp [admitted]
  | cons request requests ih =>
    by_cases hallowed : (canActivate isDev ip s request).2 = true
    · simpa only [admitted, hallowed, if_true] using (ih _).cons_cons request
    · simpa only [admitted, hallowed, Bool.false_eq_true, if_false] using (ih _).cons request

/-- In the interval the requests to the number spell it alike. -/
def OneSpelling (number : List Char) (start width : ℤ) (requests : List SendOtp) : Prop :=
  ∀ r ∈ sentIn number start width requests, ∀ r' ∈ sentIn number start width requests,
    r.phoneNumber.map trim = r'.phoneNumber.map trim

/-- Events of one key, counted in windows, are few in every interval. -/
theorem length_sentIn_le {number : List Char} {start width : ℤ} {limit : ℕ} {counted : List Counted}
    (hwindows : Windows limit width counted) {k : String} {requests : List SendOtp}
    (hsub : ((requests.filter fun r => CountedUnder ip k r).map (·.now)).Sublist
      (counted.map (·.time)))
    (hkey : ∀ r ∈ sentIn number start width requests, CountedUnder ip k r) :
    (sentIn number start width requests).length ≤ 2 * limit := by
  have hinside : ((sentIn number start width requests).map (·.now)).Sublist
      (((requests.filter fun r => CountedUnder ip k r).map (·.now)).filter
        fun t => start ≤ t ∧ t ≤ start + width) := by
    have hsame : sentIn number start width requests =
        (sentIn number start width requests).filter fun r => CountedUnder ip k r :=
      (List.filter_eq_self.mpr fun r hr => decide_eq_true (hkey r hr)).symm
    rw [hsame, sentIn, List.filter_filter, List.filter_map, List.filter_filter]
    refine (List.monotone_filter_right _ fun r hr => ?_).map _
    simp only [Bool.and_eq_true, decide_eq_true_eq, Function.comp_apply] at hr ⊢
    exact ⟨⟨hr.2.2.1, hr.2.2.2⟩, hr.1⟩
  have hcounted := hinside.trans (hsub.filter fun t => start ≤ t ∧ t ≤ start + width)
  have hbound := hwindows.length_inInterval_le start
  have hlength := hcounted.length_le
  rw [List.length_map, List.filter_map, List.length_map] at hlength
  exact hlength.trans hbound

/-- Of the admitted requests to a number, an interval has at most two windows' worth as soon
as the requests in it spell the number alike: of a minute, and of a day. -/
theorem otp_sends_limited (isDev : Bool) (ip : String) (requests : List SendOtp)
    (hordered : requests.Pairwise fun r r' => r.now ≤ r'.now) (number : List Char) (start : ℤ) :
    (OneSpelling number start minuteMs requests →
      (sentIn number start minuteMs (admitted isDev ip .start requests)).length ≤
        2 * maxPerMinute isDev) ∧
    (OneSpelling number start dayMs requests →
      (sentIn number start dayMs (admitted isDev ip .start requests)).length ≤
        2 * maxPerDay isDev) := by
  have hbound : ∀ (width : ℤ) (limit : ℕ),
      (∀ k, ∃ counted, Windows limit width counted ∧
        (((admitted isDev ip .start requests).filter fun r => CountedUnder ip k r).map
          (·.now)).Sublist (counted.map (·.time))) →
      OneSpelling number start width requests →
      (sentIn number start width (admitted isDev ip .start requests)).length ≤ 2 * limit := by
    intro width limit hcounted hspelling
    rcases hsent : sentIn number start width (admitted isDev ip .start requests) with _ | ⟨r, rest⟩
    · simp
    · rw [← hsent]
      have hsub : (sentIn number start width (admitted isDev ip .start requests)).Sublist
          (sentIn number start width requests) := (admitted_sublist _ _ _ _).filter _
      have hr : r ∈ sentIn number start width requests := hsub.subset (by simp [hsent])
      obtain ⟨phone, hphone, -⟩ := (of_decide_eq_true (List.mem_filter.mp hr).2).1
      obtain ⟨counted, hwindows, hcountedSub⟩ := hcounted (key (trim phone) (trim ip))
      refine length_sentIn_le hwindows hcountedSub fun r' hr' => ?_
      obtain ⟨phone', hphone', hnormal⟩ := (of_decide_eq_true (List.mem_filter.mp hr').2).1
      have hsame := hspelling r hr r' (hsub.subset hr')
      rw [show r.phoneNumber = some phone from hphone,
        show r'.phoneNumber = some phone' from hphone'] at hsame
      have htrim : trim phone = trim phone' := by simpa using hsame
      rw [htrim]
      exact countedUnder_of_sendsTo hphone' hnormal
  rcases requests with _ | ⟨first, rest⟩
  · exact ⟨fun _ => by simp [admitted, sentIn], fun _ => by simp [admitted, sentIn]⟩
  · have hfirst : ∀ r ∈ first :: rest, first.now ≤ r.now := by
      intro r hr
      rcases List.mem_cons.mp hr with rfl | hr
      · exact le_refl _
      · exact (List.pairwise_cons.mp hordered).1 r hr
    have hcounted := fun k => admitted_counted ip hfirst hordered
      (KeyTracks.start isDev first.now k)
    refine ⟨hbound minuteMs _ fun k => ?_, hbound dayMs _ fun k => ?_⟩
    · obtain ⟨minute, day, hminute, -, hsub, -⟩ := hcounted k
      exact ⟨minute, by simpa using hminute, hsub⟩
    · obtain ⟨minute, day, -, hday, -, hsub⟩ := hcounted k
      exact ⟨day, by simpa using hday, hsub⟩

def request (phone : String) : SendOtp := ⟨some phone, 0⟩

/-- Six requests at once with one spelling. -/
theorem otp_sends_limited_sample :
    (sentIn "+212612345678".toList 0 minuteMs (admitted false "203.0.113.7" .start
      (List.replicate 6 (request "0612345678")))).length ≤ 2 * maxPerMinute false :=
  (otp_sends_limited false "203.0.113.7" (List.replicate 6 (request "0612345678"))
    (by decide) "+212612345678".toList 0).1 (by
      intro r hr r' hr'
      rw [List.eq_of_mem_replicate (List.mem_of_mem_filter hr),
        List.eq_of_mem_replicate (List.mem_of_mem_filter hr')])

/-- Three spellings of one number, five requests each, all at one time. -/
def threeSpellings : List SendOtp :=
  List.replicate 5 (request "0612345678") ++ List.replicate 5 (request "+212612345678") ++
    List.replicate 5 (request "212612345678")

/-- In production all of them are admitted, though five are allowed in a minute. -/
theorem spellings_counted_apart :
    (sentIn "+212612345678".toList 0 minuteMs
      (admitted false "203.0.113.7" .start threeSpellings)).length = 15 ∧
      ¬15 ≤ 2 * maxPerMinute false := by
  decide +kernel

end NexaStays.OtpSendLimit
