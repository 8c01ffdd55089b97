import Mathlib.Algebra.Order.Archimedean.Real.Basic
import NexaStays.Conformance.System
import NexaStays.Outcomes

/-!
# The snapshot of a price

`createBooking` rounds the two fees of a stay once and stores what follows from them. The
intent is opened for the stored total, rounded again, and a confirmation compares the parts:
it finds them equal, whatever the rates are.
-/
namespace NexaStays.SnapshotPrice

open NexaStays.KeyedTable NexaStays.Transactions NexaStays.Database NexaStays.CreateBooking
  NexaStays.Availability NexaStays.BookingDate NexaStays.Payments NexaStays.Persistence
  NexaStays.Invariant NexaStays.Calls NexaStays.Conformance NexaStays.Outcomes

open NexaStays.Money (mathRound mathRound_spec FeeRates FeeBreakdown feesFromRates
  checkConfirmationLedgerInvariant eps)

section Fees

variable {K : Type*} [Field K] [LinearOrder K] [FloorRing K]

/-- `feesFromRates`, in cents, for rates of any ordered field. -/
def feesAt (subtotal : ℤ) (guestPct hostPct : K) : FeeBreakdown :=
  let guestFee := ⌊(subtotal : K) * guestPct + 1 / 2⌋
  let hostFee := ⌊(subtotal : K) * hostPct + 1 / 2⌋
  { guestFee, hostFee, totalPaid := subtotal + guestFee, payoutAmount := subtotal - hostFee }

variable [IsStrictOrderedRing K]

theorem mathRound_eq_floor (n : ℤ) {d : ℕ} (hd : 0 < d) :
    mathRound n d = ⌊(n : K) / d + 1 / 2⌋ := by
  obtain ⟨hlo, hhi⟩ := mathRound_spec n hd
  have hpos : (0 : K) < d := by exact_mod_cast hd
  have hlo' : (d : K) * (2 * mathRound n d - 1) ≤ 2 * n := by exact_mod_cast hlo
  have hhi' : 2 * (n : K) < d * (2 * mathRound n d + 1) := by exact_mod_cast hhi
  have hdown : (mathRound n d : K) - 1 / 2 ≤ n / d := by
    rw [le_div_iff₀ hpos]
    linarith
  have hup : (n : K) / d < mathRound n d + 1 / 2 := by
    rw [div_lt_iff₀ hpos]
    linarith
  symm
  rw [Int.floor_eq_iff]
  constructor <;> linarith

/-- The rates of the settings are ten-thousandths. -/
theorem feesFromRates_eq (subtotal : ℤ) (rates : FeeRates) :
    feesFromRates subtotal rates =
      feesAt subtotal ((rates.guestFeePct : K) / 10000) ((rates.hostFeePct : K) / 10000) := by
  have hround : ∀ pct : ℤ, mathRound (subtotal * pct) 10000 =
      ⌊(subtotal : K) * ((pct : K) / 10000) + 1 / 2⌋ := by
    intro pct
    rw [mathRound_eq_floor (K := K) _ (by decide)]
    push_cast
    rw [mul_div_assoc]
  simp only [feesFromRates, feesAt, hround]

/-- A fee of at most one half is no more than the subtotal. -/
theorem fee_bounds {subtotal : ℤ} (hsubtotal : 0 < subtotal) {pct : K} (hpct : 0 ≤ pct)
    (hhalf : pct ≤ 1 / 2) :
    0 ≤ ⌊(subtotal : K) * pct + 1 / 2⌋ ∧ ⌊(subtotal : K) * pct + 1 / 2⌋ ≤ subtotal := by
  have hpos : (1 : K) ≤ subtotal := by exact_mod_cast hsubtotal
  have hnonneg : (0 : K) ≤ subtotal * pct := mul_nonneg (by linarith) hpct
  have hle : (subtotal : K) * pct ≤ subtotal * (1 / 2) :=
    mul_le_mul_of_nonneg_left hhalf (by linarith)
  constructor
  · exact Int.floor_nonneg.mpr (by linarith)
  · rw [← Int.lt_add_one_iff, Int.floor_lt]
    push_cast
    linarith

end Fees

/-- `Number.EPSILON`. -/
def epsilon : ℚ := 1 / 2 ^ 52

/-- `roundMoney`, in units of the currency. -/
def roundMoney (amount : ℚ) : ℚ := ⌊(amount + epsilon) * 100 + 1 / 2⌋ / 100

def assertPositiveMoney (amount : ℚ) (label : String) : Except String ℚ :=
  if amount ≤ 0 then .error s!"{label} must be greater than zero" else .ok amount

def lockIntentAmount (bookingTotalPaid : ℚ) (clientOverride : Option ℚ) : Except String ℚ := do
  let locked ← assertPositiveMoney bookingTotalPaid "booking total"
  if clientOverride.any (· ≠ locked) then .error "Client amount override is not allowed"
  else .ok (roundMoney locked)

/-- Whole cents survive the rounding and the epsilon that it adds. -/
theorem roundMoney_cents (cents : ℤ) : roundMoney (cents / 100) = cents / 100 := by
  have hfloor : ⌊((cents : ℚ) / 100 + epsilon) * 100 + 1 / 2⌋ = cents := by
    rw [Int.floor_eq_iff, epsilon]
    constructor <;> linarith
  rw [roundMoney, hfloor]

theorem lockIntentAmount_cents {cents : ℤ} (hcents : 0 < cents) :
    lockIntentAmount (cents / 100) none = .ok ((cents : ℚ) / 100) := by
  have hpos : ¬(cents : ℚ) / 100 ≤ 0 := by
    rw [not_le]
    positivity
  simp [lockIntentAmount, assertPositiveMoney, hpos, bind, Except.bind, roundMoney_cents]

/-- The money columns of a booking. -/
def snapshot (subtotal : ℤ) (fees : FeeBreakdown) (b : StaysBooking) : StaysBooking :=
  { b with
    totalSubtotal := subtotal
    guestFee := fees.guestFee
    hostFee := fees.hostFee
    totalPaid := some fees.totalPaid
    payoutAmount := some fees.payoutAmount }

theorem newBooking_eq_snapshot (userId : ℕ) (dto : CreateBookingDto) (checkin checkout : ℤ)
    (ratePlan : RatePlan) (rates : FeeRates) (reference : BookingReference) (createdAt : ℤ)
    (id : ℕ) :
    newBooking userId dto checkin checkout ratePlan rates reference createdAt id =
      snapshot (ratePlan.basePrice * bookingNightsBetween checkin checkout)
        (feesAt (ratePlan.basePrice * bookingNightsBetween checkin checkout)
          ((rates.guestFeePct : ℝ) / 10000) ((rates.hostFeePct : ℝ) / 10000))
        (newBooking userId dto checkin checkout ratePlan rates reference createdAt id) := by
  rw [← feesFromRates_eq]
  rfl

/-- The total is the payout and the two fees, the payout is no debt, the intent is opened for
the total, and its confirmation finds nothing to object to. -/
structure Confirms (b : StaysBooking) (total payout : ℤ) : Prop where
  totalPaid : b.totalPaid = some total
  payoutAmount : b.payoutAmount = some payout
  split : total = payout + b.guestFee + b.hostFee
  payout_nonneg : 0 ≤ payout
  locked : lockIntentAmount ((total : ℚ) / 100) none = .ok ((total : ℚ) / 100)
  opened : Money.lockIntentAmount total = some total
  checked : ∀ intent : StaysPaymentIntent, intent.amount = total →
    checkConfirmationLedgerInvariant (confirmationAmounts intent b) = .ok ()

/-- The check of a confirmation, where the parts add up. -/
theorem check_ok {b : StaysBooking} {intent : StaysPaymentIntent}
    (h : intent.amount = b.payoutAmount.getD 0 + (b.guestFee + b.hostFee)) :
    checkConfirmationLedgerInvariant (confirmationAmounts intent b) = .ok () := by
  simp [checkConfirmationLedgerInvariant, confirmationAmounts, h, eps]

theorem confirms_snapshot {K : Type*} [Field K] [LinearOrder K] [FloorRing K]
    [IsStrictOrderedRing K] {subtotal : ℤ} (hsubtotal : 0 < subtotal) {guestPct hostPct : K}
    (hguest : 0 ≤ guestPct) (hguest' : guestPct ≤ 1 / 2) (hhost : 0 ≤ hostPct)
    (hhost' : hostPct ≤ 1 / 2) (b : StaysBooking) :
    Confirms (snapshot subtotal (feesAt subtotal guestPct hostPct) b)
      (feesAt subtotal guestPct hostPct).totalPaid (feesAt subtotal guestPct hostPct).payoutAmount := by
  have hgf := fee_bounds hsubtotal hguest hguest'
  have hhf := fee_bounds hsubtotal hhost hhost'
  have htotal : 0 < (feesAt subtotal guestPct hostPct).totalPaid := by
    simp only [feesAt]
    omega
  have hsplit : (feesAt subtotal guestPct hostPct).totalPaid =
      (feesAt subtotal guestPct hostPct).payoutAmount + (feesAt subtotal guestPct hostPct).guestFee +
        (feesAt subtotal guestPct hostPct).hostFee := by
    simp only [feesAt]
    omega
  refine ⟨rfl, rfl, hsplit, ?_, lockIntentAmount_cents htotal, ?_, fun intent hamount => ?_⟩
  · simp only [feesAt]
    omega
  · exact Money.lockIntentAmount_eq_some.mpr ⟨htotal, rfl⟩
  · refine check_ok ?_
    rw [hamount, hsplit]
    exact add_assoc ..

/-- The error of a confirmation whose parts do not add up. -/
def Violation (e : StaysError) : Prop :=
  ∃ reason : String, e = .internal s!"FINANCIAL_INVARIANT_VIOLATION:{reason}"

/-- What the service makes of a store: it stays consistent and keeps the terms of its bookings. -/
def service : Environment Store where
  Later s s' := Consistent s' ∧ ∀ id b, s.bookings.find? id = some b →
    ∃ r, s'.bookings.find? id = some r ∧ SameStay b r
  trans := by
    rintro s t u ⟨-, hst⟩ ⟨hu, htu⟩
    refine ⟨hu, fun id b hb => ?_⟩
    obtain ⟨r, hr, hsame⟩ := hst id b hb
    obtain ⟨r', hr', hsame'⟩ := htu id r hr
    exact ⟨r', hr', hsame.trans hsame'⟩
  self := fun h => ⟨h.1, fun _ b hb => ⟨b, hb, .refl b⟩⟩

/-- The program throws no violation. -/
abbrev Sound {α : Type} (p : Stays α) (ses : Session Key Write) (s : Store) : Prop :=
  Yields service (fun _ _ _ => True) (fun e _ _ => ¬Violation e) p ses s

theorem not_violation_database : ¬Violation .database := nofun
theorem not_violation_badRequest {message : String} : ¬Violation (.badRequest message) := nofun

theorem sound_bind {α β : Type} {p : Stays α} {k : α → Stays β} {ses : Session Key Write} {s : Store}
    (hp : Sound p ses s) (hk : ∀ a ses s, Sound (k a) ses s) : Sound (p >>= k) ses s :=
  yields_bind (fun _ _ _ _ he _ => he) hp fun a ses s _ => hk a ses s

theorem sound_pure {α : Type} (a : α) (ses : Session Key Write) (s : Store) :
    Sound (pure a) ses s :=
  yields_pure fun _ _ => trivial

theorem sound_update (ws : Store → List Write) (ses : Session Key Write) (s : Store) :
    Sound (Stays.update ws) ses s :=
  fun _ _ => ⟨sound_pure _ _ _, fun _ _ => not_violation_database⟩

theorem sound_insert (row : ℕ → Write) (ses : Session Key Write) (s : Store) :
    Sound (Stays.insert row) ses s :=
  fun _ _ => ⟨fun _ => sound_pure _ _ _, fun _ _ => not_violation_database⟩

theorem sound_read {α : Type} (f : Store → α) (ses : Session Key Write) (s : Store) :
    Sound (Stays.read f) ses s :=
  fun _ _ => ⟨sound_pure _ _ _, fun _ _ => not_violation_database⟩

theorem sound_findOne {α : Type} (f : Store → List α) (ses : Session Key Write) (s : Store) :
    Sound (Stays.findOne f) ses s :=
  fun _ _ _ _ _ => ⟨sound_pure _ _ _, fun _ _ => not_violation_database⟩

theorem sound_isListingAvailable (listingId : ℕ) (checkin checkout : ℤ) (ex : Option ℕ)
    (ses : Session Key Write) (s : Store) :
    Sound (isListingAvailable listingId checkin checkout ex) ses s := by
  refine sound_bind (sound_read _ ses s) fun overlapping ses s => ?_
  split_ifs
  · exact sound_pure _ ses s
  · exact sound_bind (sound_read _ ses s) fun _ => sound_pure _

theorem sound_merchantRequest (op : CmiOp) (oid : String) (amount : Option ℤ)
    (ses : Session Key Write) (s : Store) : Sound (merchantRequest op oid amount) ses s := by
  refine yields_receive fun s n _ => ?_
  refine sound_bind (fun _ _ => sound_pure _ _ _) fun _ => sound_pure _

theorem sound_captureIntent (oid : String) (intent : StaysPaymentIntent) (ses : Session Key Write)
    (s : Store) : Sound (captureIntent oid intent) ses s := by
  unfold captureIntent
  split_ifs
  · exact sound_pure _ ses s
  · exact sound_bind (sound_merchantRequest _ _ _ ses s) fun _ ses s =>
      sound_bind (sound_update _ ses s) fun _ => sound_pure _

theorem sound_captureCmiAfterConfirm (oid : String) (intentRow : Option StaysPaymentIntent)
    (ses : Session Key Write) (s : Store) : Sound (captureCmiAfterConfirm oid intentRow) ses s := by
  cases intentRow with
  | some intent => exact sound_captureIntent oid intent ses s
  | none =>
    refine sound_bind (sound_findOne _ ses s) fun found ses s => ?_
    cases found with
    | none => exact sound_pure _ ses s
    | some intent => exact sound_captureIntent oid intent ses s

theorem sound_voidCmiPreAuth (oid : String) (ses : Session Key Write) (s : Store) :
    Sound (voidCmiPreAuth oid) ses s := by
  unfold voidCmiPreAuth
  split_ifs
  · exact sound_pure _ ses s
  · refine sound_bind (sound_merchantRequest _ _ _ ses s) fun ok ses s => ?_
    refine sound_bind (sound_findOne _ ses s) fun found ses s => ?_
    cases found with
    | none => exact sound_pure _ ses s
    | some intent => exact sound_bind (sound_update _ ses s) fun _ => sound_pure _

theorem sound_afterConfirmation (provider : Provider) (oid : String) (intent : StaysPaymentIntent)
    (outcome : PaymentConfirmationOutcome) (ses : Session Key Write) (s : Store) :
    Sound (afterConfirmation provider oid intent outcome) ses s := by
  unfold afterConfirmation
  split
  · exact sound_captureCmiAfterConfirm _ _ ses s
  · exact sound_captureCmiAfterConfirm _ _ ses s
  · exact sound_voidCmiPreAuth _ ses s
  · exact sound_pure _ ses s

section Transaction

variable {intent : StaysPaymentIntent} {booking : StaysBooking} {ses : Session Key Write} {s : Store}

theorem sound_recordPayment
    (h : checkConfirmationLedgerInvariant (confirmationAmounts intent booking) = .ok ()) :
    Sound (recordPayment intent booking) ses s := by
  unfold recordPayment
  dsimp only
  rw [h]
  refine sound_bind (sound_update _ ses s) fun _ ses s => ?_
  refine sound_bind (sound_update _ ses s) fun affected ses s => ?_
  split_ifs
  · exact sound_pure _ ses s
  · refine sound_bind (sound_insert _ ses s) fun _ ses s => ?_
    refine sound_bind (sound_insert _ ses s) fun _ ses s => ?_
    refine sound_bind (sound_insert _ ses s) fun _ ses s => ?_
    exact sound_bind (sound_read _ ses s) fun _ => sound_pure _

theorem sound_confirmBooking
    (h : checkConfirmationLedgerInvariant (confirmationAmounts intent booking) = .ok ()) :
    Sound (confirmBooking intent booking) ses s := by
  refine yields_lockRow (fun s _ => ?_) fun _ _ => not_violation_database
  refine sound_bind (sound_isListingAvailable _ _ _ _ _ s) fun stillAvailable ses s => ?_
  split_ifs
  · exact sound_recordPayment h
  · refine sound_bind (sound_update _ ses s) fun _ ses s => ?_
    exact sound_bind (sound_update _ ses s) fun _ => sound_pure _

/-- The intent is for the total of its booking. -/
def OfTotal (s : Store) (intent : StaysPaymentIntent) : Prop :=
  ∃ b, s.bookings.find? intent.bookingId = some b ∧ b.totalPaid = some intent.amount

theorem OfTotal.later {s' : Store} (h : OfTotal s intent) (hs : service.Later s s') :
    OfTotal s' intent := by
  obtain ⟨b, hb, htotal⟩ := h
  obtain ⟨r, hr, _, _, rfl⟩ := hs.2 _ b hb
  exact ⟨_, hr, htotal⟩

/-- The locked row of the booking has the prices it was created with. -/
theorem check_of_consistent (hs : Consistent s) (h : OfTotal s intent)
    (hrow : s.bookings.find? intent.bookingId = some booking) :
    checkConfirmationLedgerInvariant (confirmationAmounts intent booking) = .ok () := by
  obtain ⟨b, hb, htotal⟩ := h
  obtain rfl : booking = b := Option.some.inj (hrow.symm.trans hb)
  have hpriced := hs.bookings.priced booking (Table.mem_of_find? hb)
  have hamount : booking.totalSubtotal + booking.guestFee = intent.amount :=
    Option.some.inj (hpriced.total.symm.trans htotal)
  refine check_ok ?_
  rw [hpriced.payout, Option.getD_some, ← hamount]
  ring

theorem sound_settleIntent (h : OfTotal s intent) (hview : ∀ s : Store, ses.view s = s) :
    Sound (settleIntent intent) ses s := by
  refine yields_query (fun s₁ h₁ => ?_) fun _ _ => not_violation_database
  split_ifs
  · exact sound_bind (sound_update _ ses s₁) fun _ => sound_pure _
  · refine yields_lockRow (fun s₂ h₂ => ?_) fun _ _ => not_violation_database
    rw [hview]
    cases hrow : s₂.bookings.find? intent.bookingId with
    | none => exact sound_pure _ _ s₂
    | some booking =>
      dsimp only
      split_ifs
      · exact sound_confirmBooking (check_of_consistent h₂.1 ((h.later h₁).later h₂) hrow)
      · exact sound_pure _ _ s₂
      · exact sound_pure _ _ s₂

theorem sound_confirmTransaction (intentId : ℕ) :
    Sound (confirmTransaction intentId) .opened s := by
  refine yields_lockRow (fun s' hs => ?_) fun _ _ => not_violation_database
  have hview : (Session.opened : Session Key Write).view s' = s' := rfl
  rw [hview]
  cases hrow : s'.intents.find? intentId with
  | none => exact sound_pure _ _ s'
  | some intent =>
    dsimp only
    split_ifs
    · exact sound_pure _ _ s'
    · exact sound_settleIntent (hs.1.intents.booking intent (Table.mem_of_find? hrow))
        fun t => view_acquire ..

theorem sound_confirmPaymentSuccess (provider : Provider) (oid : String) :
    Sound (confirmPaymentSuccess provider oid) ses s := by
  refine sound_bind (sound_findOne _ ses s) fun found ses s => ?_
  cases found with
  | none => exact sound_pure _ ses s
  | some intent =>
    refine sound_bind (yields_transaction ?_ not_violation_database) fun outcome ses s => ?_
    · exact (sound_confirmTransaction intent.id).mono (fun _ _ _ _ _ => trivial) fun _ _ _ he => he
    · exact sound_bind (sound_afterConfirmation provider oid intent outcome ses s)
        fun _ => sound_pure _

end Transaction

/-- The calls that confirm payments. -/
def ConfirmsPayment (c : Call) : Prop :=
  (∃ provider oid, c = .confirmPaymentSuccess provider oid) ∨ ∃ body, c = .handleCmiCallback body

theorem sound_program {env : Env} {c : Call} (h : ConfirmsPayment c) (s : Store) :
    Sound (program env c) .idle s := by
  obtain ⟨provider, oid, rfl⟩ | ⟨body, rfl⟩ := h
  · exact sound_bind (sound_confirmPaymentSuccess provider oid) fun _ => sound_pure _
  · refine sound_bind (fun _ _ => sound_pure _ _ _) fun arrival ses s => ?_
    refine sound_bind ?_ fun _ => sound_pure _
    refine yields_require (fun _ => ?_) fun _ _ _ => not_violation_badRequest
    refine yields_expect (fun oid _ => ?_) fun _ _ _ => not_violation_badRequest
    split_ifs
    · exact sound_bind (sound_confirmPaymentSuccess _ oid) fun _ => sound_pure _
    · exact sound_pure _ ses s

/-- What a step of the service makes of the store. -/
theorem service_step {env : Env} {ok : StaysSystem → Action → Prop} {sys sys' : StaysSystem}
    {a : Action} (h : Reachable env ok sys) (ha : ok sys a) (hstep : sys.step a = some sys') :
    service.Later sys.store sys'.store := by
  refine ⟨consistent_of_reachable (reachable_step h ha hstep), fun id b hb => ?_⟩
  obtain ⟨c, ws, hpub, hstore⟩ := publishes_of_step hstep
  rw [hstore]
  obtain rfl | ⟨held, heffect⟩ := effect_of_any h hpub
  · exact ⟨b, hb, .refl b⟩
  · exact sameStay_persists heffect hb

/-- In every reachable state of the service, no confirmation has thrown a violation. -/
theorem no_violation {env : Env} {ok : StaysSystem → Action → Prop} {sys : StaysSystem}
    (h : Reachable env ok sys) {t : StaysThread} (ht : t ∈ sys.threads)
    (hcall : ConfirmsPayment t.call) {e : StaysError} (hthrown : t.program = .throw e) :
    ¬Violation e := by
  obtain ⟨s, calls, hfresh, hrun⟩ := h
  have hreach : ∀ {mid}, System.Run ok (initial env s calls) mid → Reachable env ok mid :=
    fun hmid => ⟨s, calls, hfresh, hmid⟩
  have hself : ∀ mid, System.Run ok (initial env s calls) mid → service.Later mid.store mid.store :=
    fun mid hmid => ⟨consistent_of_reachable (hreach hmid), fun _ b hb => ⟨b, hb, .refl b⟩⟩
  have hstart : Kept service t.call (fun _ _ _ => True) (fun e _ _ => ¬Violation e)
      (initial env s calls) := by
    intro i u hu hsame
    obtain ⟨c, -, rfl⟩ := List.mem_map.mp (List.mem_of_getElem? hu)
    have hc : c = t.call := hsame
    exact sound_program (hc ▸ hcall) s
  have hkept := hstart.run hself
    (fun mid next a _ _ hmid ha hstep _ _ => service_step (hreach hmid) ha hstep) hrun
  exact hkept.thrown (hself sys hrun) ht rfl hthrown

/-- For every base price, number of nights and rates up to one half: the snapshot adds up, its
payout is no debt, the intent is for the total, and no confirmation in any run of the service
objects to the amounts. -/
theorem snapshotted_price_confirms {basePrice nights : ℤ} (hbase : 0 < basePrice)
    (hnights : 1 ≤ nights) {guestPct hostPct : ℝ} (hguest : 0 ≤ guestPct)
    (hguest' : guestPct ≤ 1 / 2) (hhost : 0 ≤ hostPct) (hhost' : hostPct ≤ 1 / 2) :
    (∀ b : StaysBooking, Confirms
      (snapshot (basePrice * nights) (feesAt (basePrice * nights) guestPct hostPct) b)
      (feesAt (basePrice * nights) guestPct hostPct).totalPaid
      (feesAt (basePrice * nights) guestPct hostPct).payoutAmount) ∧
    (∀ userId dto checkin checkout currency (rates : FeeRates) reference createdAt id,
      bookingNightsBetween checkin checkout = nights →
      guestPct = rates.guestFeePct / 10000 → hostPct = rates.hostFeePct / 10000 →
      ∃ b, newBooking userId dto checkin checkout ⟨currency, basePrice⟩ rates reference createdAt id =
        snapshot (basePrice * nights) (feesAt (basePrice * nights) guestPct hostPct) b) ∧
    ∀ env ok sys, Reachable env ok sys → ∀ t ∈ sys.threads, ConfirmsPayment t.call →
      ∀ reason : String, t.program ≠ .throw (.internal s!"FINANCIAL_INVARIANT_VIOLATION:{reason}") := by
  refine ⟨fun b => ?_, ?_, fun env ok sys hreach t ht hcall reason hthrown => ?_⟩
  · exact confirms_snapshot (mul_pos hbase (by omega)) hguest hguest' hhost hhost' b
  · rintro userId dto checkin checkout currency rates reference createdAt id rfl rfl rfl
    exact ⟨_, newBooking_eq_snapshot userId dto checkin checkout ⟨currency, basePrice⟩ rates
      reference createdAt id⟩
  · exact no_violation hreach ht hcall hthrown ⟨reason, rfl⟩

/-- Three nights at 99.99, with 7.25 and 12.5 per cent. -/
theorem snapshotted_price_confirms_sample :
    Confirms (snapshot (9999 * 3) (feesAt (9999 * 3) (0.0725 : ℝ) 0.125)
        (newBooking 2 (Calls.sampleRequest 1 10 none) 21924 21927 ⟨"MAD", 9999⟩ ⟨725, 1250⟩
          ⟨2030, 1⟩ 0 9))
      (feesAt (9999 * 3) (0.0725 : ℝ) 0.125).totalPaid
      (feesAt (9999 * 3) (0.0725 : ℝ) 0.125).payoutAmount :=
  (snapshotted_price_confirms (by decide) (by decide) (by norm_num) (by norm_num) (by norm_num)
    (by norm_num)).1 _

end NexaStays.SnapshotPrice
