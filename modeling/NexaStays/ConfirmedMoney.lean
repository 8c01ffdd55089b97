import NexaStays.Conformance.System
import NexaStays.GatewayTexts

/-!
# What a confirmed callback says

A callback that confirms a booking carries the signature of the gateway on a success for
the order of the intent. That the amount it signed is the amount of the intent depends
on the callback: the handler does not look at it.
-/
namespace NexaStays.ConfirmedMoney

open NexaStays.KeyedTable NexaStays.Transactions NexaStays.Database NexaStays.Payments
  NexaStays.Cancellation NexaStays.Calls NexaStays.Effects NexaStays.Invariant
  NexaStays.GatewayTexts NexaStays.Conformance

/-- A decimal text as its digits, read as one number, and how many of them are decimals. -/
def readDecimal (text : String) : Option (ℕ × ℕ) :=
  let parts := text.toList.splitOn '.'
  let whole := parts.headD []
  let decimals := parts.tail.flatten
  if parts.length ≤ 2 ∧ whole ≠ [] ∧ (whole ++ decimals).all Char.isDigit then
    some (Nat.ofDigitChars 10 (whole ++ decimals) 0, decimals.length)
  else none

/-- The text writes the amount, which is in cents. -/
def IsAmount (text : String) (cents : ℤ) : Prop :=
  ∃ d ∈ readDecimal text, (d.1 : ℤ) * 100 = cents * 10 ^ d.2

instance (text : String) (cents : ℤ) : Decidable (IsAmount text cents) :=
  inferInstanceAs (Decidable (∃ d ∈ readDecimal text, (d.1 : ℤ) * 100 = cents * 10 ^ d.2))

example : IsAmount "210.00" 21000 ∧ IsAmount "210" 21000 ∧ ¬IsAmount "1.00" 21000 := by
  decide +kernel

/-- The signature of the body is one that the gateway gave: it is not the hash of a text
that was not signed. -/
def Unforgeable (env : Env) (signed : Set SignedCallback) (body : CallbackBody) : Prop :=
  ∀ text, env.hmacSha512 env.cmiStoreKey text = body.hashFromGateway →
    ∃ cb ∈ signed, text = cb.text env.cmiStoreKey

/-- The gateway signed the success of an order with this amount. -/
def Authorised (signed : Set SignedCallback) (oid : String) (cents : ℤ) : Prop :=
  ∃ cb ∈ signed, cb.procReturnCode = "00" ∧ cb.oid = oid ∧ IsAmount cb.amount cents

/-- An order is authorised once, so its successes are for one amount. -/
def OneAmount (signed : Set SignedCallback) : Prop :=
  ∀ cb ∈ signed, ∀ cb' ∈ signed, cb.procReturnCode = "00" → cb'.procReturnCode = "00" →
    cb.oid = cb'.oid → cb.amount = cb'.amount

variable {env : Env} {strict : Prop} {c : Call} {held : List Key} {s : Store} {ws : List Write}

/-- A booking becomes confirmed with the success of one of its intents. -/
theorem confirmed_written (h : Effect env strict c held s ws) {b : StaysBooking}
    (hb : .booking b ∈ ws) (hstatus : b.status = .confirmed) :
    ∃ i, Confirms env c i ∧ s.intents.find? i.id = some i ∧ i.bookingId = b.id ∧
      .intent { i with status := .succeeded } ∈ ws := by
  cases h with
  | book _ new =>
    obtain rfl : b = _ := by simpa using hb
    simp [new.status] at hstatus
  | openIntent => simp at hb
  | expire =>
    obtain rfl : b = _ := by simpa using hb
    simp at hstatus
  | dropIntents => simp [cancelWrites] at hb
  | confirm caller intent _ ofBooking =>
    obtain rfl : b = _ := by simpa using hb
    exact ⟨_, caller, intent, ofBooking, by simp⟩
  | markPaid => simp at hb
  | reject =>
    obtain rfl : b = _ := by simpa using hb
    simp at hstatus
  | @cancel _ by' =>
    obtain rfl : b = _ := by simpa [cancelWrites] using hb
    cases by' <;> simp [CancelledBy.status] at hstatus
  | complete =>
    obtain rfl : b = _ := by simpa using hb
    simp at hstatus
  | @review stay =>
    cases stay with
    | none => simp at hb
    | some a =>
      obtain rfl : b = _ := by simpa using hb
      simp at hstatus
  | message => simp at hb
  | patch => simp at hb
  | settleRefund => simp at hb
  | hostBlock => simp at hb

/-- A callback that may confirm an intent is a success the gateway signed for its order. -/
theorem signed_of_confirms {signed : Set SignedCallback} {body : CallbackBody}
    (hplain : ∀ cb ∈ signed, cb.Plain) (hforge : Unforgeable env signed body)
    {i : StaysPaymentIntent} (h : Confirms env (.handleCmiCallback body) i) :
    i.providerIntentId = some body.order ∧
      ∃ cb ∈ signed, cb.procReturnCode = "00" ∧ cb.oid = body.order ∧ cb.amount = body.amountText := by
  obtain ⟨oid, hoid, hdirect | ⟨body', hbody, hsuccess, horder⟩⟩ := h
  · exact nomatch hdirect
  obtain rfl : body = body' := Call.handleCmiCallback.inj hbody
  obtain ⟨rfl, -⟩ := verifyCallback_order horder
  obtain ⟨-, -, hhash, hcode⟩ := verifyCallback_success.mp hsuccess
  obtain ⟨cb, hcb, htext⟩ := hforge _ hhash
  obtain ⟨ho, hc, ha⟩ := callbackText_inj (hplain cb hcb) htext
  exact ⟨hoid, cb, hcb, hc.symm.trans hcode, ho.symm, ha.symm⟩

/-- When a callback makes a booking confirmed, in any reachable state, the gateway signed a
success for the order of the intent it confirms, whose amount is the total of the booking.
The amount the gateway signed is that one if the callback says so; and only then, if the
gateway signs one amount for an order. -/
theorem confirmed_money_authorised {env : Env} {signed : Set SignedCallback} {body : CallbackBody}
    {sys : StaysSystem} {a : Action} {ws : List Write} {b : StaysBooking}
    (h : Reachable env (fun _ _ => True) sys) (hplain : ∀ cb ∈ signed, cb.Plain)
    (hforge : Unforgeable env signed body)
    (hpub : sys.published a = some (.handleCmiCallback body, ws)) (hb : .booking b ∈ ws)
    (hconfirmed : b.status = .confirmed) :
    ∃ i, sys.store.intents.find? i.id = some i ∧ i.bookingId = b.id ∧
      .intent { i with status := .succeeded } ∈ ws ∧ i.providerIntentId = some body.order ∧
      (∃ cb ∈ signed, cb.procReturnCode = "00" ∧ cb.oid = body.order) ∧
      (∃ r, sys.store.bookings.find? b.id = some r ∧ r.totalPaid = some i.amount) ∧
      (IsAmount body.amountText i.amount → Authorised signed body.order i.amount) ∧
      (OneAmount signed → Authorised signed body.order i.amount →
        IsAmount body.amountText i.amount) := by
  have hkept := consistent_of_reachable h
  obtain rfl | ⟨held, heffect⟩ := effect_of_any h hpub
  · exact nomatch hb
  obtain ⟨i, hconfirms, hrow, hbook, hwrite⟩ := confirmed_written heffect hb hconfirmed
  obtain ⟨hoid, cb, hcb, hcode, horder, hamount⟩ := signed_of_confirms hplain hforge hconfirms
  obtain ⟨r, hr, htotal⟩ := hkept.intents.booking i (Table.mem_of_find? hrow)
  refine ⟨i, hrow, hbook, hwrite, hoid, ⟨cb, hcb, hcode, horder⟩, ⟨r, hbook ▸ hr, htotal⟩, ?_, ?_⟩
  · intro his
    exact ⟨cb, hcb, hcode, horder, hamount ▸ his⟩
  · rintro hone ⟨cb', hcb', hcode', horder', his⟩
    have hsame := hone cb hcb cb' hcb' hcode hcode' (horder.trans horder'.symm)
    rw [← hamount, hsame]
    exact his

/-- The keyed hash of the small deployment gives its text away. -/
theorem unforgeable_sample (oid amount : String) :
    Unforgeable sampleEnv {⟨oid, "00", amount⟩} (sampleCallback oid amount) := by
  intro text hhash
  refine ⟨_, rfl, ?_⟩
  have hsame : "key" ++ "#" ++ text = "key" ++ "#" ++ callbackText oid "key" "00" amount := hhash
  have hlist := congrArg String.toList hsame
  simp only [String.toList_append] at hlist
  exact String.toList_inj.mp (List.append_cancel_left hlist)

/-- The callback says 210.00, and so does the gateway. -/
theorem confirmed_money_authorised_paid : ∃ sys : StaysSystem, ∃ a ws b,
    sys.published a = some (.handleCmiCallback (sampleCallback "STAYS-9-25" "210.00"), ws) ∧
    .booking b ∈ ws ∧ b.status = .confirmed ∧
    ∃ i, sys.store.intents.find? i.id = some i ∧ i.bookingId = b.id ∧
      (IsAmount "210.00" i.amount → Authorised {⟨"STAYS-9-25", "00", "210.00"⟩} "STAYS-9-25" i.amount) := by
  obtain ⟨sys, hreach, hpublished⟩ := exists_reachable (fun _ _ => True)
    samplePaying
    (System.turns 0 0 13 ++ System.turns 1 20 9 ++ System.turns 2 40 16)
    (fun sys => ∃ q ∈ sys.published (.run 2 56),
      q.1 = .handleCmiCallback (sampleCallback "STAYS-9-25" "210.00") ∧
        ∃ b ∈ q.2.filterMap Write.booking?, b.status = .confirmed) (by decide +kernel)
  obtain ⟨⟨c, ws⟩, hpub, rfl, b, hb, hstatus⟩ := of_decide_eq_true hpublished
  have hwrite := mem_bookings.mp hb
  obtain ⟨i, hrow, hbook, -, -, -, -, hcondition, -⟩ := confirmed_money_authorised hreach
    (fun cb hcb => by
      obtain rfl := Set.mem_singleton_iff.mp hcb
      exact ⟨by decide, by decide, by decide⟩)
    (unforgeable_sample "STAYS-9-25" "210.00") hpub hwrite hstatus
  exact ⟨sys, .run 2 56, ws, b, hpub, hwrite, hstatus, i, hrow, hbook, hcondition⟩

/-- The gateway signs one dirham for the order, and the booking of 210.00 is confirmed. -/
theorem confirmed_for_less : ∃ sys : StaysSystem, ∃ a ws b,
    Reachable sampleEnv (fun _ _ => True) sys ∧
    Unforgeable sampleEnv {⟨"STAYS-9-25", "00", "1.00"⟩} (sampleCallback "STAYS-9-25" "1.00") ∧
    sys.published a = some (.handleCmiCallback (sampleCallback "STAYS-9-25" "1.00"), ws) ∧
    .booking b ∈ ws ∧ b.status = .confirmed ∧ b.totalPaid = some 21000 ∧
    ¬Authorised {⟨"STAYS-9-25", "00", "1.00"⟩} "STAYS-9-25" 21000 := by
  obtain ⟨sys, hreach, hpublished⟩ := exists_reachable (fun _ _ => True)
    [.createBooking 2 (sampleRequest 1 10 none) true, .createOrGetIntent 9 2 none,
      .handleCmiCallback (sampleCallback "STAYS-9-25" "1.00")]
    (System.turns 0 0 13 ++ System.turns 1 20 9 ++ System.turns 2 40 16)
    (fun sys => ∃ q ∈ sys.published (.run 2 56),
      q.1 = .handleCmiCallback (sampleCallback "STAYS-9-25" "1.00") ∧
        ∃ b ∈ q.2.filterMap Write.booking?, b.status = .confirmed ∧ b.totalPaid = some 21000)
    (by decide +kernel)
  obtain ⟨⟨c, ws⟩, hpub, rfl, b, hb, hstatus, htotal⟩ := of_decide_eq_true hpublished
  refine ⟨sys, .run 2 56, ws, b, hreach, unforgeable_sample "STAYS-9-25" "1.00", hpub,
    mem_bookings.mp hb, hstatus, htotal, ?_⟩
  rintro ⟨cb, hcb, -, -, his⟩
  obtain rfl := Set.mem_singleton_iff.mp hcb
  revert his
  decide +kernel

end NexaStays.ConfirmedMoney
