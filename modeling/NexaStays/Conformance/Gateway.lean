import NexaStays.Interference

/-!
# Requests to the gateway keep to the discipline

A capture is asked for a paid booking, a release for one that ended unpaid and a
refund where one is recorded. These facts are never taken back, so they still hold when
the request goes out, long after the transaction that established them.
-/
namespace NexaStays.Conformance

open NexaStays.KeyedTable NexaStays.Transactions NexaStays.RelyGuarantee NexaStays.Database
  NexaStays.Payments NexaStays.Cancellation NexaStays.Calls NexaStays.Effects
  NexaStays.Persistence NexaStays.Invariant NexaStays.Interference

open NexaStays.RelyGuarantee.Discipline

variable {env : Env} {apart payable : Prop} {s : Store} {c : Call} {oid : String} {n : ℕ}

/-- A message that is justified joins the traffic, at its end. -/
theorem sendToGateway_conforms {op : CmiOp} {amount : Option ℤ} {delivered : Bool}
    (hknown : MessageKnown s oid op) (hn : Reached n s) :
    (discipline env apart payable).Outside c
      (fun m s => m.op = op ∧ m.oid = oid ∧ n ≤ m.seq ∧ m ∈ s.gateway.rows)
      (sendToGateway op oid amount delivered) s := by
  have hP : (discipline env apart payable).Persistent _ :=
    (persistent_known oid op).and
    (persistent_reached n)
  refine Outside.send hP.stable ⟨hknown, hn⟩ (fun m => ?_) fun s' hinv hs' => ⟨Or.inr ?_, ?_⟩
  · exact stable_const.and (stable_const.and (stable_const.and (persistent_message m).stable))
  · exact Effect.message hs'.1
  · exact ⟨rfl, rfl, hs'.2, Table.mem_put_self _ _⟩

theorem merchantRequest_conforms {op : CmiOp} {amount : Option ℤ}
    (hknown : MessageKnown s oid op) (hn : Reached n s) :
    (discipline env apart payable).Outside c (fun _ => Sent op oid n)
      (merchantRequest op oid amount) s := by
  have hP : (discipline env apart payable).Persistent _ :=
    (persistent_known oid op).and
    (persistent_reached n)
  unfold merchantRequest
  refine wp_receive hP.stable ⟨hknown, hn⟩ fun s₁ network _ hs₁ => ?_
  refine Outside.bind .true trivial (sendToGateway_conforms hs₁.1 hs₁.2) fun m s₂ _ _ hm => ?_
  obtain ⟨hop, hoid, hseq, hmem⟩ := hm
  exact Outside.pure (persistent_sent op oid n).stable ⟨m, hmem, hop, hoid, hseq⟩

/-- What is still true of an intent that was read before. -/
def Seen (intent : StaysPaymentIntent) (s : Store) : Prop :=
  OrderKept intent s ∧ (intent.metadata.cmiCaptureStatus = some .succeeded → CaptureAsked s intent)

theorem persistent_seen (intent : StaysPaymentIntent) :
    (discipline env apart payable).Persistent (Seen intent) :=
  (persistent_order intent).and (.forall fun _ => persistent_captureAsked intent)

theorem seen_of_mem {intent : StaysPaymentIntent} (hinv : Consistent s)
    (h : intent ∈ s.intents.rows) : Seen intent s :=
  ⟨orderKept_of_mem h, hinv.intents.captured intent h⟩

/-- `UPDATE … WHERE id`, as the row that is there. -/
theorem updateIntents_eq (id : ℕ) (f : StaysPaymentIntent → StaysPaymentIntent) (s : Store) :
    updateIntents (fun i => i.id = id) f s =
      (s.intents.find? id).toList.map fun i => .intent (f i) := by
  rw [updateIntents, Table.filter_key_eq]

theorem find?_of_orderKept {intent : StaysPaymentIntent} (h : OrderKept intent s) :
    ∃ i, s.intents.find? intent.id = some i ∧ SameOrder intent i := by
  obtain ⟨i, hmem, hsame, -⟩ := h
  have hid : i.id = intent.id := by
    obtain ⟨_, _, rfl⟩ := hsame
    rfl
  exact ⟨i, hid ▸ Table.find?_key hmem, hsame⟩

theorem patchIntentMetadata_conforms {intent : StaysPaymentIntent} {metadata : IntentMetadata}
    (horder : OrderKept intent s)
    (hasked : metadata.cmiCaptureStatus = some .succeeded → CaptureAsked s intent) :
    (discipline env apart payable).Outside c (fun _ _ => True)
      (patchIntentMetadata intent.id metadata) s := by
  have hP : (discipline env apart payable).Persistent _ :=
    (persistent_order intent).and
    (.forall fun _ : metadata.cmiCaptureStatus = some .succeeded => persistent_captureAsked intent)
  refine Outside.write hP.stable ⟨horder, hasked⟩ (fun _ => .true) fun s' _ hs' => ⟨?_, trivial⟩
  obtain ⟨i, hrow, hsame⟩ := find?_of_orderKept hs'.1
  rw [updateIntents_eq, hrow]
  have hid : i.id = intent.id := Table.key_of_find? hrow
  refine Or.inr (.patch (by rw [hid, hrow]) fun hcaptured => ?_)
  obtain ⟨m, hm, hop, hoid⟩ := hs'.2 hcaptured
  obtain ⟨_, _, rfl⟩ := hsame
  exact ⟨m, hm, hop, hoid⟩

theorem captureIntent_conforms {intent : StaysPaymentIntent} (hseen : Seen intent s)
    (hoid : intent.providerIntentId = some oid) (hknown : MessageKnown s oid .postAuth) :
    (discipline env apart payable).Outside c (fun _ => Sent .postAuth oid 0)
      (captureIntent oid intent) s := by
  have hsent : (discipline env apart payable).Persistent _ :=
    persistent_sent .postAuth oid 0
  unfold captureIntent
  split_ifs with hcaptured
  · obtain ⟨m, hm, hop, hm_oid⟩ := hseen.2 hcaptured
    have heq : m.oid = oid := Option.some.inj (hm_oid.symm.trans hoid)
    exact Outside.pure hsent.stable ⟨m, hm, hop, heq, Nat.zero_le _⟩
  · refine Outside.bind (persistent_seen intent) hseen
      (merchantRequest_conforms (n := 0) hknown (Nat.zero_le _)) fun ok s₁ _ hs₁ hsent₁ => ?_
    have hasked : CaptureAsked s₁ intent := by
      obtain ⟨m, hm, hop, heq, -⟩ := hsent₁
      exact ⟨m, hm, hop, by rw [heq, hoid]⟩
    refine Outside.bind hsent hsent₁ (patchIntentMetadata_conforms hs₁.1 fun _ => hasked)
      fun _ s₂ _ hsent₂ _ => ?_
    exact Outside.pure hsent.stable hsent₂

theorem mem_intentsOf {provider : Provider} {i : StaysPaymentIntent} :
    i ∈ intentsOf provider oid s ↔
      i ∈ s.intents.rows ∧ i.provider = provider ∧ i.providerIntentId = some oid := by
  simp [intentsOf]

theorem captureCmiAfterConfirm_conforms {row : Option StaysPaymentIntent}
    (hrow : ∀ intent ∈ row, Seen intent s ∧ intent.providerIntentId = some oid)
    (hknown : MessageKnown s oid .postAuth) :
    (discipline env apart payable).Outside c (fun _ => Sent .postAuth oid 0)
      (captureCmiAfterConfirm oid row) s := by
  cases row with
  | some intent => exact captureIntent_conforms (hrow intent rfl).1 (hrow intent rfl).2 hknown
  | none =>
    refine wp_findOne (persistent_known oid .postAuth).stable hknown
      (fun s₁ found hinv hs₁ hsome hnone => ?_) fun _ _ _ => rfl
    cases found with
    | some intent =>
      obtain ⟨hmem, -, hoid⟩ := mem_intentsOf.mp (hsome intent rfl)
      exact captureIntent_conforms (seen_of_mem hinv hmem) hoid hs₁
    | none =>
      obtain ⟨_, ⟨i, hi, -⟩, -⟩ := hs₁
      exact absurd hi (by rw [show intentsOf .cmi oid s₁ = [] from hnone rfl]; simp)

theorem voidCmiPreAuth_conforms (hknown : oid ≠ "" → MessageKnown s oid .void)
    (hn : Reached n s) :
    (discipline env apart payable).Outside c (fun _ s => oid ≠ "" → Sent .void oid n s)
      (voidCmiPreAuth oid) s := by
  have hsent : (discipline env apart payable).Persistent _ :=
    persistent_sent .void oid n
  have hR : (discipline env apart payable).Persistent fun s => oid ≠ "" → Sent .void oid n s :=
    .forall fun _ => hsent
  unfold voidCmiPreAuth
  split_ifs with hempty
  · exact Outside.pure hR.stable fun hne => absurd hempty hne
  · refine Outside.bind .true trivial (merchantRequest_conforms (hknown hempty) hn)
      fun ok s₁ _ _ hsent₁ => ?_
    refine wp_findOne hsent.stable hsent₁ (fun s₂ found hinv hsent₂ hsome _ => ?_) fun _ _ _ => rfl
    cases found with
    | none => exact Outside.pure hR.stable fun _ => hsent₂
    | some intent =>
      obtain ⟨hmem, -, -⟩ := mem_intentsOf.mp (hsome intent rfl)
      obtain ⟨horder, hasked⟩ := seen_of_mem hinv hmem
      refine Outside.bind hsent hsent₂ (patchIntentMetadata_conforms horder hasked)
        fun _ s₃ _ hsent₃ _ => ?_
      exact Outside.pure hR.stable fun _ => hsent₃

theorem settleRefund_conforms (bookingId : ℕ) :
    (discipline env apart payable).Outside c (fun _ _ => True) (settleRefund bookingId) s := by
  unfold settleRefund
  refine wp_findOne .true trivial (fun s₁ found _ _ hsome _ => ?_) fun _ _ _ => rfl
  cases found with
  | none => exact Outside.pure .true trivial
  | some entry =>
    obtain ⟨hmem, hof⟩ := List.mem_filter.mp (hsome entry rfl)
    have hentry : ∃ e, s₁.ledger.find? entry.id = some e ∧ e.type = .refund :=
      ⟨entry, Table.find?_key hmem, (of_decide_eq_true hof).2.1⟩
    have hP : (discipline env apart payable).Persistent _ :=
      persistent_refundEntry entry.id
    refine Outside.bind .true trivial (R := fun _ _ => True) (Outside.write hP.stable hentry
      (fun _ => .true) fun s₂ _ hs₂ => ⟨?_, trivial⟩) fun _ _ _ _ _ => Outside.pure .true trivial
    obtain ⟨e, he, htype⟩ := hs₂
    rw [he]
    exact Or.inr (.settleRefund (by rw [Table.key_of_find? he, he]) htype)

theorem refundCmiForBooking_conforms {bookingId : ℕ} {refundAmount : ℤ}
    (hrefund : refundsOf bookingId s ≠ []) :
    (discipline env apart payable).Outside c (fun _ _ => True)
      (refundCmiForBooking bookingId refundAmount) s := by
  unfold refundCmiForBooking
  split_ifs
  · exact Outside.pure .true trivial
  refine wp_findOne (persistent_refunded bookingId).stable hrefund
    (fun s₁ found hinv hs₁ hsome _ => ?_) fun _ _ _ => rfl
  cases found with
  | none => exact Outside.pure .true trivial
  | some intent =>
    dsimp only
    cases horder : intent.providerIntentId with
    | none => exact Outside.pure .true trivial
    | some oid =>
      obtain ⟨hpaid, -⟩ := List.mem_filter.mp (hsome intent rfl)
      obtain ⟨hmem, hof⟩ := List.mem_filter.mp hpaid
      obtain ⟨hbook, hcmi, -⟩ := of_decide_eq_true hof
      have hknown : MessageKnown s₁ oid .credit :=
        ⟨bookingId, ⟨intent, mem_intentsOf.mpr ⟨hmem, hcmi, horder⟩, hbook⟩, hs₁⟩
      refine Outside.bind (persistent_seen intent) (seen_of_mem hinv hmem)
        (merchantRequest_conforms (n := 0) hknown (Nat.zero_le _)) fun ok s₂ _ hs₂ _ => ?_
      refine Outside.bind .true trivial (patchIntentMetadata_conforms hs₂.1 hs₂.2)
        fun _ s₃ _ _ _ => ?_
      split_ifs
      · exact Outside.bind .true trivial (settleRefund_conforms bookingId) fun _ _ _ _ _ =>
          Outside.pure .true trivial
      · exact Outside.pure .true trivial

end NexaStays.Conformance
