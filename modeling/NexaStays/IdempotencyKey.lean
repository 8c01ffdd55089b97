import NexaStays.Conformance.System

/-!
# One booking for a key

The key of a request is looked up again under the lock of the listing, so two requests
for one listing make one booking. Requests for different listings are not serialised:
the key makes one booking as long as none of them commits while another is under way.
-/
namespace NexaStays.IdempotencyKey

open NexaStays.KeyedTable NexaStays.Transactions NexaStays.Database NexaStays.CreateBooking
  NexaStays.Calls NexaStays.Effects NexaStays.Persistence NexaStays.Interference
  NexaStays.Conformance

/-- A request that carries a key. -/
structure KeyedRequest where
  guestUserId : ℕ
  key : String
  listingId : ℕ
  deriving DecidableEq, Repr

def keyedRequest : Call → Option KeyedRequest
  | .createBooking userId dto _ => dto.key.map fun key => ⟨userId, key, dto.listingId⟩
  | _ => none

/-- The same key of the same guest for two listings. -/
def Clashing (r r' : KeyedRequest) : Prop :=
  r.guestUserId = r'.guestUserId ∧ r.key = r'.key ∧ r.listingId ≠ r'.listingId

instance (r r' : KeyedRequest) : Decidable (Clashing r r') := inferInstanceAs (Decidable (_ ∧ _))

/-- A request commits only while no clashing one holds the lock of its listing. -/
def CommitsAlone (sys : StaysSystem) (a : Action) : Prop :=
  sys.writes a ≠ [] → ∀ t ∈ sys.threads[System.mover a]?,
    ∀ u ∈ sys.threads.eraseIdx (System.mover a), ∀ r ∈ keyedRequest t.call,
      ∀ r' ∈ keyedRequest u.call, Clashing r r' → Key.listing r.listingId ∈ t.session.held →
        Key.listing r'.listingId ∉ u.session.held

instance (sys : StaysSystem) (a : Action) : Decidable (CommitsAlone sys a) :=
  inferInstanceAs (Decidable (sys.writes a ≠ [] → ∀ t ∈ sys.threads[System.mover a]?,
    ∀ u ∈ sys.threads.eraseIdx (System.mover a), ∀ r ∈ keyedRequest t.call,
      ∀ r' ∈ keyedRequest u.call, Clashing r r' → Key.listing r.listingId ∈ t.session.held →
        Key.listing r'.listingId ∉ u.session.held))

theorem admits_of_commitsAlone {env : Env} {sys : StaysSystem} {a : Action}
    (h : CommitsAlone sys a) : (discipline env True False).Admits sys a := by
  constructor
  · intro j t u ws hpub hne ht hj hu _ userId dto isVerified dto' isVerified' hcall hcall' hkey hsame
      hlisting hheld hheld'
    obtain ⟨key, hsome⟩ := Option.ne_none_iff_exists'.mp hkey
    have hmem : u ∈ sys.threads.eraseIdx (System.mover a) :=
      List.mem_eraseIdx_iff_getElem?.mpr ⟨j, hj, hu⟩
    have hr : keyedRequest t.call = some ⟨userId, key, dto'.listingId⟩ := by
      simp [keyedRequest, hcall', ← hsame, hsome]
    have hr' : keyedRequest u.call = some ⟨userId, key, dto.listingId⟩ := by
      simp [keyedRequest, hcall, hsome]
    have hwrites : sys.writes a ≠ [] := by rwa [System.writes_eq hpub]
    exact h hwrites t ht u hmem _ hr _ hr' ⟨rfl, rfl, hlisting.symm⟩ hheld' hheld
  · intro _ _ _ _ _ _ _ _ _ hfalse
    exact hfalse.elim

/-- No two bookings of a guest have the same key. -/
def KeysUnique (s : Store) : Prop :=
  ∀ a ∈ s.bookings.rows, ∀ b ∈ s.bookings.rows, a.guestUserId = b.guestUserId →
    a.idempotencyKey ≠ none → a.idempotencyKey = b.idempotencyKey → a = b

theorem KeysUnique.effect {env : Env} {c : Call} {held : List Key} {s : Store} {ws : List Write}
    (hs : KeysUnique s) (h : Effect env True c held s ws) : KeysUnique (publish s ws) := by
  obtain hsame | ⟨x, -, -, hunused, hput⟩ | ⟨x, x', hrow, hmove, hput⟩ := bookings_effect h
  · unfold KeysUnique
    rwa [hsame]
  · have hfree := hunused trivial
    intro a ha b hb hguest hkey heq
    rw [hput] at ha hb
    obtain rfl | ⟨ha', -⟩ := Table.mem_put.mp ha <;> obtain rfl | ⟨hb', -⟩ := Table.mem_put.mp hb
    · rfl
    · exact absurd heq.symm (hfree hkey b hb' hguest.symm)
    · exact absurd heq (hfree (heq ▸ hkey) a ha' hguest)
    · exact hs a ha' b hb' hguest hkey heq
  · have hx := Table.mem_of_find? hrow
    obtain ⟨status, completedAt, rfl⟩ := hmove.sameStay
    intro a ha b hb hguest hkey heq
    rw [hput] at ha hb
    obtain rfl | ⟨ha', hna⟩ := Table.mem_put.mp ha <;>
      obtain rfl | ⟨hb', hnb⟩ := Table.mem_put.mp hb
    · rfl
    · have hxb : x = b := hs x hx b hb' hguest hkey heq
      exact absurd (congrArg StaysBooking.id hxb.symm) hnb
    · have hax : a = x := hs a ha' x hx hguest hkey heq
      exact absurd (congrArg StaysBooking.id hax) hna
    · exact hs a ha' b hb' hguest hkey heq

/-- In a run whose requests commit alone, a guest and a key have one booking, and every
call that returned a booking for them returned this one. -/
theorem one_booking_for_key {env : Env} {sys : StaysSystem} (h : Reachable env CommitsAlone sys)
    (guestUserId : ℕ) (key : String) :
    (∀ a ∈ sys.store.bookings.rows, ∀ b ∈ sys.store.bookings.rows,
      a.guestUserId = guestUserId → b.guestUserId = guestUserId →
      a.idempotencyKey = some key → b.idempotencyKey = some key → a = b) ∧
    ∀ t ∈ sys.threads, ∀ dto isVerified returned,
      t.call = .createBooking guestUserId dto isVerified → dto.key = some key →
      t.program.result = some (.booking returned) →
      ∃ b ∈ sys.store.bookings.rows, b.guestUserId = guestUserId ∧ b.idempotencyKey = some key ∧
        b.id = returned.id ∧ SameStay returned b := by
  have hok : ∀ sys a, CommitsAlone sys a → (discipline env True False).Admits sys a :=
    fun _ _ => admits_of_commitsAlone
  constructor
  · have hunique : KeysUnique sys.store := by
      refine run_of_effects hok (fun s hfresh => ?_)
        (fun sys a c ws held _ _ _ heffect hs => hs.effect heffect) h
      simp [KeysUnique, hfresh.bookings]
    intro a ha b hb hguest hguest' hkey hkey'
    exact hunique a ha b hb (hguest.trans hguest'.symm) (by simp [hkey]) (hkey.trans hkey'.symm)
  · intro t ht dto isVerified returned hcall hkey hresult
    have hpost := (sound_of_reachable hok h).post ht hresult
    rw [hcall] at hpost
    obtain ⟨b, hb, hguest, hkey', hsame⟩ := hpost
    exact ⟨b, Table.mem_of_find? hb, hguest, hkey'.trans hkey, Table.key_of_find? hb, hsame⟩

/-- A request, and its repetition for another listing. -/
theorem one_booking_for_key_retried : ∃ sys : StaysSystem,
    sys.store.bookings.rows.map (·.idempotencyKey) = [some "k"] ∧
    ∃ t ∈ sys.threads, t.call = .createBooking 2 (sampleRequest 2 10 (some "k")) true ∧
      ∃ b ∈ sys.store.bookings.rows, b.guestUserId = 2 ∧ b.idempotencyKey = some "k" ∧
        (t.program.result.bind Answer.booking?).map (·.id) = some b.id := by
  obtain ⟨sys, hreach, hdone⟩ := exists_reachable CommitsAlone
    [.createBooking 2 (sampleRequest 1 10 (some "k")) true,
      .createBooking 2 (sampleRequest 2 10 (some "k")) true]
    (System.turns 0 0 17 ++ System.turns 1 20 2)
    (fun sys => sys.store.bookings.rows.map (·.idempotencyKey) = [some "k"] ∧
      sys.threads.any fun t => t.call = .createBooking 2 (sampleRequest 2 10 (some "k")) true ∧
        (t.program.result.bind Answer.booking?).isSome) (by decide +kernel)
  obtain ⟨hrows, hany⟩ := of_decide_eq_true hdone
  obtain ⟨t, ht, hboth⟩ := List.any_eq_true.mp hany
  obtain ⟨hcall, hbooking⟩ := of_decide_eq_true hboth
  obtain ⟨returned, hreturned⟩ := Option.isSome_iff_exists.mp hbooking
  obtain ⟨answer, hresult, hanswer⟩ := Option.bind_eq_some_iff.mp hreturned
  obtain rfl := Answer.booking?_eq_some.mp hanswer
  obtain ⟨b, hb, hguest, hkey, hid, -⟩ :=
    (one_booking_for_key hreach 2 "k").2 t ht _ _ returned hcall rfl hresult
  exact ⟨sys, hrows, t, ht, hcall, b, hb, hguest, hkey, by rw [hreturned, hid]; rfl⟩

/-- Both requests find the key unused under the locks of their listings. -/
theorem two_bookings_for_key : ∃ sys : StaysSystem,
    Reachable sampleEnv (fun _ _ => True) sys ∧
    ∃ a ∈ sys.store.bookings.rows, ∃ b ∈ sys.store.bookings.rows, a ≠ b ∧
      a.guestUserId = 2 ∧ b.guestUserId = 2 ∧
      a.idempotencyKey = some "k" ∧ b.idempotencyKey = some "k" := by
  obtain ⟨sys, hreach, hrows⟩ := exists_reachable (fun _ _ => True)
    [.createBooking 2 (sampleRequest 1 10 (some "k")) true,
      .createBooking 2 (sampleRequest 2 10 (some "k")) true]
    (System.turns 0 0 7 ++ System.turns 1 20 17 ++ System.turns 0 7 10)
    (fun sys => sys.store.bookings.rows.any fun a => sys.store.bookings.rows.any fun b =>
      a ≠ b ∧ a.guestUserId = 2 ∧ b.guestUserId = 2 ∧
        a.idempotencyKey = some "k" ∧ b.idempotencyKey = some "k") (by decide +kernel)
  obtain ⟨a, ha, hrest⟩ := List.any_eq_true.mp hrows
  obtain ⟨b, hb, hboth⟩ := List.any_eq_true.mp hrest
  exact ⟨sys, hreach, a, ha, b, hb, of_decide_eq_true hboth⟩

end NexaStays.IdempotencyKey
