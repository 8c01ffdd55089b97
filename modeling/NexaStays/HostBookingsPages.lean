import NexaStays.HostBookingsList

/-!
# The pages of the host's bookings

The id and the stored columns of a cursor are those of the last booking of the page, and
its computed column is that of a raw row. A page of `limit` bookings has more raw rows
than that if one of them has several occupants, and the raw row number `limit` is then of
an earlier booking.
-/
namespace NexaStays.HostBookingsPages

open NexaStays.KeyedTable NexaStays.Database NexaStays.Keyset NexaStays.SqlText
  NexaStays.HostListCursor NexaStays.HostBookingsList

/-- The host's bookings that match the query, in the order of the list. -/
def matching (pf : ListPlatform) (bookings : HostBookingTable) (hostUserId : ℕ) (today : ℤ)
    (query : HostBookingsListQuery) : List HostBookingRow :=
  orderBy (bookingOrder pf today (query.sort.getD .ops))
    (bookings.rows.filter (matchesQuery pf hostUserId today query))

/-- The pages of a query. -/
def bookingPages (pf : ListPlatform) (bookings : HostBookingTable) (hostUserId : ℕ) (today : ℤ)
    (query : HostBookingsListQuery) (cursor : Option String) :
    Option (Page HostBookingRow String) :=
  (listHostBookingsPage pf bookings hostUserId today { query with cursor }).toOption

/-- The booking that the raw row number `limit` of some bookings is of. -/
def rawBooking (limit : ℕ) (bookings : List HostBookingRow) : Option HostBookingRow :=
  ((rawRows bookings).take limit).getLast?

section RawRows

theorem length_le_rawRows (bookings : List HostBookingRow) :
    bookings.length ≤ (rawRows bookings).length := by
  induction bookings with
  | nil => simp
  | cons b bookings ih =>
    simp only [rawRows, List.flatMap_cons, List.length_append, List.length_replicate,
      List.length_cons] at ih ⊢
    omega

/-- The raw rows up to the length of a page are of the bookings of the page. -/
theorem take_rawRows (bookings : List HostBookingRow) {limit : ℕ}
    (h : limit < bookings.length) :
    (rawRows bookings).take limit = (rawRows (bookings.take limit)).take limit := by
  have hsplit : rawRows bookings =
      rawRows (bookings.take limit) ++ rawRows (bookings.drop limit) := by
    rw [rawRows, rawRows, rawRows, ← List.flatMap_append, List.take_append_drop]
  have hlen : limit ≤ (rawRows (bookings.take limit)).length := by
    have hle := length_le_rawRows (bookings.take limit)
    rw [List.length_take] at hle
    omega
  rw [hsplit, List.take_append_of_le_length hlen]

theorem exists_rawBooking {limit : ℕ} (hlimit : 0 < limit) {bookings : List HostBookingRow}
    (h : bookings ≠ []) : ∃ e, rawBooking limit bookings = some e := by
  have hlen := length_le_rawRows bookings
  have hpos : 0 < bookings.length := List.length_pos_iff.mpr h
  have hne : (rawRows bookings).take limit ≠ [] := by
    rw [ne_eq, List.take_eq_nil_iff, ← List.length_eq_zero_iff]
    omega
  exact Option.isSome_iff_exists.mp (List.getLast?_isSome.mpr hne)

theorem mem_of_rawBooking {limit : ℕ} {bookings : List HostBookingRow} {e : HostBookingRow}
    (h : rawBooking limit bookings = some e) : e ∈ bookings := by
  have hmem := List.mem_of_mem_take (List.mem_of_getLast? h)
  obtain ⟨b, hb, hrep⟩ := List.mem_flatMap.mp hmem
  rwa [List.eq_of_mem_replicate hrep]

end RawRows

section Order

variable {pf : ListPlatform} {today : ℤ} {sort : HostBookingSort} {r e x : HostBookingRow}

theorem id_eq_of_bookingOrder_eq (h : bookingOrder pf today sort r = bookingOrder pf today sort x) :
    r.id = x.id := by
  have hcolumns : bookingColumns sort r = bookingColumns sort x :=
    (Prod.ext_iff.mp (toLex_inj.mp h)).2
  cases sort <;> simp only [bookingColumns, toLex_inj, Prod.mk.injEq] at hcolumns <;>
    exact hcolumns.2.2

/-- The place in the order where a cursor stands: before the bookings that it selects. -/
def cursorOrder (pf : ListPlatform) (today : ℤ) (sort : HostBookingSort)
    (booking raw : HostBookingRow) : (List ℕ ×ₗ ℕ) ×ₗ ℚ ×ₗ ℤ ×ₗ ℕ :=
  toLex (bookingLead pf today sort raw, bookingColumns sort booking)

theorem keyset_iff {c : HostListCursorPayload} (hkeys : c.keys = cursorKeys pf today sort r e)
    (hid : c.id = r.id) :
    applyKeyset pf today sort c x = true ↔
      cursorOrder pf today sort r e < bookingOrder pf today sort x := by
  have hkey : ∀ name, c.key name = ((cursorKeys pf today sort r e).lookup name).getD .null := by
    intro name
    rw [HostListCursorPayload.key, hkeys]
  cases sort with
  | ops =>
    have hrank : c.key "ops_rank" = .number (opsUrgencyRank today e) := hkey _
    have hcheckin : c.key "checkin_date" = .day r.checkinDate := hkey _
    simp [applyKeyset, hrank, hcheckin, hid, cursorOrder, bookingOrder, bookingLead,
      bookingColumns, Prod.Lex.toLex_lt_toLex]
    omega
  | checkin =>
    have hcheckin : c.key "checkin_date" = .day r.checkinDate := hkey _
    simp [applyKeyset, hcheckin, hid, cursorOrder, bookingOrder, bookingLead,
      bookingColumns, Prod.Lex.toLex_lt_toLex]
    omega
  | checkout =>
    have hcheckout : c.key "checkout_date" = .day r.checkoutDate := hkey _
    simp [applyKeyset, hcheckout, hid, cursorOrder, bookingOrder, bookingLead,
      bookingColumns, Prod.Lex.toLex_lt_toLex]
    omega
  | amount =>
    have hamount : c.key "total_subtotal" = .number r.totalSubtotal := hkey _
    simp [applyKeyset, hamount, hid, cursorOrder, bookingOrder, bookingLead,
      bookingColumns, Prod.Lex.toLex_lt_toLex, eq_comm (a := r.totalSubtotal)]
  | guest =>
    have hname : c.key "guest_sort_name" = .text (pf.toLowerCase (guestSortName pf e)) := hkey _
    have hlower : pf.toLowerCase (guestSortName pf e) = guestSortName pf e :=
      pf.toLowerCase_sqlLower _
    simp [applyKeyset, hname, hid, hlower, cursorOrder, bookingOrder, bookingLead,
      bookingColumns, Prod.Lex.toLex_lt_toLex, pf.collationKey_injective.eq_iff,
      eq_comm (a := guestSortName pf e)]

/-- What comes after a page, by the cursor made from it. -/
def afterPage (pf : ListPlatform) (today : ℤ) (sort : HostBookingSort) (limit : ℕ)
    (found : List HostBookingRow) (x : HostBookingRow) : Bool :=
  match found.getLast?, rawBooking limit found with
  | some r, some e => cursorOrder pf today sort r e < bookingOrder pf today sort x
  | _, _ => true

end Order

section Service

variable {pf : ListPlatform} {bookings : HostBookingTable} {hostUserId : ℕ} {today : ℤ}
  {query : HostBookingsListQuery} {sort : HostBookingSort}

theorem nodup_bookingOrder (bookings : HostBookingTable) (p : HostBookingRow → Bool) :
    ((bookings.rows.filter p).map (bookingOrder pf today sort)).Nodup := by
  have hids : ((bookings.rows.filter p).map HostBookingRow.id).Nodup :=
    bookings.nodup.sublist (List.filter_sublist.map _)
  refine List.Nodup.map_on ?_ (List.Nodup.of_map _ hids)
  intro a ha b hb hab
  exact List.inj_on_of_nodup_map hids ha hb (id_eq_of_bookingOrder_eq hab)

theorem pairwise_matching : (matching pf bookings hostUserId today query).Pairwise fun a b =>
    bookingOrder pf today (query.sort.getD .ops) a <
      bookingOrder pf today (query.sort.getD .ops) b :=
  pairwise_orderBy (nodup_bookingOrder bookings _)

/-- In an ordered list the computed column of a booking of a page is at most that of the
booking that closes the page. -/
theorem bookingLead_le {rows : List HostBookingRow} {limit k : ℕ} {r e : HostBookingRow}
    (hlimit : 0 < limit)
    (hsorted : rows.Pairwise fun a b => bookingOrder pf today sort a < bookingOrder pf today sort b)
    (hr : Closes rows limit k r) (he : e ∈ pageRows rows limit k) :
    bookingLead pf today sort e ≤ bookingLead pf today sort r := by
  have hle : bookingOrder pf today sort e ≤ bookingOrder pf today sort r := by
    have hpage : (pageRows rows limit k).Pairwise fun a b =>
        bookingOrder pf today sort a < bookingOrder pf today sort b :=
      hsorted.sublist ((List.take_sublist _ _).trans (List.drop_sublist _ _))
    have hlast := getLast?_pageRows hlimit hr
    obtain ⟨init, hinit⟩ := List.getLast?_eq_some_iff.mp hlast
    rw [hinit] at hpage he
    rcases List.mem_append.mp he with hbefore | hself
    · exact le_of_lt ((List.pairwise_append.mp hpage).2.2 e hbefore r (by simp))
    · rw [List.mem_singleton.mp hself]
  rcases Prod.Lex.toLex_le_toLex.mp hle with hlt | ⟨heq, -⟩
  · exact le_of_lt hlt
  · exact le_of_eq heq

/-- A cursor stands at the booking that closes its page, or before it. -/
theorem cursorOrder_le {r e : HostBookingRow}
    (h : bookingLead pf today sort e ≤ bookingLead pf today sort r) :
    cursorOrder pf today sort r e ≤ bookingOrder pf today sort r := by
  rcases lt_or_eq_of_le h with hlt | heq
  · exact Prod.Lex.toLex_le_toLex.mpr (Or.inl hlt)
  · exact Prod.Lex.toLex_le_toLex.mpr (Or.inr ⟨heq, le_rfl⟩)

theorem afterFollows_afterPage {rows : List HostBookingRow} {limit : ℕ} (hlimit : 0 < limit)
    (hsorted : rows.Pairwise fun a b =>
      bookingOrder pf today sort a < bookingOrder pf today sort b) :
    AfterFollows (afterPage pf today sort limit) limit rows := by
  intro k fuel hk _ x hx
  have hlt : (k + 1) * limit - 1 < rows.length := by omega
  have hr : Closes rows limit k rows[(k + 1) * limit - 1] := ⟨hk, List.getElem?_eq_getElem hlt⟩
  have hlast := getLast?_pageRows hlimit hr
  have hne : pageRows rows limit k ≠ [] := by
    intro h
    rw [h] at hlast
    simp at hlast
  obtain ⟨e, he⟩ := exists_rawBooking hlimit hne
  have hle := cursorOrder_le (bookingLead_le hlimit hsorted hr (mem_of_rawBooking he))
  have hpos : (k + 1) * limit - 1 + 1 = (k + 1) * limit :=
    Nat.sub_add_cancel (Nat.mul_pos k.succ_pos hlimit)
  rw [← hpos, drop_eq_filter hsorted hr.2] at hx
  have hafter : bookingOrder pf today sort rows[(k + 1) * limit - 1] <
      bookingOrder pf today sort x := by simpa using (List.mem_filter.mp hx).2
  simp only [afterPage, hlast, he, decide_eq_true_iff]
  exact lt_of_le_of_lt hle hafter

/-- The text that a page's cursor is sent as. -/
def cursorText (pf : ListPlatform) (hostUserId : ℕ) (today : ℤ) (query : HostBookingsListQuery)
    (found : List HostBookingRow) : String :=
  ((found.getLast?.bind fun r => (rawBooking (pageLimit query.limit) found).map fun e =>
    encodeHostListCursor pf (cursorContext pf hostUserId query)
      (cursorKeys pf today (query.sort.getD .ops) r e) r.id)).getD ""

/-- The cursor of a page depends on the bookings of the page alone. -/
theorem bookingPage_eq (ctx : HostListCursorContext) (limit : ℕ)
    (entities : List HostBookingRow) :
    bookingPage pf today ctx sort limit entities =
      cut (fun found => found.getLast?.bind fun r => (rawBooking limit found).map fun e =>
        encodeHostListCursor pf ctx (cursorKeys pf today sort r e) r.id) limit entities := by
  by_cases hmore : limit < entities.length
  · simp only [bookingPage, cut, hmore, decide_true, if_true, rawBooking, take_rawRows _ hmore]
  · simp only [bookingPage, cut, hmore, decide_false, Bool.false_eq_true, if_false]

/-- The pages of the service are those of its list of bookings. -/
theorem bookingPages_eq (c : Option (List HostBookingRow)) (hc : c ≠ some []) :
    bookingPages pf bookings hostUserId today query
        (c.map (cursorText pf hostUserId today query)) =
      some ((page (afterPage pf today (query.sort.getD .ops) (pageLimit query.limit))
        (pageLimit query.limit) (matching pf bookings hostUserId today query) c).map
          (cursorText pf hostUserId today query)) := by
  have hlimit : 0 < pageLimit query.limit := by
    unfold pageLimit
    omega
  have hfound : ∀ found : List HostBookingRow, found ≠ [] → ∃ r e,
      found.getLast? = some r ∧ rawBooking (pageLimit query.limit) found = some e := by
    intro found hfound
    obtain ⟨r, hr⟩ := Option.isSome_iff_exists.mp (List.getLast?_isSome.mpr hfound)
    obtain ⟨e, he⟩ := exists_rawBooking hlimit hfound
    exact ⟨r, e, hr, he⟩
  have hnext : ∀ found : List HostBookingRow, found ≠ [] →
      (found.getLast?.bind fun r => (rawBooking (pageLimit query.limit) found).map fun e =>
        encodeHostListCursor pf (cursorContext pf hostUserId query)
          (cursorKeys pf today (query.sort.getD .ops) r e) r.id) =
      some (cursorText pf hostUserId today query found) := by
    intro found hne
    obtain ⟨r, e, hr, he⟩ := hfound found hne
    simp only [cursorText, hr, he, Option.bind_some, Option.map_some, Option.getD_some]
  have hpage : ∀ (cursor : Option String) (payload : Option HostListCursorPayload),
      decodeHostListCursor pf cursor (cursorContext pf hostUserId query) = .ok payload →
      bookingPages pf bookings hostUserId today query cursor =
        some (cut (fun found => found.getLast?.bind fun r =>
            (rawBooking (pageLimit query.limit) found).map fun e =>
              encodeHostListCursor pf (cursorContext pf hostUserId query)
                (cursorKeys pf today (query.sort.getD .ops) r e) r.id) (pageLimit query.limit)
          (((matching pf bookings hostUserId today query).filter fun b => payload.all fun c =>
            applyKeyset pf today (query.sort.getD .ops) c b).take
              (pageLimit query.limit + 1))) := by
    intro cursor payload hcursor
    have hctx : cursorContext pf hostUserId { query with cursor } =
        cursorContext pf hostUserId query := rfl
    rw [← bookingPage_eq, matching, ← orderBy_filter (nodup_bookingOrder bookings _),
      List.filter_filter]
    simp only [bookingPages, listHostBookingsPage, hctx, hcursor, bind, Except.bind,
      Except.toOption, Bool.and_comm]
    rfl
  rw [← cut_rest _ hlimit hnext]
  cases c with
  | none =>
    rw [Option.map_none, hpage none none rfl]
    simp only [Option.all_none, List.filter_true, rest]
  | some found =>
    obtain ⟨r, e, hr, he⟩ := hfound found fun h => hc (by rw [h])
    have htext : cursorText pf hostUserId today query found =
        encodeHostListCursor pf (cursorContext pf hostUserId query)
          (cursorKeys pf today (query.sort.getD .ops) r e) r.id := by
      simp only [cursorText, hr, he, Option.bind_some, Option.map_some, Option.getD_some]
    let payload : HostListCursorPayload :=
      { normalizeContext pf (cursorContext pf hostUserId query) with
        v := 1, keys := cursorKeys pf today (query.sort.getD .ops) r e, id := r.id }
    have hdecode : decodeHostListCursor pf (some (cursorText pf hostUserId today query found))
        (cursorContext pf hostUserId query) = .ok (some payload) := by
      rw [htext]
      exact decode_encode _ _
    have hafter : ∀ x, applyKeyset pf today (query.sort.getD .ops) payload x =
        afterPage pf today (query.sort.getD .ops) (pageLimit query.limit) found x := by
      intro x
      rw [Bool.eq_iff_iff, keyset_iff rfl rfl]
      simp only [afterPage, hr, he, decide_eq_true_iff]
    rw [Option.map_some, hpage _ _ hdecode]
    simp only [Option.all_some, hafter, rest]

/-- Following `next_cursor` yields the host's bookings that match the query, each once and
in order, exactly if at the end of each page the booking that the raw row number `limit`
is of has the computed column of the booking that closes the page. -/
theorem booking_pages_enumerate (pf : ListPlatform) (bookings : HostBookingTable)
    (hostUserId : ℕ) (today : ℤ) (query : HostBookingsListQuery) :
    Enumerates (bookingPages pf bookings hostUserId today query)
        (matching pf bookings hostUserId today query) ↔
      ∀ k r, Closes (matching pf bookings hostUserId today query) (pageLimit query.limit) k r →
        ∀ e ∈ rawBooking (pageLimit query.limit) (pageRows
            (matching pf bookings hostUserId today query) (pageLimit query.limit) k),
          bookingLead pf today (query.sort.getD .ops) e =
            bookingLead pf today (query.sort.getD .ops) r := by
  have hlimit : 0 < pageLimit query.limit := by
    unfold pageLimit
    omega
  rw [enumerates_encoded hlimit bookingPages_eq,
    enumerates_iff hlimit pairwise_matching (afterFollows_afterPage hlimit pairwise_matching)]
  refine forall_congr' fun k => forall_congr' fun r => forall_congr' fun hr => ?_
  have hlast := getLast?_pageRows hlimit hr
  constructor
  · intro h e he
    -- Else the page's last booking would come after its own page.
    have hself := h r (List.mem_of_getElem? hr.2)
    have hle := bookingLead_le hlimit pairwise_matching hr (mem_of_rawBooking he)
    simp only [afterPage, hlast, Option.mem_def.mp he, decide_eq_true_iff, lt_irrefl,
      iff_false] at hself
    by_contra hne
    exact hself (Prod.Lex.toLex_lt_toLex.mpr (Or.inl (lt_of_le_of_ne hle hne)))
  · intro h x _
    have hne : pageRows (matching pf bookings hostUserId today query) (pageLimit query.limit) k ≠
        [] := by
      intro hnil
      rw [hnil] at hlast
      simp at hlast
    obtain ⟨e, he⟩ := exists_rawBooking hlimit hne
    simp only [afterPage, hlast, he, decide_eq_true_iff, cursorOrder, h e he]
    rfl

end Service

section Samples

def sampleBooking (id : ℕ) (checkinDate checkoutDate : ℤ) (occupants : List BookingOccupant) :
    HostBookingRow where
  id
  listingId := 3
  listingTitle := "Riad"
  hostUserId := 7
  bookingReference := none
  status := .confirmed
  checkinDate
  checkoutDate
  totalSubtotal := 500
  occupants

/-- The text of the payload with which the first page of the sample ends. -/
def sampleText : String :=
  "eyJ2IjoxLCJraW5kIjoiYm9va2luZ3MiLCJob3N0SWQiOiIwMDAwMDAwMC0wMDAwLTAwMDAtMDAwMC0wMDAwMDAwMDAw" ++
  "MDciLCJzb3J0Ijoib3BzIiwiZmlsdGVyIjoiYWxsIiwic2VhcmNoIjoiIiwibGlzdGluZ0lkIjoiIiwic3RhdHVzIjoi" ++
  "Iiwia2V5cyI6eyJvcHNfcmFuayI6MCwiY2hlY2tpbl9kYXRlIjoiMTk3MC0wMi0wNSJ9LCJpZCI6IjAwMDAwMDAwLTAw" ++
  "MDAtMDAwMC0wMDAwLTAwMDAwMDAwMDAwMiJ9"

theorem sampleText_noDot : '.' ∉ sampleText.toList := by
  unfold sampleText
  apply SampleCodec.notMem_append
  · apply SampleCodec.notMem_append
    · apply SampleCodec.notMem_append
      · decide +kernel
      · decide +kernel
    · decide +kernel
  · decide +kernel

theorem sampleText_letter : 'e' ∈ sampleText.toList := by
  unfold sampleText
  apply SampleCodec.mem_append_left
  apply SampleCodec.mem_append_left
  apply SampleCodec.mem_append_left
  decide +kernel

def firstPagePlatform : ListPlatform :=
  samplePlatform sampleText
    { kind := .bookings, hostId := 7, sort := "ops", filter := "all", search := ""
      listingId := none, status := "", v := 1, id := 2
      keys := [("ops_rank", .number 0), ("checkin_date", .day 35)] }
    "9f86d081884c7d65" sampleText_noDot sampleText_letter sampleSignature_noDot

/-- On day 35 a party of two leaves, one booking arrives and one arrives on the next day. -/
def partyOfTwo : HostBookingTable :=
  ⟨[sampleBooking 1 30 35 [⟨1, "Amal", true⟩, ⟨2, "Idir", false⟩],
    sampleBooking 2 35 38 [⟨3, "Sara", true⟩],
    sampleBooking 3 36 38 [⟨4, "Omar", true⟩]], by decide⟩

/-- The booking that closes the first page is on the second one again. -/
theorem closing_booking_repeated :
    ¬Enumerates (bookingPages firstPagePlatform partyOfTwo 7 35 { limit := some 2 })
      (matching firstPagePlatform partyOfTwo 7 35 { limit := some 2 }) := by
  have hfollow : follow (pages (afterPage firstPagePlatform 35 .ops 2) 2
      (matching firstPagePlatform partyOfTwo 7 35 { limit := some 2 })) 3 none =
      some [sampleBooking 1 30 35 [⟨1, "Amal", true⟩, ⟨2, "Idir", false⟩],
        sampleBooking 2 35 38 [⟨3, "Sara", true⟩], sampleBooking 2 35 38 [⟨3, "Sara", true⟩],
        sampleBooking 3 36 38 [⟨4, "Omar", true⟩]] := by decide
  rw [enumerates_encoded (by decide) bookingPages_eq]
  rintro ⟨fuel, h⟩
  have hsame := follow_unique h hfollow
  revert hsame
  decide

end Samples

end NexaStays.HostBookingsPages
