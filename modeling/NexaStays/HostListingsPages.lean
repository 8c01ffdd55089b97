import Mathlib.Data.Int.ConditionallyCompleteOrder
import NexaStays.HostListings

/-!
# The pages of the host's listings

The orders by a text or a price resume where their cursor stands. The orders by an instant
have it in milliseconds in the cursor, so that the listings of one millisecond are told
apart by their ids alone.
-/
namespace NexaStays.HostListingsPages

open NexaStays.KeyedTable NexaStays.Database NexaStays.Keyset NexaStays.SqlText
  NexaStays.HostListCursor NexaStays.HostListings

/-- The host's listings that match the query, in the order of the list. -/
def matching (pf : ListPlatform) (listings : HostListingTable) (userId : ℕ)
    (query : HostListingsListQuery) : List HostListingRow :=
  orderBy (listingOrder pf (query.sort.getD .default))
    (listings.rows.filter (matchesQuery pf userId query))

/-- The pages of a query. -/
def listingPages (pf : ListPlatform) (listings : HostListingTable) (userId : ℕ)
    (query : HostListingsListQuery) (cursor : Option String) :
    Option (Page HostListingRow String) :=
  (listHostListingsPage pf listings userId { query with cursor }).toOption

/-- Of two listings with instants in one millisecond, the later one in the list is the one
with the smaller id, as the cursor has it. -/
def IdsAgree (sort : HostListingSort) (r x : HostListingRow) : Prop :=
  ∀ t ∈ listingInstant sort r, ∀ u ∈ listingInstant sort x, toMillis t = toMillis u →
    (x.id < r.id ↔ u < t ∨ u = t ∧ x.id < r.id)

section Order

variable {pf : ListPlatform} {sort : HostListingSort} {r x : HostListingRow}

theorem listingOrder_lt_iff :
    listingOrder pf sort r < listingOrder pf sort x ↔
      listingRank pf sort r < listingRank pf sort x ∨ listingRank pf sort r = listingRank pf sort x ∧
        (nullsLast ((listingInstant sort r).map fun t => -t) <
            nullsLast ((listingInstant sort x).map fun t => -t) ∨
          nullsLast ((listingInstant sort r).map fun t => -t) =
            nullsLast ((listingInstant sort x).map fun t => -t) ∧
          listingTie sort r < listingTie sort x) := by
  simp only [listingOrder, Prod.Lex.toLex_lt_toLex]

theorem id_eq_of_listingOrder_eq (h : listingOrder pf sort r = listingOrder pf sort x) :
    r.id = x.id := by
  have hsnd := (Prod.ext_iff.mp (toLex_inj.mp h)).2
  have htie : listingTie sort r = listingTie sort x := (Prod.ext_iff.mp (toLex_inj.mp hsnd)).2
  cases sort <;> simp only [listingTie] at htie <;> omega

/-- A listing with its instants as a cursor has them. -/
def rounded (l : HostListingRow) : HostListingRow :=
  { l with
    createdAt := toMillis l.createdAt
    updatedAt := l.updatedAt.map toMillis
    lastEditedAt := l.lastEditedAt.map toMillis }

theorem listingRank_rounded : listingRank pf sort (rounded r) = listingRank pf sort r := by
  cases sort <;> rfl

theorem listingTie_rounded : listingTie sort (rounded r) = listingTie sort r := by
  cases sort <;> rfl

theorem updatedSort_rounded : updatedSort (rounded r) = (updatedSort r).map toMillis := by
  cases h : r.lastEditedAt <;> simp [updatedSort, rounded, h]

theorem listingInstant_rounded :
    listingInstant sort (rounded r) = (listingInstant sort r).map toMillis := by
  cases sort with
  | updated => exact updatedSort_rounded
  | default | title | city | status | price => rfl

theorem instantAfter_iff {t u : ℤ} :
    instantAfter u (toMillis t) r.id x = true ↔
      toMillis u < toMillis t ∨ toMillis u = toMillis t ∧ x.id < r.id := by
  rw [instantAfter, decide_eq_true_iff]
  simp only [toMillis]
  omega

theorem textAfter_iff {column text : String} :
    textAfter pf column text r.id x = true ↔
      pf.collationKey text < pf.collationKey column ∨
        pf.collationKey text = pf.collationKey column ∧ r.id < x.id := by
  rw [textAfter, decide_eq_true_iff, pf.collationKey_injective.eq_iff, eq_comm (a := text)]

/-- What a cursor adds to the `WHERE` is the order, with the instants in milliseconds. -/
theorem keyset_iff {c : HostListCursorPayload} (hkeys : c.keys = listingCursorKeys sort r)
    (hid : c.id = r.id) :
    applyListingKeyset pf sort c x = true ↔
      listingOrder pf sort (rounded r) < listingOrder pf sort (rounded x) := by
  rw [listingOrder_lt_iff, listingRank_rounded, listingRank_rounded, listingInstant_rounded,
    listingInstant_rounded, listingTie_rounded, listingTie_rounded]
  have hkey : ∀ name, c.key name = ((listingCursorKeys sort r).lookup name).getD .null := by
    intro name
    rw [HostListCursorPayload.key, hkeys]
  cases sort with
  | default =>
    have hvalue : c.key "created_at" = .instant (toMillis r.createdAt) := hkey _
    simp only [applyListingKeyset, hvalue, hid, instantAfter_iff, listingRank, listingInstant,
      listingTie, Option.map_some, nullsLast_some_lt_some, nullsLast_inj, Option.some.injEq]
    simp
    omega
  | title =>
    have hvalue : textKey c "title" = r.title := by
      rw [textKey, hkey]
      rfl
    simp [applyListingKeyset, hvalue, hid, textAfter_iff, listingRank, listingInstant,
      listingTie, Prod.Lex.toLex_lt_toLex]
  | city =>
    have hvalue : textKey c "city" = r.city := by
      rw [textKey, hkey]
      rfl
    simp [applyListingKeyset, hvalue, hid, textAfter_iff, listingRank, listingInstant,
      listingTie, Prod.Lex.toLex_lt_toLex]
  | status =>
    have hvalue : textKey c "status" = statusText r.status := by
      rw [textKey, hkey]
      rfl
    simp [applyListingKeyset, hvalue, hid, textAfter_iff, listingRank, listingInstant,
      listingTie, Prod.Lex.toLex_lt_toLex]
  | updated =>
    have hvalue : c.key "updated_sort" =
        (updatedSort r).elim .null fun t => .instant (toMillis t) := hkey _
    simp only [applyListingKeyset, hvalue, hid, listingRank, listingInstant, listingTie]
    cases updatedSort r with
    | none => cases updatedSort x <;> simp
    | some t =>
      cases updatedSort x with
      | none => simp
      | some u =>
        simp only [Option.elim_some, instantAfter_iff, Option.map_some, nullsLast_some_lt_some,
          nullsLast_inj, Option.some.injEq]
        simp
        omega
  | price =>
    have hvalue : c.key "price_sort" = r.basePrice.elim .null .number := hkey _
    simp only [applyListingKeyset, hvalue, hid, listingRank, listingInstant, listingTie]
    cases r.basePrice with
    | none => cases x.basePrice <;> simp [Prod.Lex.toLex_lt_toLex]
    | some p =>
      cases x.basePrice with
      | none => simp [Prod.Lex.toLex_lt_toLex]
      | some q => simp [Prod.Lex.toLex_lt_toLex, eq_comm (a := p)]

/-- The order with instants in milliseconds is the order, but for listings that the
`ORDER BY` has apart by their microseconds and the cursor by their ids. -/
theorem rounded_agrees_iff :
    (listingOrder pf sort (rounded r) < listingOrder pf sort (rounded x) ↔
      listingOrder pf sort r < listingOrder pf sort x) ↔ IdsAgree sort r x := by
  rw [listingOrder_lt_iff, listingOrder_lt_iff, listingRank_rounded, listingRank_rounded,
    listingInstant_rounded, listingInstant_rounded, listingTie_rounded, listingTie_rounded]
  have hrank : listingInstant sort r ≠ none → listingRank pf sort r = listingRank pf sort x := by
    cases sort <;> simp [listingRank, listingInstant]
  have htie : listingInstant sort r ≠ none →
      (listingTie sort r < listingTie sort x ↔ x.id < r.id) := by
    cases sort <;> simp [listingTie, listingInstant]
  cases hr : listingInstant sort r with
  | none => cases hx : listingInstant sort x <;> simp [IdsAgree, hr]
  | some t =>
    cases hx : listingInstant sort x with
    | none => simp [IdsAgree, hr, hx]
    | some u =>
      rw [hrank (by simp [hr]), htie (by simp [hr])]
      simp only [IdsAgree, hr, hx, Option.mem_some_iff, forall_eq', Option.map_some,
        nullsLast_some_lt_some, nullsLast_inj, Option.some.injEq, lt_irrefl, false_or, true_and, neg_lt_neg_iff,
        neg_inj, toMillis]
      by_cases hmillis : t / 1000 = u / 1000
      · simp only [hmillis, lt_irrefl, false_or, true_and, true_implies, eq_comm (a := t)]
      · have hlt : u / 1000 < t / 1000 ↔ u < t := by omega
        have hne : t ≠ u := by
          intro h
          exact hmillis (by rw [h])
        simp only [hmillis, hlt, hne, false_and, or_false, false_implies]

end Order

section Service

variable {pf : ListPlatform} {listings : HostListingTable} {userId : ℕ}
  {query : HostListingsListQuery} {sort : HostListingSort}

/-- What comes after a page, by the cursor of the listing that closes it. -/
def afterPage (pf : ListPlatform) (sort : HostListingSort) (found : List HostListingRow)
    (x : HostListingRow) : Bool :=
  found.getLast?.all fun r => listingOrder pf sort (rounded r) < listingOrder pf sort (rounded x)

theorem narrows_afterPage : Narrows (afterPage pf sort) := by
  intro found later hlater hall x hx
  obtain ⟨r', hr'⟩ : ∃ r', later.getLast? = some r' :=
    Option.isSome_iff_exists.mp (List.getLast?_isSome.mpr hlater)
  cases hr : found.getLast? with
  | none => simp [afterPage, hr]
  | some r =>
    have hlast := hall r' (List.mem_of_getLast? hr')
    simp only [afterPage, hr, hr', Option.all_some, decide_eq_true_iff] at hlast hx ⊢
    exact lt_trans hlast hx

theorem nodup_listingOrder (listings : HostListingTable) (p : HostListingRow → Bool) :
    ((listings.rows.filter p).map (listingOrder pf sort)).Nodup := by
  have hids : ((listings.rows.filter p).map HostListingRow.id).Nodup :=
    listings.nodup.sublist (List.filter_sublist.map _)
  refine List.Nodup.map_on ?_ (List.Nodup.of_map _ hids)
  intro a ha b hb hab
  exact List.inj_on_of_nodup_map hids ha hb (id_eq_of_listingOrder_eq hab)

theorem pairwise_matching : (matching pf listings userId query).Pairwise fun a b =>
    listingOrder pf (query.sort.getD .default) a < listingOrder pf (query.sort.getD .default) b :=
  pairwise_orderBy (nodup_listingOrder listings _)

theorem mem_matching {l : HostListingRow} (h : l ∈ matching pf listings userId query) :
    l ∈ listings.rows ∧ l.hostUserId = userId := by
  obtain ⟨hl, hmatches⟩ := List.mem_filter.mp (mem_orderBy.mp h)
  simp only [matchesQuery, Bool.and_eq_true, decide_eq_true_iff] at hmatches
  exact ⟨hl, hmatches.1.1⟩

/-- The listings of a page are found again. -/
theorem hydrate_map_id (rows : List HostListingRow)
    (h : ∀ l ∈ rows, l ∈ listings.rows ∧ l.hostUserId = userId) :
    hydrate listings userId (rows.map HostListingRow.id) = rows := by
  induction rows with
  | nil => rfl
  | cons l rows ih =>
    have hl := h l (by simp)
    have hfind : (listings.find? l.id).filter (fun l => l.hostUserId = userId) = some l := by
      rw [Table.find?_key hl.1, Option.filter_some, if_pos (by simpa using hl.2)]
    have htail := ih fun l' hl' => h l' (List.mem_cons_of_mem l hl')
    simp only [hydrate, List.map_cons, List.filterMap_cons, hfind] at htail ⊢
    rw [htail]

/-- The text that a page's cursor is sent as. -/
def cursorText (pf : ListPlatform) (userId : ℕ) (query : HostListingsListQuery)
    (found : List HostListingRow) : String :=
  (found.getLast?.map fun r => encodeHostListCursor pf (cursorContext pf userId query)
    (listingCursorKeys (query.sort.getD .default) r) r.id).getD ""

/-- The second phase changes nothing about the page of the rows found. -/
theorem hydratedPage_eq (ctx : HostListCursorContext) (limit : ℕ) (entities : List HostListingRow)
    (h : ∀ l ∈ entities, l ∈ listings.rows ∧ l.hostUserId = userId) :
    hydratedPage pf listings userId ctx sort limit entities =
      cut (fun found => found.getLast?.map fun r =>
        encodeHostListCursor pf ctx (listingCursorKeys sort r) r.id) limit entities := by
  have hitems : ∀ items : List HostListingRow, (∀ l ∈ items, l ∈ entities) →
      hydrate listings userId (items.map HostListingRow.id) = items ∧
        ∀ last, items.getLast? = some last →
          (items.find? fun l => l.id = last.id).getD last = last := by
    intro items hsub
    refine ⟨hydrate_map_id items fun l hl => h l (hsub l hl), ?_⟩
    intro last hlast
    cases hfind : items.find? fun l => l.id = last.id with
    | none => rfl
    | some l =>
      have hid : l.id = last.id := by simpa using List.find?_some hfind
      have hl := h l (hsub l (List.mem_of_find?_eq_some hfind))
      have hr := h last (hsub last (List.mem_of_getLast? hlast))
      exact listings.eq_of_key_eq hl.1 hr.1 hid
  by_cases hmore : limit < entities.length
  · obtain ⟨hrows, hlast⟩ := hitems (entities.take limit) fun l hl => List.mem_of_mem_take hl
    simp only [hydratedPage, cut, hmore, decide_true, if_true, hrows, Page.mk.injEq, true_and]
    cases hr : (entities.take limit).getLast? with
    | none => rfl
    | some last => simp only [Option.map_some, hlast last hr]
  · obtain ⟨hrows, -⟩ := hitems entities fun l hl => hl
    simp only [hydratedPage, cut, hmore, decide_false, Bool.false_eq_true, if_false, hrows]

/-- The pages of the service are those of its list of listings. -/
theorem listingPages_eq (c : Option (List HostListingRow)) (hc : c ≠ some []) :
    listingPages pf listings userId query (c.map (cursorText pf userId query)) =
      some ((page (afterPage pf (query.sort.getD .default)) (pageLimit query.limit)
        (matching pf listings userId query) c).map (cursorText pf userId query)) := by
  have hlimit : 0 < pageLimit query.limit := by
    unfold pageLimit
    omega
  have hnext : ∀ found : List HostListingRow, found ≠ [] → (found.getLast?.map fun r =>
      encodeHostListCursor pf (cursorContext pf userId query)
        (listingCursorKeys (query.sort.getD .default) r) r.id) =
      some (cursorText pf userId query found) := by
    intro found hfound
    obtain ⟨r, hr⟩ : ∃ r, found.getLast? = some r :=
      Option.isSome_iff_exists.mp (List.getLast?_isSome.mpr hfound)
    simp only [cursorText, hr, Option.map_some, Option.getD_some]
  have hpage : ∀ (cursor : Option String) (payload : Option HostListCursorPayload),
      decodeHostListCursor pf cursor (cursorContext pf userId query) = .ok payload →
      listingPages pf listings userId query cursor =
        some (cut (fun found => found.getLast?.map fun r =>
            encodeHostListCursor pf (cursorContext pf userId query)
              (listingCursorKeys (query.sort.getD .default) r) r.id) (pageLimit query.limit)
          (((matching pf listings userId query).filter fun l => payload.all fun c =>
            applyListingKeyset pf (query.sort.getD .default) c l).take
              (pageLimit query.limit + 1))) := by
    intro cursor payload hcursor
    have hctx : cursorContext pf userId { query with cursor } = cursorContext pf userId query := rfl
    rw [← hydratedPage_eq]
    · rw [matching, ← orderBy_filter (nodup_listingOrder listings _), List.filter_filter]
      simp only [listingPages, listHostListingsPage, hctx, hcursor, bind, Except.bind,
        Except.toOption, Bool.and_comm]
      rfl
    · intro l hl
      exact mem_matching (List.mem_of_mem_filter (List.mem_of_mem_take hl))
  rw [← cut_rest _ hlimit hnext]
  cases c with
  | none =>
    rw [Option.map_none, hpage none none rfl]
    simp only [Option.all_none, List.filter_true, rest]
  | some found =>
    have hfound : found ≠ [] := fun h => hc (by rw [h])
    obtain ⟨r, hr⟩ : ∃ r, found.getLast? = some r :=
      Option.isSome_iff_exists.mp (List.getLast?_isSome.mpr hfound)
    have htext : cursorText pf userId query found =
        encodeHostListCursor pf (cursorContext pf userId query)
          (listingCursorKeys (query.sort.getD .default) r) r.id := by
      simp only [cursorText, hr, Option.map_some, Option.getD_some]
    let payload : HostListCursorPayload :=
      { normalizeContext pf (cursorContext pf userId query) with
        v := 1, keys := listingCursorKeys (query.sort.getD .default) r, id := r.id }
    have hdecode : decodeHostListCursor pf (some (cursorText pf userId query found))
        (cursorContext pf userId query) = .ok (some payload) := by
      rw [htext]
      exact decode_encode _ _
    have hafter : ∀ x, applyListingKeyset pf (query.sort.getD .default) payload x =
        afterPage pf (query.sort.getD .default) found x := by
      intro x
      rw [Bool.eq_iff_iff, keyset_iff rfl rfl, afterPage, hr, Option.all_some,
        decide_eq_true_iff]
    rw [Option.map_some, hpage _ _ hdecode]
    simp only [Option.all_some, hafter, rest]

/-- Following `next_cursor` yields the host's listings that match the query, each once and
in order, exactly if at the end of each page the listings of one millisecond, in the orders
by an instant, are ordered by their ids as by their microseconds. -/
theorem listing_pages_enumerate (pf : ListPlatform) (listings : HostListingTable) (userId : ℕ)
    (query : HostListingsListQuery) :
    Enumerates (listingPages pf listings userId query) (matching pf listings userId query) ↔
      ∀ k r, Closes (matching pf listings userId query) (pageLimit query.limit) k r →
        ∀ x ∈ matching pf listings userId query,
          IdsAgree (query.sort.getD .default) r x := by
  have hlimit : 0 < pageLimit query.limit := by
    unfold pageLimit
    omega
  rw [enumerates_encoded hlimit listingPages_eq,
    enumerates_iff hlimit pairwise_matching (afterFollows_of_narrows narrows_afterPage hlimit)]
  refine forall_congr' fun k => forall_congr' fun r => forall_congr' fun hr =>
    forall₂_congr fun x _ => ?_
  rw [afterPage, getLast?_pageRows hlimit hr, Option.all_some, decide_eq_true_iff,
    rounded_agrees_iff]

end Service

section Samples

def sampleListing (id : ℕ) (createdAt : ℤ) : HostListingRow where
  id
  hostUserId := 7
  title := "Riad"
  city := "Rabat"
  status := .live
  createdAt
  updatedAt := some createdAt
  lastEditedAt := some createdAt
  basePrice := some 500

/-- The text of the payload with which the first page of the sample ends. -/
def sampleText : String :=
  "eyJ2IjoxLCJraW5kIjoibGlzdGluZ3MiLCJob3N0SWQiOiIwMDAwMDAwMC0wMDAwLTAwMDAtMDAwMC0wMDAwMDAwMDAw" ++
  "MDciLCJzb3J0IjoiZGVmYXVsdCIsImZpbHRlciI6IiIsInNlYXJjaCI6IiIsImxpc3RpbmdJZCI6IiIsInN0YXR1cyI6" ++
  "ImFsbCIsImtleXMiOnsiY3JlYXRlZF9hdCI6IjE5NzAtMDEtMDFUMDA6MDA6MDEuMDAwWiJ9LCJpZCI6IjAwMDAwMDAw" ++
  "LTAwMDAtMDAwMC0wMDAwLTAwMDAwMDAwMDAwMSJ9"

theorem sampleText_noDot : '.' ∉ sampleText.toList := by
  unfold sampleText
  apply SampleCodec.notMem_append
  · apply SampleCodec.notMem_append
    · apply SampleCodec.notMem_append
      · decide +kernel
      · decide +kernel
    · decide +kernel
  · decide +kernel

theorem sampleText_letter : 'e' ∈ sampleText.toList := by
  unfold sampleText
  apply SampleCodec.mem_append_left
  apply SampleCodec.mem_append_left
  apply SampleCodec.mem_append_left
  decide +kernel

def firstPagePlatform : ListPlatform :=
  samplePlatform sampleText
    { kind := .listings, hostId := 7, sort := "default", filter := "", search := ""
      listingId := none, status := "all", v := 1, id := 1
      keys := [("created_at", .instant 1000)] }
    "9f86d081884c7d65" sampleText_noDot sampleText_letter sampleSignature_noDot

/-- The second listing was created earlier in the same millisecond. -/
def oneMillisecond : HostListingTable :=
  ⟨[sampleListing 1 1000900, sampleListing 2 1000500], by decide⟩

/-- The second listing is on no page. -/
theorem host_listing_skipped :
    ¬Enumerates (listingPages firstPagePlatform oneMillisecond 7 { limit := some 1 })
      (matching firstPagePlatform oneMillisecond 7 { limit := some 1 }) := by
  have hfollow : follow (pages (afterPage firstPagePlatform .default) 1
      (matching firstPagePlatform oneMillisecond 7 { limit := some 1 })) 3 none =
      some [sampleListing 1 1000900] := by decide
  rw [enumerates_encoded (by decide) listingPages_eq]
  rintro ⟨fuel, h⟩
  have hsame := follow_unique h hfollow
  revert hsame
  decide

end Samples

end NexaStays.HostListingsPages
