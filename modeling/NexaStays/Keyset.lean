import Mathlib.Data.List.Sort
import Mathlib.Order.WithBot

/-!
# Keyset pagination

A page is cut from the rows that a predicate puts after the page before, whose keys its
cursor carries. Following the cursors to the end enumerates the rows of a list, in its
order and each once, exactly if at the end of each page the predicate selects what the
list has left.
-/
namespace NexaStays.Keyset

variable {ρ τ σ κ : Type}

/-- The rows of a page, and the cursor of the next one. -/
structure Page (ρ τ : Type) where
  items : List ρ
  next : Option τ
  deriving DecidableEq, Repr

def Page.map (encode : τ → σ) (p : Page ρ τ) : Page ρ σ := ⟨p.items, p.next.map encode⟩

/-- The rows of the pages from a cursor on, if there are fewer pages than `fuel` and none
of them is refused. -/
def follow (get : Option τ → Option (Page ρ τ)) : ℕ → Option τ → Option (List ρ)
  | 0, _ => none
  | fuel + 1, c =>
    match get c with
    | none => none
    | some p =>
      match p.next with
      | none => some p.items
      | some c' => (follow get fuel (some c')).map fun rows => p.items ++ rows

/-- The cursors, followed from the first page on, come to an end with these rows. -/
def Enumerates (get : Option τ → Option (Page ρ τ)) (rows : List ρ) : Prop :=
  ∃ fuel, follow get fuel none = some rows

/-- There is one enumeration at most. -/
theorem follow_unique {get : Option τ → Option (Page ρ τ)} {fuel fuel' : ℕ} {c : Option τ}
    {out out' : List ρ} (h : follow get fuel c = some out) (h' : follow get fuel' c = some out') :
    out = out' := by
  induction fuel generalizing fuel' c out out' with
  | zero => simp [follow] at h
  | succ fuel ih =>
    cases fuel' with
    | zero => simp [follow] at h'
    | succ fuel' =>
      cases hp : get c with
      | none => simp [follow, hp] at h
      | some p =>
        cases hnext : p.next with
        | none =>
          simp only [follow, hp, hnext, Option.some.injEq] at h h'
          exact h.symm.trans h'
        | some c' =>
          simp only [follow, hp, hnext, Option.map_eq_some_iff] at h h'
          obtain ⟨rows, hrows, rfl⟩ := h
          obtain ⟨rows', hrows', rfl⟩ := h'
          rw [ih hrows hrows']

/-- What is left of the rows after a page. -/
def rest (after : List ρ → ρ → Bool) (rows : List ρ) : Option (List ρ) → List ρ
  | none => rows
  | some found => rows.filter (after found)

/-- A page of `limit` rows; one more row is looked for, and there is a next page if it is
there. -/
def page (after : List ρ → ρ → Bool) (limit : ℕ) (rows : List ρ) (c : Option (List ρ)) :
    Page ρ (List ρ) :=
  let found := (rest after rows c).take (limit + 1)
  if limit < found.length then ⟨found.take limit, some (found.take limit)⟩ else ⟨found, none⟩

/-- The pages of the list, each asked for with the page before it. -/
def pages (after : List ρ → ρ → Bool) (limit : ℕ) (rows : List ρ) (c : Option (List ρ)) :
    Option (Page ρ (List ρ)) := some (page after limit rows c)

section Pages

variable {after : List ρ → ρ → Bool} {limit : ℕ} {rows : List ρ} {c : Option (List ρ)}

theorem page_more (h : limit < (rest after rows c).length) :
    page after limit rows c =
      ⟨(rest after rows c).take limit, some ((rest after rows c).take limit)⟩ := by
  have hlen : limit < ((rest after rows c).take (limit + 1)).length := by
    rw [List.length_take]
    omega
  have htake : ((rest after rows c).take (limit + 1)).take limit =
      (rest after rows c).take limit := by
    rw [List.take_take]
    congr 1
    omega
  simp only [page, if_pos hlen, htake]

theorem page_last (h : (rest after rows c).length ≤ limit) :
    page after limit rows c = ⟨rest after rows c, none⟩ := by
  have htake : (rest after rows c).take (limit + 1) = rest after rows c :=
    List.take_of_length_le (by omega)
  simp only [page, htake, if_neg (show ¬limit < (rest after rows c).length by omega)]

theorem follow_more {fuel : ℕ} (h : limit < (rest after rows c).length) :
    follow (pages after limit rows) (fuel + 1) c =
      (follow (pages after limit rows) fuel (some ((rest after rows c).take limit))).map
        fun out => (rest after rows c).take limit ++ out := by
  simp only [follow, pages, page_more h]

theorem follow_last {fuel : ℕ} (h : (rest after rows c).length ≤ limit) :
    follow (pages after limit rows) (fuel + 1) c = some (rest after rows c) := by
  simp only [follow, pages, page_last h]

/-- The page number `k` of the list. -/
def pageRows (rows : List ρ) (limit k : ℕ) : List ρ := (rows.drop (k * limit)).take limit

/-- After the page number `k` the predicate selects what the list has left. -/
def ExactAt (after : List ρ → ρ → Bool) (limit : ℕ) (rows : List ρ) (k : ℕ) : Prop :=
  rows.filter (after (pageRows rows limit k)) = rows.drop ((k + 1) * limit)

/-- From an exact page on, exact pages yield the remaining rows. -/
theorem follow_exact (hlimit : 0 < limit)
    (h : ∀ k, (k + 1) * limit < rows.length → ExactAt after limit rows k) (fuel k : ℕ)
    (c : Option (List ρ)) (hfuel : rows.length - k * limit < fuel)
    (hc : rest after rows c = rows.drop (k * limit)) :
    follow (pages after limit rows) fuel c = some (rows.drop (k * limit)) := by
  induction fuel generalizing k c with
  | zero => omega
  | succ fuel ih =>
    have hlen : (rest after rows c).length = rows.length - k * limit := by
      rw [hc, List.length_drop]
    have hsucc : (k + 1) * limit = k * limit + limit := Nat.succ_mul k limit
    by_cases hmore : limit < (rest after rows c).length
    · have hnext : rest after rows (some (pageRows rows limit k)) =
          rows.drop ((k + 1) * limit) := h k (by omega)
      have hfollow := ih (k + 1) _ (by omega) hnext
      rw [follow_more hmore, hc, show (rows.drop (k * limit)).take limit =
        pageRows rows limit k from rfl, hfollow, hsucc, ← List.drop_drop]
      simp only [Option.map_some, pageRows, List.take_append_drop]
    · rw [follow_last (by omega), hc]

/-- Exact pages enumerate the rows. -/
theorem enumerates_of_exact (hlimit : 0 < limit)
    (h : ∀ k, (k + 1) * limit < rows.length → ExactAt after limit rows k) :
    Enumerates (pages after limit rows) rows := by
  use rows.length + 1
  have hfollow := follow_exact hlimit h (rows.length + 1) 0 none (by omega) (by simp [rest])
  simpa using hfollow

/-- The first row found after a page is the first one of the enumeration from there. -/
theorem follow_head {fuel : ℕ} {x : ρ} {xs out : List ρ} (hlimit : 0 < limit)
    (h : follow (pages after limit rows) fuel c = some out)
    (hc : rest after rows c = x :: xs) : ∃ ys, out = x :: ys := by
  cases fuel with
  | zero => simp [follow] at h
  | succ fuel =>
    by_cases hmore : limit < (rest after rows c).length
    · obtain ⟨n, hn⟩ : ∃ n, limit = n + 1 := ⟨limit - 1, by omega⟩
      rw [follow_more hmore, Option.map_eq_some_iff] at h
      obtain ⟨ys, -, hout⟩ := h
      rw [hc, hn, List.take_succ_cons] at hout
      exact ⟨xs.take n ++ ys, hout.symm⟩
    · rw [follow_last (by omega), hc, Option.some.injEq] at h
      exact ⟨xs, h.symm⟩

/-- An enumeration from the start of a page goes on after the page. -/
theorem follow_next {fuel k : ℕ} (hc : rest after rows c = rows.drop (k * limit))
    (hk : (k + 1) * limit < rows.length)
    (h : follow (pages after limit rows) fuel c = some (rows.drop (k * limit))) :
    ∃ fuel', follow (pages after limit rows) fuel' (some (pageRows rows limit k)) =
      some (rows.drop ((k + 1) * limit)) := by
  have hsucc : (k + 1) * limit = k * limit + limit := Nat.succ_mul k limit
  have hmore : limit < (rest after rows c).length := by
    rw [hc, List.length_drop]
    omega
  cases fuel with
  | zero => simp [follow] at h
  | succ fuel =>
    rw [follow_more hmore, hc, Option.map_eq_some_iff] at h
    obtain ⟨out, hfollow, hout⟩ := h
    have hsplit : (rows.drop (k * limit)).take limit ++ rows.drop ((k + 1) * limit) =
        rows.drop (k * limit) := by
      rw [hsucc, ← List.drop_drop, List.take_append_drop]
    have hrest : out = rows.drop ((k + 1) * limit) :=
      List.append_cancel_left (hout.trans hsplit.symm)
    rw [hrest] at hfollow
    exact ⟨fuel, hfollow⟩

/-- A page after which the remaining rows are enumerated is followed by no row before them. -/
theorem exact_of_follow {fuel k : ℕ} (hlimit : 0 < limit) (hnodup : rows.Nodup)
    (hafter : ∀ x ∈ rows.drop ((k + 1) * limit), after (pageRows rows limit k) x = true)
    (h : follow (pages after limit rows) fuel (some (pageRows rows limit k)) =
      some (rows.drop ((k + 1) * limit))) : ExactAt after limit rows k := by
  have hfilter : rest after rows (some (pageRows rows limit k)) =
      (rows.take ((k + 1) * limit)).filter (after (pageRows rows limit k)) ++
        rows.drop ((k + 1) * limit) := by
    rw [← List.filter_eq_self.mpr hafter, ← List.filter_append, List.take_append_drop]
    rfl
  cases hbefore : (rows.take ((k + 1) * limit)).filter (after (pageRows rows limit k)) with
  | nil => rwa [hbefore, List.nil_append] at hfilter
  | cons x xs =>
    rw [hbefore, List.cons_append] at hfilter
    obtain ⟨ys, hys⟩ := follow_head hlimit h hfilter
    have htake : x ∈ rows.take ((k + 1) * limit) :=
      List.mem_of_mem_filter (hbefore ▸ List.mem_cons_self)
    have hdrop : x ∈ rows.drop ((k + 1) * limit) := hys ▸ List.mem_cons_self
    exact absurd hdrop (List.disjoint_take_drop hnodup le_rfl htake)

/-- What the pages enumerate from a page on comes after it. -/
def AfterFollows (after : List ρ → ρ → Bool) (limit : ℕ) (rows : List ρ) : Prop :=
  ∀ k fuel, (k + 1) * limit < rows.length →
    follow (pages after limit rows) fuel (some (pageRows rows limit k)) =
      some (rows.drop ((k + 1) * limit)) →
    ∀ x ∈ rows.drop ((k + 1) * limit), after (pageRows rows limit k) x = true

/-- Pages that enumerate the rows are exact. -/
theorem exact_of_enumerates (hlimit : 0 < limit) (hnodup : rows.Nodup)
    (hafter : AfterFollows after limit rows) (h : Enumerates (pages after limit rows) rows)
    (k : ℕ) (hk : (k + 1) * limit < rows.length) : ExactAt after limit rows k := by
  have hstart : ∃ c fuel, rest after rows c = rows.drop (k * limit) ∧
      follow (pages after limit rows) fuel c = some (rows.drop (k * limit)) := by
    induction k with
    | zero =>
      obtain ⟨fuel, hfuel⟩ := h
      exact ⟨none, fuel, by simp [rest], by simpa using hfuel⟩
    | succ k ih =>
      have hlt : (k + 1) * limit < rows.length :=
        lt_of_le_of_lt (Nat.mul_le_mul_right limit (Nat.le_succ (k + 1))) hk
      obtain ⟨c, fuel, hc, hfollow⟩ := ih hlt
      obtain ⟨fuel', hnext⟩ := follow_next hc hlt hfollow
      exact ⟨some (pageRows rows limit k), fuel',
        exact_of_follow hlimit hnodup (hafter k fuel' hlt hnext) hnext, hnext⟩
  obtain ⟨c, fuel, hc, hfollow⟩ := hstart
  obtain ⟨fuel', hnext⟩ := follow_next hc hk hfollow
  exact exact_of_follow hlimit hnodup (hafter k fuel' hk hnext) hnext

/-- Pages found after a page only narrow what comes after it. -/
def Narrows (after : List ρ → ρ → Bool) : Prop :=
  ∀ found later : List ρ, later ≠ [] → (∀ r ∈ later, after found r = true) →
    ∀ x, after later x = true → after found x = true

theorem after_of_follow (hnarrow : Narrows after) (hlimit : 0 < limit) {fuel : ℕ}
    {found out : List ρ} (h : follow (pages after limit rows) fuel (some found) = some out) :
    ∀ x ∈ out, after found x = true := by
  induction fuel generalizing found out with
  | zero => simp [follow] at h
  | succ fuel ih =>
    intro x hx
    have hrest : ∀ y ∈ rest after rows (some found), after found y = true := by
      intro y hy
      exact (List.mem_filter.mp hy).2
    by_cases hmore : limit < (rest after rows (some found)).length
    · rw [follow_more hmore, Option.map_eq_some_iff] at h
      obtain ⟨tail, hfollow, rfl⟩ := h
      have hne : (rest after rows (some found)).take limit ≠ [] := by
        rw [ne_eq, List.take_eq_nil_iff, ← List.length_eq_zero_iff]
        omega
      rcases List.mem_append.mp hx with hpage | htail
      · exact hrest x (List.mem_of_mem_take hpage)
      · exact hnarrow found _ hne (fun r hr => hrest r (List.mem_of_mem_take hr)) x
          (ih hfollow x htail)
    · rw [follow_last (by omega), Option.some.injEq] at h
      exact hrest x (h ▸ hx)

theorem afterFollows_of_narrows (hnarrow : Narrows after) (hlimit : 0 < limit) :
    AfterFollows after limit rows := by
  intro k fuel hk h
  exact after_of_follow hnarrow hlimit h

end Pages

section Encoded

/-- A page from the rows found for it, one more than its length if there is a next page. -/
def cut (next : List ρ → Option τ) (limit : ℕ) (found : List ρ) : Page ρ τ :=
  let hasMore : Bool := limit < found.length
  let items := if hasMore then found.take limit else found
  ⟨items, if hasMore then next items else none⟩

variable {after : List ρ → ρ → Bool} {limit : ℕ} {rows : List ρ}
  {get : Option τ → Option (Page ρ τ)} {encode : List ρ → τ}

theorem cut_rest (next : List ρ → Option τ) (hlimit : 0 < limit)
    (hnext : ∀ found, found ≠ [] → next found = some (encode found)) (c : Option (List ρ)) :
    cut next limit ((rest after rows c).take (limit + 1)) =
      (page after limit rows c).map encode := by
  by_cases hmore : limit < ((rest after rows c).take (limit + 1)).length
  · have hne : ((rest after rows c).take (limit + 1)).take limit ≠ [] := by
      rw [ne_eq, List.take_eq_nil_iff, ← List.length_eq_zero_iff]
      omega
    simp only [cut, page, Page.map, hmore, decide_true, if_true, hnext _ hne, Option.map_some]
  · simp only [cut, page, Page.map, hmore, decide_false, if_false, Bool.false_eq_true,
      Option.map_none]

/-- Pages asked for with a text of the page before yield what the pages themselves yield. -/
theorem follow_encoded (hlimit : 0 < limit)
    (hget : ∀ c, c ≠ some [] → get (c.map encode) = some ((page after limit rows c).map encode))
    (fuel : ℕ) (c : Option (List ρ)) (hc : c ≠ some []) :
    follow get fuel (c.map encode) = follow (pages after limit rows) fuel c := by
  induction fuel generalizing c with
  | zero => rfl
  | succ fuel ih =>
    by_cases hmore : limit < (rest after rows c).length
    · have hne : (rest after rows c).take limit ≠ [] := by
        rw [ne_eq, List.take_eq_nil_iff, ← List.length_eq_zero_iff]
        omega
      have hfollow := ih (some ((rest after rows c).take limit)) (by simpa using hne)
      rw [Option.map_some] at hfollow
      simp only [follow, hget c hc, page_more hmore, Page.map, Option.map_some, hfollow, pages]
    · have hlast : (rest after rows c).length ≤ limit := by omega
      simp only [follow, hget c hc, page_last hlast, Page.map, Option.map_none, pages]

theorem enumerates_encoded (hlimit : 0 < limit)
    (hget : ∀ c, c ≠ some [] → get (c.map encode) = some ((page after limit rows c).map encode))
    (out : List ρ) :
    Enumerates get out ↔ Enumerates (pages after limit rows) out := by
  have hfollow := fun fuel => follow_encoded hlimit hget fuel none (by simp)
  simp only [Option.map_none] at hfollow
  simp only [Enumerates, hfollow]

end Encoded

section Nullable

variable {α : Type} [LinearOrder α] {x y : α}

/-- A nullable column as a sort key; null values come after all others. -/
def nullsLast {α : Type} : Option α → WithTop α
  | none => ⊤
  | some x => x

@[simp] theorem nullsLast_some_lt_some : nullsLast (some x) < nullsLast (some y) ↔ x < y :=
  WithTop.coe_lt_coe

@[simp] theorem nullsLast_some_lt_none : nullsLast (some x) < nullsLast none :=
  WithTop.coe_lt_top x

@[simp] theorem not_nullsLast_none_lt {c : Option α} : ¬nullsLast none < nullsLast c :=
  not_top_lt

omit [LinearOrder α] in
@[simp] theorem nullsLast_inj {c d : Option α} : nullsLast c = nullsLast d ↔ c = d := by
  cases c <;> cases d <;> simp [nullsLast]

end Nullable

section Ordered

variable [LinearOrder κ] {key : ρ → κ}

/-- The rows in the order of their keys. -/
def orderBy (key : ρ → κ) (rows : List ρ) : List ρ :=
  rows.insertionSort fun a b => key a ≤ key b

theorem orderBy_perm (rows : List ρ) : (orderBy key rows).Perm rows :=
  List.perm_insertionSort _ rows

theorem mem_orderBy {rows : List ρ} {x : ρ} : x ∈ orderBy key rows ↔ x ∈ rows :=
  List.mem_insertionSort _

theorem pairwise_orderBy_le (rows : List ρ) :
    (orderBy key rows).Pairwise fun a b => key a ≤ key b := by
  have htotal : Std.Total fun a b : ρ => key a ≤ key b := ⟨fun a b => le_total (key a) (key b)⟩
  have htrans : IsTrans ρ fun a b => key a ≤ key b := ⟨fun _ _ _ => le_trans⟩
  exact List.pairwise_insertionSort _ rows

theorem pairwise_orderBy {rows : List ρ} (hkeys : (rows.map key).Nodup) :
    (orderBy key rows).Pairwise fun a b => key a < key b := by
  have hle : (orderBy key rows).Pairwise fun a b => key a ≤ key b := pairwise_orderBy_le rows
  have hne : (orderBy key rows).Pairwise fun a b => key a ≠ key b :=
    List.pairwise_map.mp (((orderBy_perm rows).map key).nodup_iff.mpr hkeys)
  exact (hle.and hne).imp fun h => lt_of_le_of_ne h.1 h.2

theorem nodup_of_pairwise {rows : List ρ} (h : rows.Pairwise fun a b => key a < key b) :
    rows.Nodup := h.imp fun hlt heq => absurd hlt (by rw [heq]; exact lt_irrefl _)

/-- A selection from a table is in the order of the table. -/
theorem orderBy_filter {rows : List ρ} (hkeys : (rows.map key).Nodup) (p : ρ → Bool) :
    orderBy key (rows.filter p) = (orderBy key rows).filter p := by
  have hperm : (orderBy key (rows.filter p)).Perm ((orderBy key rows).filter p) :=
    (orderBy_perm _).trans ((orderBy_perm rows).filter p).symm
  have hselected : ((rows.filter p).map key).Nodup :=
    hkeys.sublist (List.filter_sublist.map key)
  refine hperm.eq_of_pairwise ?_ (pairwise_orderBy hselected)
    ((pairwise_orderBy hkeys).filter p)
  intro a b _ _ hab hba
  exact absurd (lt_trans hab hba) (lt_irrefl _)

/-- The row closes the page number `k`, and the list goes on after it. -/
def Closes (rows : List ρ) (limit k : ℕ) (r : ρ) : Prop :=
  (k + 1) * limit < rows.length ∧ rows[(k + 1) * limit - 1]? = some r

/-- After the row at a position there are, in an ordered list, the rows with larger keys. -/
theorem drop_eq_filter {rows : List ρ} (h : rows.Pairwise fun a b => key a < key b) {n : ℕ}
    {r : ρ} (hr : rows[n]? = some r) :
    rows.drop (n + 1) = rows.filter fun x => key r < key x := by
  induction rows generalizing n with
  | nil => simp at hr
  | cons a rows ih =>
    obtain ⟨ha, htail⟩ := List.pairwise_cons.mp h
    cases n with
    | zero =>
      obtain rfl : a = r := by simpa using hr
      have hself : rows.filter (fun x => decide (key a < key x)) = rows :=
        List.filter_eq_self.mpr fun x hx => by simpa using ha x hx
      simp [hself]
    | succ n =>
      rw [List.getElem?_cons_succ] at hr
      have hlt : key a < key r := ha r (List.mem_of_getElem? hr)
      simpa [not_lt_of_gt hlt] using ih htail hr

theorem filter_eq_iff {rows : List ρ} {p q : ρ → Bool} :
    rows.filter p = rows.filter q ↔ ∀ x ∈ rows, (p x = true ↔ q x = true) := by
  constructor
  · intro h x hx
    have hmem : x ∈ rows.filter p ↔ x ∈ rows.filter q := by rw [h]
    simpa [hx] using hmem
  · intro h
    exact List.filter_congr fun x hx => Bool.eq_iff_iff.mpr (h x hx)

/-- The pages enumerate an ordered list exactly if after each page the predicate selects
the rows whose keys are larger than that of the row that closes the page. -/
theorem enumerates_iff {after : List ρ → ρ → Bool} {limit : ℕ} {rows : List ρ}
    (hlimit : 0 < limit) (hsorted : rows.Pairwise fun a b => key a < key b)
    (hafter : AfterFollows after limit rows) :
    Enumerates (pages after limit rows) rows ↔
      ∀ k r, Closes rows limit k r → ∀ x ∈ rows,
        (after (pageRows rows limit k) x = true ↔ key r < key x) := by
  have hexact : ∀ k r, Closes rows limit k r → (ExactAt after limit rows k ↔
      ∀ x ∈ rows, (after (pageRows rows limit k) x = true ↔ key r < key x)) := by
    intro k r hr
    have hpos : (k + 1) * limit - 1 + 1 = (k + 1) * limit :=
      Nat.sub_add_cancel (Nat.mul_pos k.succ_pos hlimit)
    have hdrop := drop_eq_filter hsorted hr.2
    rw [hpos] at hdrop
    rw [ExactAt, hdrop, filter_eq_iff]
    simp only [decide_eq_true_eq]
  constructor
  · intro h k r hr
    exact (hexact k r hr).mp
      (exact_of_enumerates hlimit (nodup_of_pairwise hsorted) hafter h k hr.1)
  · intro h
    refine enumerates_of_exact hlimit fun k hk => ?_
    have hlt : (k + 1) * limit - 1 < rows.length := by omega
    have hr : Closes rows limit k rows[(k + 1) * limit - 1] :=
      ⟨hk, List.getElem?_eq_getElem hlt⟩
    exact (hexact k _ hr).mpr (h k _ hr)

/-- The row that closes a page is the last one of the page. -/
theorem getLast?_pageRows {rows : List ρ} {limit k : ℕ} {r : ρ} (hlimit : 0 < limit)
    (h : Closes rows limit k r) : (pageRows rows limit k).getLast? = some r := by
  have hsucc : (k + 1) * limit = k * limit + limit := Nat.succ_mul k limit
  have hlen : (pageRows rows limit k).length = limit := by
    rw [pageRows, List.length_take, List.length_drop]
    have := h.1
    omega
  rw [List.getLast?_eq_getElem?, hlen, pageRows, List.getElem?_take_of_lt (by omega),
    List.getElem?_drop, show k * limit + (limit - 1) = (k + 1) * limit - 1 by omega]
  exact h.2

end Ordered

end NexaStays.Keyset
