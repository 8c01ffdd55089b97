import NexaStays.CalendarSync
import NexaStays.IsoDates

/-!
# Nights and ranges of nights

`expandNights` and `collapseNights` as the loops over texts that they are: a night is a text
`YYYY-MM-DD`, the day after it comes from a `Date` of its midnight in UTC, and comparisons are
those of texts. On dates they are inverse to each other.
-/
namespace NexaStays.NightRanges

open NexaStays.IsoDates

open NexaStays.HostCalendar (nightsBetween)
open NexaStays.CalendarSync (ParsedEvent)
open NexaStays.IsoDates.IsoDate (parse text text_lt_iff text_inj dayNumber dayNumber_inj
  dayNumber_next exists_next parse_text)

/-- The text of a day after a midnight in UTC, the first ten characters of the ISO form; a text
that is no date has none. The year after 9999 is written with a sign and six digits. -/
def dayAfter (night : String) : Option String :=
  (parse night).map fun d => (d.next?.map text).getD "+010000-01"

/-- `nights.add(night)`, which keeps the order of insertion. -/
def add (nights : List String) (night : String) : List String :=
  if night ∈ nights then nights else nights ++ [night]

/-- `while (cursor < end)`. -/
def addNights : ℕ → String → String → List String → Option (List String)
  | 0, _, _, _ => none
  | fuel + 1, cursor, stop, nights =>
    if cursor < stop then
      (dayAfter cursor).bind fun next => addNights fuel next stop (add nights cursor)
    else some nights

structure TextRange where
  start : String
  stop : String
  deriving DecidableEq, Repr

/-- The nights of the events in the horizon `[first, last)`. -/
def expandNights (fuel : ℕ) (events : List TextRange) (first last : String) :
    Option (List String) :=
  events.foldlM (fun nights e => addNights fuel (if e.start < first then first else e.start)
    (if last < e.stop then last else e.stop) nights) []

/-- The loop of `collapseNights`, after the nights from `start` to `prev`. -/
def collapseFrom (start prev : String) : List String → Option (List TextRange)
  | [] => (dayAfter prev).map fun stop => [⟨start, stop⟩]
  | night :: rest => (dayAfter prev).bind fun nextExpected =>
    if night = nextExpected then collapseFrom start night rest
    else (collapseFrom night night rest).map fun ranges => ⟨start, nextExpected⟩ :: ranges

def collapseNights : List String → Option (List TextRange)
  | [] => some []
  | first :: rest => collapseFrom first first rest

theorem mem_foldl_add {xs nights : List String} {x : String} :
    x ∈ xs.foldl add nights ↔ x ∈ nights ∨ x ∈ xs := by
  induction xs generalizing nights with
  | nil => simp
  | cons y xs ih =>
    rw [List.foldl_cons, ih, add]
    split_ifs with hy
    · constructor
      · rintro (h | h)
        · exact Or.inl h
        · exact Or.inr (List.mem_cons_of_mem y h)
      · rintro (h | h)
        · exact Or.inl h
        · obtain rfl | h := List.mem_cons.mp h
          · exact Or.inl hy
          · exact Or.inr h
    · simp [or_assoc]

theorem nodup_foldl_add {xs nights : List String} (h : nights.Nodup) :
    (xs.foldl add nights).Nodup := by
  induction xs generalizing nights with
  | nil => exact h
  | cons y xs ih =>
    refine ih ?_
    rw [add]
    split_ifs with hy
    · exact h
    · exact List.nodup_append.mpr ⟨h, List.nodup_singleton y, by grind⟩

/-- New and different nights are appended. -/
theorem foldl_add_eq {xs nights : List String} (h : (nights ++ xs).Nodup) :
    xs.foldl add nights = nights ++ xs := by
  induction xs generalizing nights with
  | nil => simp
  | cons y xs ih =>
    have hy : y ∉ nights := fun hmem =>
      (List.nodup_append.mp h).2.2 y hmem y (by simp) rfl
    rw [List.foldl_cons, add, if_neg hy, ih (by simpa using h), List.append_assoc]
    rfl

def lastDate : IsoDate :=
  ⟨9999, 12, 31, by decide, january_le_december, by decide, by decide, by decide⟩

theorem lastDate_text : lastDate.text = "9999-12-31" := by decide

/-- The dates of `n` days, as far as there are dates. -/
def daysFrom : ℕ → IsoDate → List IsoDate
  | 0, _ => []
  | n + 1, d => d :: (d.next?.map (daysFrom n)).getD []

structure DateRange where
  start : IsoDate
  stop : IsoDate
  deriving DecidableEq, Repr

def DateRange.text (r : DateRange) : TextRange := ⟨r.start.text, r.stop.text⟩

/-- The dates of `[start, stop)`. -/
def DateRange.days (r : DateRange) : List IsoDate :=
  daysFrom (r.stop.dayNumber - r.start.dayNumber).toNat r.start

variable {a b d : IsoDate}

theorem mem_daysFrom {n : ℕ} (h : a.dayNumber + n ≤ b.dayNumber) :
    d ∈ daysFrom n a ↔ a.dayNumber ≤ d.dayNumber ∧ d.dayNumber < a.dayNumber + n := by
  induction n generalizing a with
  | zero =>
    simp only [daysFrom, List.not_mem_nil, false_iff]
    omega
  | succ n ih =>
    obtain ⟨c, hc⟩ := exists_next (a := a) (b := b) (by omega)
    have hnumber := dayNumber_next hc
    rw [daysFrom, hc, Option.map_some, Option.getD_some, List.mem_cons, ih (by omega),
      ← dayNumber_inj]
    omega

theorem mem_days {r : DateRange} :
    d ∈ r.days ↔ r.start.dayNumber ≤ d.dayNumber ∧ d.dayNumber < r.stop.dayNumber := by
  by_cases h : r.start.dayNumber ≤ r.stop.dayNumber
  · rw [DateRange.days, mem_daysFrom (b := r.stop) (by omega)]
    omega
  · have hnone : (r.stop.dayNumber - r.start.dayNumber).toNat = 0 := by omega
    rw [DateRange.days, hnone]
    simp only [daysFrom, List.not_mem_nil, false_iff]
    omega

/-- One day more, at the end. -/
theorem daysFrom_succ {n : ℕ} (h : d.dayNumber = a.dayNumber + n) :
    daysFrom (n + 1) a = daysFrom n a ++ [d] := by
  induction n generalizing a with
  | zero =>
    obtain rfl : d = a := dayNumber_inj.mp (by simpa using h)
    cases hc : d.next? <;> simp [daysFrom, hc]
  | succ n ih =>
    obtain ⟨c, hc⟩ := exists_next (a := a) (b := d) (by omega)
    have hnumber := dayNumber_next hc
    rw [daysFrom, hc, Option.map_some, Option.getD_some, ih (by omega), daysFrom, hc]
    rfl

/-- The day after a date that has one. -/
theorem dayAfter_text (h : a.next? = some b) : dayAfter a.text = some b.text := by
  rw [dayAfter, parse_text, Option.map_some, h]
  rfl

/-- The loop inserts the nights from its cursor on. -/
theorem addNights_eq {fuel n : ℕ} (hn : n = (b.dayNumber - a.dayNumber).toNat) (hfuel : n < fuel)
    (nights : List String) :
    addNights fuel a.text b.text nights = some (((daysFrom n a).map text).foldl add nights) := by
  induction n generalizing a fuel nights with
  | zero =>
    obtain ⟨fuel, rfl⟩ := Nat.exists_eq_succ_of_ne_zero hfuel.ne'
    have hstop : ¬a.text < b.text := by
      rw [text_lt_iff]
      omega
    rw [addNights, if_neg hstop]
    rfl
  | succ n ih =>
    obtain ⟨fuel, rfl⟩ := Nat.exists_eq_succ_of_ne_zero (by omega : fuel ≠ 0)
    have hgo : a.text < b.text := by
      rw [text_lt_iff]
      omega
    obtain ⟨c, hc⟩ := exists_next (text_lt_iff.mp hgo)
    have hnumber := dayNumber_next hc
    rw [addNights, if_pos hgo, dayAfter_text hc, Option.bind_some,
      ih (by omega) (by omega) (add nights a.text), daysFrom, hc]
    rfl

/-- A range as far as it is in the horizon. -/
def DateRange.clip (horizon r : DateRange) : DateRange :=
  ⟨if r.start.dayNumber < horizon.start.dayNumber then horizon.start else r.start,
    if horizon.stop.dayNumber < r.stop.dayNumber then horizon.stop else r.stop⟩

theorem clip_text (horizon r : DateRange) :
    (horizon.clip r).start.text =
        (if r.text.start < horizon.text.start then horizon.text.start else r.text.start) ∧
      (horizon.clip r).stop.text =
        (if horizon.text.stop < r.text.stop then horizon.text.stop else r.text.stop) := by
  simp only [DateRange.clip, DateRange.text, text_lt_iff]
  constructor <;> split_ifs <;> rfl

theorem mem_clip_days {horizon r : DateRange} :
    d ∈ (horizon.clip r).days ↔ d ∈ horizon.days ∧ d ∈ r.days := by
  rw [mem_days, mem_days, mem_days, DateRange.clip]
  split_ifs <;> (dsimp only; omega)

/-- The number of steps that the loop of an event can take. -/
def DateRange.length (r : DateRange) : ℕ := (r.stop.dayNumber - r.start.dayNumber).toNat

theorem length_clip_le (horizon r : DateRange) : (horizon.clip r).length ≤ horizon.length := by
  rw [DateRange.length, DateRange.length, DateRange.clip]
  split_ifs <;> (dsimp only; omega)

theorem foldlM_addNights {horizon : DateRange} {fuel : ℕ} (hfuel : horizon.length < fuel)
    (events : List DateRange) (nights : List String) :
    (events.map DateRange.text).foldlM (fun nights e => addNights fuel
        (if e.start < horizon.text.start then horizon.text.start else e.start)
        (if horizon.text.stop < e.stop then horizon.text.stop else e.stop) nights) nights =
      some ((events.flatMap fun e => (horizon.clip e).days.map text).foldl add nights) := by
  induction events generalizing nights with
  | nil => rfl
  | cons e events ih =>
    have hclip := clip_text horizon e
    have hlength := length_clip_le horizon e
    rw [List.map_cons, List.foldlM_cons, ← hclip.1, ← hclip.2, addNights_eq rfl (by
      rw [DateRange.length] at hlength
      omega), List.flatMap_cons, List.foldl_append]
    exact ih _

/-- The loops insert the nights of one event after the other. -/
theorem expandNights_eq {horizon : DateRange} {fuel : ℕ} (hfuel : horizon.length < fuel)
    (events : List DateRange) :
    expandNights fuel (events.map DateRange.text) horizon.start.text horizon.stop.text =
      some ((events.flatMap fun e => (horizon.clip e).days.map text).foldl add []) :=
  foldlM_addNights hfuel events []

/-- Insertion keeps the first of equal nights. -/
theorem foldl_add_map {xs seen : List IsoDate} :
    (xs.map text).foldl add (seen.map text) =
      (seen ++ (xs.filter (· ∉ seen)).eraseDups).map text := by
  induction xs generalizing seen with
  | nil => simp
  | cons d xs ih =>
    have hmem : d.text ∈ seen.map text ↔ d ∈ seen := by
      simp [text_inj]
    rw [List.map_cons, List.foldl_cons, add]
    by_cases hd : d ∈ seen
    · rw [if_pos (hmem.mpr hd), ih, List.filter_cons_of_neg (by simpa using hd)]
    · have hrest : xs.filter (· ∉ seen ++ [d]) =
          (xs.filter (· ∉ seen)).filter fun x => !x == d := by
        rw [List.filter_filter]
        refine List.filter_congr fun x _ => ?_
        rw [beq_eq_decide]
        simp [and_comm]
      have hseen : seen.map text ++ [d.text] = (seen ++ [d]).map text := by simp
      rw [if_neg (mt hmem.mp hd), hseen, ih, List.filter_cons_of_pos (by simpa using hd),
        List.eraseDups_cons, hrest, List.append_assoc]
      rfl

theorem eraseDups_map {α β : Type} [DecidableEq α] [DecidableEq β] {f : α → β}
    (hf : Function.Injective f) (xs : List α) : (xs.map f).eraseDups = xs.eraseDups.map f := by
  induction hlength : xs.length using Nat.strong_induction_on generalizing xs with
  | _ n ih =>
    cases xs with
    | nil => rfl
    | cons x xs =>
      have hfilter : (xs.map f).filter (fun y => !y == f x) =
          (xs.filter fun y => !y == x).map f := by
        rw [List.filter_map]
        congr 1
        refine List.filter_congr fun y _ => ?_
        simp [hf.eq_iff]
      have hshort : (xs.filter fun y => !y == x).length < n := by
        have := List.length_filter_le (fun y => !y == x) xs
        rw [List.length_cons] at hlength
        omega
      rw [List.map_cons, List.eraseDups_cons, List.eraseDups_cons, hfilter, ih _ hshort _ rfl,
        List.map_cons]

theorem daysFrom_dayNumber {n : ℕ} (h : a.dayNumber + n ≤ b.dayNumber) :
    (daysFrom n a).map dayNumber = (List.range n).map fun k : ℕ => a.dayNumber + (k : ℤ) := by
  induction n generalizing a with
  | zero => rfl
  | succ n ih =>
    obtain ⟨c, hc⟩ := exists_next (a := a) (b := b) (by omega)
    have hnumber := dayNumber_next hc
    rw [daysFrom, hc, Option.map_some, Option.getD_some, List.map_cons, ih (by omega),
      List.range_succ_eq_map, List.map_cons, List.map_map, hnumber]
    refine congrArg₂ List.cons (by simp) (List.map_congr_left fun k _ => ?_)
    simp only [Function.comp_apply]
    omega

theorem days_dayNumber (r : DateRange) :
    r.days.map dayNumber = nightsBetween r.start.dayNumber r.stop.dayNumber := by
  rw [DateRange.days, nightsBetween]
  by_cases h : r.start.dayNumber ≤ r.stop.dayNumber
  · exact daysFrom_dayNumber (b := r.stop) (by omega)
  · have hnone : (r.stop.dayNumber - r.start.dayNumber).toNat = 0 := by omega
    rw [hnone]
    rfl

/-- On texts and on the numbers of days the events have the same nights, in the same order. -/
theorem expandNights_days {horizon : DateRange} {fuel : ℕ} (hfuel : horizon.length < fuel)
    {events : List ParsedEvent} {ranges : List DateRange}
    (h : List.Forall₂ (fun e r => e.startDate = r.start.dayNumber ∧ e.endDate = r.stop.dayNumber)
      events ranges) :
    ∃ nights : List IsoDate,
      expandNights fuel (ranges.map DateRange.text) horizon.start.text horizon.stop.text =
        some (nights.map text) ∧
      CalendarSync.expandNights events ⟨horizon.start.dayNumber, horizon.stop.dayNumber⟩ =
        nights.map dayNumber := by
  have hdays : (events.flatMap fun e => nightsBetween (max e.startDate horizon.start.dayNumber)
      (min e.endDate horizon.stop.dayNumber)) =
      (ranges.flatMap fun r => (horizon.clip r).days).map dayNumber := by
    induction h with
    | nil => rfl
    | @cons e r events ranges he _ ih =>
      have hstart : (horizon.clip r).start.dayNumber = max e.startDate horizon.start.dayNumber := by
        rw [he.1]
        dsimp only [DateRange.clip]
        split_ifs <;> omega
      have hstop : (horizon.clip r).stop.dayNumber = min e.endDate horizon.stop.dayNumber := by
        rw [he.2]
        dsimp only [DateRange.clip]
        split_ifs <;> omega
      rw [List.flatMap_cons, List.flatMap_cons, List.map_append, ih, days_dayNumber, hstart, hstop]
  refine ⟨(ranges.flatMap fun r => (horizon.clip r).days).eraseDups, ?_, ?_⟩
  · have hnights := @foldl_add_map (ranges.flatMap fun r => (horizon.clip r).days) []
    rw [expandNights_eq hfuel, ← List.map_flatMap]
    simpa using congrArg some hnights
  · rw [CalendarSync.expandNights, hdays, eraseDups_map fun _ _ => dayNumber_inj.mp]

/-- The ranges of the nights from `a` to `b` and of later ones. -/
theorem collapseFrom_eq {ds : List IsoDate} (hab : a.dayNumber ≤ b.dayNumber)
    (hb : ∃ c, b.next? = some c) (hnext : ∀ d ∈ ds, ∃ c, d.next? = some c)
    (hsorted : (b :: ds).Pairwise (·.dayNumber < ·.dayNumber)) :
    ∃ ranges : List DateRange,
      collapseFrom a.text b.text (ds.map text) = some (ranges.map DateRange.text) ∧
      (∀ r ∈ ranges, a.dayNumber ≤ r.start.dayNumber ∧ r.start.dayNumber < r.stop.dayNumber) ∧
      ranges.Pairwise (·.stop.dayNumber < ·.start.dayNumber) ∧
      ranges.flatMap DateRange.days =
        daysFrom (b.dayNumber - a.dayNumber + 1).toNat a ++ ds := by
  obtain ⟨c, hc⟩ := hb
  have hnumber := dayNumber_next hc
  have hdays : (c.dayNumber - a.dayNumber).toNat = (b.dayNumber - a.dayNumber + 1).toNat := by
    omega
  induction ds generalizing a b c with
  | nil =>
    refine ⟨[⟨a, c⟩], ?_, ?_, List.pairwise_singleton _ _, ?_⟩
    · rw [List.map_nil, collapseFrom, dayAfter_text hc]
      rfl
    · intro r hr
      obtain rfl := List.mem_singleton.mp hr
      exact ⟨le_rfl, by dsimp only; omega⟩
    · simp [DateRange.days, hdays]
  | cons d ds ih =>
    obtain ⟨hafter, hrest⟩ := List.pairwise_cons.mp hsorted
    have hbd := hafter d (by simp)
    obtain ⟨c', hc'⟩ := hnext d (by simp)
    have hnumber' := dayNumber_next hc'
    have hlater : ∀ e ∈ ds, ∃ c, e.next? = some c := fun e he =>
      hnext e (List.mem_cons_of_mem d he)
    rw [List.map_cons, collapseFrom, dayAfter_text hc, Option.bind_some]
    by_cases hdc : d = c
    · -- the night after the last one makes the open range longer
      subst hdc
      obtain ⟨ranges, heq, hbounds, hapart, hall⟩ :=
        ih (a := a) (by omega) hlater hrest c' hc' hnumber' (by omega)
      refine ⟨ranges, by rw [if_pos rfl, heq], hbounds, hapart, ?_⟩
      have hsucc : (d.dayNumber - a.dayNumber + 1).toNat =
          (b.dayNumber - a.dayNumber + 1).toNat + 1 := by omega
      rw [hall, hsucc, daysFrom_succ (d := d) (by omega), List.append_assoc]
      rfl
    · have hne : d.dayNumber ≠ c.dayNumber := fun h => hdc (dayNumber_inj.mp h)
      obtain ⟨ranges, heq, hbounds, hapart, hall⟩ :=
        ih (a := d) le_rfl hlater hrest c' hc' hnumber' (by omega)
      refine ⟨⟨a, c⟩ :: ranges, ?_, ?_, ?_, ?_⟩
      · rw [if_neg (fun h => hdc (text_inj.mp h)), heq]
        rfl
      · intro r hr
        obtain rfl | hr := List.mem_cons.mp hr
        · exact ⟨le_rfl, by dsimp only; omega⟩
        · have := hbounds r hr
          exact ⟨by omega, this.2⟩
      · refine List.pairwise_cons.mpr ⟨fun r hr => ?_, hapart⟩
        have := hbounds r hr
        dsimp only
        omega
      · have hone : daysFrom (d.dayNumber - d.dayNumber + 1).toNat d = [d] := by
          cases hd : d.next? <;> simp [daysFrom, hd]
        rw [List.flatMap_cons, hall, hone, DateRange.days, hdays]
        rfl

/-- The ranges of a list of nights. -/
theorem collapseNights_eq {ds : List IsoDate} (hnext : ∀ d ∈ ds, ∃ c, d.next? = some c)
    (hsorted : ds.Pairwise (·.dayNumber < ·.dayNumber)) :
    ∃ ranges : List DateRange,
      collapseNights (ds.map text) = some (ranges.map DateRange.text) ∧
      (∀ r ∈ ranges, r.start.dayNumber < r.stop.dayNumber) ∧
      ranges.Pairwise (·.stop.dayNumber < ·.start.dayNumber) ∧
      ranges.flatMap DateRange.days = ds := by
  cases ds with
  | nil => exact ⟨[], rfl, by simp, List.Pairwise.nil, rfl⟩
  | cons d ds =>
    obtain ⟨ranges, heq, hbounds, hapart, hall⟩ := collapseFrom_eq (a := d) le_rfl
      (hnext d (by simp)) (fun e he => hnext e (List.mem_cons_of_mem d he)) hsorted
    refine ⟨ranges, heq, fun r hr => (hbounds r hr).2, hapart, ?_⟩
    have hone : daysFrom (d.dayNumber - d.dayNumber + 1).toNat d = [d] := by
      cases hd : d.next? <;> simp [daysFrom, hd]
    rw [hall, hone]
    rfl

/-- A range whose days are in the horizon is not clipped. -/
theorem clip_of_days {horizon r : DateRange} (hr : r.start.dayNumber < r.stop.dayNumber)
    (h : ∀ d ∈ r.days, d ∈ horizon.days) : horizon.clip r = r := by
  have hfirst := mem_days.mp (h r.start (mem_days.mpr ⟨le_rfl, hr⟩))
  obtain ⟨last, hlast⟩ := IsoDate.exists_dayNumber (a := r.start) (b := r.stop)
    (n := r.stop.dayNumber - 1) (by omega) (by omega)
  have hlast' := mem_days.mp (h last (mem_days.mpr (by omega)))
  rw [DateRange.clip, if_neg (by omega), if_neg (by omega)]

/-- Expanding the ranges of a list of nights in a horizon that has them gives the list back. -/
theorem expandNights_ranges {ds : List IsoDate} {ranges : List DateRange} {horizon : DateRange}
    {fuel : ℕ} (hfuel : horizon.length < fuel)
    (hranges : ∀ r ∈ ranges, r.start.dayNumber < r.stop.dayNumber)
    (hall : ranges.flatMap DateRange.days = ds)
    (hsorted : ds.Pairwise (·.dayNumber < ·.dayNumber)) (hin : ∀ d ∈ ds, d ∈ horizon.days) :
    expandNights fuel (ranges.map DateRange.text) horizon.start.text horizon.stop.text =
      some (ds.map text) := by
  have hclip : ∀ r ∈ ranges, (horizon.clip r).days.map text = r.days.map text := by
    intro r hr
    rw [clip_of_days (hranges r hr) fun d hd => hin d (hall ▸ List.mem_flatMap.mpr ⟨r, hr, hd⟩)]
  have hnodup : (ds.map text).Nodup := by
    refine List.Pairwise.map text (fun a b hab heq => ?_) hsorted
    rw [text_inj.mp heq] at hab
    exact lt_irrefl _ hab
  rw [expandNights_eq hfuel, List.flatMap_congr hclip, ← List.map_flatMap, hall,
    foldl_add_eq (by simpa using hnodup), List.nil_append]

/-- The nights of the events in a horizon are those of their union; and the ranges of nights
that are not the last date are apart, in order and of these nights. -/
theorem nights_and_ranges :
    (∀ (events : List DateRange) (horizon : DateRange), ∃ nights : List String,
      (∀ fuel > horizon.length, expandNights fuel (events.map DateRange.text) horizon.start.text
        horizon.stop.text = some nights) ∧
      nights.Nodup ∧
      ∀ night, night ∈ nights ↔
        ∃ d : IsoDate, d.text = night ∧ d ∈ horizon.days ∧ ∃ e ∈ events, d ∈ e.days) ∧
    ∀ ds : List IsoDate, (∀ d ∈ ds, d.text < "9999-12-31") →
      (ds.map text).Pairwise (· < ·) → ∃ ranges : List DateRange,
      collapseNights (ds.map text) = some (ranges.map DateRange.text) ∧
      (∀ r ∈ ranges, r.start.text < r.stop.text) ∧
      ranges.Pairwise (·.stop.text < ·.start.text) ∧
      ∀ horizon : DateRange, (∀ d ∈ ds, d ∈ horizon.days) → ∀ fuel > horizon.length,
        expandNights fuel (ranges.map DateRange.text) horizon.start.text horizon.stop.text =
          some (ds.map text) := by
  constructor
  · intro events horizon
    refine ⟨_, fun fuel hfuel => expandNights_eq hfuel events, nodup_foldl_add List.nodup_nil,
      fun night => ?_⟩
    rw [mem_foldl_add]
    simp only [List.not_mem_nil, false_or, List.mem_flatMap, List.mem_map, mem_clip_days]
    constructor
    · rintro ⟨e, he, d, ⟨hhorizon, hd⟩, rfl⟩
      exact ⟨d, rfl, hhorizon, e, he, hd⟩
    · rintro ⟨d, rfl, hhorizon, e, he, hd⟩
      exact ⟨e, he, d, ⟨hhorizon, hd⟩, rfl⟩
  · intro ds hlast hsorted
    have hnext : ∀ d ∈ ds, ∃ c, d.next? = some c := fun d hd =>
      exists_next (b := lastDate) (text_lt_iff.mp (lt_of_lt_of_eq (hlast d hd) lastDate_text.symm))
    have hdays : ds.Pairwise (·.dayNumber < ·.dayNumber) :=
      (List.pairwise_map.mp hsorted).imp text_lt_iff.mp
    obtain ⟨ranges, heq, hranges, hapart, hall⟩ := collapseNights_eq hnext hdays
    exact ⟨ranges, heq, fun r hr => text_lt_iff.mpr (hranges r hr), hapart.imp text_lt_iff.mpr,
      fun horizon hin fuel hfuel => expandNights_ranges hfuel hranges hall hdays hin⟩

/-- A leap day and the night before it, and a night apart. -/
theorem nights_and_ranges_leap :
    ∃ ranges : List DateRange,
      collapseNights ["2024-02-28", "2024-02-29", "2024-03-05"] =
          some (ranges.map DateRange.text) ∧
        ranges.Pairwise (·.stop.text < ·.start.text) := by
  obtain ⟨ranges, heq, -, hapart, -⟩ := nights_and_ranges.2
    [⟨2024, 2, 28, by decide, by decide, by decide, by decide, by decide⟩,
      ⟨2024, 2, 29, by decide, by decide, by decide, by decide, by decide⟩,
      ⟨2024, 3, 5, by decide, by decide, by decide, by decide, by decide⟩]
    (by decide +kernel) (by decide +kernel)
  exact ⟨ranges, heq, hapart⟩

/-- A sign sorts before the digits. -/
theorem not_text_lt_sign (d : IsoDate) (rest : List Char) :
    ¬d.text < String.ofList ('+' :: rest) := by
  have hdigit : '+' < digit (d.year / 100 / 10 % 10) := by
    have hlt : d.year / 100 / 10 % 10 < 10 := Nat.mod_lt _ (by decide)
    generalize d.year / 100 / 10 % 10 = n at hlt ⊢
    interval_cases n <;> decide
  rw [String.lt_iff_toList_lt, text, String.toList_ofList, String.toList_ofList, four, two,
    List.cons_append, List.cons_append, List.cons_lt_cons_iff]
  rintro (h | ⟨h, -⟩)
  · exact lt_asymm h hdigit
  · exact hdigit.ne' h

/-- The range of the last date has no nights. -/
theorem last_night_range :
    collapseNights ["9999-12-31"] = some [⟨"9999-12-31", "+010000-01"⟩] ∧
      ¬"9999-12-31" < "+010000-01" ∧
      ∀ (fuel : ℕ) (horizon : DateRange),
        expandNights fuel [⟨"9999-12-31", "+010000-01"⟩] horizon.start.text horizon.stop.text ≠
          some ["9999-12-31"] := by
  have hsign : ∀ d : IsoDate, ¬d.text < "+010000-01" := fun d => not_text_lt_sign d _
  have hlast : ¬"9999-12-31" < "+010000-01" := by decide
  refine ⟨by decide +kernel, hlast, fun fuel horizon h => ?_⟩
  have hstart : ¬(if "9999-12-31" < horizon.start.text then horizon.start.text
      else "9999-12-31") < "+010000-01" := by
    split_ifs
    · exact hsign _
    · exact hlast
  rw [expandNights, List.foldlM_cons, if_neg (hsign horizon.stop)] at h
  cases fuel with
  | zero => simp [addNights] at h
  | succ fuel =>
    rw [addNights, if_neg hstart] at h
    simp at h

end NexaStays.NightRanges
