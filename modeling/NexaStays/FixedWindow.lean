import Mathlib.Algebra.Order.Ring.Int
import Mathlib.Data.List.Basic
import Mathlib.Tactic.Common

/-!
# Fixed windows

A counter with the time of its next reset. The first event after the reset opens a new
window; inside a window at most `limit` events are counted. Any interval of the length of a
window meets two of them at most.
-/
namespace NexaStays.FixedWindow

structure Window where
  count : ℕ
  resetAt : ℤ
  deriving DecidableEq, Repr

/-- The window after an event at the time `now`; nothing if the event is refused. -/
def Window.bump (limit : ℕ) (width now : ℤ) : Option Window → Option Window
  | none => some ⟨1, now + width⟩
  | some w =>
    if w.resetAt ≤ now then some ⟨1, now + width⟩
    else if limit ≤ w.count then none
    else some { w with count := w.count + 1 }

/-- A counted event, with the start of its window. -/
structure Counted where
  start : ℤ
  time : ℤ
  deriving DecidableEq, Repr

variable {limit : ℕ} {width now : ℤ} {events : List Counted}

/-- The events of one window. -/
def ofWindow (start : ℤ) (events : List Counted) : List Counted :=
  events.filter fun c => c.start = start

/-- Events lie in their windows, no window holds more than `limit`, and windows do not
overlap. -/
structure Windows (limit : ℕ) (width : ℤ) (events : List Counted) : Prop where
  inside : ∀ c ∈ events, c.start ≤ c.time ∧ c.time < c.start + width
  few : ∀ start, (ofWindow start events).length ≤ limit
  apart : ∀ c ∈ events, ∀ d ∈ events,
    c.start = d.start ∨ c.start + width ≤ d.start ∨ d.start + width ≤ c.start

theorem Windows.nil : Windows limit width [] :=
  ⟨by simp, by simp [ofWindow], by simp⟩

/-- The events of the interval from `start` to `start + width`, both ends included. -/
def inInterval (start width : ℤ) (events : List Counted) : List Counted :=
  events.filter fun c => start ≤ c.time ∧ c.time ≤ start + width

/-- Three windows do not meet one interval. -/
theorem Windows.two_starts (h : Windows limit width events) {start : ℤ} {a b c : Counted}
    (ha : a ∈ inInterval start width events) (hb : b ∈ inInterval start width events)
    (hc : c ∈ inInterval start width events) :
    b.start = a.start ∨ c.start = a.start ∨ c.start = b.start := by
  have hmem : ∀ {x : Counted}, x ∈ inInterval start width events →
      x ∈ events ∧ start ≤ x.time ∧ x.time ≤ start + width := fun hx => by
    simpa [inInterval] using hx
  obtain ⟨ha, halo, hahi⟩ := hmem ha
  obtain ⟨hb, hblo, hbhi⟩ := hmem hb
  obtain ⟨hc, hclo, hchi⟩ := hmem hc
  have haw := h.inside a ha
  have hbw := h.inside b hb
  have hcw := h.inside c hc
  have hab := h.apart a ha b hb
  have hac := h.apart a ha c hc
  have hbc := h.apart b hb c hc
  omega

/-- The events of an interval belong to two windows at most. -/
theorem Windows.length_inInterval_le (h : Windows limit width events) (start : ℤ) :
    (inInterval start width events).length ≤ 2 * limit := by
  have hle : ∀ s, ((inInterval start width events).filter fun c => c.start = s).length ≤ limit := by
    intro s
    have hsub : ((inInterval start width events).filter fun c => c.start = s).Sublist
        (ofWindow s events) := List.filter_sublist.filter _
    exact hsub.length_le.trans (h.few s)
  rcases hcases : inInterval start width events with _ | ⟨a, rest⟩
  · simp
  · rw [← hcases]
    have ha : a ∈ inInterval start width events := by simp [hcases]
    have hsplit := List.length_eq_length_filter_add (l := inInterval start width events)
      fun c => decide (c.start = a.start)
    have hfirst := hle a.start
    rcases hothers : (inInterval start width events).filter
        (fun c => !decide (c.start = a.start)) with _ | ⟨b, others⟩
    · rw [hothers, List.length_nil] at hsplit
      omega
    · obtain ⟨hb, hne⟩ := List.mem_filter.mp (hothers ▸ List.mem_cons_self :
        b ∈ (inInterval start width events).filter fun c => !decide (c.start = a.start))
      have hne' : b.start ≠ a.start := by simpa using hne
      have hsecond : ((inInterval start width events).filter
          (fun c => !decide (c.start = a.start))).length ≤ limit := by
        have hsame : (inInterval start width events).filter
            (fun c => !decide (c.start = a.start)) =
              ((inInterval start width events).filter
                (fun c => !decide (c.start = a.start))).filter fun c => c.start = b.start := by
          refine (List.filter_eq_self.mpr fun c hc => ?_).symm
          obtain ⟨hc, hca⟩ := List.mem_filter.mp hc
          have hca' : c.start ≠ a.start := by simpa using hca
          have hthree := h.two_starts ha hb hc
          exact decide_eq_true (by tauto)
        rw [hsame]
        exact ((List.filter_sublist.filter _).length_le).trans (hle b.start)
      omega

/-- The counter shows the last window of the events, all of which came before. -/
def Tracks (limit : ℕ) (width now : ℤ) (events : List Counted) : Option Window → Prop
  | none => events = []
  | some w =>
    Windows limit width events ∧ (ofWindow (w.resetAt - width) events).length = w.count ∧
      (∃ c ∈ events, c.start = w.resetAt - width) ∧
        ∀ c ∈ events, c.start ≤ w.resetAt - width ∧ c.time ≤ now

theorem Tracks.windows {win : Option Window} (h : Tracks limit width now events win) :
    Windows limit width events := by
  cases win with
  | none =>
    have hnil : events = [] := h
    rw [hnil]
    exact Windows.nil
  | some w => exact h.1

theorem Tracks.mono {later : ℤ} (hle : now ≤ later) {win : Option Window}
    (h : Tracks limit width now events win) : Tracks limit width later events win := by
  cases win with
  | none => exact h
  | some w => exact ⟨h.1, h.2.1, h.2.2.1, fun c hc =>
      ⟨(h.2.2.2 c hc).1, (h.2.2.2 c hc).2.trans hle⟩⟩

/-- An event that opens a window. -/
theorem tracks_open (hlimit : 0 < limit) (hwidth : 0 < width) (h : Windows limit width events)
    (hbefore : ∀ c ∈ events, c.start + width ≤ now ∧ c.time ≤ now) :
    Tracks limit width now (events ++ [⟨now, now⟩]) (some ⟨1, now + width⟩) := by
  have hreset : now + width - width = now := by omega
  have hnone : ofWindow now events = [] := by
    refine List.filter_eq_nil_iff.mpr fun c hc => ?_
    have := (hbefore c hc).1
    simp only [decide_eq_true_eq]
    omega
  have hmem : ∀ c ∈ events ++ [⟨now, now⟩], c ∈ events ∨ c = ⟨now, now⟩ := fun c hc => by
    simpa using hc
  refine ⟨⟨?_, ?_, ?_⟩, ?_, ⟨⟨now, now⟩, by simp, hreset.symm⟩, ?_⟩
  · intro c hc
    rcases hmem c hc with hc | rfl
    · exact h.inside c hc
    · dsimp only
      omega
  · intro start
    by_cases hstart : start = now
    · rw [hstart, ofWindow, List.filter_append, ← ofWindow, hnone]
      simpa using Nat.succ_le_of_lt hlimit
    · have hne : ¬now = start := fun heq => hstart heq.symm
      have hsame : ofWindow start (events ++ [⟨now, now⟩]) = ofWindow start events := by
        simp [ofWindow, List.filter_append, hne]
      rw [hsame]
      exact h.few start
  · intro c hc d hd
    rcases hmem c hc with hc | rfl <;> rcases hmem d hd with hd | rfl
    · exact h.apart c hc d hd
    · exact Or.inr (Or.inl (hbefore c hc).1)
    · exact Or.inr (Or.inr (hbefore d hd).1)
    · exact Or.inl rfl
  · rw [hreset, ofWindow, List.filter_append, ← ofWindow, hnone]
    simp
  · intro c hc
    rcases hmem c hc with hc | rfl
    · have := hbefore c hc
      dsimp only
      omega
    · exact ⟨hreset.ge, le_refl _⟩

/-- An event that is counted in the current window. -/
theorem tracks_count {w : Window} (hnow : now < w.resetAt) (hroom : w.count < limit)
    {earlier : ℤ} (hearlier : earlier ≤ now)
    (h : Tracks limit width earlier events (some w)) :
    Tracks limit width now (events ++ [⟨w.resetAt - width, now⟩])
      (some { w with count := w.count + 1 }) := by
  obtain ⟨hwindows, hcount, ⟨first, hfirst, hstart⟩, hlast⟩ := h
  have hopen : w.resetAt - width ≤ now := by
    have hin := hwindows.inside first hfirst
    have hbefore := (hlast first hfirst).2
    omega
  have hmem : ∀ c ∈ events ++ [⟨w.resetAt - width, now⟩],
      c ∈ events ∨ c = ⟨w.resetAt - width, now⟩ := fun c hc => by simpa using hc
  have hone : ofWindow (w.resetAt - width) (events ++ [⟨w.resetAt - width, now⟩]) =
      ofWindow (w.resetAt - width) events ++ [⟨w.resetAt - width, now⟩] := by
    simp [ofWindow, List.filter_append]
  refine ⟨⟨?_, ?_, ?_⟩, ?_, ⟨first, by simp [hfirst], hstart⟩, ?_⟩
  · intro c hc
    rcases hmem c hc with hc | rfl
    · exact hwindows.inside c hc
    · dsimp only
      omega
  · intro start
    by_cases heq : start = w.resetAt - width
    · rw [heq, hone, List.length_append, hcount]
      simpa using Nat.succ_le_of_lt hroom
    · have hne : ¬w.resetAt - width = start := fun hsame => heq hsame.symm
      have hsame : ofWindow start (events ++ [⟨w.resetAt - width, now⟩]) =
          ofWindow start events := by
        simp [ofWindow, List.filter_append, hne]
      rw [hsame]
      exact hwindows.few start
  · -- the new event has the start of one that is already there
    have hpair : ∀ c ∈ events, c.start = w.resetAt - width ∨
        c.start + width ≤ w.resetAt - width ∨ w.resetAt - width + width ≤ c.start := by
      intro c hc
      have := hwindows.apart c hc first hfirst
      rwa [hstart] at this
    intro c hc d hd
    rcases hmem c hc with hc | rfl <;> rcases hmem d hd with hd | rfl
    · exact hwindows.apart c hc d hd
    · exact hpair c hc
    · have hd' := hpair d hd
      dsimp only
      omega
    · exact Or.inl rfl
  · rw [hone, List.length_append, hcount]
    rfl
  · intro c hc
    rcases hmem c hc with hc | rfl
    · exact ⟨(hlast c hc).1, (hlast c hc).2.trans hearlier⟩
    · exact ⟨le_refl _, le_refl _⟩

/-- An event that is not refused is counted. -/
theorem Tracks.bump (hlimit : 0 < limit) (hwidth : 0 < width) {earlier : ℤ}
    (hearlier : earlier ≤ now) {win : Option Window} {next : Window}
    (h : Tracks limit width earlier events win)
    (hbump : Window.bump limit width now win = some next) :
    ∃ c : Counted, c.time = now ∧ Tracks limit width now (events ++ [c]) (some next) := by
  cases win with
  | none =>
    obtain rfl : events = [] := h
    obtain rfl := Option.some.inj hbump
    exact ⟨⟨now, now⟩, rfl, tracks_open hlimit hwidth Windows.nil (by simp)⟩
  | some w =>
    by_cases hreset : w.resetAt ≤ now
    · rw [Window.bump, if_pos hreset] at hbump
      obtain rfl := Option.some.inj hbump
      refine ⟨⟨now, now⟩, rfl, tracks_open hlimit hwidth h.1 fun c hc => ?_⟩
      have hlast := h.2.2.2 c hc
      omega
    · by_cases hroom : limit ≤ w.count
      · rw [Window.bump, if_neg hreset, if_pos hroom] at hbump
        exact absurd hbump (by simp)
      · rw [Window.bump, if_neg hreset, if_neg hroom] at hbump
        obtain rfl := Option.some.inj hbump
        exact ⟨⟨w.resetAt - width, now⟩, rfl,
          tracks_count (not_le.mp hreset) (not_le.mp hroom) hearlier h⟩

end NexaStays.FixedWindow
