import Mathlib.MeasureTheory.Measure.Lebesgue.Basic
import Mathlib.MeasureTheory.Measure.Real
import NexaStays.Explore

/-!
# The limits of a map box

The check of a box measures its width as `|east - west|`. The query takes a box whose west is
east of its east across the antimeridian, where that number is the width of what is left out.
-/
namespace NexaStays.MapBounds

open MeasureTheory

open NexaStays.Explore (BadRequest invalidBounds)

section Code

variable {K : Type*} [Field K] [LinearOrder K]

/-- A box of finite numbers. -/
structure Bounds (K : Type*) where
  north : K
  south : K
  east : K
  west : K

def Bounds.InRange (b : Bounds K) : Prop :=
  -90 ≤ b.north ∧ b.north ≤ 90 ∧ -90 ≤ b.south ∧ b.south ≤ 90 ∧
    -180 ≤ b.east ∧ b.east ≤ 180 ∧ -180 ≤ b.west ∧ b.west ≤ 180

instance (b : Bounds K) : Decidable b.InRange :=
  inferInstanceAs (Decidable (_ ∧ _ ∧ _ ∧ _ ∧ _ ∧ _ ∧ _ ∧ _))

/-- `{ forceTruncate }`, or the exception. -/
def validateBounds (maxSpan : ℕ) (allowTruncate : Bool) (b : Bounds K) :
    Except BadRequest Bool :=
  if ¬b.InRange then
    .error (invalidBounds "Bounds must be finite latitudes/longitudes in range.")
  else if b.north ≤ b.south then .error (invalidBounds "north must be greater than south.")
  else if b.east = b.west then
    .error (invalidBounds "east and west must define a non-zero width.")
  else if maxSpan < b.north - b.south ∨ maxSpan < |b.east - b.west| then
    if allowTruncate then .ok true
    else .error (invalidBounds s!"Map bounds span too large (max {maxSpan}°). Zoom in and try again.")
  else .ok false

/-- The box is served whole. -/
def Accepted (maxSpan : ℕ) (allowTruncate : Bool) (b : Bounds K) : Prop :=
  validateBounds maxSpan allowTruncate b = .ok false

/-- `l.geo_lat BETWEEN :south AND :north`. -/
def selectsLat (b : Bounds K) (lat : K) : Prop := b.south ≤ lat ∧ lat ≤ b.north

/-- The condition of `queryListings` on `l.geo_lng`. -/
def selectsLng (b : Bounds K) (lng : K) : Prop :=
  if b.west ≤ b.east then b.west ≤ lng ∧ lng ≤ b.east else b.west ≤ lng ∨ lng ≤ b.east

theorem accepted_iff {maxSpan : ℕ} {allowTruncate : Bool} {b : Bounds K} (hb : b.InRange) :
    Accepted maxSpan allowTruncate b ↔ b.south < b.north ∧ b.east ≠ b.west ∧
      b.north - b.south ≤ maxSpan ∧ |b.east - b.west| ≤ maxSpan := by
  rw [Accepted, validateBounds, if_neg (not_not.mpr hb)]
  split_ifs with hns hew hspan htruncate
  · simp [hns.not_gt]
  · simp [hew]
  · obtain hlat | hlng := hspan
    · simp [hlat.not_ge]
    · simp [hlng.not_ge]
  · obtain hlat | hlng := hspan
    · simp [hlat.not_ge]
    · simp [hlng.not_ge]
  · simp only [not_or, not_lt] at hspan
    simp [not_le.mp hns, hew, hspan]

end Code

/-- The check of an explore request, where differences are exact. -/
theorem explore_validateBounds (pf : Explore.Platform) (hround : ∀ x, pf.round x = x) {maxSpan : ℕ}
    (hmax : pf.maxBoundsSpanDeg = maxSpan) (htext : pf.numberText maxSpan = toString maxSpan)
    (params : Explore.ExploreQueryParams) (b : Bounds ℚ) :
    Explore.validateBounds pf { params with
      north := some b.north, south := some b.south, east := some b.east, west := some b.west } =
      (validateBounds maxSpan false b).map fun _ => () := by
  have hrange : ¬b.InRange ↔ b.north < -90 ∨ 90 < b.north ∨ b.south < -90 ∨ 90 < b.south ∨
      b.east < -180 ∨ 180 < b.east ∨ b.west < -180 ∨ 180 < b.west := by
    simp only [Bounds.InRange, not_and_or, not_le]
  simp only [Explore.validateBounds, validateBounds, hround, hmax, htext, hrange]
  split_ifs
  all_goals first | rfl | contradiction

/-- The latitudes that the query selects. -/
def latRegion (b : Bounds ℝ) : Set ℝ := {lat | -90 ≤ lat ∧ lat ≤ 90 ∧ selectsLat b lat}

/-- The longitudes that the query selects. -/
def lngRegion (b : Bounds ℝ) : Set ℝ := {lng | -180 ≤ lng ∧ lng ≤ 180 ∧ selectsLng b lng}

variable {b : Bounds ℝ}

theorem latSpan_eq (hb : b.InRange) (hns : b.south ≤ b.north) :
    volume.real (latRegion b) = b.north - b.south := by
  obtain ⟨-, hn, hs, -, -⟩ := hb
  have hregion : latRegion b = Set.Icc b.south b.north := by
    ext lat
    simp only [latRegion, selectsLat, Set.mem_ofPred_eq, Set.mem_Icc]
    constructor
    · exact fun h => h.2.2
    · exact fun h => ⟨hs.trans h.1, h.2.trans hn, h⟩
  rw [hregion, Real.volume_real_Icc_of_le hns]

theorem lngSpan_eq (hb : b.InRange) (hwe : b.west ≤ b.east) :
    volume.real (lngRegion b) = b.east - b.west := by
  obtain ⟨-, -, -, -, -, he, hw, -⟩ := hb
  have hregion : lngRegion b = Set.Icc b.west b.east := by
    ext lng
    simp only [lngRegion, selectsLng, if_pos hwe, Set.mem_ofPred_eq, Set.mem_Icc]
    constructor
    · exact fun h => h.2.2
    · exact fun h => ⟨hw.trans h.1, h.2.trans he, h⟩
  rw [hregion, Real.volume_real_Icc_of_le hwe]

/-- Across the antimeridian it is the rest of the circle. -/
theorem lngSpan_wrapped (hb : b.InRange) (hew : b.east < b.west) :
    volume.real (lngRegion b) = 360 - (b.west - b.east) := by
  obtain ⟨-, -, -, -, he, -, -, hw⟩ := hb
  have hregion : lngRegion b = Set.Icc (-180) b.east ∪ Set.Icc b.west 180 := by
    ext lng
    simp only [lngRegion, selectsLng, if_neg hew.not_ge, Set.mem_ofPred_eq, Set.mem_union,
      Set.mem_Icc]
    constructor
    · rintro ⟨hlo, hhi, hwest | heast⟩
      · exact Or.inr ⟨hwest, hhi⟩
      · exact Or.inl ⟨hlo, heast⟩
    · rintro (h | h)
      · exact ⟨h.1, by linarith [h.2], Or.inr h.2⟩
      · exact ⟨by linarith [h.1], h.2, Or.inl h.1⟩
  have hdisjoint : Disjoint (Set.Icc (-180) b.east) (Set.Icc b.west 180) :=
    Set.disjoint_left.mpr fun lng h h' => absurd (h'.1.trans h.2) hew.not_ge
  have hfinite : ∀ x y : ℝ, volume (Set.Icc x y) ≠ ⊤ := by
    intro x y
    rw [Real.volume_Icc]
    exact ENNReal.ofReal_ne_top
  rw [hregion, measureReal_union hdisjoint measurableSet_Icc (hfinite _ _) (hfinite _ _),
    Real.volume_real_Icc_of_le he, Real.volume_real_Icc_of_le hw]
  ring

/-- What a box that is served whole should be: its spans, as the query takes it, are within the
limit. -/
def WithinSpans (maxSpan : ℕ) (b : Bounds ℝ) : Prop :=
  b.south < b.north ∧ volume.real (latRegion b) ≤ maxSpan ∧ volume.real (lngRegion b) ≤ maxSpan

/-- The box is rejected for its latitudes, or does not cross the antimeridian and has a width, or
crosses it and is too wide both ways round. -/
def InStep (maxSpan : ℕ) (b : Bounds ℝ) : Prop :=
  b.north ≤ b.south ∨ maxSpan < b.north - b.south ∨ b.west < b.east ∨
    maxSpan < b.west - b.east ∧ b.west - b.east < 360 - maxSpan

/-- The limit of the service is at most 40 degrees. -/
theorem accepted_agrees_iff {maxSpan : ℕ} (hmax : maxSpan ≤ 40) (allowTruncate : Bool)
    {b : Bounds ℝ} (hb : b.InRange) :
    (Accepted maxSpan allowTruncate b ↔ WithinSpans maxSpan b) ↔ InStep maxSpan b := by
  have hmax' : (maxSpan : ℝ) ≤ 40 := by exact_mod_cast hmax
  have hnonneg : (0 : ℝ) ≤ maxSpan := maxSpan.cast_nonneg
  rw [accepted_iff hb, WithinSpans, InStep]
  by_cases hns : b.south < b.north
  swap
  · simp [hns, not_lt.mp hns]
  rw [latSpan_eq hb hns.le]
  by_cases hlat : b.north - b.south ≤ maxSpan
  swap
  · simp [hlat, not_le.mp hlat]
  obtain hwe | hwe | hew := lt_trichotomy b.west b.east
  · rw [lngSpan_eq hb hwe.le, abs_of_pos (sub_pos.mpr hwe)]
    simp [hns, hlat, hwe, hwe.ne']
  · rw [lngSpan_eq hb hwe.le]
    simp [hns, hlat, hwe, hns.not_ge, hnonneg, hlat.not_gt]
  · rw [lngSpan_wrapped hb hew, abs_of_neg (sub_neg.mpr hew)]
    simp only [hns, hlat, hew.ne, hns.not_ge, hlat.not_gt, hew.not_gt, ne_eq, not_false_eq_true,
      true_and, false_or, neg_sub]
    -- one width and the other add up to 360, so they are not both within the limit
    constructor
    · intro hagree
      constructor
      · by_contra hnarrow
        have hother := hagree.mp (not_lt.mp hnarrow)
        linarith [not_lt.mp hnarrow]
      · by_contra hwide
        have hother := hagree.mpr (by linarith [not_lt.mp hwide])
        linarith [not_lt.mp hwide]
    · rintro ⟨hwide, hwide'⟩
      constructor
      · intro hnarrow
        linarith
      · intro hnarrow
        linarith

/-- Two degrees on either side of the antimeridian, and the limit of 15 degrees. -/
def dateline : Bounds ℝ := ⟨10, (5 : ℕ), -179, 179⟩

theorem inRange_dateline : dateline.InRange := by
  norm_num [Bounds.InRange, dateline]

theorem accepted_agrees_iff_dateline :
    (Accepted 15 false dateline ↔ WithinSpans 15 dateline) ↔ InStep 15 dateline :=
  accepted_agrees_iff (by decide) false inRange_dateline

/-- The box is two degrees wide, and too wide for the check. -/
theorem dateline_rejected : dateline.InRange ∧ ¬Accepted 15 false dateline ∧
    WithinSpans 15 dateline := by
  refine ⟨inRange_dateline, fun haccepted => ?_, ?_, ?_, ?_⟩
  · have hwidth := ((accepted_iff inRange_dateline).mp haccepted).2.2.2
    norm_num [dateline] at hwidth
  · norm_num [dateline]
  · rw [latSpan_eq inRange_dateline (by norm_num [dateline])]
    norm_num [dateline]
  · rw [lngSpan_wrapped inRange_dateline (by norm_num [dateline])]
    norm_num [dateline]

end NexaStays.MapBounds
