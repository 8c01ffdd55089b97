import NexaStays.EntitySave
import NexaStays.JsNumbers
import NexaStays.KeyedTable
import NexaStays.ListingOperations
import NexaStays.StaleReads

/-!
# Edits of a review and its moderation

`StaysReviewsService.updateReview` and `adminSetReviewStatus`. The guest's edit reads the review
without a lock and saves the whole entity later in its transaction, the status included. What an
administrator sets stands where no edit of the review is under way meanwhile.
-/
namespace NexaStays.ReviewModeration

open NexaStays.KeyedTable NexaStays.Transactions NexaStays.Phases NexaStays.Snapshots
open NexaStays.CriticalSections NexaStays.EntitySave NexaStays.StaleReads
open NexaStays.JsNumbers (mathRound)
open NexaStays.SqlText (utf16Length)

inductive ReviewStatus where
  | published | hidden | removed
  deriving DecidableEq, Repr

structure StaysListingReview where
  id : ℕ
  listingId : ℕ
  bookingId : ℕ
  guestUserId : ℕ
  hostUserId : Option ℕ
  rating : ℚ
  comment : Option String
  status : ReviewStatus
  createdAt : ℤ
  editedAt : Option ℤ
  deriving DecidableEq, Repr

structure StaysReviewMedia where
  id : ℕ
  reviewId : ℕ
  assetId : String
  displayOrder : ℕ
  deriving DecidableEq, Repr

/-- The columns of a listing that are computed from its reviews. -/
structure StaysListing where
  id : ℕ
  reviewCount : ℕ
  avgRating : Option ℚ
  ratings1 : ℕ
  ratings2 : ℕ
  ratings3 : ℕ
  ratings4 : ℕ
  ratings5 : ℕ
  deriving DecidableEq, Repr

structure Store where
  reviews : Table StaysListingReview.id
  media : Table StaysReviewMedia.id
  listings : Table StaysListing.id

inductive Key where
  | review (id : ℕ)
  | media (id : ℕ)
  | listing (id : ℕ)
  deriving DecidableEq, Repr

inductive Write where
  | review (row : StaysListingReview)
  | media (row : StaysReviewMedia)
  | deletedMedia (id : ℕ)
  | listing (row : StaysListing)
  deriving DecidableEq, Repr

def Write.key : Write → Key
  | .review r => .review r.id
  | .media m => .media m.id
  | .deletedMedia id => .media id
  | .listing l => .listing l.id

namespace Store

def write (s : Store) : Write → Store
  | .review r => { s with reviews := s.reviews.put r }
  | .media m => { s with media := s.media.put m }
  | .deletedMedia id => { s with media := s.media.delete id }
  | .listing l => { s with listings := s.listings.put l }

def present (s : Store) : Key → Bool
  | .review id => (s.reviews.find? id).isSome
  | .media id => (s.media.find? id).isSome
  | .listing id => (s.listings.find? id).isSome

end Store

instance : Storage Store Key Write where
  write := Store.write
  keyOf := Write.key
  present := Store.present

instance : Columns StaysListingReview where
  merge old new row :=
    { id := column old.id new.id row.id
      listingId := column old.listingId new.listingId row.listingId
      bookingId := column old.bookingId new.bookingId row.bookingId
      guestUserId := column old.guestUserId new.guestUserId row.guestUserId
      hostUserId := column old.hostUserId new.hostUserId row.hostUserId
      rating := column old.rating new.rating row.rating
      comment := column old.comment new.comment row.comment
      status := column old.status new.status row.status
      createdAt := column old.createdAt new.createdAt row.createdAt
      editedAt := column old.editedAt new.editedAt row.editedAt }
  merge_self old new := by simp only [column_self]

/-- The HTTP exceptions of the service, or a failing statement. -/
inductive ReviewError where
  | notFound (message : String)
  | forbidden (message : String)
  | badRequest (message : String)
  | database
  deriving DecidableEq, Repr

abbrev Reviewing := Program Store Key Write ReviewError

namespace Reviewing

abbrev read {α : Type} (f : Store → α) : Reviewing α := Program.query .database f

abbrev update (ws : Store → List Write) : Reviewing (List Write) := Program.writeRows .database ws

abbrev insert (row : ℕ → Write) : Reviewing ℕ := Program.insertRow .database row

/-- `Date.now()`. -/
abbrev now : Reviewing ℕ := Program.receive

end Reviewing

def savedReview (id : ℕ) : Saved Store Write StaysListingReview :=
  ⟨fun s => s.reviews.find? id, .review⟩

/-- The half-star rating's bucket, 1 to 5. -/
def ratingBucket (rating : ℚ) : ℤ := min 5 (max 1 (mathRound rating))

def inBucket (bucket : ℤ) (ratings : List ℚ) : ℕ := ratings.countP fun r => ratingBucket r = bucket

/-- The mean, rounded to hundredths. -/
def averageRating (ratings : List ℚ) : Option ℚ :=
  if 0 < ratings.length then some (mathRound (ratings.sum / ratings.length * 100) / 100) else none

def recalculateForListing (listingId : ℕ) : Reviewing Unit := do
  let ratings ← Reviewing.read fun s => (s.reviews.rows.filter fun r =>
    r.listingId = listingId ∧ r.status = .published).map (·.rating)
  let _ ← Reviewing.update fun s => (s.listings.find? listingId).toList.map fun l =>
    .listing { l with
      reviewCount := ratings.length
      avgRating := averageRating ratings
      ratings1 := inBucket 1 ratings
      ratings2 := inBucket 2 ratings
      ratings3 := inBucket 3 ratings
      ratings4 := inBucket 4 ratings
      ratings5 := inBucket 5 ratings }

structure ReviewBody where
  rating : Option ℚ
  comment : Option String
  assetIds : Option (List String)
  deriving DecidableEq, Repr

structure ReviewResponse where
  id : ℕ
  listingId : ℕ
  rating : ℚ
  comment : String
  createdAt : ℤ
  editedAt : Option ℤ
  isEdited : Bool
  media : List (String × ℕ)
  bookingId : ℕ
  hostUserId : Option ℕ
  status : ReviewStatus
  canEdit : Bool
  deriving DecidableEq, Repr

inductive ReviewAnswer where
  | review (response : ReviewResponse)
  | status (id : ℕ) (status : ReviewStatus)
  deriving DecidableEq, Repr

def allowedRatings : List ℚ := [1 / 2, 1, 3 / 2, 2, 5 / 2, 3, 7 / 2, 4, 9 / 2, 5]

def editWindowMs : ℤ := 48 * 60 * 60 * 1000

def validateRating (rating : ℚ) : Except ReviewError ℚ :=
  let n : ℚ := mathRound (rating * 2) / 2
  if n ∈ allowedRatings then .ok n
  else .error (.badRequest "Rating must be in 0.5 increments between 0.5 and 5")

def editedRating (body : ReviewBody) (review : StaysListingReview) : Except ReviewError ℚ :=
  match body.rating with
  | none => .ok review.rating
  | some rating => validateRating rating

def editedComment (body : ReviewBody) (review : StaysListingReview) :
    Except ReviewError (Option String) :=
  match body.comment with
  | none => .ok review.comment
  | some text =>
    let comment := SqlText.trim text
    if 1000 < utf16Length comment then .error (.badRequest "Comment is too long")
    else .ok (if comment = "" then none else some comment)

/-- The storage answers whether the user has uploaded the asset: 0 stands for no. -/
def saveMedia (reviewId : ℕ) (assetIds : List String) : Reviewing Unit :=
  Program.forEach (fun asset => do
    let owned ← Program.receive
    Program.require (owned ≠ 0) (.badRequest
      "Invalid review media asset_id (must be uploaded by the current user)")
    let _ ← Reviewing.insert fun id =>
      .media { id, reviewId, assetId := asset.1, displayOrder := asset.2 }) assetIds.zipIdx

def replaceMedia (reviewId : ℕ) : Option (List String) → Reviewing Unit
  | none => pure ()
  | some assetIds => do
    let _ ← Reviewing.update fun s =>
      (s.media.rows.filter fun m => m.reviewId = reviewId).map fun m => .deletedMedia m.id
    saveMedia reviewId (assetIds.take 5)

/-- The media of a review, in the order in which they are shown. -/
def mediaOf (reviewId : ℕ) (s : Store) : List (String × ℕ) :=
  ((s.media.rows.filter fun m => m.reviewId = reviewId).mergeSort fun a b =>
    a.displayOrder ≤ b.displayOrder).map fun m => (m.assetId, m.displayOrder)

def toReviewResponse (review : StaysListingReview) (media : List (String × ℕ)) (now : ℤ) :
    ReviewResponse :=
  { id := review.id
    listingId := review.listingId
    rating := review.rating
    comment := review.comment.getD ""
    createdAt := review.createdAt
    editedAt := review.editedAt
    isEdited := review.editedAt.isSome
    media
    bookingId := review.bookingId
    hostUserId := review.hostUserId
    status := review.status
    canEdit := review.status ≠ .removed ∧ now - review.createdAt ≤ editWindowMs }

/-- What follows the save. -/
def finishEdit (review : StaysListingReview) (body : ReviewBody) : Reviewing ReviewAnswer := do
  replaceMedia review.id body.assetIds
  recalculateForListing review.listingId
  let found ← Reviewing.read fun s => (s.reviews.find? review.id, mediaOf review.id s)
  let updated ← Program.expect found.1 .database
  let now ← Reviewing.now
  pure (.review (toReviewResponse updated found.2 now))

def updateReview (guestUserId reviewId : ℕ) (body : ReviewBody) : Reviewing ReviewAnswer :=
  Program.transaction .database do
    let found ← Reviewing.read fun s => s.reviews.find? reviewId
    let review ← Program.expect found (.notFound "Review not found")
    Program.require (review.guestUserId = guestUserId) (.forbidden "ReviewNotAllowed")
    Program.require (review.status ≠ .removed) (.forbidden "ReviewNotAllowed")
    let now ← Reviewing.now
    Program.require ((now : ℤ) - review.createdAt ≤ editWindowMs)
      (.forbidden "Review edit window has expired")
    let rating ← Program.ofExcept (editedRating body review)
    let comment ← Program.ofExcept (editedComment body review)
    let editedAt ← Reviewing.now
    saveEntity (savedReview reviewId) .database
      { review with rating, comment, editedAt := some (editedAt : ℤ) }
    finishEdit review body

def adminSetReviewStatus (reviewId : ℕ) (status : ReviewStatus) : Reviewing ReviewAnswer :=
  Program.transaction .database do
    let found ← Reviewing.read fun s => s.reviews.find? reviewId
    let review ← Program.expect found (.notFound "Review not found")
    saveEntity (savedReview reviewId) .database { review with status }
    recalculateForListing review.listingId
    pure (.status review.id status)

inductive Call where
  | updateReview (guestUserId reviewId : ℕ) (body : ReviewBody)
  | adminSetReviewStatus (reviewId : ℕ) (status : ReviewStatus)
  deriving DecidableEq, Repr

def program : Call → Reviewing ReviewAnswer
  | .updateReview guestUserId reviewId body => updateReview guestUserId reviewId body
  | .adminSetReviewStatus reviewId status => adminSetReviewStatus reviewId status

abbrev ReviewSystem := System Call Store Key Write ReviewError ReviewAnswer

def Call.IsEdit : Call → Prop
  | .updateReview _ _ _ => True
  | .adminSetReviewStatus _ _ => False

def Call.Edits (id : ℕ) : Call → Prop
  | .updateReview _ reviewId _ => reviewId = id
  | .adminSetReviewStatus _ _ => False

/-- The status of a review. -/
def status (id : ℕ) (s : Store) : Option ReviewStatus := (s.reviews.find? id).map (·.status)

/-- No administrator's step changes the status of the review while an edit of it is in its
transaction. -/
abbrev Moderated (id : ℕ) : ReviewSystem → Action → Prop :=
  Heeds (status id) program Call.IsEdit (Call.Edits id)

variable {id reviewId : ℕ} {K : Store → Prop}

theorem status_put (s : Store) (row : StaysListingReview) :
    status id (s.write (.review row)) = if row.id = id then some row.status else status id s := by
  show ((s.reviews.put row).find? id).map (·.status) = _
  rw [Table.find?_put]
  by_cases h : id = row.id
  · rw [if_pos h, if_pos h.symm]
    rfl
  · rw [if_neg h, if_neg (Ne.symm h)]
    rfl

theorem status_of_find {s : Store} {review : StaysListingReview}
    (h : s.reviews.find? id = some review) : status id s = some review.status := by
  rw [status, h]
  rfl

/-- A row with the status that the review has, or of another review. -/
theorem restores_put {row : StaysListingReview}
    (h : row.id = id → ∀ s, K s → status id s = some row.status) :
    Restores (status id) K [Write.review row] := by
  intro s hs
  show status id (s.write (.review row)) = status id s
  rw [status_put]
  by_cases hid : row.id = id
  · rw [if_pos hid, h hid s hs]
  · rw [if_neg hid]

theorem restores_nil : Restores (status id) K ([] : List Write) := fun _ _ => rfl

theorem merge_id {old new row : StaysListingReview} (hold : old.id = reviewId)
    (hnew : new.id = reviewId) : (Columns.merge old new row).id = row.id := by
  show column old.id new.id row.id = row.id
  rw [hold, hnew, column_same]

theorem merge_status {old new row : StaysListingReview} (h : new.status = old.status) :
    (Columns.merge old new row).status = row.status := by
  show column old.status new.status row.status = row.status
  rw [h, column_same]

/-- The save writes no other status than the one that every store has in which it runs. -/
theorem holds_saveReview {new : StaysListingReview} (hnew : new.id = reviewId)
    (hK : reviewId = id → ∀ s, K s → status id s = some new.status) :
    Holds K (fun _ => Restores (status id) K)
      (saveEntity (savedReview reviewId) ReviewError.database new : Reviewing Unit) [] := by
  refine Holds.bind (Holds.query fun s hs => ?_)
  cases hfound : (savedReview reviewId).find (publish s []) with
  | none =>
    refine Holds.bind (Holds.writeRows fun s' _ => ?_)
    refine restores_put fun hid => ?_
    have hgone : status id s = none := by
      rw [status, ← hid, hnew]
      exact congrArg (Option.map _) hfound
    have hthere := hK (hnew.symm.trans hid) s hs
    rw [hgone] at hthere
    cases hthere
  | some old =>
    have hold : old.id = reviewId := Table.key_of_find? hfound
    by_cases hsame : old = new
    · simp only [if_pos hsame]
      exact restores_nil
    · simp only [if_neg hsame]
      refine Holds.bind (Holds.writeRows fun s' hs' => ?_)
      cases hrow : (savedReview reviewId).find (publish s' []) with
      | none => exact restores_nil
      | some row =>
        have hkey : row.id = reviewId := Table.key_of_find? hrow
        refine restores_put fun hid => ?_
        rw [merge_id hold hnew, hkey] at hid
        subst hid
        have hread : old.status = new.status :=
          Option.some.inj ((status_of_find hfound).symm.trans (hK rfl s hs))
        have hcurrent : row.status = new.status :=
          Option.some.inj ((status_of_find hrow).symm.trans (hK rfl s' hs'))
        rw [merge_status hread.symm, hcurrent]
        exact hK rfl

theorem plain_replaceMedia (assetIds : Option (List String)) :
    Plain (status id) (replaceMedia reviewId assetIds) := by
  cases assetIds with
  | none => trivial
  | some assetIds =>
    refine (Plain.writeRows fun s w hw => ?_).bind fun _ => Plain.forEach fun asset _ => ?_
    · obtain ⟨m, -, rfl⟩ := List.mem_map.mp hw
      exact fun _ => rfl
    · exact Plain.receive.bind fun _ => Plain.require.bind fun _ =>
        (Plain.insertRow fun _ _ => rfl).bind fun _ => trivial

theorem plain_recalculate (listingId : ℕ) :
    Plain (status id) (recalculateForListing listingId) := by
  refine Plain.query.bind fun ratings => (Plain.writeRows fun s w hw => ?_).bind fun _ => trivial
  obtain ⟨l, -, rfl⟩ := List.mem_map.mp hw
  exact fun _ => rfl

theorem plain_finishEdit (review : StaysListingReview) (body : ReviewBody) :
    Plain (status id) (finishEdit review body) :=
  (plain_replaceMedia body.assetIds).bind fun _ => (plain_recalculate review.listingId).bind fun _ =>
    Plain.query.bind fun _ => Plain.expect.bind fun _ => Plain.receive.bind fun _ => trivial

theorem keeps_updateReview (guestUserId : ℕ) (body : ReviewBody) :
    Keeps (status id) program (Call.Edits id) (.updateReview guestUserId reviewId body) := by
  refine ⟨_, _, rfl, fun s => ?_⟩
  refine Holds.bind (Holds.query fun s₁ hs₁ => Holds.bind (Holds.expect fun review hreview => ?_))
  have hid : review.id = reviewId := Table.key_of_find? hreview
  refine Holds.bind (Holds.require fun _ => Holds.bind (Holds.require fun _ => ?_))
  refine Holds.bind (Holds.receive fun now => Holds.bind (Holds.require fun _ => ?_))
  refine Holds.bind (Holds.ofExcept fun rating _ => Holds.bind (Holds.ofExcept fun comment _ => ?_))
  refine Holds.bind (Holds.receive fun editedAt => Holds.bind ?_)
  refine Holds.mono (fun _ ws hws => Holds.of_plain (plain_finishEdit review body) hws) ?_
  refine holds_saveReview (by exact hid) fun hedits s₂ hs₂ => ?_
  subst hedits
  have hread : status reviewId s₁ = some review.status := status_of_find hreview
  exact ((hs₂ rfl).trans (hs₁ rfl).symm).trans hread

theorem keeps_of_isEdit {c : Call} (h : c.IsEdit) : Keeps (status id) program (Call.Edits id) c := by
  cases c with
  | updateReview guestUserId reviewId body => exact keeps_updateReview guestUserId body
  | adminSetReviewStatus => exact h.elim

/-- The step is one of an administrator's call. -/
def ByAdmin (sys : ReviewSystem) (a : Action) : Prop :=
  ∃ reviewId newStatus, sys.caller a = some (.adminSetReviewStatus reviewId newStatus)

section Runs

variable {s : Store} {calls : List Call} {sys sys' : ReviewSystem} {a : Action}

theorem byAdmin_of_changed (hrun : System.Run (Moderated id) (launch program s calls) sys)
    (hstep : sys.step a = some sys') (hchanged : status id sys'.store ≠ status id sys.store) :
    ByAdmin sys a := by
  obtain ⟨t, p, ses, ws, ht, hmove, -⟩ := System.step_eq_some.mp hstep
  have hcaller : sys.caller a = some t.call :=
    System.caller_eq (System.published_eq_some.mpr ⟨t, p, ses, ht, rfl, hmove⟩)
  cases hcall : t.call with
  | updateReview guestUserId reviewId body =>
    rw [hcall] at hcaller
    exact absurd (kept_of_run (fun _ => keeps_of_isEdit) hrun hcaller trivial hstep) hchanged
  | adminSetReviewStatus reviewId newStatus => exact ⟨reviewId, newStatus, hcall ▸ hcaller⟩

/-- In a run without such an overlap only an administrator changes the status of a review, and
the status stands until an administrator's next step. -/
theorem moderation_stands (hrun : System.Run (Moderated id) (launch program s calls) sys) :
    (∀ a sys', sys.step a = some sys' → status id sys'.store ≠ status id sys.store →
      ByAdmin sys a) ∧
    ∀ sys', System.Run (fun sys a => Moderated id sys a ∧ ¬ByAdmin sys a) sys sys' →
      status id sys'.store = status id sys.store := by
  refine ⟨fun a sys' => byAdmin_of_changed hrun, fun sys' hrun' => ?_⟩
  induction hrun' with
  | refl => rfl
  | tail run meets step ih =>
    have hreach := hrun.trans (run.mono fun _ _ h => h.1)
    rw [← ih]
    by_contra hchanged
    exact meets.2 (byAdmin_of_changed hreach step hchanged)

end Runs

def sampleReview : StaysListingReview :=
  { id := 1
    listingId := 1
    bookingId := 1
    guestUserId := 7
    hostUserId := some 8
    rating := 4
    comment := some "Fine"
    status := .published
    createdAt := 0
    editedAt := none }

def sampleStore : Store :=
  { reviews := .ofRows [sampleReview]
    media := .empty
    listings := .empty }

def edit : Call := .updateReview 7 1 { rating := none, comment := none, assetIds := none }

def hide : Call := .adminSetReviewStatus 1 .hidden

def sampleStart : ReviewSystem := launch program sampleStore [edit, hide]

/-- The administrator has hidden the review before the edit begins. -/
def hidden : ReviewSystem := after sampleStart (System.turns 1 0 7)

theorem moderated_hide : System.Run (Moderated 1) sampleStart hidden := by
  refine run_solo (i := 1) (by decide +kernel) (fun a ha => ?_) fun sys a ha hsame => ?_
  · obtain ⟨n, rfl⟩ := eq_run_of_mem_turns ha
    rfl
  · obtain ⟨n, rfl⟩ := eq_run_of_mem_turns ha
    refine heeds_of_idle (fun c hc => ?_) fun j t hj ht => ?_
    · cases c with
      | updateReview => trivial
      | adminSetReviewStatus => exact hc.elim
    · rw [hsame j hj] at ht
      obtain ⟨c, -, rfl⟩ := List.mem_map.mp (List.mem_of_getElem? ht)
      rfl

/-- The review is hidden, and an edit does not publish it again. -/
theorem hidden_stands : status 1 hidden.store = some .hidden ∧
    (∀ a sys', hidden.step a = some sys' → status 1 sys'.store ≠ status 1 hidden.store →
      ByAdmin hidden a) ∧
    ∀ sys', System.Run (fun sys a => Moderated 1 sys a ∧ ¬ByAdmin sys a) hidden sys' →
      status 1 sys'.store = status 1 hidden.store :=
  ⟨by decide +kernel, moderation_stands moderated_hide⟩

/-- The edit has read the review, the administrator hides it, and the edit goes on to its
commit. -/
def overlapped : ReviewSystem :=
  after (after sampleStart (System.turns 0 0 2 ++ System.turns 1 0 7)) (System.turns 0 0 8)

/-- The edit publishes the review again. -/
theorem hiding_undone : ∃ sys sys' a, System.Run (fun _ _ => True) sampleStart sys ∧
    sys.step a = some sys' ∧ sys.caller a = some edit ∧ status 1 sys.store = some .hidden ∧
    status 1 sys'.store = some .published := by
  have hrun : System.Run (fun _ _ => True) sampleStart overlapped :=
    (run_after (by decide +kernel)).trans (run_after (by decide +kernel))
  exact ⟨overlapped, after overlapped [.run 0 0], .run 0 0, hrun, step_after (by decide +kernel),
    by decide +kernel, by decide +kernel, by decide +kernel⟩

end NexaStays.ReviewModeration
