import NexaStays.Database
import NexaStays.JsonText
import Mathlib.Data.List.Basic

/-!
# Contexts of list cursors

`host-list-cursor.util` on texts: what a signed cursor says, the query that it is bound to,
and what is made of a cursor that comes with a request.
-/
namespace NexaStays.CursorContexts

open NexaStays.Database NexaStays.JsonText

inductive HostListCursorKind where
  | bookings | listings
  deriving DecidableEq

def kindText : HostListCursorKind → JsString
  | .bookings => units "bookings"
  | .listings => units "listings"

structure HostListCursorContext where
  kind : HostListCursorKind
  hostId : JsString
  sort : JsString
  filter : Option JsString
  search : Option JsString
  listingId : Option JsString
  status : Option JsString

structure NormalizedContext where
  kind : HostListCursorKind
  hostId : JsString
  sort : JsString
  filter : JsString
  search : JsString
  listingId : JsString
  status : JsString
  deriving DecidableEq

/-- A sort key; numbers that are not finite have no text of their own. -/
inductive KeyValue (ν : Type) where
  | text (s : JsString)
  | number (x : ν)
  | nonFinite
  | null

/-- `Record<string, string | number | null>`. -/
structure SortKeys (ν : Type) where
  members : List (JsString × KeyValue ν)
  names : (members.map Prod.fst).Nodup
  order : (members.map Prod.fst).Pairwise fun a b => ownBefore a b = true

variable {ν : Type}

def KeyValue.json : KeyValue ν → Json ν
  | .text s => .string s
  | .number x => .number x
  | .nonFinite => .null
  | .null => .null

def SortKeys.json (keys : SortKeys ν) : Json ν :=
  .object (keys.members.map fun m => (m.1, m.2.json))

/-- `trim` and `toLowerCase` of the language; base64 with the letters for URLs, of the UTF-8
of a text; `JSON.parse`; and the signature under the secret of the process. -/
structure CursorPlatform (num : Numerals ν) where
  trim : JsString → JsString
  toLowerCase : JsString → JsString
  b64urlEncode : JsString → JsString
  b64urlDecode : JsString → JsString
  b64url_stringify : ∀ j, b64urlDecode (b64urlEncode (stringify num j)) = stringify num j
  b64url_noDot : ∀ s, 46 ∉ b64urlEncode s
  parse : JsString → Option (Json ν)
  parse_stringify : ∀ j, Stored j → parse (stringify num j) = some j
  signBody : JsString → JsString
  signBody_noDot : ∀ s, 46 ∉ signBody s

variable {num : Numerals ν} (pf : CursorPlatform num)

def normalizeContext (ctx : HostListCursorContext) : NormalizedContext where
  kind := ctx.kind
  hostId := ctx.hostId
  sort := ctx.sort
  filter := ctx.filter.getD []
  search := pf.toLowerCase (pf.trim (ctx.search.getD []))
  listingId := ctx.listingId.getD []
  status := ctx.status.getD []

/-- The members of a payload that bind it to a query. -/
def boundMembers (norm : NormalizedContext) : List (JsString × JsString) :=
  [(units "kind", kindText norm.kind), (units "hostId", norm.hostId), (units "sort", norm.sort),
    (units "filter", norm.filter), (units "search", norm.search),
    (units "listingId", norm.listingId), (units "status", norm.status)]

section Payloads

variable [Zero ν] [One ν] [DecidableEq ν]

def payloadOf (norm : NormalizedContext) (keys : SortKeys ν) (id : JsString) : Json ν :=
  .object ((units "v", .number 1) :: (boundMembers norm).map (fun m => (m.1, .string m.2)) ++
    [(units "keys", keys.json), (units "id", .string id)])

def cursorBody (ctx : HostListCursorContext) (keys : SortKeys ν) (id : JsString) : JsString :=
  pf.b64urlEncode (stringify num (payloadOf (normalizeContext pf ctx) keys id))

def encodeHostListCursor (ctx : HostListCursorContext) (keys : SortKeys ν) (id : JsString) :
    JsString :=
  cursorBody pf ctx keys id ++ 46 :: pf.signBody (cursorBody pf ctx keys id)

def invalidCursor : StaysError := .badRequest "Invalid cursor"

def contextMismatch : StaysError :=
  .badRequest "Cursor does not match the current list query context"

/-- `payload.name`, for names that no prototype has. -/
def member (payload : Json ν) (name : JsString) : Option (Json ν) :=
  match payload with
  | .object members => members.lookup name
  | _ => none

def truthy : Option (Json ν) → Bool
  | none => false
  | some .null => false
  | some (.bool b) => b
  | some (.number x) => x ≠ 0
  | some (.string s) => s ≠ []
  | some (.array _) => true
  | some (.object _) => true

def isOne : Option (Json ν) → Bool
  | some (.number x) => x = 1
  | _ => false

def isText (s : JsString) : Option (Json ν) → Bool
  | some (.string t) => t = s
  | _ => false

def decodeHostListCursor (cursor : Option JsString) (ctx : HostListCursorContext) :
    Except StaysError (Option (Json ν)) :=
  match cursor with
  | none => .ok none
  | some [] => .ok none
  | some cursor =>
    match cursor.splitOn 46 with
    | [bodyB64, sig] =>
      if sig ≠ pf.signBody bodyB64 then .error invalidCursor
      else
        match pf.parse (pf.b64urlDecode bodyB64) with
        | none => .error invalidCursor
        | some payload =>
          if !isOne (member payload (units "v")) || !truthy (member payload (units "id")) ||
              !truthy (member payload (units "kind")) then
            .error invalidCursor
          else if (boundMembers (normalizeContext pf ctx)).any fun m =>
              !isText m.2 (member payload m.1) then
            .error contextMismatch
          else .ok (some payload)
    | _ => .error invalidCursor

section Members

variable (norm : NormalizedContext) (keys : SortKeys ν) (id : JsString)

omit [Zero ν] [DecidableEq ν] in
theorem member_keys : member (payloadOf norm keys id) (units "keys") = some keys.json := rfl

omit [Zero ν] [DecidableEq ν] in
theorem member_id : member (payloadOf norm keys id) (units "id") = some (.string id) := rfl

omit [Zero ν] in
theorem isOne_v : isOne (member (payloadOf norm keys id) (units "v")) = true := by
  have hv : member (payloadOf norm keys id) (units "v") = some (.number 1) := rfl
  rw [hv, isOne, decide_eq_true_eq]

theorem truthy_kind : truthy (member (payloadOf norm keys id) (units "kind")) = true := by
  have hkind : member (payloadOf norm keys id) (units "kind") =
      some (.string (kindText norm.kind)) := rfl
  rw [hkind, truthy, decide_eq_true_eq]
  cases norm.kind <;> decide

omit [Zero ν] [DecidableEq ν] in
/-- A payload matches the query that it was made for, and no other. -/
theorem matches_iff (norm' : NormalizedContext) :
    ((boundMembers norm').any fun m => !isText m.2 (member (payloadOf norm keys id) m.1)) = false ↔
      norm = norm' := by
  have htexts : ((boundMembers norm').any fun m =>
      !isText m.2 (member (payloadOf norm keys id) m.1)) =
      (!decide (kindText norm.kind = kindText norm'.kind) ||
        (!decide (norm.hostId = norm'.hostId) || (!decide (norm.sort = norm'.sort) ||
        (!decide (norm.filter = norm'.filter) || (!decide (norm.search = norm'.search) ||
        (!decide (norm.listingId = norm'.listingId) ||
        (!decide (norm.status = norm'.status) || false))))))) := rfl
  have hkind : kindText norm.kind = kindText norm'.kind ↔ norm.kind = norm'.kind := by
    cases norm.kind <;> cases norm'.kind <;> decide
  rw [htexts]
  cases norm
  cases norm'
  simp only [hkind, Bool.or_eq_false_iff, Bool.not_eq_false', decide_eq_true_eq,
    NormalizedContext.mk.injEq, and_true]

omit [Zero ν] [DecidableEq ν] in
theorem stored_payloadOf : Stored (payloadOf norm keys id) := by
  have hkeys : Stored keys.json := by
    have hnames : (keys.members.map fun m => (m.1, m.2.json)).map Prod.fst =
        keys.members.map Prod.fst := by
      rw [List.map_map]
      rfl
    apply Stored.object
    · rw [hnames]
      exact keys.names
    · rw [hnames]
      exact keys.order
    · intro m hm
      obtain ⟨⟨name, v⟩, _, rfl⟩ := List.mem_map.mp hm
      cases v with
      | text s => exact .string s
      | number x => exact .number x
      | _ => exact .null
  apply Stored.object
  · change List.Nodup [units "v", units "kind", units "hostId", units "sort", units "filter",
      units "search", units "listingId", units "status", units "keys", units "id"]
    decide
  · change List.Pairwise _ [units "v", units "kind", units "hostId", units "sort",
      units "filter", units "search", units "listingId", units "status", units "keys", units "id"]
    decide
  · intro m hm
    simp only [List.cons_append, List.mem_cons, List.mem_append, List.mem_map,
      List.not_mem_nil, or_false] at hm
    rcases hm with rfl | ⟨m, _, rfl⟩ | rfl | rfl
    · exact .number 1
    · exact .string m.2
    · exact hkeys
    · exact .string id

end Members

/-- A text with a dot in one place has two parts. -/
theorem splitOn_body {body sig : JsString} (hbody : 46 ∉ body) (hsig : 46 ∉ sig) :
    (body ++ 46 :: sig).splitOn 46 = [body, sig] := by
  rw [List.splitOn_append_cons_self, List.splitOn_eq_singleton hbody,
    List.splitOn_eq_singleton hsig, List.singleton_append]

/-- A cursor under the query of a request: accepted for the query that it was made for. -/
theorem decode_encode (c₁ c₂ : HostListCursorContext) (keys : SortKeys ν) (id : JsString) :
    decodeHostListCursor pf (some (encodeHostListCursor pf c₁ keys id)) c₂ =
      if id = [] then .error invalidCursor
      else if normalizeContext pf c₁ = normalizeContext pf c₂ then
        .ok (some (payloadOf (normalizeContext pf c₁) keys id))
      else .error contextMismatch := by
  have hsplit : (encodeHostListCursor pf c₁ keys id).splitOn 46 =
      [cursorBody pf c₁ keys id, pf.signBody (cursorBody pf c₁ keys id)] :=
    splitOn_body (pf.b64url_noDot _) (pf.signBody_noDot _)
  have hparse : pf.parse (pf.b64urlDecode (cursorBody pf c₁ keys id)) =
      some (payloadOf (normalizeContext pf c₁) keys id) := by
    rw [cursorBody, pf.b64url_stringify, pf.parse_stringify _ (stored_payloadOf _ keys id)]
  have hid : truthy (member (payloadOf (normalizeContext pf c₁) keys id) (units "id")) =
      decide (id ≠ []) := rfl
  rw [decodeHostListCursor]
  · simp only [hsplit, hparse, isOne_v, truthy_kind, hid, ne_eq, not_true_eq_false, if_false,
      Bool.not_true, Bool.false_or, Bool.or_false]
    by_cases hempty : id = []
    · simp [hempty]
    · by_cases hsame : normalizeContext pf c₁ = normalizeContext pf c₂
      · rw [(matches_iff _ keys id _).mpr hsame]
        simp [hempty, hsame]
      · have hmismatch := mt (matches_iff (normalizeContext pf c₁) keys id _).mp hsame
        rw [Bool.not_eq_false] at hmismatch
        simp [hempty, hsame, hmismatch]
  · intro h
    simp [encodeHostListCursor] at h

/-- Without a signature of its body a text is no cursor. -/
theorem decode_unsigned {cursor : JsString} (hne : cursor ≠ [])
    (hunsigned : ∀ body, cursor ≠ body ++ 46 :: pf.signBody body) (ctx : HostListCursorContext) :
    decodeHostListCursor pf (some cursor) ctx = .error invalidCursor := by
  have hjoin : [46].intercalate (cursor.splitOn 46) = cursor := List.intercalate_splitOn 46
  rw [decodeHostListCursor]
  · split
    · rename_i body sig hparts
      rw [hparts] at hjoin
      have hsig : sig ≠ pf.signBody body := by
        rintro rfl
        exact hunsigned body (by simpa [List.intercalate] using hjoin.symm)
      rw [if_pos hsig]
    · rfl
  · exact hne

/-- If the text carries the signature of a body, the encoder has signed this body. -/
def Unforged (cursor : JsString) : Prop :=
  ∀ body, cursor = body ++ 46 :: pf.signBody body →
    ∃ ctx, ∃ keys : SortKeys ν, ∃ id, body = cursorBody pf ctx keys id

/-- A cursor is accepted under the queries that are normalized alike, and says what it was
made of; another text is rejected. -/
theorem cursors_bound :
    (∀ c₁ c₂ (keys : SortKeys ν) id, id ≠ [] →
      (normalizeContext pf c₁ = normalizeContext pf c₂ → ∃ payload,
        decodeHostListCursor pf (some (encodeHostListCursor pf c₁ keys id)) c₂ =
            .ok (some payload) ∧
          member payload (units "keys") = some keys.json ∧
          member payload (units "id") = some (.string id)) ∧
      (normalizeContext pf c₁ ≠ normalizeContext pf c₂ →
        decodeHostListCursor pf (some (encodeHostListCursor pf c₁ keys id)) c₂ =
          .error contextMismatch)) ∧
    (∀ c₁ c₂ (keys : SortKeys ν),
      decodeHostListCursor pf (some (encodeHostListCursor pf c₁ keys [])) c₂ =
        .error invalidCursor) ∧
    ∀ cursor, cursor ≠ [] → Unforged pf cursor →
      (∀ ctx (keys : SortKeys ν) id, cursor ≠ encodeHostListCursor pf ctx keys id) →
      ∀ ctx, decodeHostListCursor pf (some cursor) ctx = .error invalidCursor := by
  constructor
  · intro c₁ c₂ keys id hid
    rw [decode_encode, if_neg hid]
    constructor
    · intro hsame
      rw [if_pos hsame]
      exact ⟨_, rfl, member_keys _ keys id, member_id _ keys id⟩
    · intro hother
      rw [if_neg hother]
  · constructor
    · intro c₁ c₂ keys
      rw [decode_encode, if_pos rfl]
    · intro cursor hne hunforged hother ctx
      apply decode_unsigned pf hne
      intro body hbody
      obtain ⟨c, keys, id, rfl⟩ := hunforged body hbody
      exact hother c keys id hbody

end Payloads

section Samples

def lowerUnit (u : ℕ) : ℕ := if 65 ≤ u ∧ u ≤ 90 then u + 32 else u

def trimSpaces (s : JsString) : JsString :=
  ((s.dropWhile (· = 32)).reverse.dropWhile (· = 32)).reverse

open Classical in
/-- Texts of ASCII, with the units moved beyond the dot for an encoding. -/
noncomputable def samplePlatform : CursorPlatform natNumerals where
  trim := trimSpaces
  toLowerCase := List.map lowerUnit
  b64urlEncode := List.map (· + 47)
  b64urlDecode := List.map (· - 47)
  b64url_stringify j := by simp [List.map_map, Function.comp_def]
  b64url_noDot s hs := by simp at hs
  parse s := if h : ∃ j, stringify natNumerals j = s then some h.choose else none
  parse_stringify j _ := by
    have hex : ∃ j', stringify natNumerals j' = stringify natNumerals j := ⟨j, rfl⟩
    rw [dif_pos hex, stringify_injective natNumerals hex.choose_spec]
  signBody body := List.map (· + 47) (body.reverse)
  signBody_noDot s hs := by simp at hs

def bookingsOf (search : String) : HostListCursorContext where
  kind := .bookings
  hostId := units "h1"
  sort := units "check_in"
  filter := none
  search := some (units search)
  listingId := none
  status := none

def dayKey : SortKeys ℕ := ⟨[(units "day", .number 5)], by decide, by decide⟩

theorem unforged_noDot {cursor : JsString} (h : 46 ∉ cursor) :
    Unforged samplePlatform cursor := by
  rintro body rfl
  simp at h

/-- The empty text is no cursor and is not rejected, and a cursor with an empty id is. -/
theorem empty_not_decided :
    (¬∀ cursor, Unforged samplePlatform cursor →
      (∀ ctx (keys : SortKeys ℕ) id, cursor ≠ encodeHostListCursor samplePlatform ctx keys id) →
      ∃ e, decodeHostListCursor samplePlatform (some cursor) (bookingsOf "") = .error e) ∧
    ¬∀ c₁ c₂ (keys : SortKeys ℕ) id,
      normalizeContext samplePlatform c₁ = normalizeContext samplePlatform c₂ → ∃ payload,
        decodeHostListCursor samplePlatform
          (some (encodeHostListCursor samplePlatform c₁ keys id)) c₂ = .ok (some payload) := by
  constructor
  · intro h
    obtain ⟨e, he⟩ := h [] (unforged_noDot (by simp)) (by simp [encodeHostListCursor])
    cases he
  · intro h
    obtain ⟨payload, hpayload⟩ := h (bookingsOf "") (bookingsOf "") dayKey [] rfl
    rw [decode_encode, if_pos rfl] at hpayload
    cases hpayload

/-- Searches that are normalized alike, another search, and a text that is no cursor. -/
theorem cursors_bound_sample :
    (∃ payload, decodeHostListCursor samplePlatform (some
        (encodeHostListCursor samplePlatform (bookingsOf " Ali ") dayKey (units "b7")))
        (bookingsOf "ali") = .ok (some payload) ∧
      member payload (units "keys") = some dayKey.json ∧
      member payload (units "id") = some (.string (units "b7"))) ∧
    decodeHostListCursor samplePlatform (some
        (encodeHostListCursor samplePlatform (bookingsOf "ali") dayKey (units "b7")))
        (bookingsOf "zoe") = .error contextMismatch ∧
    decodeHostListCursor samplePlatform (some (units "abc")) (bookingsOf "ali") =
      .error invalidCursor := by
  have h := cursors_bound samplePlatform
  refine ⟨(h.1 _ _ dayKey _ (by decide)).1 ?_, (h.1 _ _ dayKey _ (by decide)).2 ?_,
    h.2.2 _ (by decide) (unforged_noDot (by decide)) ?_ _⟩
  · rfl
  · intro heq
    have hsearch := congrArg NormalizedContext.search heq
    revert hsearch
    decide
  · intro ctx keys id heq
    have hdot : 46 ∈ units "abc" := by
      rw [heq]
      simp [encodeHostListCursor]
    revert hdot
    decide

end Samples

end NexaStays.CursorContexts
