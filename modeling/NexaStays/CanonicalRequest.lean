import NexaStays.JsonText
import NexaStays.Keyset
import Mathlib.Data.List.Lex

/-!
# Hashes of requests

`canonical-request-hash`: the members of every object are sorted and `idempotency_key` is
left out, and the text of the result is hashed. Members are created by assignment, in the
order in which the language keeps them.
-/
namespace NexaStays.CanonicalRequest

open NexaStays.JsonText NexaStays.Keyset

def idempotencyKey : JsString := units "idempotency_key"

/-- The name whose assignment sets the prototype of an object. -/
def protoName : JsString := units "__proto__"

variable {ν : Type}

abbrev Members (ν : Type) := List (JsString × Json ν)

/-- `out[name] = v`. Indices come first, by their numbers, then the other names as they are
created. -/
def setMember (out : Members ν) (name : JsString) (v : Json ν) : Members ν :=
  if name = protoName then out
  else if name ∈ out.map Prod.fst then out.map fun m => if m.1 = name then (name, v) else m
  else
    match arrayIndex? name with
    | some n =>
      out.takeWhile (fun m => (arrayIndex? m.1).any (· < n)) ++
        (name, v) :: out.dropWhile fun m => (arrayIndex? m.1).any (· < n)
    | none => out ++ [(name, v)]

/-- The object with these members, assigned one after the other. -/
def assignAll (members : Members ν) : Members ν :=
  members.foldl (fun out m => setMember out m.1 m.2) []

mutual

def canonicalizeForIdempotency : Json ν → Json ν
  | .array elems => .array (canonicalizeElems elems)
  | .object members =>
    .object (assignAll (orderBy Prod.fst
      ((canonicalizeMembers members).filter fun m => m.1 ≠ idempotencyKey)))
  | .null => .null
  | .bool b => .bool b
  | .number x => .number x
  | .string s => .string s

def canonicalizeElems : List (Json ν) → List (Json ν)
  | [] => []
  | e :: elems => canonicalizeForIdempotency e :: canonicalizeElems elems

def canonicalizeMembers : Members ν → Members ν
  | [] => []
  | (name, v) :: members => (name, canonicalizeForIdempotency v) :: canonicalizeMembers members

end

/-- SHA-256 of the UTF-8 text, in hexadecimal. -/
structure Digest (δ : Type) where
  hash : JsString → δ
  hash_injective : Function.Injective hash

variable {δ : Type} (sha256 : Digest δ) (num : Numerals ν)

def canonicalRequestHash (payload : Json ν) : δ :=
  sha256.hash (stringify num (canonicalizeForIdempotency payload))

/-- No object of the value has two members of one name. -/
inductive Distinct : Json ν → Prop
  | null : Distinct .null
  | bool (b : Bool) : Distinct (.bool b)
  | number (x : ν) : Distinct (.number x)
  | string (s : JsString) : Distinct (.string s)
  | array {elems : List (Json ν)} (inner : ∀ e ∈ elems, Distinct e) : Distinct (.array elems)
  | object {members : Members ν} (names : (members.map Prod.fst).Nodup)
      (inner : ∀ m ∈ members, Distinct m.2) : Distinct (.object members)

structure JsonValue (ν : Type) where
  json : Json ν
  distinct : Distinct json

inductive Step where
  | index (i : ℕ)
  | member (name : JsString)
  deriving DecidableEq

/-- What is found at a place of a value, apart from what is in it. -/
inductive Kind (ν : Type) where
  | null
  | bool (b : Bool)
  | number (x : ν)
  | string (s : JsString)
  | array (length : ℕ)
  | object

def kind : Json ν → Kind ν
  | .null => .null
  | .bool b => .bool b
  | .number x => .number x
  | .string s => .string s
  | .array elems => .array elems.length
  | .object _ => .object

/-- What is found at the end of a path. -/
def readAt : Json ν → List Step → Option (Kind ν)
  | j, [] => some (kind j)
  | .array elems, .index i :: path => elems[i]?.bind fun e => readAt e path
  | .object members, .member name :: path => (members.lookup name).bind fun v => readAt v path
  | _, _ :: _ => none

/-- The path leads through none of the members. -/
def Avoids (names : List JsString) (path : List Step) : Prop :=
  ∀ name ∈ names, Step.member name ∉ path

/-- The values are equal up to the order of members, without the members of these names. -/
def SameWithout (names : List JsString) (p q : Json ν) : Prop :=
  ∀ path, Avoids names path → readAt p path = readAt q path

theorem lookup_eq_some_iff {members : Members ν} (h : (members.map Prod.fst).Nodup)
    {name : JsString} {v : Json ν} : members.lookup name = some v ↔ (name, v) ∈ members := by
  induction members with
  | nil => simp
  | cons m members ih =>
    obtain ⟨hfresh, hrest⟩ := List.nodup_cons.mp h
    by_cases hname : name = m.1
    · subst hname
      have hnone : (m.1, v) ∉ members := fun hmem =>
        hfresh (List.mem_map.mpr ⟨_, hmem, rfl⟩)
      rw [List.lookup_cons, beq_self_eq_true]
      simp [hnone, Prod.ext_iff, eq_comm]
    · have hbeq : (name == m.1) = false := by simpa using hname
      have hne : (name, v) ≠ m := fun heq => hname (by rw [← heq])
      rw [List.lookup_cons, hbeq]
      simp [ih hrest, hne]

theorem lookup_append_of_ne {name other : JsString} {v : Json ν} (h : other ≠ name)
    (front back : Members ν) :
    (front ++ (name, v) :: back).lookup other = (front ++ back).lookup other := by
  have hbeq : (other == name) = false := by simpa using h
  rw [List.lookup_append, List.lookup_append, List.lookup_cons, hbeq]

theorem lookup_append_self {name : JsString} {v : Json ν} {front back : Members ν}
    (h : name ∉ front.map Prod.fst) :
    (front ++ (name, v) :: back).lookup name = some v := by
  have hnone : front.lookup name = none := by
    rw [List.lookup_eq_none_iff]
    intro m hm
    have hne : name ≠ m.1 := fun heq => h (List.mem_map.mpr ⟨m, hm, heq.symm⟩)
    simpa using hne
  rw [List.lookup_append, hnone, List.lookup_cons]
  simp

/-- A fresh name is inserted at some place. -/
theorem exists_setMember {out : Members ν} {name : JsString} (hproto : name ≠ protoName)
    (hfresh : name ∉ out.map Prod.fst) (v : Json ν) :
    ∃ front back, out = front ++ back ∧ setMember out name v = front ++ (name, v) :: back := by
  rw [setMember, if_neg hproto, if_neg hfresh]
  cases arrayIndex? name with
  | none => exact ⟨out, [], (List.append_nil _).symm, rfl⟩
  | some n => exact ⟨_, _, List.takeWhile_append_dropWhile.symm, rfl⟩

theorem mem_names_setMember {out : Members ν} {name other : JsString} {v : Json ν}
    (h : other ∈ (setMember out name v).map Prod.fst) :
    other ∈ out.map Prod.fst ∨ other = name := by
  by_cases hproto : name = protoName
  · rw [setMember, if_pos hproto] at h
    exact Or.inl h
  · by_cases hfresh : name ∈ out.map Prod.fst
    · rw [setMember, if_neg hproto, if_pos hfresh, List.map_map] at h
      obtain ⟨m, hm, rfl⟩ := List.mem_map.mp h
      by_cases hname : m.1 = name
      · exact Or.inr (by simp [hname])
      · exact Or.inl (List.mem_map.mpr ⟨m, hm, by simp [hname]⟩)
    · obtain ⟨front, back, rfl, hset⟩ := exists_setMember hproto hfresh v
      rw [hset] at h
      simp only [List.map_append, List.map_cons, List.mem_append, List.mem_cons] at h ⊢
      tauto

/-- Fresh names are all found, but for that of the prototype. -/
theorem lookup_foldl_setMember {members out : Members ν} (hnodup : (members.map Prod.fst).Nodup)
    (hfresh : ∀ m ∈ members, m.1 ∉ out.map Prod.fst) (name : JsString) :
    (members.foldl (fun out m => setMember out m.1 m.2) out).lookup name =
      (((members.filter fun m => m.1 ≠ protoName).lookup name).or (out.lookup name)) := by
  induction members generalizing out with
  | nil => simp
  | cons m members ih =>
    obtain ⟨hlater, hrest⟩ := List.nodup_cons.mp hnodup
    have hfreshRest : ∀ m' ∈ members, m'.1 ∉ (setMember out m.1 m.2).map Prod.fst := by
      intro m' hm' hmem
      rcases mem_names_setMember hmem with h | h
      · exact hfresh m' (by simp [hm']) h
      · exact hlater (List.mem_map.mpr ⟨m', hm', h⟩)
    rw [List.foldl_cons, ih hrest hfreshRest, List.filter_cons]
    by_cases hproto : m.1 = protoName
    · rw [setMember, if_pos hproto, if_neg (by simp [hproto])]
    · obtain ⟨front, back, hout, hset⟩ := exists_setMember hproto (hfresh m (by simp)) m.2
      have hfront : m.1 ∉ front.map Prod.fst := fun hmem =>
        hfresh m (by simp) (by rw [hout, List.map_append]; exact List.mem_append_left _ hmem)
      rw [if_pos (by simp [hproto]), List.lookup_cons, hset]
      by_cases hname : name = m.1
      · have hbeq : (name == m.1) = true := by simpa using hname
        have hnone : (members.filter fun m => m.1 ≠ protoName).lookup name = none := by
          rw [List.lookup_eq_none_iff]
          intro m' hm'
          have hne : name ≠ m'.1 := fun heq => hlater
            (List.mem_map.mpr ⟨m', List.mem_of_mem_filter hm', heq.symm.trans hname⟩)
          simpa using hne
        rw [hbeq, hnone, hname, lookup_append_self hfront]
        rfl
      · have hbeq : (name == m.1) = false := by simpa using hname
        rw [hbeq, lookup_append_of_ne hname, ← hout]

theorem canonicalizeElems_eq (elems : List (Json ν)) :
    canonicalizeElems elems = elems.map canonicalizeForIdempotency := by
  induction elems with
  | nil => rfl
  | cons e elems ih => rw [canonicalizeElems, ih, List.map_cons]

def canonicalMember (m : JsString × Json ν) : JsString × Json ν :=
  (m.1, canonicalizeForIdempotency m.2)

theorem canonicalizeMembers_eq (members : Members ν) :
    canonicalizeMembers members = members.map canonicalMember := by
  induction members with
  | nil => rfl
  | cons m members ih => rw [canonicalizeMembers, ih, List.map_cons, canonicalMember]

/-- The names of which no member is left. -/
def ignored : List JsString := [idempotencyKey, protoName]

theorem names_canonicalizeMembers (members : Members ν) :
    (canonicalizeMembers members).map Prod.fst = members.map Prod.fst := by
  rw [canonicalizeMembers_eq, List.map_map]
  rfl

theorem mem_canonicalizeMembers {members : Members ν} (h : (members.map Prod.fst).Nodup)
    {name : JsString} {v : Json ν} : (name, v) ∈ canonicalizeMembers members ↔
      (members.lookup name).map canonicalizeForIdempotency = some v := by
  rw [canonicalizeMembers_eq, List.mem_map, Option.map_eq_some_iff]
  constructor
  · rintro ⟨m, hm, heq⟩
    obtain ⟨rfl, rfl⟩ := Prod.mk.inj heq
    exact ⟨m.2, (lookup_eq_some_iff h).mpr hm, rfl⟩
  · rintro ⟨w, hw, rfl⟩
    exact ⟨(name, w), (lookup_eq_some_iff h).mp hw, rfl⟩

/-- The members that are left. -/
def keptMembers (members : Members ν) : Members ν :=
  (canonicalizeMembers members).filter fun m => m.1 ∉ ignored

theorem nodup_keptMembers {members : Members ν} (h : (members.map Prod.fst).Nodup) :
    ((keptMembers members).map Prod.fst).Nodup := by
  rw [← names_canonicalizeMembers] at h
  exact h.sublist (List.filter_sublist.map Prod.fst)

theorem mem_keptMembers {members : Members ν} (h : (members.map Prod.fst).Nodup)
    {name : JsString} {v : Json ν} : (name, v) ∈ keptMembers members ↔
      name ∉ ignored ∧ (members.lookup name).map canonicalizeForIdempotency = some v := by
  rw [keptMembers, List.mem_filter, mem_canonicalizeMembers h, and_comm, decide_eq_true_eq]

theorem foldl_setMember_filter (members out : Members ν) :
    (members.filter fun m => m.1 ≠ protoName).foldl (fun out m => setMember out m.1 m.2) out =
      members.foldl (fun out m => setMember out m.1 m.2) out := by
  induction members generalizing out with
  | nil => rfl
  | cons m members ih =>
    rw [List.filter_cons, List.foldl_cons]
    by_cases hproto : m.1 = protoName
    · rw [if_neg (by simp [hproto]), ih, setMember, if_pos hproto]
    · rw [if_pos (by simp [hproto]), List.foldl_cons, ih]

theorem canonicalizeForIdempotency_object {members : Members ν}
    (h : (members.map Prod.fst).Nodup) : canonicalizeForIdempotency (.object members) =
      .object (assignAll (orderBy Prod.fst (keptMembers members))) := by
  have hkept : keptMembers members = ((canonicalizeMembers members).filter fun m =>
      m.1 ≠ idempotencyKey).filter fun m => m.1 ≠ protoName := by
    rw [keptMembers, List.filter_filter]
    exact List.filter_congr fun m _ => by simp [ignored, Bool.and_comm]
  have hnodup : (((canonicalizeMembers members).filter fun m =>
      m.1 ≠ idempotencyKey).map Prod.fst).Nodup := by
    rw [← names_canonicalizeMembers] at h
    exact h.sublist (List.filter_sublist.map Prod.fst)
  rw [canonicalizeForIdempotency, hkept, orderBy_filter hnodup, assignAll, assignAll,
    foldl_setMember_filter]

theorem lookup_assignAll {members : Members ν} (h : (members.map Prod.fst).Nodup)
    (name : JsString) :
    (assignAll (orderBy Prod.fst (keptMembers members))).lookup name =
      if name ∈ ignored then none else (members.lookup name).map canonicalizeForIdempotency := by
  have hkept := nodup_keptMembers h
  have hordered : ((orderBy Prod.fst (keptMembers members)).map Prod.fst).Nodup :=
    ((orderBy_perm _).map _).nodup_iff.mpr hkept
  have hfiltered : (((orderBy Prod.fst (keptMembers members)).filter fun m =>
      m.1 ≠ protoName).map Prod.fst).Nodup :=
    hordered.sublist (List.filter_sublist.map Prod.fst)
  rw [assignAll, lookup_foldl_setMember hordered (by simp), List.lookup_nil, Option.or_none]
  ext v
  rw [lookup_eq_some_iff hfiltered, List.mem_filter, mem_orderBy, mem_keptMembers h]
  by_cases hname : name ∈ ignored
  · simp [hname]
  · have hproto : name ≠ protoName := fun heq => hname (by simp [ignored, heq])
    simp [hname, hproto]

theorem avoids_index {names : List JsString} {i : ℕ} {path : List Step} :
    Avoids names (.index i :: path) ↔ Avoids names path := by
  simp [Avoids]

theorem avoids_member {names : List JsString} {name : JsString} {path : List Step} :
    Avoids names (.member name :: path) ↔ name ∉ names ∧ Avoids names path := by
  simp only [Avoids, List.mem_cons, Step.member.injEq, not_or]
  constructor
  · intro h
    exact ⟨fun hmem => (h name hmem).1 rfl, fun other hother => (h other hother).2⟩
  · intro h other hother
    exact ⟨fun heq => h.1 (heq ▸ hother), h.2 other hother⟩

theorem kind_canonicalizeForIdempotency (j : Json ν) :
    kind (canonicalizeForIdempotency j) = kind j := by
  cases j with
  | array elems => simp [canonicalizeForIdempotency, canonicalizeElems_eq, kind]
  | _ => rfl

/-- A canonical value has what the value has, on the paths that lead through no ignored
member. -/
theorem readAt_canonicalizeForIdempotency (j : Json ν) : Distinct j → ∀ path,
    Avoids ignored path → readAt (canonicalizeForIdempotency j) path = readAt j path := by
  induction j using Json.induction with
  | array elems ih =>
    intro hdistinct path havoids
    cases hdistinct with
    | array inner =>
      cases path with
      | nil => exact congrArg some (kind_canonicalizeForIdempotency _)
      | cons step path =>
        cases step with
        | member name => rfl
        | index i =>
          rw [canonicalizeForIdempotency, canonicalizeElems_eq, readAt, readAt, List.getElem?_map]
          cases he : elems[i]? with
          | none => rfl
          | some e =>
            have hmem := List.mem_of_getElem? he
            exact ih e hmem (inner e hmem) path (avoids_index.mp havoids)
  | object members ih =>
    intro hdistinct path havoids
    cases hdistinct with
    | object names inner =>
      cases path with
      | nil => exact congrArg some (kind_canonicalizeForIdempotency _)
      | cons step path =>
        cases step with
        | index i => rfl
        | member name =>
          obtain ⟨hname, hpath⟩ := avoids_member.mp havoids
          rw [canonicalizeForIdempotency_object names, readAt, readAt, lookup_assignAll names,
            if_neg hname]
          cases hv : members.lookup name with
          | none => rfl
          | some v =>
            have hmem := (lookup_eq_some_iff names).mp hv
            exact ih _ hmem (inner _ hmem) path hpath
  | _ => intros; rfl

theorem SameWithout.elem {names : List JsString} {elems elems' : List (Json ν)}
    (h : SameWithout names (.array elems) (.array elems')) {i : ℕ} {e e' : Json ν}
    (he : elems[i]? = some e) (he' : elems'[i]? = some e') : SameWithout names e e' := by
  intro path hpath
  have hread := h (.index i :: path) (avoids_index.mpr hpath)
  rw [readAt, readAt, he, he'] at hread
  exact hread

theorem SameWithout.member {names : List JsString} {members members' : Members ν}
    (h : SameWithout names (.object members) (.object members')) {name : JsString}
    (hname : name ∉ names) :
    (members.lookup name = none ∧ members'.lookup name = none) ∨
      ∃ v v', members.lookup name = some v ∧ members'.lookup name = some v' ∧
        SameWithout names v v' := by
  have hread (path : List Step) (hpath : Avoids names path) :
      (members.lookup name).bind (readAt · path) = (members'.lookup name).bind (readAt · path) := by
    have hmember := h (.member name :: path) (avoids_member.mpr ⟨hname, hpath⟩)
    rwa [readAt, readAt] at hmember
  have hhere := hread [] (by simp [Avoids])
  cases hv : members.lookup name with
  | none =>
    cases hv' : members'.lookup name with
    | none => exact Or.inl ⟨rfl, rfl⟩
    | some v' => simp [hv, hv', readAt] at hhere
  | some v =>
    cases hv' : members'.lookup name with
    | none => simp [hv, hv', readAt] at hhere
    | some v' =>
      have hsame : SameWithout names v v' := by
        intro path hpath
        have hpathRead := hread path hpath
        rwa [hv, hv'] at hpathRead
      exact Or.inr ⟨v, v', rfl, rfl, hsame⟩

theorem kind_eq {names : List JsString} {p q : Json ν} (h : SameWithout names p q) :
    kind p = kind q := by
  have hread := h [] (by simp [Avoids])
  simpa [readAt] using hread

/-- The same members in two orders are put in one order. -/
theorem orderBy_eq_of_mem {rows rows' : Members ν} (h : (rows.map Prod.fst).Nodup)
    (h' : (rows'.map Prod.fst).Nodup) (hmem : ∀ m, m ∈ rows ↔ m ∈ rows') :
    orderBy Prod.fst rows = orderBy Prod.fst rows' := by
  have hperm : rows.Perm rows' :=
    (List.perm_ext_iff_of_nodup h.of_map h'.of_map).mpr hmem
  have hordered : (orderBy Prod.fst rows).Perm (orderBy Prod.fst rows') :=
    (orderBy_perm rows).trans (hperm.trans (orderBy_perm rows').symm)
  refine hordered.eq_of_pairwise ?_ (pairwise_orderBy h) (pairwise_orderBy h')
  intro a b _ _ hab hba
  exact absurd (lt_trans hab hba) (lt_irrefl _)

/-- Values that are equal without the ignored members have one canonical value. -/
theorem canonicalizeForIdempotency_eq (p : Json ν) : ∀ q, Distinct p → Distinct q →
    SameWithout ignored p q → canonicalizeForIdempotency p = canonicalizeForIdempotency q := by
  induction p using Json.induction with
  | array elems ih =>
    intro q hp hq h
    have hkind := kind_eq h
    cases q with
    | array elems' =>
      cases hp with | array inner =>
      cases hq with | array inner' =>
      have hlength : elems.length = elems'.length := by simpa [kind] using hkind
      rw [canonicalizeForIdempotency, canonicalizeForIdempotency, canonicalizeElems_eq,
        canonicalizeElems_eq]
      congr 1
      apply List.ext_getElem (by simpa using hlength)
      intro i hi hi'
      have hi₁ : i < elems.length := by simpa using hi
      have hi₂ : i < elems'.length := by omega
      have he := List.getElem?_eq_getElem hi₁
      have he' := List.getElem?_eq_getElem hi₂
      rw [List.getElem_map, List.getElem_map]
      exact ih _ (List.getElem_mem hi₁) _ (inner _ (List.getElem_mem hi₁))
        (inner' _ (List.getElem_mem hi₂)) (h.elem he he')
    | _ => cases hkind
  | object members ih =>
    intro q hp hq h
    have hkind := kind_eq h
    cases q with
    | object members' =>
      cases hp with | object names inner =>
      cases hq with | object names' inner' =>
      rw [canonicalizeForIdempotency_object names, canonicalizeForIdempotency_object names',
        orderBy_eq_of_mem (nodup_keptMembers names) (nodup_keptMembers names')]
      intro m
      obtain ⟨name, v⟩ := m
      rw [mem_keptMembers names, mem_keptMembers names']
      by_cases hname : name ∈ ignored
      · simp [hname]
      · rcases h.member hname with ⟨hnone, hnone'⟩ | ⟨w, w', hw, hw', hsame⟩
        · rw [hnone, hnone']
        · have hmem := (lookup_eq_some_iff names).mp hw
          have hmem' := (lookup_eq_some_iff names').mp hw'
          rw [hw, hw', Option.map_some, Option.map_some,
            ih _ hmem _ (inner _ hmem) (inner' _ hmem') hsame]
    | _ => cases hkind
  | _ =>
    intro q _ _ h
    have hkind := kind_eq h
    cases q <;> cases hkind
    rfl

/-- Equal hashes are those of values that are equal without the ignored members. -/
theorem canonicalRequestHash_eq_iff (p q : JsonValue ν) :
    canonicalRequestHash sha256 num p.json = canonicalRequestHash sha256 num q.json ↔
      SameWithout ignored p.json q.json := by
  constructor
  · intro h path hpath
    have hcanonical := stringify_injective num (sha256.hash_injective h)
    rw [← readAt_canonicalizeForIdempotency _ p.distinct path hpath, hcanonical,
      readAt_canonicalizeForIdempotency _ q.distinct path hpath]
  · intro h
    rw [canonicalRequestHash, canonicalRequestHash,
      canonicalizeForIdempotency_eq p.json q.json p.distinct q.distinct h]

theorem SameWithout.mono {names more : List JsString} (hsub : names ⊆ more) {p q : Json ν}
    (h : SameWithout names p q) : SameWithout more p q :=
  fun path hpath => h path fun name hname => hpath name (hsub hname)

/-- The hash tells payloads apart just when they do not differ in members named
`__proto__` alone. -/
theorem hash_identifies_iff (p q : JsonValue ν) :
    (canonicalRequestHash sha256 num p.json = canonicalRequestHash sha256 num q.json ↔
        SameWithout [idempotencyKey] p.json q.json) ↔
      (SameWithout [idempotencyKey, protoName] p.json q.json →
        SameWithout [idempotencyKey] p.json q.json) := by
  rw [canonicalRequestHash_eq_iff]
  constructor
  · exact fun h => h.mp
  · intro h
    exact ⟨h, SameWithout.mono (by simp [ignored])⟩

def amountOnly : JsonValue ℕ where
  json := .object [(units "amount", .number 1)]
  distinct := .object (by simp) (by simpa using .number 1)

def amountAndProto : JsonValue ℕ where
  json := .object [(units "amount", .number 1), (protoName, .object [(units "x", .null)])]
  distinct := .object (by decide) (by
    simp only [List.mem_cons, List.not_mem_nil, or_false, forall_eq_or_imp, forall_eq]
    exact ⟨.number 1, .object (by simp) (by simpa using .null)⟩)

/-- `{"amount":1}` and `{"amount":1,"__proto__":{"x":null}}` have one hash. -/
theorem proto_member_not_hashed :
    ¬∀ (δ : Type) (sha256 : Digest δ), ∀ p q : JsonValue ℕ,
      (canonicalRequestHash sha256 natNumerals p.json =
          canonicalRequestHash sha256 natNumerals q.json ↔
        SameWithout [idempotencyKey] p.json q.json) := by
  intro h
  have hiff := h JsString ⟨id, Function.injective_id⟩ amountOnly amountAndProto
  have hcanonical : canonicalizeForIdempotency amountOnly.json =
      canonicalizeForIdempotency amountAndProto.json := rfl
  have hsame := hiff.mp (by rw [canonicalRequestHash, canonicalRequestHash, hcanonical])
  have hproto : Avoids [idempotencyKey] [.member protoName] := by
    simp only [Avoids, List.mem_singleton, forall_eq, Step.member.injEq]
    decide
  cases hsame [.member protoName] hproto

end NexaStays.CanonicalRequest
