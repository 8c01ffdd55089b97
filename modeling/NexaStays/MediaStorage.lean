import NexaStays.PosixPaths
import Mathlib.Data.List.Infix

/-!
# Media on the local disk

`media-storage-policy` and `local-media-storage`: the keys of stored media, and the files
that the backend writes, looks up, delivers and deletes for them.
-/
namespace NexaStays.MediaStorage

open NexaStays.PosixPaths

/-- `replace(/\\/g, '/')`. -/
def toSlashes (key : List Char) : List Char := key.map fun c => if c = '\\' then '/' else c

/-- A letter or a digit of ASCII, a dot, an underscore, a slash or a hyphen. -/
def isKeyChar (c : Char) : Bool := c.isAlphanum || c ∈ ['.', '_', '/', '-']

def invalidKey : String := "Invalid storage key"

/-- Sanitize + resolve a relative storage key under rootDir. -/
def assertSafeRelativeStorageKey (cwd rootDir storageKey : Path) : Except String Path :=
  let normalizedKey := toSlashes storageKey
  if normalizedKey = [] ∨ isAbsolute normalizedKey ∨ ['.', '.'] <:+: normalizedKey ∨
      '\x00' ∈ normalizedKey ∨ ¬normalizedKey.all isKeyChar then
    .error invalidKey
  else
    let root := resolve cwd [rootDir]
    let resolved := resolve cwd [root, normalizedKey]
    let path := relative cwd root resolved
    if ['.', '.'] <+: path ∨ isAbsolute path then .error invalidKey else .ok resolved

/-- Normalize a caller relative key (no root prefix). -/
def normalizeRelativeMediaKey (storageKey : List Char) : Except String (List Char) :=
  let normalizedKey := (toSlashes storageKey).dropWhile (· = '/')
  if normalizedKey = [] ∨ ['.', '.'] <:+: normalizedKey ∨ '\x00' ∈ normalizedKey ∨
      ¬normalizedKey.all isKeyChar then
    .error invalidKey
  else .ok normalizedKey

inductive FsCall where
  | mkdir (path : Path)
  | writeFile (path : Path) (buffer : List UInt8)
  | access (path : Path)
  | rm (path : Path)
  deriving DecidableEq

structure StoreParams where
  buffer : List UInt8
  relativeKey : List Char
  mimeType : String
  assetId : String

structure StoredMediaObject where
  assetId : String
  storageKey : List Char
  mimeType : String
  sizeBytes : ℕ

/-- `path.dirname` of an absolute path. -/
def dirname (p : Path) : Path := pathText (names p).dropLast

section Backend

variable (cwd rootDir : Path)

def fullPath (relativeKey : List Char) : Except String Path := do
  let storageKey ← normalizeRelativeMediaKey relativeKey
  assertSafeRelativeStorageKey cwd rootDir storageKey

def store (params : StoreParams) : Except String (StoredMediaObject × List FsCall) := do
  let storageKey ← normalizeRelativeMediaKey params.relativeKey
  let fullPath ← assertSafeRelativeStorageKey cwd rootDir storageKey
  pure (⟨params.assetId, storageKey, params.mimeType, params.buffer.length⟩,
    [.mkdir (dirname fullPath), .writeFile fullPath params.buffer])

/-- `accessible` is the answer of the disk. -/
def exists? (accessible : Path → Bool) (relativeKey : List Char) : Bool × List FsCall :=
  match fullPath cwd rootDir relativeKey with
  | .ok fullPath => (accessible fullPath, [.access fullPath])
  | .error _ => (false, [])

def resolveDelivery (relativeKey : List Char) : Except String Path :=
  fullPath cwd rootDir relativeKey

def delete (relativeKey : List Char) : Except String (List FsCall) := do
  let fullPath ← fullPath cwd rootDir relativeKey
  pure [.rm fullPath]

end Backend

inductive Operation where
  | store (params : StoreParams)
  | exists (accessible : Path → Bool) (relativeKey : List Char)
  | resolveDelivery (relativeKey : List Char)
  | delete (relativeKey : List Char)

namespace Operation

def key : Operation → List Char
  | .store params => params.relativeKey
  | .exists _ relativeKey => relativeKey
  | .resolveDelivery relativeKey => relativeKey
  | .delete relativeKey => relativeKey

end Operation

/-- The path of a call to the disk. -/
def FsCall.path : FsCall → Path
  | .mkdir path => path
  | .writeFile path _ => path
  | .access path => path
  | .rm path => path

/-- The file of a call to the disk; a directory is none. -/
def FsCall.file? : FsCall → Option Path
  | .mkdir _ => none
  | .writeFile path _ => some path
  | .access path => some path
  | .rm path => some path

namespace Operation

variable (cwd rootDir : Path)

/-- What an operation asks of the disk. -/
def calls : Operation → List FsCall
  | .store params => ((MediaStorage.store cwd rootDir params).toOption.map (·.2)).getD []
  | .exists accessible relativeKey => (exists? cwd rootDir accessible relativeKey).2
  | .resolveDelivery _ => []
  | .delete relativeKey => ((MediaStorage.delete cwd rootDir relativeKey).toOption).getD []

/-- The file that an operation touches, or hands out. -/
def touches : Operation → Option Path
  | .resolveDelivery relativeKey => (MediaStorage.resolveDelivery cwd rootDir relativeKey).toOption
  | op => (op.calls cwd rootDir).findSome? FsCall.file?

/-- The operation throws, or says that there is no such file. -/
def fails : Operation → Bool
  | .store params => !(MediaStorage.store cwd rootDir params).isOk
  | .exists accessible relativeKey => !(exists? cwd rootDir accessible relativeKey).1
  | .resolveDelivery relativeKey => !(MediaStorage.resolveDelivery cwd rootDir relativeKey).isOk
  | .delete relativeKey => !(MediaStorage.delete cwd rootDir relativeKey).isOk

end Operation

/-- The segments of a key, without those that are empty or a dot; a backslash is a slash. -/
def keyNames (key : List Char) : List Path := names (toSlashes key)

section Keys

variable {cwd rootDir : Path} {key k : List Char} {base : List Path}

theorem names_dropSlashes (p : Path) : names (p.dropWhile (· = '/')) = names p := by
  induction p with
  | nil => rfl
  | cons c p ih =>
    rw [List.dropWhile_cons]
    by_cases hc : c = '/'
    · rw [if_pos (by simpa using hc), ih, hc, names_slash]
    · rw [if_neg (by simpa using hc)]

theorem isAbsolute_dropSlashes (p : Path) : isAbsolute (p.dropWhile (· = '/')) = false := by
  induction p with
  | nil => rfl
  | cons c p ih =>
    rw [List.dropWhile_cons]
    by_cases hc : c = '/'
    · rwa [if_pos (by simpa using hc)]
    · rw [if_neg (by simpa using hc)]
      simpa [isAbsolute] using hc

theorem toSlashes_of_notMem (h : '\\' ∉ k) : toSlashes k = k := by
  have hself : k.map (fun c => if c = '\\' then '/' else c) = k.map id := by
    apply List.map_congr_left
    intro c hc
    rw [if_neg, id]
    rintro rfl
    exact h hc
  rw [toSlashes, hself, List.map_id]

theorem toSlashes_of_keyChars (h : k.all isKeyChar = true) : toSlashes k = k := by
  apply toSlashes_of_notMem
  intro hmem
  have hchar := List.all_eq_true.mp h _ hmem
  revert hchar
  decide

/-- What is known of a key that is accepted. -/
structure Accepted (key k : List Char) : Prop where
  ne_nil : k ≠ []
  relative : isAbsolute k = false
  noDots : ¬['.', '.'] <:+: k
  noNul : '\x00' ∉ k
  keyChars : k.all isKeyChar = true
  names_eq : names k = keyNames key

theorem accepted_of_normalize (h : normalizeRelativeMediaKey key = .ok k) : Accepted key k := by
  unfold normalizeRelativeMediaKey at h
  dsimp only at h
  split_ifs at h with hbad
  obtain rfl := Except.ok.inj h
  simp only [not_or, not_not] at hbad
  exact ⟨hbad.1, isAbsolute_dropSlashes _, hbad.2.1, hbad.2.2.1, hbad.2.2.2,
    names_dropSlashes _⟩

theorem Accepted.dots_notMem (h : Accepted key k) : ['.', '.'] ∉ parts k :=
  fun hmem => h.noDots (infix_of_mem_parts hmem)

theorem Accepted.clean (h : Accepted key k) : ∀ name ∈ names k, Clean name :=
  fun _ hname => clean_of_mem_names h.dots_notMem hname

/-- The names of a key lead neither upwards nor to the top. -/
theorem join_stays {ns : List Path} (hclean : ∀ name ∈ ns, Clean name)
    (hdots : ∀ name ∈ ns, ¬['.', '.'] <:+: name) :
    ¬['.', '.'] <+: join ns ∧ isAbsolute (join ns) = false := by
  cases ns with
  | nil => exact ⟨by simp [join], rfl⟩
  | cons name ns =>
    have hname := hclean name List.mem_cons_self
    obtain ⟨rest, hjoin⟩ : ∃ rest, join (name :: ns) = name ++ rest ∧
        (rest = [] ∨ rest.head? = some '/') := by
      cases ns with
      | nil => exact ⟨[], by simp [join], Or.inl rfl⟩
      | cons second ns =>
        exact ⟨'/' :: join (second :: ns), by simp [join, List.intercalate_cons_cons],
          Or.inr rfl⟩
    obtain ⟨hjoin, hrest⟩ := hjoin
    rw [hjoin]
    have hfirst := hdots name List.mem_cons_self
    cases name with
    | nil => exact absurd rfl hname.ne_nil
    | cons c name =>
      have hslash : c ≠ '/' := fun heq => hname.noSlash (by simp [heq])
      refine ⟨?_, by simp [isAbsolute, hslash]⟩
      cases name with
      | nil =>
        have hdot : c ≠ '.' := fun heq => hname.ne_dot (by simp [heq])
        simp [Ne.symm hdot]
      | cons d name =>
        intro hprefix
        simp only [List.cons_append, List.cons_prefix_cons, List.nil_prefix, and_true] at hprefix
        obtain ⟨rfl, rfl⟩ := hprefix
        exact hfirst (List.IsPrefix.isInfix (by simp))

/-- The check of the backend accepts what the first one has accepted, and the file has the
names of the key under the root. -/
theorem fullPath_eq (hbase : ∀ name ∈ base, Clean name)
    (hroot : resolve cwd [rootDir] = pathText base) (h : normalizeRelativeMediaKey key = .ok k) :
    fullPath cwd rootDir key = .ok (pathText (base ++ keyNames key)) := by
  have hkey := accepted_of_normalize h
  have hresolved := resolve_under cwd hbase hkey.ne_nil hkey.relative hkey.dots_notMem
  have hdots : ∀ name ∈ names k, ¬['.', '.'] <:+: name := fun name hname hinner =>
    hkey.noDots (hinner.trans (infix_of_mem_parts (mem_names.mp hname).1))
  have hstays := join_stays hkey.clean hdots
  have hsafe : assertSafeRelativeStorageKey cwd rootDir k =
      .ok (pathText (base ++ names k)) := by
    rw [assertSafeRelativeStorageKey, toSlashes_of_keyChars hkey.keyChars]
    dsimp only
    rw [if_neg, hroot, hresolved, relative_under cwd hbase hkey.clean, if_neg]
    · simp [hstays]
    · simp [hkey.ne_nil, hkey.relative, hkey.noDots, hkey.noNul, hkey.keyChars]
  rw [fullPath, h, ← hkey.names_eq, ← hsafe]
  rfl

theorem fullPath_eq_ok {p : Path} (hbase : ∀ name ∈ base, Clean name)
    (hroot : resolve cwd [rootDir] = pathText base) (h : fullPath cwd rootDir key = .ok p) :
    p = pathText (base ++ keyNames key) ∧ ∀ name ∈ keyNames key, Clean name := by
  cases hnormal : normalizeRelativeMediaKey key with
  | error e =>
    rw [fullPath, hnormal] at h
    cases h
  | ok k =>
    rw [fullPath_eq hbase hroot hnormal] at h
    have hkey := accepted_of_normalize hnormal
    exact ⟨(Except.ok.inj h).symm, hkey.names_eq ▸ hkey.clean⟩

end Keys

namespace Operation

variable (cwd rootDir : Path)

/-- What an operation asks of the disk for the path of its key. -/
def callsAt (p : Path) : Operation → List FsCall
  | .store params => [.mkdir (dirname p), .writeFile p params.buffer]
  | .exists _ _ => [.access p]
  | .resolveDelivery _ => []
  | .delete _ => [.rm p]

theorem calls_eq (op : Operation) :
    op.calls cwd rootDir = match fullPath cwd rootDir op.key with
      | .ok p => op.callsAt p
      | .error _ => [] := by
  cases op with
  | store params =>
    simp only [calls, MediaStorage.store, fullPath, key, bind, Except.bind]
    cases normalizeRelativeMediaKey params.relativeKey with
    | error e => rfl
    | ok k => cases hsafe : assertSafeRelativeStorageKey cwd rootDir k <;> simp only [hsafe] <;> rfl
  | «exists» accessible relativeKey =>
    simp only [calls, exists?, key]
    cases fullPath cwd rootDir relativeKey <;> rfl
  | resolveDelivery relativeKey =>
    simp only [calls, key, callsAt]
    cases fullPath cwd rootDir relativeKey <;> rfl
  | delete relativeKey =>
    simp only [calls, MediaStorage.delete, key, bind, Except.bind]
    cases fullPath cwd rootDir relativeKey <;> rfl

theorem touches_eq (op : Operation) :
    op.touches cwd rootDir = (fullPath cwd rootDir op.key).toOption := by
  cases op with
  | resolveDelivery relativeKey => rfl
  | store | «exists» | delete =>
    simp only [touches, calls_eq]
    split
    · next p hp =>
      rw [hp]
      rfl
    · next e he =>
      rw [he]
      rfl

theorem untouched {op : Operation} (h : op.touches cwd rootDir = none) :
    op.fails cwd rootDir = true ∧ op.calls cwd rootDir = [] := by
  obtain ⟨e, herror⟩ : ∃ e, fullPath cwd rootDir op.key = .error e := by
    rw [touches_eq] at h
    cases hpath : fullPath cwd rootDir op.key with
    | error e => exact ⟨e, rfl⟩
    | ok p => simp [hpath, Except.toOption] at h
  refine ⟨?_, by rw [calls_eq, herror]⟩
  cases op with
  | store params =>
    simp only [fullPath, key, bind, Except.bind] at herror
    simp only [fails, MediaStorage.store, bind, Except.bind]
    cases hnormal : normalizeRelativeMediaKey params.relativeKey with
    | error e => simp [Except.isOk, Except.toBool]
    | ok k =>
      simp only [hnormal] at herror
      simp [herror, Except.isOk, Except.toBool]
  | «exists» accessible relativeKey =>
    simp only [key] at herror
    simp [fails, exists?, herror]
  | resolveDelivery relativeKey =>
    simp only [key] at herror
    simp [fails, MediaStorage.resolveDelivery, herror, Except.isOk, Except.toBool]
  | delete relativeKey =>
    simp only [key] at herror
    simp [fails, MediaStorage.delete, herror, bind, Except.bind, Except.isOk, Except.toBool]

end Operation

/-- An absolute directory. -/
structure RootDir where
  dir : Path
  absolute : isAbsolute dir = true

/-- The path is that of the directory or of something in it. -/
def Within (dir p : Path) : Prop := names dir <+: names p ∧ ['.', '.'] ∉ parts p

/-- The path is that of something in the directory. -/
def StrictlyWithin (dir p : Path) : Prop := Within dir p ∧ names p ≠ names dir

def host (A : List Char) (rest : List Char) : List Char :=
  "host/".toList ++ (A ++ '/' :: rest)

theorem keyNames_host {A : List Char} (hne : A ≠ []) (hdot : A ≠ ['.']) (hslash : '/' ∉ A)
    (hback : '\\' ∉ A) (rest : List Char) :
    keyNames (host A rest) = "host".toList :: A :: keyNames rest := by
  have htext : toSlashes (host A rest) =
      "host".toList ++ '/' :: (A ++ '/' :: toSlashes rest) := by
    have happend : toSlashes (host A rest) =
        toSlashes "host/".toList ++ (toSlashes A ++ '/' :: toSlashes rest) := by
      simp [toSlashes, host]
    rw [happend, toSlashes_of_notMem hback]
    rfl
  have hnames : names A = [A] := by
    have hparts : parts A = [A] := List.splitOn_eq_singleton hslash
    rw [names, hparts]
    simp [hne, hdot]
  rw [keyNames, htext, names_append, names_append, hnames]
  rfl

section Touched

variable {cwd rootDir : Path} {base : List Path} {op op' : Operation} {p p' : Path}

/-- The file has the names of the key, under those of the root. -/
theorem path_of_touches (hbase : ∀ name ∈ base, Clean name)
    (hroot : resolve cwd [rootDir] = pathText base) (h : op.touches cwd rootDir = some p) :
    p = pathText (base ++ keyNames op.key) ∧ ∀ name ∈ base ++ keyNames op.key, Clean name := by
  rw [Operation.touches_eq] at h
  cases hpath : fullPath cwd rootDir op.key with
  | error e =>
    rw [hpath] at h
    cases h
  | ok q =>
    rw [hpath] at h
    obtain rfl := Option.some.inj h
    obtain ⟨rfl, hkey⟩ := fullPath_eq_ok hbase hroot hpath
    refine ⟨rfl, fun name hname => ?_⟩
    rcases List.mem_append.mp hname with hname | hname
    · exact hbase name hname
    · exact hkey name hname

theorem same_path_iff (hbase : ∀ name ∈ base, Clean name)
    (hroot : resolve cwd [rootDir] = pathText base) (h : op.touches cwd rootDir = some p)
    (h' : op'.touches cwd rootDir = some p') : p = p' ↔ keyNames op.key = keyNames op'.key := by
  obtain ⟨rfl, hclean⟩ := path_of_touches hbase hroot h
  obtain ⟨rfl, hclean'⟩ := path_of_touches hbase hroot h'
  constructor
  · intro heq
    exact List.append_cancel_left (pathText_inj hclean hclean' heq)
  · intro heq
    rw [heq]

/-- The paths of an operation whose key has a segment are in the root directory, and its file
is not that directory. -/
theorem touched_within (hbase : ∀ name ∈ base, Clean name)
    (hroot : resolve cwd [rootDir] = pathText base) (h : op.touches cwd rootDir = some p)
    (hkey : keyNames op.key ≠ []) :
    StrictlyWithin (resolve cwd [rootDir]) p ∧
      ∀ call ∈ op.calls cwd rootDir, Within (resolve cwd [rootDir]) call.path := by
  obtain ⟨hp, hclean⟩ := path_of_touches hbase hroot h
  have hwithin : ∀ {ns : List Path}, (∀ name ∈ base ++ ns, Clean name) →
      Within (resolve cwd [rootDir]) (pathText (base ++ ns)) := by
    intro ns hns
    rw [Within, hroot, names_pathText hbase, names_pathText hns]
    exact ⟨List.prefix_append _ _, dots_notMem_pathText hns⟩
  have hdir : dirname p = pathText (base ++ (keyNames op.key).dropLast) := by
    rw [hp, dirname, names_pathText hclean, List.dropLast_append_of_ne_nil hkey]
  have hparent : Within (resolve cwd [rootDir]) (dirname p) := by
    rw [hdir]
    refine hwithin fun name hname => hclean name ?_
    rcases List.mem_append.mp hname with hname | hname
    · exact List.mem_append_left _ hname
    · exact List.mem_append_right _ (List.mem_of_mem_dropLast hname)
  have hfile : Within (resolve cwd [rootDir]) p := hp ▸ hwithin hclean
  refine ⟨⟨hfile, ?_⟩, fun call hcall => ?_⟩
  · rw [hp, hroot, names_pathText hbase, names_pathText hclean]
    simpa using hkey
  · have hpath : fullPath cwd rootDir op.key = .ok p := by
      rw [Operation.touches_eq] at h
      cases hfull : fullPath cwd rootDir op.key with
      | error e => simp [hfull, Except.toOption] at h
      | ok q => simpa [hfull, Except.toOption] using h
    rw [Operation.calls_eq, hpath] at hcall
    cases op with
    | store params =>
      obtain rfl | rfl : call = .mkdir (dirname p) ∨ call = .writeFile p params.buffer := by
        simpa [Operation.callsAt] using hcall
      · exact hparent
      · exact hfile
    | «exists» accessible relativeKey =>
      obtain rfl : call = .access p := by simpa [Operation.callsAt] using hcall
      exact hfile
    | resolveDelivery relativeKey => simp [Operation.callsAt] at hcall
    | delete relativeKey =>
      obtain rfl : call = .rm p := by simpa [Operation.callsAt] using hcall
      exact hfile

end Touched

/-- An operation whose key has a segment fails and asks nothing of the disk, or touches a file
in the root directory and no path outside of it; two keys have one file just when they have the
same segments, so that the keys of two hosts have no file in common. -/
theorem media_confined (cwd : Path) (root : RootDir) :
    (∀ op : Operation, keyNames op.key ≠ [] →
      (op.touches cwd root.dir = none ∧ op.fails cwd root.dir = true ∧
        op.calls cwd root.dir = []) ∨
      ∃ p, op.touches cwd root.dir = some p ∧ StrictlyWithin (resolve cwd [root.dir]) p ∧
        ∀ call ∈ op.calls cwd root.dir, Within (resolve cwd [root.dir]) call.path) ∧
    (∀ (op op' : Operation) (p p' : Path), op.touches cwd root.dir = some p →
      op'.touches cwd root.dir = some p' → (p = p' ↔ keyNames op.key = keyNames op'.key)) ∧
    ∀ A B : List Char, A ≠ [] → B ≠ [] → A ≠ ['.'] → B ≠ ['.'] → '/' ∉ A → '/' ∉ B →
      '\\' ∉ A → '\\' ∉ B → A ≠ B →
      ∀ (op op' : Operation) (a b : List Char) (p p' : Path), op.key = host A a →
        op'.key = host B b → op.touches cwd root.dir = some p →
        op'.touches cwd root.dir = some p' → p ≠ p' := by
  obtain ⟨base, hbase, hroot⟩ := exists_resolve cwd root.absolute
  refine ⟨fun op hkey => ?_, fun op op' p p' => same_path_iff hbase hroot, ?_⟩
  · cases hop : op.touches cwd root.dir with
    | none => exact Or.inl ⟨rfl, Operation.untouched cwd root.dir hop⟩
    | some p => exact Or.inr ⟨p, rfl, touched_within hbase hroot hop hkey⟩
  · intro A B hA hB hdotA hdotB hslashA hslashB hbackA hbackB hne op op' a b p p' hop hop' h h'
    rw [Ne, same_path_iff hbase hroot h h', hop, hop', keyNames_host hA hdotA hslashA hbackA,
      keyNames_host hB hdotB hslashB hbackB]
    intro heq
    simp only [List.cons.injEq, true_and] at heq
    exact hne heq.1

def uploads : RootDir := ⟨"/srv/uploads".toList, by decide⟩

/-- `a\b` and `a/b` have one file. -/
theorem backslash_keys : ¬∀ (cwd : Path) (root : RootDir) (op op' : Operation) (p p' : Path),
    op.touches cwd root.dir = some p → op'.touches cwd root.dir = some p' →
    (p = p' ↔ names op.key = names op'.key) := by
  intro h
  have hiff := h ['/'] uploads (.resolveDelivery "a\\b".toList)
    (.resolveDelivery "a/b".toList) "/srv/uploads/a/b".toList "/srv/uploads/a/b".toList
    (by decide) (by decide)
  have hnames := hiff.mp rfl
  revert hnames
  decide

end NexaStays.MediaStorage
