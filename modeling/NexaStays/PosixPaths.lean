import Mathlib.Data.List.Basic
import Mathlib.Tactic.Common

/-!
# Paths

`path.resolve` and `path.relative` for absolute paths with slashes. A resolved path is a list
of names, none of which is empty or made of one or two dots.
-/
namespace NexaStays.PosixPaths

abbrev Path := List Char

def parts (p : Path) : List Path := p.splitOn '/'

def join (names : List Path) : Path := ['/'].intercalate names

def isAbsolute (p : Path) : Bool := p.head? = some '/'

/-- One part of a path, after the names that are kept so far, the last one first. -/
def normalizeStep (allowAboveRoot : Bool) (kept : List Path) (part : Path) : List Path :=
  if part = [] ∨ part = ['.'] then kept
  else if part = ['.', '.'] then
    match kept with
    | last :: rest =>
      if last ≠ ['.', '.'] then rest else if allowAboveRoot then part :: kept else kept
    | [] => if allowAboveRoot then [part] else []
  else part :: kept

def normalizeString (p : Path) (allowAboveRoot : Bool) : Path :=
  join ((parts p).foldl (normalizeStep allowAboveRoot) []).reverse

/-- From the last path to the first, up to an absolute one. -/
def resolveFrom (resolvedPath : Path) : List Path → Path × Bool
  | [] => (resolvedPath, false)
  | p :: ps =>
    if p = [] then resolveFrom resolvedPath ps
    else if isAbsolute p then (p ++ '/' :: resolvedPath, true)
    else resolveFrom (p ++ '/' :: resolvedPath) ps

/-- `path.resolve(...paths)`. -/
def resolve (cwd : Path) (paths : List Path) : Path :=
  let (resolvedPath, resolvedAbsolute) := resolveFrom [] (paths.reverse ++ [cwd])
  let normalized := normalizeString resolvedPath (!resolvedAbsolute)
  if resolvedAbsolute then '/' :: normalized
  else if normalized = [] then ['.'] else normalized

/-- How many names two paths have in common before they part. -/
def commonLength : List Path → List Path → ℕ
  | a :: as, b :: bs => if a = b then commonLength as bs + 1 else 0
  | _, _ => 0

/-- The names of a path. -/
def names (p : Path) : List Path := (parts p).filter fun part => part ≠ [] && part ≠ ['.']

/-- `path.relative(from, to)`. -/
def relative (cwd origin target : Path) : Path :=
  let origin := names (resolve cwd [origin])
  let target := names (resolve cwd [target])
  let n := commonLength origin target
  join (List.replicate (origin.length - n) ['.', '.'] ++ target.drop n)

/-- A name that stays as it is. -/
structure Clean (name : Path) : Prop where
  ne_nil : name ≠ []
  ne_dot : name ≠ ['.']
  ne_dots : name ≠ ['.', '.']
  noSlash : '/' ∉ name

/-- The absolute path of some names. -/
def pathText (ns : List Path) : Path := '/' :: join ns

section Parts

variable {p q part : Path}

@[simp] theorem parts_nil : parts [] = [[]] := rfl

theorem parts_cons (c : Char) (p : Path) :
    parts (c :: p) = if c = '/' then [] :: parts p else (parts p).modifyHead (c :: ·) := by
  rw [parts, List.splitOn_cons_eq_if_modifyHead]
  simp [parts]

theorem parts_ne_nil (p : Path) : parts p ≠ [] := List.splitOn_ne_nil _ _

theorem parts_append (p q : Path) : parts (p ++ '/' :: q) = parts p ++ parts q :=
  List.splitOn_append_cons_self p q

theorem parts_join {ns : List Path} (h : ∀ name ∈ ns, '/' ∉ name) (hne : ns ≠ []) :
    parts (join ns) = ns := List.splitOn_intercalate '/' h hne

theorem noSlash_of_mem_parts (h : part ∈ parts p) : '/' ∉ part := by
  induction p generalizing part with
  | nil =>
    have hpart : part = [] := by simpa using h
    simp [hpart]
  | cons c p ih =>
    rw [parts_cons] at h
    split_ifs at h with hc
    · rcases List.mem_cons.mp h with rfl | h
      · simp
      · exact ih h
    · obtain ⟨first, rest, hparts⟩ := List.exists_cons_of_ne_nil (parts_ne_nil p)
      rw [hparts, List.modifyHead_cons] at h
      rcases List.mem_cons.mp h with rfl | h
      · have hfirst : '/' ∉ first := ih (by simp [hparts])
        simp [hfirst, Ne.symm hc]
      · exact ih (by simp [hparts, h])

theorem infix_of_mem_parts (h : part ∈ parts p) : part <:+: p := by
  induction p generalizing part with
  | nil =>
    have hpart : part = [] := by simpa using h
    simp [hpart]
  | cons c p ih =>
    rw [parts_cons] at h
    obtain ⟨first, rest, hparts⟩ := List.exists_cons_of_ne_nil (parts_ne_nil p)
    split_ifs at h with hc
    · rcases List.mem_cons.mp h with rfl | h
      · exact List.nil_infix
      · exact (ih h).trans (List.suffix_cons c p).isInfix
    · rw [hparts, List.modifyHead_cons] at h
      rcases List.mem_cons.mp h with rfl | h
      · have hprefix : first <+: p := by
          have hjoin : join (parts p) = p := List.intercalate_splitOn '/'
          rw [← hjoin, hparts, join]
          cases rest with
          | nil => simp [List.intercalate]
          | cons second rest => simp [List.intercalate]
        exact ((List.prefix_cons_inj c).mpr hprefix).isInfix
      · exact (ih (by simp [hparts, h])).trans (List.suffix_cons c p).isInfix

@[simp] theorem names_nil : names [] = [] := by simp [names]

theorem names_append (p q : Path) : names (p ++ '/' :: q) = names p ++ names q := by
  rw [names, parts_append, List.filter_append]
  rfl

@[simp] theorem names_slash (p : Path) : names ('/' :: p) = names p := by
  have happend := names_append [] p
  simpa using happend

theorem mem_names : part ∈ names p ↔ part ∈ parts p ∧ part ≠ [] ∧ part ≠ ['.'] := by
  simp [names]

theorem clean_of_mem_names (hdots : ['.', '.'] ∉ parts p) (h : part ∈ names p) : Clean part := by
  obtain ⟨hpart, hne, hdot⟩ := mem_names.mp h
  exact ⟨hne, hdot, fun heq => hdots (heq ▸ hpart), noSlash_of_mem_parts hpart⟩

end Parts

section Resolved

variable {cwd p : Path} {base ns kept : List Path}

theorem parts_pathText (h : ∀ name ∈ ns, Clean name) :
    parts (pathText ns) = [] :: (if ns = [] then [[]] else ns) := by
  rw [pathText, parts_cons, if_pos rfl]
  by_cases hns : ns = []
  · subst hns
    rfl
  · rw [if_neg hns, parts_join (fun name hname => (h name hname).noSlash) hns]

theorem names_pathText (h : ∀ name ∈ ns, Clean name) : names (pathText ns) = ns := by
  rw [names, parts_pathText h]
  by_cases hns : ns = []
  · simp [hns]
  · have hself : ns.filter (fun part => part ≠ [] && part ≠ ['.']) = ns := by
      rw [List.filter_eq_self]
      intro name hname
      simp [(h name hname).ne_nil, (h name hname).ne_dot]
    rw [if_neg hns, List.filter_cons_of_neg (by simp), hself]

theorem pathText_inj (h : ∀ name ∈ ns, Clean name) (hbase : ∀ name ∈ base, Clean name)
    (heq : pathText ns = pathText base) : ns = base := by
  rw [← names_pathText h, heq, names_pathText hbase]

theorem dots_notMem_pathText (h : ∀ name ∈ ns, Clean name) : ['.', '.'] ∉ parts (pathText ns) := by
  intro hmem
  rw [parts_pathText h] at hmem
  rcases List.mem_cons.mp hmem with hmem | hmem
  · cases hmem
  · split_ifs at hmem with hns
    · simp at hmem
    · exact (h _ hmem).ne_dots rfl

theorem normalizeStep_skip {allowAboveRoot : Bool} {part : Path} (h : part = [] ∨ part = ['.']) :
    normalizeStep allowAboveRoot kept part = kept := by
  rw [normalizeStep.eq_def, if_pos h]

theorem normalizeStep_push {allowAboveRoot : Bool} {part : Path} (h : ¬(part = [] ∨ part = ['.']))
    (hdots : part ≠ ['.', '.']) : normalizeStep allowAboveRoot kept part = part :: kept := by
  rw [normalizeStep.eq_def, if_neg h, if_neg hdots]

/-- Where no part leads upwards, the names are kept in their order. -/
theorem foldl_normalizeStep {ps : List Path} {allowAboveRoot : Bool} (h : ['.', '.'] ∉ ps) :
    ps.foldl (normalizeStep allowAboveRoot) kept =
      (ps.filter fun part => part ≠ [] && part ≠ ['.']).reverse ++ kept := by
  induction ps generalizing kept with
  | nil => rfl
  | cons part ps ih =>
    obtain ⟨hpart, hrest⟩ := not_or.mp (mt List.mem_cons.mpr h)
    rw [List.foldl_cons, ih hrest, List.filter_cons]
    by_cases hskip : part = [] ∨ part = ['.']
    · have hdrop : ¬(part ≠ [] && part ≠ ['.']) = true := by simpa [or_iff_not_imp_left] using hskip
      rw [if_neg hdrop, normalizeStep_skip hskip]
    · have hkeep : (part ≠ [] && part ≠ ['.']) = true := by simpa [not_or] using hskip
      rw [if_pos hkeep, normalizeStep_push hskip (Ne.symm hpart)]
      simp

/-- What is kept below the top is clean. -/
theorem clean_normalizeStep {part : Path} (hkept : ∀ name ∈ kept, Clean name)
    (hpart : '/' ∉ part) : ∀ name ∈ normalizeStep false kept part, Clean name := by
  by_cases hskip : part = [] ∨ part = ['.']
  · rwa [normalizeStep_skip hskip]
  · by_cases hdots : part = ['.', '.']
    · rw [normalizeStep.eq_def, if_neg hskip, if_pos hdots]
      cases kept with
      | nil => simp
      | cons last rest =>
        have hlast := (hkept last List.mem_cons_self).ne_dots
        intro name hname
        simp only [hlast, ne_eq, not_false_eq_true, if_true] at hname
        exact hkept name (List.mem_cons_of_mem _ hname)
    · rw [normalizeStep_push hskip hdots]
      intro name hname
      rcases List.mem_cons.mp hname with rfl | hname
      · rw [not_or] at hskip
        exact ⟨hskip.1, hskip.2, hdots, hpart⟩
      · exact hkept name hname

theorem clean_foldl {ps : List Path} (hkept : ∀ name ∈ kept, Clean name)
    (hps : ∀ part ∈ ps, '/' ∉ part) : ∀ name ∈ ps.foldl (normalizeStep false) kept, Clean name := by
  induction ps generalizing kept with
  | nil => exact hkept
  | cons part ps ih =>
    rw [List.foldl_cons]
    exact ih (clean_normalizeStep hkept (hps part List.mem_cons_self))
      fun other hother => hps other (List.mem_cons_of_mem _ hother)

/-- An absolute path is resolved to clean names. -/
theorem exists_resolve (cwd : Path) (h : isAbsolute p = true) :
    ∃ ns, (∀ name ∈ ns, Clean name) ∧ resolve cwd [p] = pathText ns := by
  have hne : p ≠ [] := by
    rintro rfl
    cases h
  refine ⟨((parts (p ++ ['/'])).foldl (normalizeStep false) []).reverse, ?_, ?_⟩
  · intro name hname
    exact clean_foldl (by simp) (fun part hpart => noSlash_of_mem_parts hpart) name
      (List.mem_reverse.mp hname)
  · simp [resolve, resolveFrom, hne, h, normalizeString, pathText]

/-- A relative path that nowhere leads upwards adds its names. -/
theorem resolve_under (cwd : Path) (hbase : ∀ name ∈ base, Clean name) (hne : p ≠ [])
    (hrelative : isAbsolute p = false) (hdots : ['.', '.'] ∉ parts p) :
    resolve cwd [pathText base, p] = pathText (base ++ names p) := by
  have habsolute : isAbsolute (pathText base) = true := by simp [isAbsolute, pathText]
  have hpath : pathText base ≠ [] := by simp [pathText]
  have hparts : parts (pathText base ++ '/' :: (p ++ ['/'])) =
      parts (pathText base) ++ (parts p ++ parts []) := by
    rw [parts_append, parts_append]
  have hnone : ['.', '.'] ∉ parts (pathText base) ++ (parts p ++ parts []) := by
    simp [dots_notMem_pathText hbase, hdots]
  have hnames : ((parts (pathText base) ++ (parts p ++ parts [])).filter fun part =>
      part ≠ [] && part ≠ ['.']) = base ++ names p := by
    rw [List.filter_append, List.filter_append]
    change names (pathText base) ++ (names p ++ names []) = base ++ names p
    rw [names_pathText hbase, names_nil, List.append_nil]
  simp only [resolve, List.reverse_cons, List.reverse_nil, List.nil_append, List.cons_append,
    resolveFrom, hne, hrelative, hpath, habsolute, if_false, if_true, Bool.false_eq_true,
    normalizeString, hparts, foldl_normalizeStep hnone, hnames]
  simp [pathText]

theorem resolve_pathText (cwd : Path) (h : ∀ name ∈ ns, Clean name) :
    resolve cwd [pathText ns] = pathText ns := by
  have habsolute : isAbsolute (pathText ns) = true := by simp [isAbsolute, pathText]
  have hpath : pathText ns ≠ [] := by simp [pathText]
  have hparts : parts (pathText ns ++ ['/']) = parts (pathText ns) ++ parts [] := parts_append _ _
  have hnone : ['.', '.'] ∉ parts (pathText ns) ++ parts [] := by
    simp [dots_notMem_pathText h]
  have hnames : ((parts (pathText ns) ++ parts []).filter fun part =>
      part ≠ [] && part ≠ ['.']) = ns := by
    rw [List.filter_append]
    change names (pathText ns) ++ names [] = ns
    rw [names_pathText h, names_nil, List.append_nil]
  simp only [resolve, List.reverse_cons, List.reverse_nil, List.nil_append, List.cons_append,
    resolveFrom, hpath, habsolute, if_false, if_true, normalizeString, hparts,
    foldl_normalizeStep hnone, hnames]
  simp [pathText]

theorem commonLength_append (ns rest : List Path) : commonLength ns (ns ++ rest) = ns.length := by
  induction ns with
  | nil => simp [commonLength]
  | cons name ns ih => simp [commonLength, ih]

/-- From a directory to a path under it there are the names that were added. -/
theorem relative_under (cwd : Path) (hbase : ∀ name ∈ base, Clean name)
    (hns : ∀ name ∈ ns, Clean name) :
    relative cwd (pathText base) (pathText (base ++ ns)) = join ns := by
  have hboth : ∀ name ∈ base ++ ns, Clean name := by
    intro name hname
    rcases List.mem_append.mp hname with hname | hname
    · exact hbase name hname
    · exact hns name hname
  simp [relative, resolve_pathText cwd hbase, resolve_pathText cwd hboth, names_pathText hbase,
    names_pathText hboth, commonLength_append]

end Resolved

end NexaStays.PosixPaths
