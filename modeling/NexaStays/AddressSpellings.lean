import NexaStays.DelimitedText
import NexaStays.OutboundUrl
import Mathlib.Data.List.Basic
import Mathlib.Data.List.TakeWhile
import Mathlib.Tactic.IntervalCases

/-!
# Spellings of addresses

What an IPv6 text denotes by the grammar of addresses, and whether the filter judges every
text as it judges the address.
-/
namespace NexaStays.AddressSpellings

open NexaStays.OutboundUrl

/-- The two groups of an IPv4 address at the end. -/
def ipv4Hextets (cs : List Char) : List ℕ :=
  match splitAt '.' cs with
  | [a, b, c, d] =>
    [numberOf 10 a * 256 + numberOf 10 b, numberOf 10 c * 256 + numberOf 10 d]
  | _ => []

/-- The groups with colons between them; an IPv4 address may be the last. -/
def hextetsOf (cs : List Char) (last : Bool) : Option (List ℕ) :=
  if cs = [] then some []
  else
    let parts := splitAt ':' cs
    let tail := (parts.getLast?).getD []
    if last ∧ isIPv4 tail then
      if parts.dropLast.all ipv6Group then
        some (parts.dropLast.map (numberOf 16) ++ ipv4Hextets tail)
      else none
    else if parts.all ipv6Group then some (parts.map (numberOf 16))
    else none

/-- Eight groups; two colons stand for the groups of zeros that are left out, which are
one or more. -/
def addressOf (address : List Char) : Option (List ℕ) :=
  match splitDoubleColon address with
  | some (left, right) =>
    match hextetsOf left false, hextetsOf right true with
    | some left, some right =>
      if left.length + right.length ≤ 7 then
        some (left ++ List.replicate (8 - left.length - right.length) 0 ++ right)
      else none
    | _, _ => none
  | none => (hextetsOf address true).filter (·.length = 8)

/-- The text without its zone. -/
def withoutZone (cs : List Char) : List Char := (splitAt '%' cs).headD []

/-- The platform accepts the text, without brackets, and it denotes the address. -/
def Denotes (ip : String) (hextets : List ℕ) : Prop :=
  isIP (stripBrackets ip) = 6 ∧
    addressOf (withoutZone (stripBrackets ip).toList) = some hextets

/-- All six groups are written out before an IPv4 address. -/
def dottedFull (ip : String) : Bool :=
  let address := withoutZone (stripBrackets ip).toList
  (splitDoubleColon address).isNone && isIPv4 (((splitAt ':' address).getLast?).getD [])

theorem splitAt_eq_splitOn (sep : Char) (cs : List Char) : splitAt sep cs = cs.splitOn sep := by
  induction cs with
  | nil => rfl
  | cons c cs ih =>
    rw [splitAt, ih, List.splitOn_cons_eq_if_modifyHead]
    cases hparts : cs.splitOn sep with
    | nil => exact absurd hparts (List.splitOn_ne_nil _ _)
    | cons part parts =>
      by_cases hc : c = sep
      · simp [hc]
      · simp [hc]

theorem splitAt_ne_nil (sep : Char) (cs : List Char) : splitAt sep cs ≠ [] := by
  rw [splitAt_eq_splitOn]
  exact List.splitOn_ne_nil _ _

theorem splitAt_intercalate {sep : Char} {parts : List (List Char)}
    (h : ∀ part ∈ parts, sep ∉ part) (hne : parts ≠ []) :
    splitAt sep ([sep].intercalate parts) = parts := by
  rw [splitAt_eq_splitOn, List.splitOn_intercalate sep h hne]

theorem splitAt_of_notMem {sep : Char} {cs : List Char} (h : sep ∉ cs) :
    splitAt sep cs = [cs] := by
  rw [splitAt_eq_splitOn, List.splitOn_eq_singleton h]

/-- A character of a text is the separator or is in a part. -/
theorem mem_splitAt {sep c : Char} {cs : List Char} (h : c ∈ cs) :
    c = sep ∨ ∃ part ∈ splitAt sep cs, c ∈ part := by
  induction cs with
  | nil => simp at h
  | cons d cs ih =>
    rw [splitAt]
    split
    · rename_i hnil
      exact absurd hnil (splitAt_ne_nil sep cs)
    · rename_i first rest hparts
      by_cases hd : d = sep
      · rw [if_pos hd]
        rcases List.mem_cons.mp h with rfl | h
        · exact Or.inl hd
        · rcases ih h with h | ⟨part, hpart, hmem⟩
          · exact Or.inl h
          · exact Or.inr ⟨part, by simp [← hparts, hpart], hmem⟩
      · rw [if_neg hd]
        rcases List.mem_cons.mp h with rfl | h
        · exact Or.inr ⟨_, List.mem_cons_self, List.mem_cons_self⟩
        · rcases ih h with h | ⟨part, hpart, hmem⟩
          · exact Or.inl h
          · rw [hparts] at hpart
            rcases List.mem_cons.mp hpart with rfl | hpart
            · exact Or.inr ⟨_, List.mem_cons_self, List.mem_cons_of_mem _ hmem⟩
            · exact Or.inr ⟨part, List.mem_cons_of_mem _ hpart, hmem⟩

/-- The two colons that are found are the first ones, whatever comes after them. -/
theorem splitDoubleColon_some {cs left right : List Char}
    (h : splitDoubleColon cs = some (left, right)) :
    cs = left ++ ':' :: ':' :: right ∧
      ∀ other, splitDoubleColon (left ++ ':' :: ':' :: other) = some (left, other) := by
  induction cs using splitDoubleColon.induct generalizing left with
  | case1 cs =>
    rw [splitDoubleColon] at h
    obtain ⟨rfl, rfl⟩ := Prod.mk.inj (Option.some.inj h)
    exact ⟨rfl, fun other => by rw [List.nil_append, splitDoubleColon]⟩
  | case2 c cs hne ih =>
    rw [splitDoubleColon.eq_2 c cs hne] at h
    obtain ⟨⟨left', right'⟩, hrest, heq⟩ := Option.map_eq_some_iff.mp h
    obtain ⟨rfl, rfl⟩ := Prod.mk.inj heq
    obtain ⟨rfl, hother⟩ := ih hrest
    refine ⟨rfl, fun other => ?_⟩
    rw [List.cons_append, splitDoubleColon.eq_2, hother]
    · rfl
    · intro cs' hc heq
      cases left' with
      | nil =>
        exact hne (':' :: right') hc (by simp)
      | cons d left' =>
        simp only [List.cons_append, List.cons.injEq] at heq
        exact hne _ hc (by rw [heq.1]; rfl)
  | case3 => simp [splitDoubleColon] at h

/-- There are no two colons where no part is empty. -/
theorem splitDoubleColon_none {cs : List Char} (h : ∀ part ∈ splitAt ':' cs, part ≠ []) :
    splitDoubleColon cs = none := by
  cases hcs : splitDoubleColon cs with
  | none => rfl
  | some pair =>
    obtain ⟨rfl, -⟩ := splitDoubleColon_some hcs
    have hempty : [] ∈ splitAt ':' (pair.1 ++ ':' :: ':' :: pair.2) := by
      rw [splitAt_eq_splitOn, List.splitOn_append_cons_self, List.splitOn_cons_eq_if_modifyHead]
      simp
    exact absurd rfl (h [] hempty)

/-- The last part of a text with colons. -/
def tailOf (cs : List Char) : List Char := ((splitAt ':' cs).getLast?).getD []

theorem splitAt_append {cs last : List Char} (h : ':' ∉ last) :
    splitAt ':' (cs ++ ':' :: last) = splitAt ':' cs ++ [last] := by
  rw [splitAt_eq_splitOn, splitAt_eq_splitOn, List.splitOn_append_cons_self,
    List.splitOn_eq_singleton h]

theorem tailOf_of_notMem {cs : List Char} (h : ':' ∉ cs) : tailOf cs = cs := by
  simp [tailOf, splitAt_of_notMem h]

theorem tailOf_append {cs last : List Char} (h : ':' ∉ last) :
    tailOf (cs ++ ':' :: last) = last := by
  simp [tailOf, splitAt_append h]

theorem dottedFull_eq (ip : String) : dottedFull ip =
    ((splitDoubleColon (withoutZone (stripBrackets ip).toList)).isNone &&
      isIPv4 (tailOf (withoutZone (stripBrackets ip).toList))) := rfl

/-- A text is its last part, or has a colon before it. -/
theorem eq_tail_or (cs : List Char) :
    ':' ∉ cs ∨ ∃ front last, ':' ∉ last ∧ cs = front ++ ':' :: last := by
  by_cases hcolon : ':' ∈ cs
  · obtain ⟨last, front, heq, hlast⟩ :=
      List.eq_append_cons_of_mem (List.mem_reverse.mpr hcolon)
    refine Or.inr ⟨front.reverse, last.reverse, by simpa using hlast, ?_⟩
    have hrev := congrArg List.reverse heq
    simpa using hrev
  · exact Or.inl hcolon

theorem digitValue_lt {c : Char} (h : isHexDigit c = true) : digitValue c < 16 := by
  have hc : c = Char.ofNat c.toNat := (Char.ofNat_toNat c).symm
  have hrange : 48 ≤ c.toNat ∧ c.toNat ≤ 57 ∨ 97 ≤ c.toNat ∧ c.toNat ≤ 102 ∨
      65 ≤ c.toNat ∧ c.toNat ≤ 70 := by
    simpa [isHexDigit, isDigit, Char.le_def, UInt32.le_iff_toNat_le, or_assoc] using h
  rw [hc]
  generalize c.toNat = n at hrange
  rcases hrange with ⟨hlo, hhi⟩ | ⟨hlo, hhi⟩ | ⟨hlo, hhi⟩ <;> interval_cases n <;> decide

theorem numberOf_lt {cs : List Char} (h : cs.all isHexDigit = true) :
    numberOf 16 cs < 16 ^ cs.length := by
  have hfold : ∀ n, cs.foldl (fun n c => n * 16 + digitValue c) n < (n + 1) * 16 ^ cs.length := by
    induction cs with
    | nil => simp
    | cons c cs ih =>
      intro n
      have hall : isHexDigit c = true ∧ cs.all isHexDigit = true := by simpa using h
      have hvalue := digitValue_lt hall.1
      have hrest := ih hall.2 (n * 16 + digitValue c)
      calc (c :: cs).foldl (fun n c => n * 16 + digitValue c) n
          < (n * 16 + digitValue c + 1) * 16 ^ cs.length := hrest
        _ ≤ ((n + 1) * 16) * 16 ^ cs.length := Nat.mul_le_mul_right _ (by omega)
        _ = (n + 1) * 16 ^ (c :: cs).length := by
          rw [List.length_cons, Nat.pow_succ, Nat.mul_assoc, Nat.mul_comm 16]
  simpa [numberOf] using hfold 0

theorem hextet_of_group {part : List Char} (h : ipv6Group part = true) :
    hextet? part = some (numberOf 16 part) ∧ numberOf 16 part ≤ 0xffff := by
  simp only [ipv6Group, Bool.and_eq_true, decide_eq_true_eq] at h
  obtain ⟨⟨hne, hlength⟩, hall⟩ := h
  have hbound : numberOf 16 part ≤ 0xffff := by
    have hlt := numberOf_lt hall
    have hpow : 16 ^ part.length ≤ 16 ^ 4 := Nat.pow_le_pow_right (by decide) hlength
    omega
  have htake : part.takeWhile isHexDigit = part := by
    rw [List.takeWhile_eq_self_iff]
    exact List.all_eq_true.mp hall
  have hparse : parseHex part = some (numberOf 16 part) := by
    rw [parseHex, htake]
    cases part with
    | nil => exact absurd rfl hne
    | cons c part => rfl
  refine ⟨?_, hbound⟩
  rw [hextet?, hparse, Option.filter_some, if_pos (by simpa using hbound)]

theorem mapM_hextet {parts : List (List Char)} (h : ∀ part ∈ parts, ipv6Group part = true) :
    parts.mapM hextet? = some (parts.map (numberOf 16)) := by
  induction parts with
  | nil => rfl
  | cons part parts ih =>
    have hrest := ih fun part' hpart' => h part' (List.mem_cons_of_mem _ hpart')
    rw [List.mapM_cons, (hextet_of_group (h part List.mem_cons_self)).1, hrest]
    rfl

theorem ne_nil_of_group {part : List Char} (h : ipv6Group part = true) : part ≠ [] := by
  rintro rfl
  cases h

/-- Where every part is a group, the code finds just these groups. -/
theorem groups_eq {cs : List Char} (h : ∀ part ∈ splitAt ':' cs, ipv6Group part = true) :
    groups cs = splitAt ':' cs ∧ splitDoubleColon cs = none := by
  constructor
  · rw [groups, List.filter_eq_self]
    intro part hpart
    simpa using ne_nil_of_group (h part hpart)
  · exact splitDoubleColon_none fun part hpart => ne_nil_of_group (h part hpart)

theorem notMem_dot_of_group {part : List Char} (h : ipv6Group part = true) : '.' ∉ part := by
  intro hdot
  simp only [ipv6Group, Bool.and_eq_true] at h
  exact absurd (List.all_eq_true.mp h.2 _ hdot) (by decide)

theorem looksLikeIpv4_of_notMem {cs : List Char} (h : '.' ∉ cs) : looksLikeIpv4 cs = false := by
  rw [looksLikeIpv4, splitAt_of_notMem h]

/-- An IPv4 address of the platform is one for the code. -/
theorem parseIpv4_of_isIPv4 {cs : List Char} (h : isIPv4 cs = true) :
    looksLikeIpv4 cs = true ∧ ∃ a b c d, parseIpv4 cs = some (a, b, c, d) ∧
      ipv4Hextets cs = [a * 256 + b, c * 256 + d] ∧ a ≤ 255 ∧ b ≤ 255 ∧ c ≤ 255 ∧ d ≤ 255 := by
  unfold isIPv4 at h
  split at h
  · rename_i a b c d hparts
    simp only [ipv4Segment, Bool.and_eq_true, decide_eq_true_eq] at h
    obtain ⟨⟨⟨ha, hb⟩, hc⟩, hd⟩ := h
    refine ⟨?_, numberOf 10 a, numberOf 10 b, numberOf 10 c, numberOf 10 d, ?_, ?_, ha.1.2,
      hb.1.2, hc.1.2, hd.1.2⟩
    · simp [looksLikeIpv4, hparts, ha, hb, hc, hd]
    · rw [parseIpv4, hparts]
      simp only []
      rw [if_pos ⟨ha.1.1.1.1, ha.1.1.1.2, ha.1.1.2, ha.1.2⟩,
        if_pos ⟨hb.1.1.1.1, hb.1.1.1.2, hb.1.1.2, hb.1.2⟩,
        if_pos ⟨hc.1.1.1.1, hc.1.1.1.2, hc.1.1.2, hc.1.2⟩,
        if_pos ⟨hd.1.1.1.1, hd.1.1.1.2, hd.1.1.2, hd.1.2⟩]
      rfl
    · rw [ipv4Hextets, hparts]
  · cases h

theorem hextetsOf_some {cs : List Char} {last : Bool} {hextets : List ℕ}
    (h : hextetsOf cs last = some hextets) :
    (cs = [] ∧ hextets = []) ∨
    (cs ≠ [] ∧ (∀ part ∈ splitAt ':' cs, ipv6Group part = true) ∧
      hextets = (splitAt ':' cs).map (numberOf 16)) ∨
    (last = true ∧ isIPv4 (tailOf cs) = true ∧
      (∀ part ∈ (splitAt ':' cs).dropLast, ipv6Group part = true) ∧
      hextets = (splitAt ':' cs).dropLast.map (numberOf 16) ++ ipv4Hextets (tailOf cs)) := by
  rw [hextetsOf] at h
  by_cases hcs : cs = []
  · rw [if_pos hcs] at h
    exact Or.inl ⟨hcs, (Option.some.inj h).symm⟩
  · rw [if_neg hcs] at h
    by_cases hv4 : last = true ∧ isIPv4 (tailOf cs) = true
    · have hv4' : last = true ∧ isIPv4 (((splitAt ':' cs).getLast?).getD []) = true := hv4
      simp only [if_pos hv4'] at h
      by_cases hall : (splitAt ':' cs).dropLast.all ipv6Group = true
      · rw [if_pos hall] at h
        exact Or.inr (Or.inr ⟨hv4.1, hv4.2, List.all_eq_true.mp hall, (Option.some.inj h).symm⟩)
      · rw [if_neg hall] at h
        cases h
    · have hv4' : ¬(last = true ∧ isIPv4 (((splitAt ':' cs).getLast?).getD []) = true) := hv4
      simp only [if_neg hv4'] at h
      by_cases hall : (splitAt ':' cs).all ipv6Group = true
      · rw [if_pos hall] at h
        exact Or.inr (Or.inl ⟨hcs, List.all_eq_true.mp hall, (Option.some.inj h).symm⟩)
      · rw [if_neg hall] at h
        cases h

/-- The code reads the groups of a text that has no other part. -/
def ReadsAs (cs : List Char) (hextets : List ℕ) : Prop :=
  (groups cs).mapM hextet? = some hextets ∧ (groups cs).length = hextets.length ∧
    splitDoubleColon cs = none

theorem readsAs_nil : ReadsAs [] [] := ⟨rfl, rfl, rfl⟩

theorem readsAs_groups {cs : List Char} (h : ∀ part ∈ splitAt ':' cs, ipv6Group part = true) :
    ReadsAs cs ((splitAt ':' cs).map (numberOf 16)) := by
  obtain ⟨hgroups, hnone⟩ := groups_eq h
  exact ⟨by rw [hgroups, mapM_hextet h], by rw [hgroups, List.length_map], hnone⟩

theorem splitAt_zeros (front : List Char) :
    splitAt ':' (front ++ ":0:0".toList) = splitAt ':' front ++ [['0'], ['0']] := by
  have htext : front ++ ":0:0".toList = (front ++ ':' :: ['0']) ++ ':' :: ['0'] := by simp
  rw [htext, splitAt_append (by decide), splitAt_append (by decide), List.append_assoc]
  rfl

theorem readsAs_zeros {front : List Char}
    (h : ∀ part ∈ splitAt ':' front, ipv6Group part = true) :
    ReadsAs (front ++ ":0:0".toList) ((splitAt ':' front).map (numberOf 16) ++ [0, 0]) := by
  have hall : ∀ part ∈ splitAt ':' (front ++ ":0:0".toList), ipv6Group part = true := by
    intro part hpart
    rw [splitAt_zeros] at hpart
    rcases List.mem_append.mp hpart with hpart | hpart
    · exact h part hpart
    · have hzero : part = ['0'] := by simpa using hpart
      rw [hzero]
      decide
  have hreads := readsAs_groups hall
  rw [splitAt_zeros, List.map_append] at hreads
  exact hreads

section Expand

variable {ip bare left right : List Char} {ls rs : List ℕ}

theorem expand_compressed (hbare : ((splitAt '%' (dropBrackets ip)).head?).getD [] = bare)
    (hcolon : ':' ∈ bare) (htail : looksLikeIpv4 (tailOf bare) = false)
    (hsplit : splitDoubleColon bare = some (left, right)) (hleft : ReadsAs left ls)
    (hright : ReadsAs right rs) (hlength : ls.length + rs.length ≤ 7) :
    expandIpv6Hextets ip =
      some (ls ++ List.replicate (8 - ls.length - rs.length) 0 ++ rs) := by
  rw [tailOf] at htail
  have hfew : ¬ls.length + rs.length > 8 := by omega
  simp [expandIpv6Hextets, hbare, hcolon, htail, hsplit, hright.2.2, hleft.1, hright.1,
    hleft.2.1, hright.2.1, hfew]

theorem expand_full (hbare : ((splitAt '%' (dropBrackets ip)).head?).getD [] = bare)
    (hcolon : ':' ∈ bare) (htail : looksLikeIpv4 (tailOf bare) = false)
    (hgroups : ∀ part ∈ splitAt ':' bare, ipv6Group part = true)
    (hlength : (splitAt ':' bare).length = 8) :
    expandIpv6Hextets ip = some ((splitAt ':' bare).map (numberOf 16)) := by
  rw [tailOf] at htail
  have hnone := (groups_eq hgroups).2
  simp [expandIpv6Hextets, hbare, hcolon, htail, hnone, hlength, mapM_hextet hgroups]

variable {tail front : List Char} {a b c d : ℕ}

/-- The text in front of a dotted tail. -/
theorem take_front : (front ++ ':' :: tail).take
    ((front ++ ':' :: tail).length - tail.length - 1) = front := by
  have hlength : (front ++ ':' :: tail).length - tail.length - 1 = front.length := by
    simp only [List.length_append, List.length_cons]
    omega
  rw [hlength, List.take_left']
  rfl

theorem expand_dotted_compressed
    (hbare : ((splitAt '%' (dropBrackets ip)).head?).getD [] = front ++ ':' :: tail)
    (htail : ':' ∉ tail) (hlooks : looksLikeIpv4 tail = true)
    (hparse : parseIpv4 tail = some (a, b, c, d))
    (hsplit : splitDoubleColon (front ++ ":0:0".toList) = some (left, right))
    (hleft : ReadsAs left ls) (hright : ReadsAs right (rs ++ [0, 0]))
    (hlength : ls.length + rs.length + 2 ≤ 7) :
    expandIpv6Hextets ip = some (ls ++ List.replicate (8 - ls.length - (rs.length + 2)) 0 ++
      (rs ++ [a * 256 + b, c * 256 + d])) := by
  have hlast : ((splitAt ':' (front ++ ':' :: tail)).getLast?).getD [] = tail :=
    tailOf_append htail
  have hfew : ¬ls.length + (rs.length + 2) > 8 := by omega
  have hset : ∀ hextets : List ℕ, hextets.length = 6 →
      ((hextets ++ [0, 0]).set 6 (a * 256 + b)).set 7 (c * 256 + d) =
        hextets ++ [a * 256 + b, c * 256 + d] := by
    intro hextets hsix
    simp [hsix]
  have hsix : (ls ++ List.replicate (8 - ls.length - (rs.length + 2)) 0 ++ rs).length = 6 := by
    simp only [List.length_append, List.length_replicate]
    omega
  have hresult := hset _ hsix
  simp only [List.append_assoc] at hresult
  have hcolon : ':' ∈ front ++ ':' :: tail := by simp
  simp only [expandIpv6Hextets, hbare, hcolon, not_true_eq_false, if_false, hlast, hlooks,
    hparse, reduceCtorEq, and_false, if_true, take_front, hsplit]
  simp [hright.2.2, hleft.1, hright.1, hleft.2.1, hright.2.1, hfew, hresult]

theorem expand_dotted_full
    (hbare : ((splitAt '%' (dropBrackets ip)).head?).getD [] = front ++ ':' :: tail)
    (htail : ':' ∉ tail) (hlooks : looksLikeIpv4 tail = true)
    (hparse : parseIpv4 tail = some (a, b, c, d))
    (hgroups : ∀ part ∈ splitAt ':' front, ipv6Group part = true)
    (hlength : (splitAt ':' front).length = 6) :
    expandIpv6Hextets ip = some ((splitAt ':' front).map (numberOf 16) ++ [0, 0]) := by
  have hlast : ((splitAt ':' (front ++ ':' :: tail)).getLast?).getD [] = tail :=
    tailOf_append htail
  obtain ⟨hread, -, hnone⟩ := readsAs_zeros hgroups
  have hfilter : groups (front ++ ":0:0".toList) = splitAt ':' (front ++ ":0:0".toList) := by
    rw [groups, List.filter_eq_self, splitAt_zeros]
    intro part hpart
    rcases List.mem_append.mp hpart with hpart | hpart
    · simpa using ne_nil_of_group (hgroups part hpart)
    · have hzero : part = ['0'] := by simpa using hpart
      simp [hzero]
  rw [hfilter] at hread
  have height : (splitAt ':' (front ++ ":0:0".toList)).length = 8 := by
    rw [splitAt_zeros, List.length_append, hlength]
    rfl
  have hcolon : ':' ∈ front ++ ':' :: tail := by simp
  simp only [expandIpv6Hextets, hbare, hcolon, not_true_eq_false, if_false, hlast, hlooks,
    hparse, reduceCtorEq, and_false, if_true, take_front, hnone]
  simp only [height, ne_eq, not_true_eq_false, if_false, hread]

end Expand

theorem tailOf_mem (cs : List Char) : tailOf cs ∈ splitAt ':' cs := by
  have hlast := List.getLast?_eq_some_getLast (splitAt_ne_nil ':' cs)
  rw [tailOf, hlast, Option.getD_some]
  exact List.getLast_mem _

theorem tailOf_doubleColon (left right : List Char) :
    tailOf (left ++ ':' :: ':' :: right) = tailOf right := by
  rcases eq_tail_or right with h | ⟨front, last, hlast, rfl⟩
  · have htext : left ++ ':' :: ':' :: right = (left ++ [':']) ++ ':' :: right := by simp
    rw [htext, tailOf_append h, tailOf_of_notMem h]
  · have htext : left ++ ':' :: ':' :: (front ++ ':' :: last) =
        (left ++ ':' :: ':' :: front) ++ ':' :: last := by simp
    rw [htext, tailOf_append hlast, tailOf_append hlast]

/-- The code finds the groups of the address, but the last two where they are written as an
IPv4 address after six groups. -/
theorem expand_eq {ip bare : List Char} {hextets : List ℕ}
    (hbare : ((splitAt '%' (dropBrackets ip)).head?).getD [] = bare)
    (h : addressOf bare = some hextets) :
    expandIpv6Hextets ip = some
      (if (splitDoubleColon bare).isNone && isIPv4 (tailOf bare) then hextets.take 6 ++ [0, 0]
        else hextets) := by
  rw [addressOf] at h
  cases hsplit : splitDoubleColon bare with
  | some pair =>
    obtain ⟨left, right⟩ := pair
    obtain ⟨htext, hother⟩ := splitDoubleColon_some hsplit
    rw [hsplit] at h
    simp only at h
    split at h
    · rename_i ls rs hls hrs
      split_ifs at h with hlength
      obtain rfl := Option.some.inj h
      have hleft : ReadsAs left ls := by
        rcases hextetsOf_some hls with ⟨rfl, rfl⟩ | ⟨-, hall, rfl⟩ | ⟨hfalse, -⟩
        · exact readsAs_nil
        · exact readsAs_groups hall
        · cases hfalse
      have hcolon : ':' ∈ bare := by rw [htext]; simp
      have htailOf : tailOf bare = tailOf right := by rw [htext, tailOf_doubleColon]
      simp only [Option.isNone_some, Bool.false_and, Bool.false_eq_true, if_false]
      rcases hextetsOf_some hrs with ⟨rfl, rfl⟩ | ⟨-, hall, rfl⟩ | ⟨-, hv4, hall, rfl⟩
      · exact expand_compressed hbare hcolon (by rw [htailOf]; rfl) hsplit hleft readsAs_nil
          hlength
      · have hdot := notMem_dot_of_group (hall _ (tailOf_mem right))
        exact expand_compressed hbare hcolon (by rw [htailOf, looksLikeIpv4_of_notMem hdot])
          hsplit hleft (readsAs_groups hall) hlength
      · obtain ⟨hlooks, a, b, c, d, hparse, hvalues, -⟩ := parseIpv4_of_isIPv4 hv4
        rw [hvalues] at hlength ⊢
        rcases eq_tail_or right with hright | ⟨front, last, hlast, rfl⟩
        · rw [tailOf_of_notMem hright] at hlooks hparse
          rw [splitAt_of_notMem hright] at hlength ⊢
          have hfront : bare = (left ++ [':']) ++ ':' :: right := by rw [htext]; simp
          have hzeros := hother "0:0".toList
          have hcore : left ++ [':'] ++ ":0:0".toList = left ++ ':' :: ':' :: "0:0".toList := by
            simp
          rw [← hcore] at hzeros
          have hread : ReadsAs "0:0".toList ([] ++ [0, 0]) := ⟨rfl, rfl, rfl⟩
          exact expand_dotted_compressed (hbare.trans hfront) hright hlooks hparse
            hzeros hleft hread (by simpa using hlength)
        · rw [tailOf_append hlast] at hlooks hparse
          rw [splitAt_append hlast, List.dropLast_concat] at hlength hall ⊢
          have hfront : bare = (left ++ ':' :: ':' :: front) ++ ':' :: last := by
            rw [htext]
            simp
          have hzeros := hother (front ++ ":0:0".toList)
          have hcore : left ++ ':' :: ':' :: front ++ ":0:0".toList =
              left ++ ':' :: ':' :: (front ++ ":0:0".toList) := by simp
          rw [← hcore] at hzeros
          have hresult := expand_dotted_compressed (hbare.trans hfront) hlast hlooks hparse
            hzeros hleft (readsAs_zeros hall) (by simpa [Nat.add_assoc] using hlength)
          rw [hresult, List.length_append]
          rfl
    · cases h
  | none =>
    rw [hsplit] at h
    simp only [Option.filter_eq_some_iff] at h
    obtain ⟨hvalues, hlength⟩ := h
    have height : hextets.length = 8 := by simpa using hlength
    simp only [Option.isNone_none, Bool.true_and]
    rcases hextetsOf_some hvalues with ⟨rfl, rfl⟩ | ⟨-, hall, rfl⟩ | ⟨-, hv4, hall, rfl⟩
    · cases height
    · have hdot := notMem_dot_of_group (hall _ (tailOf_mem bare))
      have hlooks := looksLikeIpv4_of_notMem hdot
      have hv4 : isIPv4 (tailOf bare) = false := by
        rw [isIPv4, splitAt_of_notMem hdot]
      rw [List.length_map] at height
      have hcolon : ':' ∈ bare := by
        by_contra hcolon
        rw [splitAt_of_notMem hcolon] at height
        cases height
      rw [hv4]
      exact expand_full hbare hcolon hlooks hall height
    · obtain ⟨hlooks, a, b, c, d, hparse, hpair, -⟩ := parseIpv4_of_isIPv4 hv4
      rw [hv4, if_pos rfl]
      rw [hpair] at height ⊢
      rcases eq_tail_or bare with hright | ⟨front, last, hlast, rfl⟩
      · rw [splitAt_of_notMem hright] at height
        cases height
      · rw [tailOf_append hlast] at hlooks hparse
        rw [splitAt_append hlast, List.dropLast_concat] at height hall ⊢
        have hsix : (splitAt ':' front).length = 6 := by simpa using height
        rw [expand_dotted_full hbare hlast hlooks hparse hall hsix, List.take_left']
        simpa using hsix

theorem notMem_of_hextetsOf {c : Char} (hc : c ≠ ':' ∧ c ≠ '.' ∧ isHexDigit c = false)
    {cs : List Char} {last : Bool} {hextets : List ℕ} (h : hextetsOf cs last = some hextets) :
    c ∉ cs := by
  intro hmem
  have hgroup (part : List Char) (hpart : ipv6Group part = true) : c ∉ part := by
    intro hcpart
    simp only [ipv6Group, Bool.and_eq_true] at hpart
    rw [List.all_eq_true.mp hpart.2 c hcpart] at hc
    cases hc.2.2
  rcases mem_splitAt hmem with heq | ⟨part, hpart, hcpart⟩
  · exact hc.1 heq
  · rcases hextetsOf_some h with ⟨rfl, -⟩ | ⟨-, hall, -⟩ | ⟨-, hv4, hall, -⟩
    · cases hmem
    · exact hgroup part (hall part hpart) hcpart
    · have hconcat := List.dropLast_append_getLast (splitAt_ne_nil ':' cs)
      rw [← hconcat] at hpart
      rcases List.mem_append.mp hpart with hpart | hpart
      · exact hgroup part (hall part hpart) hcpart
      · have htail : part = tailOf cs := by
          rw [tailOf, List.getLast?_eq_some_getLast (splitAt_ne_nil ':' cs), Option.getD_some]
          simpa using hpart
        rw [← htail] at hv4
        unfold isIPv4 at hv4
        split at hv4
        · rename_i w x y z hparts
          rcases mem_splitAt hcpart with heq | ⟨digits, hdigits, hcdigits⟩
          · exact hc.2.1 heq
          · have hsegment : ipv4Segment digits = true := by
              rw [hparts] at hdigits
              simp only [Bool.and_eq_true] at hv4
              simp only [List.mem_cons, List.not_mem_nil, or_false] at hdigits
              rcases hdigits with rfl | rfl | rfl | rfl
              · exact hv4.1.1.1
              · exact hv4.1.1.2
              · exact hv4.1.2
              · exact hv4.2
            simp only [ipv4Segment, Bool.and_eq_true] at hsegment
            have hdigit := List.all_eq_true.mp hsegment.1.1.2 c hcdigits
            simp [isHexDigit, hdigit] at hc
        · cases hv4

theorem notMem_of_addressOf {c : Char} (hc : c ≠ ':' ∧ c ≠ '.' ∧ isHexDigit c = false)
    {cs : List Char} {hextets : List ℕ} (h : addressOf cs = some hextets) : c ∉ cs := by
  rw [addressOf] at h
  cases hsplit : splitDoubleColon cs with
  | some pair =>
    rw [hsplit] at h
    simp only at h
    split at h
    · rename_i ls rs hls hrs
      rw [(splitDoubleColon_some hsplit).1]
      have hleft := notMem_of_hextetsOf hc hls
      have hright := notMem_of_hextetsOf hc hrs
      simp [hleft, hright, hc.1]
    · cases h
  | none =>
    rw [hsplit] at h
    exact notMem_of_hextetsOf hc (Option.filter_eq_some_iff.mp h).1

theorem length_ipv4Hextets {cs : List Char} (h : isIPv4 cs = true) :
    (ipv4Hextets cs).length = 2 := by
  obtain ⟨-, a, b, c, d, -, hvalues, -⟩ := parseIpv4_of_isIPv4 h
  rw [hvalues]
  rfl

theorem ipv6Groups_eq (cs : List Char) (last : Bool) :
    ipv6Groups cs last = (hextetsOf cs last).map List.length := by
  rw [ipv6Groups, hextetsOf]
  have hpos : 0 < (splitAt ':' cs).length := List.length_pos_iff.mpr (splitAt_ne_nil ':' cs)
  by_cases hcs : cs = []
  · rw [if_pos hcs, if_pos hcs]
    rfl
  · rw [if_neg hcs, if_neg hcs]
    dsimp only
    split_ifs with hv4
    · have hlength : (splitAt ':' cs).length + 1 = (splitAt ':' cs).length - 1 + 2 := by omega
      simp [length_ipv4Hextets hv4.2, hlength]
    · rfl
    · simp
    · rfl

/-- The platform accepts just the texts that denote an address, with or without a zone. -/
theorem isIPv6_eq (cs : List Char) : isIPv6 cs =
    ((addressOf (withoutZone cs)).isSome &&
      match (splitAt '%' cs).tail with
      | [] => true
      | [zone] => zone ≠ [] && zone.all fun c => c.isAlphanum || c ∈ ['-', '.', ':']
      | _ => false) := by
  cases hparts : splitAt '%' cs with
  | nil => exact absurd hparts (splitAt_ne_nil '%' cs)
  | cons address zone =>
    have haddress : withoutZone cs = address := by rw [withoutZone, hparts]; rfl
    rw [isIPv6, hparts, haddress, addressOf, Bool.and_comm]
    simp only [List.tail_cons, ipv6Groups_eq]
    congr 1
    cases hsplit : splitDoubleColon address with
    | some pair =>
      simp only
      cases hextetsOf pair.1 false with
      | none => rfl
      | some ls =>
        cases hextetsOf pair.2 true with
        | none => rfl
        | some rs =>
          simp only [Option.map_some]
          split_ifs with hlength <;> simp [hlength]
    | none =>
      simp only
      cases hextetsOf address true with
      | none => simp
      | some hextets => by_cases hlength : hextets.length = 8 <;> simp [hlength]

theorem dropBrackets_self {cs : List Char} (hopen : '[' ∉ cs) (hclose : ']' ∉ cs) :
    dropBrackets cs = cs := by
  have hhead : cs.head? ≠ some '[' := fun h => hopen (List.mem_of_head? h)
  have hlast : cs.getLast? ≠ some ']' := fun h => hclose (List.mem_of_getLast? h)
  simp [dropBrackets, hhead, hlast]

theorem isIP_eq_six {host : String} (h : isIP host = 6) : isIPv6 host.toList = true := by
  unfold isIP at h
  by_cases hv4 : isIPv4 host.toList = true
  · simp [hv4] at h
  · by_contra hv6
    simp [hv4, hv6] at h

/-- What the platform accepts has no brackets. -/
theorem notMem_of_isIPv6 {c : Char} (hc : c ≠ ':' ∧ c ≠ '.' ∧ isHexDigit c = false)
    (hzone : c ≠ '%' ∧ c ≠ '-' ∧ c.isAlphanum = false) {cs : List Char}
    (h : isIPv6 cs = true) : c ∉ cs := by
  intro hmem
  rw [isIPv6_eq, Bool.and_eq_true, Option.isSome_iff_exists] at h
  obtain ⟨⟨hextets, haddress⟩, hrest⟩ := h
  have hparts : c = '%' ∨ ∃ part ∈ splitAt '%' cs, c ∈ part := mem_splitAt hmem
  rcases hparts with heq | ⟨part, hpart, hcpart⟩
  · exact hzone.1 heq
  · cases hparts : splitAt '%' cs with
    | nil => exact absurd hparts (splitAt_ne_nil '%' cs)
    | cons address zones =>
      rw [hparts] at hpart hrest
      rcases List.mem_cons.mp hpart with rfl | hpart
      · rw [withoutZone, hparts] at haddress
        exact notMem_of_addressOf hc haddress hcpart
      · rw [List.tail_cons] at hrest
        split at hrest
        · cases hpart
        · simp only [Bool.and_eq_true] at hrest
          obtain rfl := List.mem_singleton.mp hpart
          have hchar := List.all_eq_true.mp hrest.2 c hcpart
          simp [hzone, hc] at hchar
        · cases hrest

/-- A text that the platform accepts denotes an address. -/
theorem exists_denotes {ip : String} (h : isIP (stripBrackets ip) = 6) :
    ∃ hextets, Denotes ip hextets := by
  have hv6 := isIP_eq_six h
  rw [isIPv6_eq, Bool.and_eq_true, Option.isSome_iff_exists] at hv6
  obtain ⟨hextets, haddress⟩ := hv6.1
  exact ⟨hextets, h, haddress⟩

/-- What the code makes of the groups of an address. -/
def blockedHextets : List ℕ → Bool
  | [h0, h1, h2, h3, h4, h5, h6, h7] =>
    let mapped := h0 = 0 ∧ h1 = 0 ∧ h2 = 0 ∧ h3 = 0 ∧ h4 = 0 ∧ h5 = 0xffff
    if [h0, h1, h2, h3, h4, h5, h6, h7].all (· = 0) then true
    else if [h0, h1, h2, h3, h4, h5, h6].all (· = 0) ∧ h7 = 1 then true
    else if mapped then blockedRange (h6 / 256) (h6 % 256)
    else (h0 &&& 0xffc0) = 0xfe80 || (h0 &&& 0xfe00) = 0xfc00 || (h0 &&& 0xff00) = 0xff00
  | _ => true

theorem length_addressOf {cs : List Char} {hextets : List ℕ} (h : addressOf cs = some hextets) :
    hextets.length = 8 := by
  rw [addressOf] at h
  split at h
  · split at h
    · split_ifs at h with hlength
      obtain rfl := Option.some.inj h
      simp only [List.length_append, List.length_replicate]
      omega
    · cases h
  · simpa using (Option.filter_eq_some_iff.mp h).2

theorem exists_eight {hextets : List ℕ} (h : hextets.length = 8) :
    ∃ h0 h1 h2 h3 h4 h5 h6 h7, hextets = [h0, h1, h2, h3, h4, h5, h6, h7] := by
  match hextets, h with
  | [h0, h1, h2, h3, h4, h5, h6, h7], _ => exact ⟨h0, h1, h2, h3, h4, h5, h6, h7, rfl⟩

theorem isBlockedIPv6_of_expand {ip : List Char} {h0 h1 h2 h3 h4 h5 h6 h7 : ℕ}
    (h : expandIpv6Hextets ip = some [h0, h1, h2, h3, h4, h5, h6, h7]) :
    isBlockedIPv6 ip = blockedHextets [h0, h1, h2, h3, h4, h5, h6, h7] := by
  simp only [isBlockedIPv6, h, blockedHextets]

/-- Every text is judged by the groups that the code finds. -/
theorem isBlockedIpAddress_eq {ip : String} {hextets : List ℕ} (h : Denotes ip hextets) :
    isBlockedIpAddress ip =
      blockedHextets (if dottedFull ip then hextets.take 6 ++ [0, 0] else hextets) := by
  obtain ⟨hversion, haddress⟩ := h
  have hv6 := isIP_eq_six hversion
  have hself : dropBrackets (stripBrackets ip).toList = (stripBrackets ip).toList :=
    dropBrackets_self (notMem_of_isIPv6 (by decide) (by decide) hv6)
      (notMem_of_isIPv6 (by decide) (by decide) hv6)
  have hbare : ((splitAt '%' (dropBrackets (stripBrackets ip).toList)).head?).getD [] =
      withoutZone (stripBrackets ip).toList := by
    rw [hself, withoutZone, List.headD_eq_head?_getD]
  have hexpand := expand_eq hbare haddress
  rw [← dottedFull_eq] at hexpand
  have hjudged : isBlockedIpAddress ip = isBlockedIPv6 (stripBrackets ip).toList := by
    unfold isBlockedIpAddress
    simp only [hversion]
  obtain ⟨h0, h1, h2, h3, h4, h5, h6, h7, rfl⟩ := exists_eight (length_addressOf haddress)
  rw [hjudged]
  cases hdotted : dottedFull ip with
  | true =>
    rw [hdotted, if_pos rfl] at hexpand
    exact isBlockedIPv6_of_expand hexpand
  | false =>
    rw [hdotted, if_neg Bool.false_ne_true] at hexpand
    exact isBlockedIPv6_of_expand hexpand

theorem le_of_hextetsOf {cs : List Char} {last : Bool} {hextets : List ℕ}
    (h : hextetsOf cs last = some hextets) : ∀ n ∈ hextets, n ≤ 0xffff := by
  have hmap (parts : List (List Char)) (hall : ∀ part ∈ parts, ipv6Group part = true) :
      ∀ n ∈ parts.map (numberOf 16), n ≤ 0xffff := by
    intro n hn
    obtain ⟨part, hpart, rfl⟩ := List.mem_map.mp hn
    exact (hextet_of_group (hall part hpart)).2
  rcases hextetsOf_some h with ⟨-, rfl⟩ | ⟨-, hall, rfl⟩ | ⟨-, hv4, hall, rfl⟩
  · simp
  · exact hmap _ hall
  · obtain ⟨-, a, b, c, d, -, hvalues, hbounds⟩ := parseIpv4_of_isIPv4 hv4
    intro n hn
    rcases List.mem_append.mp hn with hn | hn
    · exact hmap _ hall n hn
    · rw [hvalues] at hn
      simp only [List.mem_cons, List.not_mem_nil, or_false] at hn
      omega

/-- The groups are of sixteen bits. -/
theorem le_of_addressOf {cs : List Char} {hextets : List ℕ} (h : addressOf cs = some hextets) :
    ∀ n ∈ hextets, n ≤ 0xffff := by
  rw [addressOf] at h
  split at h
  · split at h
    · rename_i ls rs hls hrs
      split_ifs at h with hlength
      obtain rfl := Option.some.inj h
      intro n hn
      rcases List.mem_append.mp hn with hn | hn
      · rcases List.mem_append.mp hn with hn | hn
        · exact le_of_hextetsOf hls n hn
        · rw [List.eq_of_mem_replicate hn]
          decide
      · exact le_of_hextetsOf hrs n hn
    · cases h
  · exact le_of_hextetsOf (Option.filter_eq_some_iff.mp h).1

/-- `a.b.c.d`. -/
def ipv4Text (a b c d : ℕ) : List Char :=
  ['.'].intercalate [(Nat.repr a).toList, (Nat.repr b).toList, (Nat.repr c).toList,
    (Nat.repr d).toList]

/-- `::ffff:a.b.c.d`. -/
def mappedAddress (a b c d : ℕ) : List ℕ := [0, 0, 0, 0, 0, 0xffff, a * 256 + b, c * 256 + d]

/-- `::a.b.c.d`. -/
def compatibleAddress (a b c d : ℕ) : List ℕ := [0, 0, 0, 0, 0, 0, a * 256 + b, c * 256 + d]

/-- `::`, `::1`, `fe80::/10`, `fc00::/7` and `ff00::/8`. -/
def Reserved (hextets : List ℕ) : Prop :=
  hextets = [0, 0, 0, 0, 0, 0, 0, 0] ∨ hextets = [0, 0, 0, 0, 0, 0, 0, 1] ∨
    ∃ first rest, hextets = first :: rest ∧
      (first / 64 = 0xfe80 / 64 ∨ first / 512 = 0xfc00 / 512 ∨ first / 256 = 0xff00 / 256)

/-- The filter judges two texts of an address alike, and as the address is to be judged. -/
structure JudgedByAddress (ip ip' : String) (hextets : List ℕ) : Prop where
  alike : isBlockedIpAddress ip = isBlockedIpAddress ip'
  reserved : Reserved hextets → isBlockedIpAddress ip = true
  embedded : ∀ a b c d, a ≤ 255 → b ≤ 255 → c ≤ 255 → d ≤ 255 →
    hextets = mappedAddress a b c d ∨ hextets = compatibleAddress a b c d →
    isBlockedIPv4 (ipv4Text a b c d) = true → isBlockedIpAddress ip = true

/-- `::a.b.c.d` other than `::` and `::1`. -/
def CompatibleOther (hextets : List ℕ) : Prop :=
  ∃ p q, hextets = [0, 0, 0, 0, 0, 0, p, q] ∧ ¬(p = 0 ∧ q ≤ 1)

/-- `::ffff:a.b.c.d` with an `a.b.c.d` that is not blocked. -/
def MappedAllowed (hextets : List ℕ) : Prop :=
  ∃ p q, hextets = [0, 0, 0, 0, 0, 0xffff, p, q] ∧ blockedRange (p / 256) (p % 256) = false

/-- `::a.b.c.d`, other than `::` and `::1`, with an `a.b.c.d` that is blocked. -/
def CompatibleBlocked (hextets : List ℕ) : Prop :=
  CompatibleOther hextets ∧
    ∃ p q, hextets = [0, 0, 0, 0, 0, 0, p, q] ∧ blockedRange (p / 256) (p % 256) = true

theorem toDigits_part : ∀ n < 256, Nat.toDigits 10 n ≠ [] ∧ (Nat.toDigits 10 n).length ≤ 3 ∧
    (Nat.toDigits 10 n).all isDigit = true ∧ numberOf 10 (Nat.toDigits 10 n) = n := by
  decide +kernel

theorem parseIpv4_ipv4Text {a b c d : ℕ} (ha : a ≤ 255) (hb : b ≤ 255) (hc : c ≤ 255)
    (hd : d ≤ 255) : parseIpv4 (ipv4Text a b c d) = some (a, b, c, d) := by
  have hparts : splitAt '.' (ipv4Text a b c d) = [(Nat.repr a).toList, (Nat.repr b).toList,
      (Nat.repr c).toList, (Nat.repr d).toList] := by
    apply splitAt_intercalate _ (by simp)
    intro part hpart
    simp only [List.mem_cons, List.not_mem_nil, or_false] at hpart
    rcases hpart with rfl | rfl | rfl | rfl <;>
      exact DelimitedText.notMem_repr (by decide) _
  obtain ⟨ha₁, ha₂, ha₃, ha₄⟩ := toDigits_part a (by omega)
  obtain ⟨hb₁, hb₂, hb₃, hb₄⟩ := toDigits_part b (by omega)
  obtain ⟨hc₁, hc₂, hc₃, hc₄⟩ := toDigits_part c (by omega)
  obtain ⟨hd₁, hd₂, hd₃, hd₄⟩ := toDigits_part d (by omega)
  rw [parseIpv4, hparts]
  simp only [Nat.toList_repr]
  rw [if_pos ⟨ha₁, ha₂, ha₃, by omega⟩, if_pos ⟨hb₁, hb₂, hb₃, by omega⟩,
    if_pos ⟨hc₁, hc₂, hc₃, by omega⟩, if_pos ⟨hd₁, hd₂, hd₃, by omega⟩, ha₄, hb₄, hc₄, hd₄]
  rfl

theorem isBlockedIPv4_ipv4Text {a b c d : ℕ} (ha : a ≤ 255) (hb : b ≤ 255) (hc : c ≤ 255)
    (hd : d ≤ 255) : isBlockedIPv4 (ipv4Text a b c d) = blockedRange a b := by
  rw [isBlockedIPv4, parseIpv4_ipv4Text ha hb hc hd]

theorem exists_compatibleAddress {p q : ℕ} (hp : p ≤ 0xffff) (hq : q ≤ 0xffff) :
    ∃ c d, p / 256 ≤ 255 ∧ p % 256 ≤ 255 ∧ c ≤ 255 ∧ d ≤ 255 ∧
      [0, 0, 0, 0, 0, 0, p, q] = compatibleAddress (p / 256) (p % 256) c d := by
  refine ⟨q / 256, q % 256, by omega, by omega, by omega, by omega, ?_⟩
  rw [compatibleAddress, Nat.div_add_mod', Nat.div_add_mod']

section Filter

variable {ip ip' : String} {hextets : List ℕ}

/-- An address that starts otherwise is judged by its first group alone. -/
theorem blockedHextets_first {h0 h1 h2 h3 h4 h5 h6 h7 : ℕ}
    (h : ¬(h0 = 0 ∧ h1 = 0 ∧ h2 = 0 ∧ h3 = 0 ∧ h4 = 0 ∧ (h5 = 0 ∨ h5 = 0xffff))) :
    blockedHextets [h0, h1, h2, h3, h4, h5, h6, h7] =
      ((h0 &&& 0xffc0) = 0xfe80 || (h0 &&& 0xfe00) = 0xfc00 || (h0 &&& 0xff00) = 0xff00) := by
  have hzeros : ¬[h0, h1, h2, h3, h4, h5, h6, h7].all (· = 0) = true := by
    simp only [List.all_cons, List.all_nil, Bool.and_eq_true, decide_eq_true_eq]
    omega
  have hone : ¬([h0, h1, h2, h3, h4, h5, h6].all (· = 0) = true ∧ h7 = 1) := by
    simp only [List.all_cons, List.all_nil, Bool.and_eq_true, decide_eq_true_eq]
    omega
  have hmapped : ¬(h0 = 0 ∧ h1 = 0 ∧ h2 = 0 ∧ h3 = 0 ∧ h4 = 0 ∧ h5 = 0xffff) := by omega
  simp only [blockedHextets, if_neg hzeros, if_neg hone, if_neg hmapped]

theorem blockedHextets_mapped (p q : ℕ) :
    blockedHextets [0, 0, 0, 0, 0, 0xffff, p, q] = blockedRange (p / 256) (p % 256) := by
  simp [blockedHextets]

theorem blockedHextets_compatible (p q : ℕ) :
    blockedHextets [0, 0, 0, 0, 0, 0, p, q] = decide (p = 0 ∧ q ≤ 1) := by
  by_cases hp : p = 0
  · by_cases hq : q = 0
    · simp [blockedHextets, hp, hq]
    · by_cases hone : q = 1
      · simp [blockedHextets, hp, hone]
      · have hlarge : ¬q ≤ 1 := by omega
        simp [blockedHextets, hp, hq, hone, hlarge]
  · simp [blockedHextets, hp]

theorem blockedHextets_of_exception (h : CompatibleOther hextets ∨ MappedAllowed hextets) :
    blockedHextets hextets = false := by
  rcases h with ⟨p, q, rfl, hother⟩ | ⟨p, q, rfl, hallowed⟩
  · rw [blockedHextets_compatible, decide_eq_false_iff_not]
    exact hother
  · rw [blockedHextets_mapped, hallowed]

/-- With zeros in place of the IPv4 address, an address is blocked that was not, if only the
IPv4 address told. -/
theorem blockedHextets_zeros (h : hextets.length = 8) :
    blockedHextets (hextets.take 6 ++ [0, 0]) = true ↔
      (CompatibleOther hextets ∨ MappedAllowed hextets) ∨ blockedHextets hextets = true := by
  obtain ⟨h0, h1, h2, h3, h4, h5, p, q, rfl⟩ := exists_eight h
  have htake : [h0, h1, h2, h3, h4, h5, p, q].take 6 ++ [0, 0] = [h0, h1, h2, h3, h4, h5, 0, 0] :=
    rfl
  rw [htake]
  by_cases hstart : h0 = 0 ∧ h1 = 0 ∧ h2 = 0 ∧ h3 = 0 ∧ h4 = 0 ∧ (h5 = 0 ∨ h5 = 0xffff)
  · obtain ⟨rfl, rfl, rfl, rfl, rfl, rfl | rfl⟩ := hstart
    · rw [blockedHextets_compatible, blockedHextets_compatible, decide_eq_true_eq,
        decide_eq_true_eq]
      refine iff_of_true (by omega) ?_
      by_cases hother : p = 0 ∧ q ≤ 1
      · exact Or.inr hother
      · exact Or.inl (Or.inl ⟨p, q, rfl, hother⟩)
    · rw [blockedHextets_mapped, blockedHextets_mapped]
      refine iff_of_true rfl ?_
      cases hrange : blockedRange (p / 256) (p % 256) with
      | true => exact Or.inr rfl
      | false => exact Or.inl (Or.inr ⟨p, q, rfl, hrange⟩)
  · rw [blockedHextets_first hstart, blockedHextets_first hstart]
    constructor
    · exact Or.inr
    · rintro ((⟨p', q', heq, -⟩ | ⟨p', q', heq, -⟩) | hblocked)
      · simp only [List.cons.injEq] at heq
        omega
      · simp only [List.cons.injEq] at heq
        omega
      · exact hblocked

/-- The judgement of a text by its address and its form. -/
theorem isBlockedIpAddress_iff (h : Denotes ip hextets) : isBlockedIpAddress ip = true ↔
    (dottedFull ip = true ∧ (CompatibleOther hextets ∨ MappedAllowed hextets)) ∨
      blockedHextets hextets = true := by
  rw [isBlockedIpAddress_eq h]
  cases hdotted : dottedFull ip with
  | true => simpa using blockedHextets_zeros (length_addressOf h.2)
  | false => simp

theorem masks : (∀ r < 64, (0xfe80 + r) &&& 0xffc0 = 0xfe80) ∧
    (∀ r < 512, (0xfc00 + r) &&& 0xfe00 = 0xfc00) ∧
    ∀ r < 256, (0xff00 + r) &&& 0xff00 = 0xff00 := by
  decide +kernel

theorem blockedHextets_of_reserved (hlength : hextets.length = 8) (h : Reserved hextets) :
    blockedHextets hextets = true := by
  rcases h with rfl | rfl | ⟨first, rest, rfl, hfirst⟩
  · rw [blockedHextets_compatible]
    decide
  · rw [blockedHextets_compatible]
    decide
  · obtain ⟨h0, h1, h2, h3, h4, h5, p, q, heq⟩ := exists_eight hlength
    obtain rfl := (List.cons.inj heq).1
    have hpos : ¬(first = 0 ∧ h1 = 0 ∧ h2 = 0 ∧ h3 = 0 ∧ h4 = 0 ∧ (h5 = 0 ∨ h5 = 0xffff)) := by
      omega
    obtain ⟨hlocal, hunique, hmulticast⟩ := masks
    rw [heq, blockedHextets_first hpos]
    simp only [Bool.or_eq_true, decide_eq_true_eq]
    rcases hfirst with hfirst | hfirst | hfirst
    · have hmask := hlocal (first % 64) (by omega)
      have hsum : 0xfe80 + first % 64 = first := by omega
      rw [hsum] at hmask
      exact Or.inl (Or.inl hmask)
    · have hmask := hunique (first % 512) (by omega)
      have hsum : 0xfc00 + first % 512 = first := by omega
      rw [hsum] at hmask
      exact Or.inl (Or.inr hmask)
    · have hmask := hmulticast (first % 256) (by omega)
      have hsum : 0xff00 + first % 256 = first := by omega
      rw [hsum] at hmask
      exact Or.inr hmask

/-- Two texts of an address are judged by the address just when, for an address that only
its IPv4 address could block, both or none are written in full with an IPv4 address at the
end, and the text is written so if the address is compatible and its IPv4 address is
blocked. -/
theorem judgedByAddress_iff (h : Denotes ip hextets) (h' : Denotes ip' hextets) :
    JudgedByAddress ip ip' hextets ↔
      (CompatibleOther hextets ∨ MappedAllowed hextets → dottedFull ip = dottedFull ip') ∧
        (CompatibleBlocked hextets → dottedFull ip = true) := by
  have hip := isBlockedIpAddress_iff h
  have hip' := isBlockedIpAddress_iff h'
  constructor
  · intro hjudged
    constructor
    · intro hexception
      have hnot := blockedHextets_of_exception hexception
      rw [hjudged.alike] at hip
      simp only [hnot, hexception, and_true, Bool.false_eq_true, or_false] at hip hip'
      exact Bool.eq_iff_iff.mpr (hip.symm.trans hip')
    · rintro ⟨hother, p, q, rfl, hrange⟩
      have hp := le_of_addressOf h.2 p (by simp)
      have hq := le_of_addressOf h.2 q (by simp)
      obtain ⟨c, d, hp₁, hp₂, hc, hd, hsplit⟩ := exists_compatibleAddress hp hq
      have hipv4 : isBlockedIPv4 (ipv4Text (p / 256) (p % 256) c d) = true := by
        rw [isBlockedIPv4_ipv4Text hp₁ hp₂ hc hd, hrange]
      have hblocked := hjudged.embedded _ _ c d hp₁ hp₂ hc hd (Or.inr hsplit) hipv4
      rcases hip.mp hblocked with hdotted | htrue
      · exact hdotted.1
      · rw [blockedHextets_of_exception (Or.inl hother)] at htrue
        cases htrue
  · rintro ⟨hforms, hcompatible⟩
    constructor
    · by_cases hexception : CompatibleOther hextets ∨ MappedAllowed hextets
      · rw [hforms hexception] at hip
        exact Bool.eq_iff_iff.mpr (hip.trans hip'.symm)
      · simp only [hexception, and_false, false_or] at hip hip'
        exact Bool.eq_iff_iff.mpr (hip.trans hip'.symm)
    · intro hreserved
      exact hip.mpr (Or.inr (blockedHextets_of_reserved (length_addressOf h.2) hreserved))
    · intro a b c d ha hb hc hd heq hblocked
      rw [isBlockedIPv4_ipv4Text ha hb hc hd] at hblocked
      have hdiv : (a * 256 + b) / 256 = a ∧ (a * 256 + b) % 256 = b := by omega
      have hrange : blockedRange ((a * 256 + b) / 256) ((a * 256 + b) % 256) = true := by
        rw [hdiv.1, hdiv.2, hblocked]
      apply hip.mpr
      rcases heq with rfl | rfl
      · rw [mappedAddress, blockedHextets_mapped]
        exact Or.inr hrange
      · by_cases hother : a * 256 + b = 0 ∧ c * 256 + d ≤ 1
        · rw [compatibleAddress, blockedHextets_compatible]
          exact Or.inr (decide_eq_true hother)
        · have hexception : CompatibleOther (compatibleAddress a b c d) := ⟨_, _, rfl, hother⟩
          exact Or.inl ⟨hcompatible ⟨hexception, _, _, rfl, hrange⟩, Or.inl hexception⟩

end Filter

/-- Spellings of `::ffff:10.0.0.1` and of `::127.0.0.1`. -/
theorem denotes_samples :
    (Denotes "[::FFFF:10.0.0.1]" (mappedAddress 10 0 0 1) ∧
      Denotes "0:0:0:0:0:ffff:a00:1%eth0" (mappedAddress 10 0 0 1)) ∧
    (Denotes "::127.0.0.1" (compatibleAddress 127 0 0 1) ∧
      Denotes "0:0:0:0:0:0:127.0.0.1" (compatibleAddress 127 0 0 1)) := by
  unfold Denotes
  decide +kernel

/-- A private address is blocked in both spellings. -/
theorem judgedByAddress_sample :
    JudgedByAddress "[::FFFF:10.0.0.1]" "0:0:0:0:0:ffff:a00:1%eth0" (mappedAddress 10 0 0 1) := by
  apply (judgedByAddress_iff denotes_samples.1.1 denotes_samples.1.2).mpr
  have hcompatible : ¬CompatibleOther (mappedAddress 10 0 0 1) := by
    rintro ⟨p, q, heq, -⟩
    simp [mappedAddress] at heq
  have hallowed : ¬MappedAllowed (mappedAddress 10 0 0 1) := by
    rintro ⟨p, q, heq, hrange⟩
    simp only [mappedAddress, List.cons.injEq] at heq
    rw [← heq.2.2.2.2.2.2.1] at hrange
    revert hrange
    decide
  constructor
  · rintro (h | h)
    · exact absurd h hcompatible
    · exact absurd h hallowed
  · exact fun h => absurd h.1 hcompatible

/-- `::127.0.0.1` is let through, though its spelling in full is not. -/
theorem not_judgedByAddress : ¬∀ ip ip' hextets, Denotes ip hextets → Denotes ip' hextets →
    JudgedByAddress ip ip' hextets := by
  intro h
  have halike := (h _ _ _ denotes_samples.2.1 denotes_samples.2.2).alike
  revert halike
  decide +kernel

end NexaStays.AddressSpellings
