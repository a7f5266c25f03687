import TraceArtifacts.Proofs.Files

/-!
# Proofs: path texts and the directories on the way

A path text without steps up leads to the names in it, from the top or from the working directory.
-/

namespace TraceArtifacts

variable {names xs : List String} {cwd here r : Location} {k : Nat} {b l p : String}

/-! ## Names in path texts -/

def namesIn (cs : List Char) : List String :=
  ((Text.cut '/' cs).map String.ofList).filter fun c => c != "" && c != "."

theorem pathNames_eq (p : String) : pathNames p = namesIn p.toList := rfl

theorem namesIn_append (s t : List Char) : namesIn (s ++ '/' :: t) = namesIn s ++ namesIn t := by
  rw [namesIn, Text.cut_append, List.map_append, List.filter_append]
  rfl

theorem namesIn_nil : namesIn [] = [] := by decide

theorem namesIn_of_no_slash {n : List Char} (h : '/' ∉ n) :
    namesIn n = if String.ofList n = "" ∨ String.ofList n = "." then [] else [String.ofList n] := by
  rw [namesIn, Text.cut_eq_singleton_iff.2 ⟨h, rfl⟩, List.map_cons, List.map_nil, List.filter_cons]
  by_cases hn : String.ofList n = "" ∨ String.ofList n = "."
  · rw [if_pos hn, if_neg]
    · rfl
    · rcases hn with hn | hn <;> simp [hn]
  · rw [if_neg hn, if_pos]
    · rfl
    · simpa [not_or] using hn

theorem namesIn_append_slashes (s : List Char) (k : Nat) : namesIn (s ++ List.replicate k '/') = namesIn s := by
  induction k with
  | zero => rw [List.replicate_zero, List.append_nil]
  | succ k ih =>
    rw [List.replicate_succ', ← List.append_assoc, ← ih]
    have hlast := namesIn_append (s ++ List.replicate k '/') []
    rw [namesIn_nil, List.append_nil] at hlast
    exact hlast

theorem mem_iff_mem_namesIn {c : Char} (hslash : c ≠ '/') (hdot : c ≠ '.') (cs : List Char) : c ∈ cs ↔ ∃ n ∈ namesIn cs, c ∈ n.toList := by
  have hcut : ∀ cs, c ∈ cs ↔ ∃ part ∈ Text.cut '/' cs, c ∈ part := by
    intro cs
    induction cs with
    | nil => simp [Text.cut]
    | cons d cs ih =>
      by_cases hd : d = '/'
      · simp [Text.cut, hd, hslash, ih]
      · obtain ⟨part, parts, hparts⟩ := List.exists_cons_of_ne_nil (Text.cut_ne_nil '/' cs)
        rw [hparts] at ih
        simp [Text.cut, hd, hparts, ih, or_assoc]
  rw [hcut, namesIn]
  constructor
  · rintro ⟨part, hpart, hc⟩
    refine ⟨String.ofList part, List.mem_filter.2 ⟨List.mem_map_of_mem hpart, ?_⟩, by rwa [String.toList_ofList]⟩
    have hempty : String.ofList part ≠ "" := by
      intro h
      rw [← String.toList_inj, String.toList_ofList] at h
      rw [h] at hc
      cases hc
    have hplain : String.ofList part ≠ "." := by
      intro h
      rw [← String.toList_inj, String.toList_ofList] at h
      rw [h] at hc
      exact hdot (List.mem_singleton.1 hc)
    simp [hempty, hplain]
  · rintro ⟨n, hn, hc⟩
    obtain ⟨part, hpart, rfl⟩ := List.mem_map.1 (List.mem_filter.1 hn).1
    exact ⟨part, hpart, by rwa [String.toList_ofList] at hc⟩

theorem slash_cases (cs : List Char) : '/' ∉ cs ∨ ∃ s n, cs = s ++ '/' :: n ∧ '/' ∉ n := by
  induction cs with
  | nil => exact .inl List.not_mem_nil
  | cons c cs ih =>
    rcases ih with hno | ⟨s, n, rfl, hn⟩
    · by_cases hc : c = '/'
      · exact .inr ⟨[], cs, by rw [hc]; rfl, hno⟩
      · exact .inl fun h => (List.mem_cons.1 h).elim (fun heq => hc heq.symm) hno
    · exact .inr ⟨c :: s, n, rfl, hn⟩

theorem baseName_of_no_slash (h : '/' ∉ p.toList) : baseName p = p := by
  rw [baseName, cutText, Text.cut_eq_singleton_iff.2 ⟨h, rfl⟩]
  exact String.ofList_toList ..

theorem baseName_of_last_slash {s n : List Char} (hp : p.toList = s ++ '/' :: n) (hn : '/' ∉ n) : baseName p = String.ofList n := by
  rw [baseName, cutText, hp, Text.cut_append, Text.cut_eq_singleton_iff.2 ⟨hn, rfl⟩]
  simp

theorem withoutLastSlashes_eq (p : String) : ∃ k, p.toList = (withoutLastSlashes p).toList ++ List.replicate k '/' ∧
    (p ≠ "" → withoutLastSlashes p ≠ "") ∧ (pathNames p ≠ [] → (withoutLastSlashes p).toList.getLast? ≠ some '/') := by
  let rest := p.toList.reverse.dropWhile (· == '/')
  have hslashes : p.toList.reverse.takeWhile (· == '/') = List.replicate (p.toList.reverse.takeWhile (· == '/')).length '/' := by
    refine List.eq_replicate_iff.2 ⟨rfl, fun c hc => ?_⟩
    exact eq_of_beq (List.all_eq_true.1 List.all_takeWhile c hc)
  have hsplit : p.toList = rest.reverse ++ List.replicate (p.toList.reverse.takeWhile (· == '/')).length '/' := by
    have h := congrArg List.reverse (List.takeWhile_append_dropWhile (p := (· == '/')) (l := p.toList.reverse))
    rw [List.reverse_append, List.reverse_reverse, hslashes, List.reverse_replicate] at h
    exact h.symm
  by_cases hrest : rest = []
  · have heq : withoutLastSlashes p = p := by
      have hempty : p.toList.reverse.dropWhile (· == '/') = [] := hrest
      rw [withoutLastSlashes]
      simp only [hempty, List.reverse_nil, List.isEmpty_nil, if_true]
    rw [heq]
    refine ⟨0, by simp, fun h => h, fun hnames => absurd ?_ hnames⟩
    rw [pathNames_eq, hsplit, hrest, List.reverse_nil, namesIn_append_slashes, namesIn_nil]
  · have heq : withoutLastSlashes p = String.ofList rest.reverse := by
      have hne : rest.reverse.isEmpty = false := by simpa using hrest
      rw [withoutLastSlashes]
      exact if_neg (by rw [hne]; exact Bool.false_ne_true)
    rw [heq, String.toList_ofList]
    refine ⟨_, hsplit, fun _ h => ?_, fun _ hlast => ?_⟩
    · rw [← String.toList_inj, String.toList_ofList] at h
      exact hrest (by simpa using h)
    · rw [List.getLast?_reverse] at hlast
      obtain ⟨c, tail, hcons⟩ := List.exists_cons_of_ne_nil hrest
      have hfirst := List.head?_dropWhile_not (· == '/') p.toList.reverse
      rw [show p.toList.reverse.dropWhile (· == '/') = rest from rfl, hlast] at hfirst
      cases hfirst

theorem pathNames_withoutLastSlashes (p : String) : pathNames (withoutLastSlashes p) = pathNames p := by
  obtain ⟨k, hp, -⟩ := withoutLastSlashes_eq p
  rw [pathNames_eq p, hp, namesIn_append_slashes, pathNames_eq]

theorem isAbsolutePath_eq (p : String) : isAbsolutePath p = (p.toList.head? == some '/') := by
  rw [isAbsolutePath, startsWithText]
  cases p.toList with
  | nil => rfl
  | cons c cs =>
    show ('/' == c && List.isPrefixOf [] cs) = (some c == some '/')
    rw [List.isPrefixOf_nil_left, Bool.and_true]
    rw [Bool.eq_iff_iff, beq_iff_eq, beq_iff_eq, Option.some.injEq]
    exact eq_comm

theorem isAbsolutePath_of_no_slash (h : '/' ∉ p.toList) : isAbsolutePath p = false := by
  rw [isAbsolutePath_eq]
  exact beq_eq_false_iff_ne.2 fun hhead => h (List.mem_of_head? hhead)

theorem isAbsolutePath_withoutLastSlashes (p : String) : isAbsolutePath (withoutLastSlashes p) = isAbsolutePath p := by
  obtain ⟨k, hp, hne, -⟩ := withoutLastSlashes_eq p
  rw [isAbsolutePath_eq, isAbsolutePath_eq]
  by_cases hempty : p = ""
  · rw [hempty]
    rfl
  · have hhead : (withoutLastSlashes p).toList ≠ [] := fun h => hne hempty (String.toList_inj.1 h)
    rw [hp, List.head?_append_of_ne_nil _ hhead]

def nul : Char := Char.ofNat 0

theorem nul_mem_iff (p : String) : nul ∈ p.toList ↔ ∃ n ∈ pathNames p, nul ∈ n.toList :=
  mem_iff_mem_namesIn (by decide) (by decide) p.toList

/-! ## Joined path texts -/

theorem joinPaths_cases (a : String) (hb : isAbsolutePath b = false) :
    a = "" ∧ joinPaths a b = b ∨ a ≠ "" ∧ ∃ s, (joinPaths a b).toList = s ++ '/' :: b.toList ∧ (a.toList = s ∨ a.toList = s ++ ['/']) := by
  have hb' : ¬ startsWithText b "/" = true := by
    rw [show startsWithText b "/" = false from hb]
    exact Bool.false_ne_true
  rw [joinPaths, if_neg hb']
  by_cases hempty : a = ""
  · refine .inl ⟨hempty, ?_⟩
    rw [hempty, if_pos (by decide), String.empty_append]
  · refine .inr ⟨hempty, ?_⟩
    by_cases hlast : a.toList.getLast? = some '/'
    · obtain ⟨s, hs⟩ := List.getLast?_eq_some_iff.1 hlast
      rw [if_pos (by simp [hlast]), String.toList_append, hs]
      exact ⟨s, by rw [List.append_assoc]; rfl, .inr rfl⟩
    · rw [if_neg (by simp [hempty, hlast]), String.toList_append, String.toList_append]
      exact ⟨a.toList, by rw [List.append_assoc]; rfl, .inl rfl⟩

theorem pathNames_joinPaths (a : String) (hb : isAbsolutePath b = false) : pathNames (joinPaths a b) = pathNames a ++ pathNames b := by
  rcases joinPaths_cases a hb with ⟨rfl, h⟩ | ⟨-, s, h, ha⟩
  · rw [h]
    rfl
  · rw [pathNames_eq, h, namesIn_append, pathNames_eq a, pathNames_eq b]
    rcases ha with ha | ha
    · rw [ha]
    · rw [ha, namesIn_append, namesIn_nil, List.append_nil]

theorem isAbsolutePath_joinPaths (a : String) (hb : isAbsolutePath b = false) : isAbsolutePath (joinPaths a b) = isAbsolutePath a := by
  rcases joinPaths_cases a hb with ⟨rfl, h⟩ | ⟨hne, s, h, ha⟩
  · rw [h, hb]
    rfl
  · rw [isAbsolutePath_eq, isAbsolutePath_eq, h]
    rcases ha with ha | ha
    · have hs : s ≠ [] := fun hs => hne (String.toList_inj.1 (ha.trans hs))
      rw [ha, List.head?_append_of_ne_nil _ hs]
    · rw [ha]
      cases s <;> rfl

theorem joinPaths_ne_empty (a : String) (hb : isAbsolutePath b = false) (hne : b ≠ "") : joinPaths a b ≠ "" := by
  rcases joinPaths_cases a hb with ⟨-, h⟩ | ⟨-, s, h, -⟩
  · rwa [h]
  · intro heq
    rw [heq] at h
    cases s <;> cases h

theorem baseName_joinPaths (a : String) (hslash : '/' ∉ b.toList) : baseName (joinPaths a b) = b := by
  rcases joinPaths_cases a (isAbsolutePath_of_no_slash hslash) with ⟨-, h⟩ | ⟨-, s, h, -⟩
  · rw [h, baseName_of_no_slash hslash]
  · rw [baseName_of_last_slash h hslash, String.ofList_toList]

/-! ## The last name and what is before it -/

def wayParts (p : String) : String × String :=
  if (splitPath p).2 == "" then splitPath (splitPath p).1 else splitPath p

structure IsWayParts (p h l : String) : Prop where
  ne : l ≠ ""
  names : pathNames p = pathNames h ++ (if l = "." then [] else [l])
  shorter : h.length < p.length
  absolute : h ≠ "" → isAbsolutePath h = isAbsolutePath p
  alone : h = "" → isAbsolutePath p = false

theorem splitPath_parts (hp : baseName p ≠ "") : IsWayParts p (splitPath p).1 (splitPath p).2 := by
  rcases slash_cases p.toList with hno | ⟨s, n, hs, hn⟩
  · have hbase := baseName_of_no_slash hno
    have hsplit : splitPath p = ("", p) := by
      rw [splitPath, hbase, Nat.sub_self, List.take_zero]
      rfl
    rw [hsplit]
    rw [hbase] at hp
    refine ⟨hp, ?_, ?_, fun h => absurd rfl h, fun _ => ?_⟩
    · rw [pathNames_eq, namesIn_of_no_slash hno, String.ofList_toList]
      simp [hp, pathNames_eq, namesIn_nil]
    · exact Nat.pos_of_ne_zero fun h => hp (String.length_eq_zero_iff.1 h)
    · exact isAbsolutePath_of_no_slash hno
  · have hbase := baseName_of_last_slash hs hn
    have hlen : p.length - (String.ofList n).length = s.length + 1 := by
      rw [← String.length_toList, ← String.length_toList, hs, String.toList_ofList, List.length_append, List.length_cons]
      omega
    have hsplit : splitPath p = (withoutLastSlashes (String.ofList (s ++ ['/'])), String.ofList n) := by
      have htake : p.toList.take (s.length + 1) = s ++ ['/'] := by
        rw [hs, List.append_cons, List.take_left' (by simp)]
      rw [splitPath, hbase, hlen, htake]
    rw [hbase] at hp
    have hne : String.ofList (s ++ ['/']) ≠ "" := by
      intro h
      rw [← String.toList_inj, String.toList_ofList] at h
      cases s <;> cases h
    obtain ⟨k, hhead, hkept, -⟩ := withoutLastSlashes_eq (String.ofList (s ++ ['/']))
    rw [hsplit]
    refine ⟨hp, ?_, ?_, fun _ => ?_, fun h => absurd h (hkept hne)⟩
    · rw [pathNames_withoutLastSlashes, pathNames_eq, pathNames_eq, hs, String.toList_ofList, namesIn_append, namesIn_append,
        namesIn_nil, List.append_nil, namesIn_of_no_slash hn]
      simp [hp]
    · have hn : 0 < n.length := by
        refine List.length_pos_iff.2 fun h => hp ?_
        rw [h]
      have hlength := congrArg List.length hhead
      rw [String.toList_ofList, List.length_append, List.length_append, String.length_toList] at hlength
      have hp' := congrArg List.length hs
      rw [List.length_append, List.length_cons, String.length_toList] at hp'
      simp only [List.length_cons, List.length_nil] at hlength ⊢
      omega
    · rw [isAbsolutePath_withoutLastSlashes, isAbsolutePath_eq, isAbsolutePath_eq, hs, String.toList_ofList]
      cases s <;> rfl

theorem wayParts_parts (hp : pathNames p ≠ []) : IsWayParts p (wayParts p).1 (wayParts p).2 := by
  have hne : p ≠ "" := by
    rintro rfl
    exact hp (by decide)
  by_cases hbase : baseName p = ""
  · -- a slash at the end: what is before it has the same names, and a last one
    obtain ⟨k, heq, hkept, hlast⟩ := withoutLastSlashes_eq p
    have hsplit : splitPath p = (withoutLastSlashes p, "") := by
      rw [splitPath, hbase]
      have hlen : p.toList.take (p.length - "".length) = p.toList := by
        rw [← String.length_toList]
        exact List.take_length
      rw [hlen, String.ofList_toList]
    have hway : wayParts p = splitPath (withoutLastSlashes p) := by
      rw [wayParts, hsplit, if_pos (beq_self_eq_true _)]
    have hbase' : baseName (withoutLastSlashes p) ≠ "" := by
      rcases slash_cases (withoutLastSlashes p).toList with hno | ⟨s, n, hs, hn⟩
      · rw [baseName_of_no_slash hno]
        exact hkept hne
      · rw [baseName_of_last_slash hs hn]
        intro h
        rw [← String.toList_inj, String.toList_ofList] at h
        have h : n = [] := h
        rw [h] at hs
        refine hlast hp ?_
        rw [hs]
        simp
    obtain ⟨hl, hnames, hshorter, habsolute, halone⟩ := splitPath_parts hbase'
    have hle : (withoutLastSlashes p).length ≤ p.length := by
      rw [← String.length_toList, ← String.length_toList, heq, List.length_append]
      omega
    rw [pathNames_withoutLastSlashes] at hnames
    rw [isAbsolutePath_withoutLastSlashes] at habsolute halone
    rw [hway]
    exact ⟨hl, hnames, by omega, habsolute, halone⟩
  · have hway : wayParts p = splitPath p := by
      rw [wayParts, if_neg]
      simpa [splitPath] using hbase
    rw [hway]
    exact splitPath_parts hbase

/-! ## Following names -/

def startOf (cwd : Location) (p : String) : Location := if isAbsolutePath p then [] else cwd

def placeOf (cwd : Location) (p : String) : Location := startOf cwd p ++ pathNames p

theorem placeOf_joinPaths (cwd : Location) (a : String) (hb : isAbsolutePath b = false) :
    placeOf cwd (joinPaths a b) = placeOf cwd a ++ pathNames b := by
  rw [placeOf, placeOf, startOf, startOf, isAbsolutePath_joinPaths a hb, pathNames_joinPaths a hb, List.append_assoc]

namespace FileTree

variable {t u : FileTree}

theorem follow_congr (hup : ".." ∉ names) (h : ∀ i, t.find? (here ++ names.take i) = u.find? (here ++ names.take i)) :
    t.follow here names = u.follow here names := by
  induction names generalizing here with
  | nil => rfl
  | cons name rest ih =>
    obtain ⟨hname, hrest⟩ := List.ne_and_not_mem_of_not_mem_cons hup
    have hhere : t.find? here = u.find? here := by simpa using h 0
    have hnext : t.follow (here ++ [name]) rest = u.follow (here ++ [name]) rest := by
      refine ih hrest fun i => ?_
      have hi := h (i + 1)
      rwa [List.take_succ_cons, ← List.singleton_append, ← List.append_assoc] at hi
    rw [follow, follow, hhere, hnext, if_neg (Ne.symm hname), if_neg (Ne.symm hname)]

theorem follow_append (hup : ".." ∉ xs) (hway : ∀ i < xs.length, t.find? (here ++ xs.take i) = some .directory)
    (hsizes : ∀ n ∈ xs, n.utf8ByteSize ≤ greatestNameBytes) (ys : List String) : t.follow here (xs ++ ys) = t.follow (here ++ xs) ys := by
  induction xs generalizing here with
  | nil => rw [List.append_nil, List.nil_append]
  | cons x xs ih =>
    obtain ⟨hx, hxs⟩ := List.ne_and_not_mem_of_not_mem_cons hup
    obtain ⟨hsize, hsizes⟩ := List.forall_mem_cons.1 hsizes
    have hhere : t.find? here = some .directory := by simpa using hway 0 (Nat.zero_lt_succ _)
    rw [List.cons_append, follow, hhere]
    simp only [if_neg (Ne.symm hx), if_neg (Nat.not_lt.2 hsize)]
    rw [ih hxs (fun i hi => ?_) hsizes, List.append_assoc, List.singleton_append]
    have hnext := hway (i + 1) (by simpa using hi)
    rwa [List.take_succ_cons, List.append_cons] at hnext

theorem follow_ok_iff (hup : ".." ∉ names) : t.follow here names = .ok r ↔ r = here ++ names ∧
      (∀ i < names.length, t.find? (here ++ names.take i) = some .directory) ∧
      ∀ n ∈ names, n.utf8ByteSize ≤ greatestNameBytes := by
  constructor
  · intro h
    induction names generalizing here with
    | nil =>
      cases h
      exact ⟨(List.append_nil _).symm, fun i hi => absurd hi (Nat.not_lt_zero i), nofun⟩
    | cons name rest ih =>
      obtain ⟨hname, hrest⟩ := List.ne_and_not_mem_of_not_mem_cons hup
      cases hfind : t.find? here with
      | none => simp [follow, hfind] at h
      | some node =>
        cases node with
        | file content => simp [follow, hfind] at h
        | directory =>
          simp only [follow, hfind, if_neg (Ne.symm hname)] at h
          split at h
          · cases h
          · obtain ⟨rfl, hway, hsizes⟩ := ih hrest h
            refine ⟨by simp, fun i hi => ?_, List.forall_mem_cons.2 ⟨by omega, hsizes⟩⟩
            cases i with
            | zero => simpa using hfind
            | succ i =>
              rw [List.take_succ_cons, List.append_cons]
              exact hway i (by simpa using hi)
  · rintro ⟨rfl, hway, hsizes⟩
    have hall := follow_append hup hway hsizes []
    rwa [List.append_nil] at hall

theorem locate_eq (cwd : Location) (p : String) : t.locate cwd p =
    if nul ∈ p.toList then .error .nulInPath else if p = "" then .error .fileMissing
      else t.follow (startOf cwd p) (pathNames p) := by
  unfold locate
  by_cases h : nul ∈ p.toList
  · rw [if_pos h]
    exact if_pos (List.contains_iff_mem.2 h)
  · rw [if_neg h]
    exact if_neg fun hc => h (List.contains_iff_mem.1 hc)

theorem locate_congr (hup : ".." ∉ pathNames p)
    (h : ∀ i, t.find? (startOf cwd p ++ (pathNames p).take i) = u.find? (startOf cwd p ++ (pathNames p).take i)) :
    t.locate cwd p = u.locate cwd p := by
  rw [locate_eq, locate_eq, follow_congr hup h]

theorem locate_ok (hup : ".." ∉ pathNames p) (h : t.locate cwd p = .ok r) : r = placeOf cwd p := by
  rw [locate_eq] at h
  split at h
  · cases h
  · split at h
    · cases h
    · exact ((follow_ok_iff hup).1 h).1

def isSound (n : String) : Bool := !n.toList.contains nul && decide (n.utf8ByteSize ≤ greatestNameBytes)

theorem isSound_iff {n : String} : isSound n = true ↔ nul ∉ n.toList ∧ n.utf8ByteSize ≤ greatestNameBytes := by
  simp [isSound]

theorem locate_of_way (hp : p ≠ "") (hup : ".." ∉ pathNames p)
    (hway : ∀ i < (pathNames p).length, t.find? (startOf cwd p ++ (pathNames p).take i) = some .directory)
    (hsound : ∀ n ∈ pathNames p, isSound n = true) : t.locate cwd p = .ok (placeOf cwd p) := by
  have hnul : nul ∉ p.toList := by
    rw [nul_mem_iff]
    rintro ⟨n, hn, hmem⟩
    exact (isSound_iff.1 (hsound n hn)).1 hmem
  rw [locate_eq, if_neg hnul, if_neg hp]
  exact (follow_ok_iff hup).2 ⟨rfl, hway, fun n hn => (isSound_iff.1 (hsound n hn)).2⟩

theorem nodeAt_congr (hup : ".." ∉ pathNames p)
    (h : ∀ i, t.find? (startOf cwd p ++ (pathNames p).take i) = u.find? (startOf cwd p ++ (pathNames p).take i)) :
    t.nodeAt cwd p = u.nodeAt cwd p := by
  rw [nodeAt, nodeAt, ← locate_congr hup h]
  cases hloc : t.locate cwd p with
  | error e => rfl
  | ok r =>
    have hplace := h (pathNames p).length
    rw [List.take_length] at hplace
    obtain rfl := locate_ok hup hloc
    simp only [bind, Except.bind, placeOf, hplace]

/-! ## Directories on the way -/

/-- A tree has directories on the way along some names up to a number of them, and nothing behind it. -/
structure Reaches (t : FileTree) (here : Location) (names : List String) (k : Nat) : Prop where
  le : k ≤ names.length
  there : ∀ i ≤ k, t.find? (here ++ names.take i) = some .directory
  missing : ∀ i, k < i → i ≤ names.length → t.find? (here ++ names.take i) = none
  sound : ∀ n ∈ names.take k, isSound n = true

theorem Reaches.upTo {more : List String} (h : Reaches t here (names ++ more) k) : Reaches t here names (min k names.length) := by
  have htake : ∀ i ≤ names.length, (names ++ more).take i = names.take i := fun i hi => List.take_append_of_le_length hi
  refine ⟨Nat.min_le_right .., fun i hi => ?_, fun i hi hle => ?_, fun n hn => ?_⟩
  · rw [← htake i (by omega)]
    exact h.there i (by omega)
  · rw [← htake i hle]
    exact h.missing i (by omega) (by rw [List.length_append]; omega)
  · refine h.sound n ?_
    rw [List.take_append]
    refine List.mem_append_left _ ?_
    rw [← List.take_take, List.take_length] at hn
    exact hn

theorem Reaches.locate (hp : p ≠ "") (hup : ".." ∉ pathNames p) (h : Reaches t (startOf cwd p) (pathNames p) (pathNames p).length) :
    t.locate cwd p = .ok (placeOf cwd p) ∧ t.find? (placeOf cwd p) = some .directory := by
  refine ⟨locate_of_way hp hup (fun i hi => h.there i (by omega)) fun n hn => h.sound n (by rwa [List.take_length]), ?_⟩
  have hlast := h.there _ (Nat.le_refl _)
  rwa [List.take_length] at hlast

theorem exists?_of_reaches (hp : p ≠ "") (hup : ".." ∉ pathNames p) (h : Reaches t (startOf cwd p) (pathNames p) k) :
    t.exists? cwd p = decide (k = (pathNames p).length) := by
  by_cases hk : k = (pathNames p).length
  · subst hk
    obtain ⟨hlocate, hfind⟩ := h.locate hp hup
    rw [exists?, nodeAt?, nodeAt, hlocate, decide_eq_true rfl]
    simp only [bind, Except.bind, hfind]
    rfl
  · rw [decide_eq_false hk, exists?, nodeAt?, nodeAt]
    cases hlocate : t.locate cwd p with
    | error e => rfl
    | ok r =>
      obtain rfl := locate_ok hup hlocate
      have hfind := h.missing (pathNames p).length (by have := h.le; omega) (Nat.le_refl _)
      rw [List.take_length] at hfind
      have hfind : t.find? (placeOf cwd p) = none := hfind
      simp only [bind, Except.bind, hfind]
      rfl

def OnWay (here : Location) (names : List String) (q : Location) : Prop := q <+: here ++ names ∧ here.length < q.length

instance (here : Location) (names : List String) (q : Location) : Decidable (OnWay here names q) :=
  inferInstanceAs (Decidable (_ ∧ _))

theorem onWay_cons {q : Location} {name : String} {rest : List String} :
    OnWay here (name :: rest) q ↔ q = here ++ [name] ∨ OnWay (here ++ [name]) rest q := by
  have hassoc : here ++ name :: rest = (here ++ [name]) ++ rest := List.append_cons ..
  simp only [OnWay, hassoc, List.length_append, List.length_cons, List.length_nil]
  constructor
  · rintro ⟨hq, hlen⟩
    by_cases hshort : q.length = here.length + 1
    · left
      have hsame := List.prefix_of_prefix_length_le hq (List.prefix_append (here ++ [name]) rest) (by simp [hshort])
      exact hsame.eq_of_length (by simp [hshort])
    · exact .inr ⟨hq, by omega⟩
  · rintro (rfl | ⟨hq, hlen⟩)
    · exact ⟨List.prefix_append .., by simp⟩
    · exact ⟨hq, by omega⟩

theorem find?_makeWay (here : Location) (names : List String) (t : FileTree) (q : Location) :
    (makeWay here names t).find? q = (t.find? q).or (if OnWay here names q then some .directory else none) := by
  induction names generalizing here t with
  | nil =>
    have hoff : ¬ OnWay here [] q := by
      rintro ⟨hq, hlen⟩
      have := hq.length_le
      rw [List.append_nil] at this
      omega
    rw [makeWay, if_neg hoff, Option.or_none]
  | cons name rest ih =>
    have hfirst : (if (t.find? (here ++ [name])).isSome then t else t.put (here ++ [name]) .directory).find? q =
        (t.find? q).or (if q = here ++ [name] then some .directory else none) := by
      by_cases hq : q = here ++ [name]
      · subst hq
        cases hfind : t.find? (here ++ [name]) with
        | some n => simp [hfind]
        | none => simp [find?_put_self]
      · rw [if_neg hq, Option.or_none]
        split
        · rfl
        · exact find?_put_ne hq ..
    rw [makeWay, ih, hfirst, Option.or_assoc]
    congr 1
    by_cases hq : q = here ++ [name]
    · rw [if_pos hq, if_pos (onWay_cons.2 (.inl hq))]
      rfl
    · rw [if_neg hq, Option.none_or]
      have hiff : OnWay (here ++ [name]) rest q ↔ OnWay here (name :: rest) q := by
        rw [onWay_cons]
        exact ⟨.inr, fun h => h.resolve_left hq⟩
      exact if_congr hiff rfl rfl

theorem onWay_take {i : Nat} (hpos : 0 < i) (hle : i ≤ names.length) : OnWay here names (here ++ names.take i) := by
  refine ⟨(List.prefix_append_right_inj here).2 (List.take_prefix i names), ?_⟩
  rw [List.length_append, List.length_take]
  omega

theorem Reaches.made {ys : List String} (h : Reaches t here (xs ++ ys) k) (hk : k ≤ xs.length) (hsound : ∀ n ∈ xs, isSound n = true) :
    Reaches (makeWay here xs t) here (xs ++ ys) xs.length := by
  refine ⟨by simp, fun i hi => ?_, fun i hi hle => ?_, fun n hn => hsound n (by rwa [List.take_left] at hn)⟩
  · rw [find?_makeWay]
    by_cases hik : i ≤ k
    · rw [h.there i hik, Option.some_or]
    · have hway : OnWay here xs (here ++ (xs ++ ys).take i) := by
        rw [List.take_append_of_le_length hi]
        exact onWay_take (by omega) hi
      rw [h.missing i (by omega) (by simp; omega), if_pos hway, Option.none_or]
  · have hoff : ¬ OnWay here xs (here ++ (xs ++ ys).take i) := by
      rintro ⟨hway, -⟩
      have hlen := hway.length_le
      rw [List.length_append, List.length_append, List.length_take] at hlen
      omega
    rw [find?_makeWay, h.missing i (by omega) hle, if_neg hoff, Option.none_or]

theorem Reaches.makeWay_self (h : Reaches t here names names.length) : makeWay here names t = t := by
  induction names generalizing here with
  | nil => rfl
  | cons name rest ih =>
    have hname : t.find? (here ++ [name]) = some .directory := by simpa using h.there 1 (by simp)
    have hrest : Reaches t (here ++ [name]) rest rest.length := by
      refine ⟨Nat.le_refl _, fun i hi => ?_, fun i hi hle => by omega, fun n hn => ?_⟩
      · have hi' := h.there (i + 1) (by simpa using hi)
        rwa [List.take_succ_cons, List.append_cons] at hi'
      · exact h.sound n (by rw [List.take_length] at hn ⊢; exact List.mem_cons_of_mem _ hn)
    rw [makeWay, hname, Option.isSome_some, if_pos rfl, ih hrest]

/-! ## Making directories -/

def badName (n : String) : Fault := if nul ∈ n.toList then .nulInPath else .badPath

def makeSound : Location → List String → TreeStep Unit
  | _, [] => pure ()
  | here, name :: rest =>
      if isSound name then do
        modify (makeWay here [name])
        makeSound (here ++ [name]) rest
      else throw (badName name)

theorem makeSound_append (here : Location) (xs ys : List String) : makeSound here (xs ++ ys) = (do
      makeSound here xs
      makeSound (here ++ xs) ys) := by
  induction xs generalizing here with
  | nil => rw [List.append_nil, List.nil_append, makeSound, pure_bind]
  | cons x xs ih =>
    rw [List.cons_append, makeSound, makeSound, ih, List.append_assoc, List.singleton_append]
    split
    · rw [bind_assoc]
    · rfl

theorem makeSound_ok (here : Location) (h : ∀ n ∈ names, isSound n = true) (t : FileTree) :
    makeSound here names t = .ok () (makeWay here names t) := by
  induction names generalizing here t with
  | nil => rfl
  | cons name rest ih =>
    obtain ⟨hname, hrest⟩ := List.forall_mem_cons.1 h
    rw [makeSound, if_pos hname]
    exact ih _ hrest _

theorem makeSound_error (here : Location) (h : ¬ ∀ n ∈ names, isSound n = true) :
    ∃ bad, ∀ t, makeSound here names t = .error (badName bad) (makeWay here (names.takeWhile isSound) t) := by
  induction names generalizing here with
  | nil => exact absurd (nofun) h
  | cons name rest ih =>
    by_cases hname : isSound name = true
    · obtain ⟨bad, hbad⟩ := ih (here ++ [name]) fun hrest => h (List.forall_mem_cons.2 ⟨hname, hrest⟩)
      refine ⟨bad, fun t => ?_⟩
      rw [makeSound, if_pos hname, List.takeWhile_cons, if_pos hname]
      exact hbad _
    · refine ⟨name, fun t => ?_⟩
      rw [makeSound, if_neg hname, List.takeWhile_cons, if_neg hname]
      rfl

def makeOne (cwd : Location) (p : String) : TreeStep Unit := do set (← (← get).makeDirectory cwd p)

theorem makeOne_eq (hp : p ≠ "") (hup : ".." ∉ pathNames p) {before : List String} (hnames : pathNames p = before ++ [l])
    (h : Reaches t (startOf cwd p) (pathNames p) before.length) : makeOne cwd p t = makeSound (startOf cwd p ++ before) [l] t := by
  have hsound : ∀ n ∈ before, isSound n = true := by
    intro n hn
    refine h.sound n ?_
    rwa [hnames, List.take_left]
  have htake : ∀ i ≤ before.length, (pathNames p).take i = before.take i := by
    intro i hi
    rw [hnames, List.take_append_of_le_length hi]
  have hthere : t.find? (startOf cwd p ++ before) = some .directory := by
    have hlast := h.there before.length (Nat.le_refl _)
    rwa [htake _ (Nat.le_refl _), List.take_length] at hlast
  have hmissing : t.find? (startOf cwd p ++ before ++ [l]) = none := by
    have hlast := h.missing (before.length + 1) (Nat.lt_succ_self _) (by rw [hnames]; simp)
    rwa [hnames, List.take_of_length_le (by simp), ← List.append_assoc] at hlast
  have hupper : ".." ∉ before ∧ l ≠ ".." := by
    rw [hnames, List.mem_append, List.mem_singleton, not_or] at hup
    exact ⟨hup.1, Ne.symm hup.2⟩
  have hnul : nul ∈ p.toList ↔ nul ∈ l.toList := by
    rw [nul_mem_iff, hnames]
    constructor
    · rintro ⟨n, hn, hmem⟩
      rcases List.mem_append.1 hn with hn | hn
      · exact absurd hmem (isSound_iff.1 (hsound n hn)).1
      · rwa [List.mem_singleton.1 hn] at hmem
    · exact fun hl => ⟨l, List.mem_append_right _ (List.mem_singleton_self l), hl⟩
  have hlocate : t.locate cwd p = if nul ∈ l.toList then .error .nulInPath
      else if l.utf8ByteSize > greatestNameBytes then .error .badPath else .ok (startOf cwd p ++ before ++ [l]) := by
    rw [locate_eq, if_neg hp, hnames, follow_append hupper.1 (fun i hi => ?_) fun n hn => (isSound_iff.1 (hsound n hn)).2]
    · simp only [follow, hthere, if_neg hupper.2, hnul]
    · rw [← htake i (by omega)]
      exact h.there i (by omega)
  have hrun : makeOne cwd p t = (liftM (t.makeDirectory cwd p) >>= set : TreeStep Unit) t := rfl
  rw [hrun, makeDirectory, hlocate]
  by_cases hl : nul ∈ l.toList
  · rw [if_pos hl, makeSound, if_neg (fun h => (isSound_iff.1 h).1 hl), badName, if_pos hl]
    rfl
  · rw [if_neg hl]
    by_cases hsize : l.utf8ByteSize > greatestNameBytes
    · rw [if_pos hsize, makeSound, if_neg (fun h => absurd (isSound_iff.1 h).2 (Nat.not_le.2 hsize)), badName, if_neg hl]
      rfl
    · rw [if_neg hsize, makeSound, if_pos (isSound_iff.2 ⟨hl, Nat.not_lt.1 hsize⟩)]
      simp only [bind, Except.bind, hmissing]
      show EStateM.Result.ok () (t.put (startOf cwd p ++ before ++ [l]) .directory) = .ok () (makeWay (startOf cwd p ++ before) [l] t)
      rw [makeWay, makeWay, hmissing]
      rfl

theorem makeWithWay_succ (cwd : Location) (fuel : Nat) (p : String) : makeWithWay cwd (fuel + 1) p = (do
      let missing := (wayParts p).1 != "" && (wayParts p).2 != "" && !(← get).exists? cwd (wayParts p).1
      if missing then
        try makeWithWay cwd fuel (wayParts p).1
        catch e => if e != .fileExists then throw e
      if missing && (wayParts p).2 == "." then return
      makeOne cwd p) := by
  rw [makeWithWay]
  unfold wayParts makeOne
  cases splitPath p with
  | mk h l =>
    cases hl : l == "" with
    | true => simp only [hl, if_true]
    | false => simp only [hl, Bool.false_eq_true, if_false]

theorem makeSound_fault {t' : FileTree} {e : Fault} (h : makeSound here names t = .error e t') : e ≠ .fileExists := by
  by_cases hsound : ∀ n ∈ names, isSound n = true
  · rw [makeSound_ok here hsound] at h
    cases h
  · obtain ⟨bad, hbad⟩ := makeSound_error here hsound
    rw [hbad] at h
    obtain ⟨rfl, -⟩ := EStateM.Result.error.inj h
    unfold badName
    split <;> exact Fault.noConfusion

def makeUnlessThere (x : TreeStep Unit) : TreeStep Unit :=
  tryCatch x fun e => if e != .fileExists then throw e else pure ()

theorem makeUnlessThere_eq {x : TreeStep Unit} (h : x t = makeSound here names t) : makeUnlessThere x t = makeSound here names t := by
  rw [← h]
  cases hrun : x t with
  | ok u s => simp [makeUnlessThere, tryCatch, tryCatchThe, MonadExceptOf.tryCatch, EStateM.tryCatch, hrun]
  | error e s =>
    have hne : e ≠ .fileExists := makeSound_fault (h.symm.trans hrun)
    simp [makeUnlessThere, tryCatch, tryCatchThe, MonadExceptOf.tryCatch, EStateM.tryCatch, hrun, hne]
    rfl

theorem makeWithWay_run {fuel : Nat} {missing : Bool}
    (h : ((wayParts p).1 != "" && (wayParts p).2 != "" && !t.exists? cwd (wayParts p).1) = missing) :
    makeWithWay cwd (fuel + 1) p t = (if missing then do
        makeUnlessThere (makeWithWay cwd fuel (wayParts p).1)
        if (wayParts p).2 == "." then pure () else makeOne cwd p
      else makeOne cwd p) t := by
  have hget : ∀ f : FileTree → TreeStep Unit, (get >>= f) t = f t t := fun _ => rfl
  rw [makeWithWay_succ, hget]
  simp only [h]
  cases missing with
  | true => simp only [if_true, Bool.true_and]; rfl
  | false => simp only [Bool.false_eq_true, if_false, Bool.false_and]

theorem Reaches.ofParts {h : String} (hparts : IsWayParts p h l) (hh : h ≠ "") (hk : Reaches t (startOf cwd p) (pathNames p) k) :
    Reaches t (startOf cwd h) (pathNames h) (min k (pathNames h).length) := by
  have hstart : startOf cwd h = startOf cwd p := by rw [startOf, startOf, hparts.absolute hh]
  rw [hparts.names] at hk
  rw [hstart]
  exact hk.upTo

theorem missing_eq {h : String} (hparts : IsWayParts p h l) (hup : ".." ∉ pathNames h) (hk : Reaches t (startOf cwd p) (pathNames p) k) :
    (h != "" && l != "" && !t.exists? cwd h) = decide (k < (pathNames h).length) := by
  by_cases hh : h = ""
  · rw [hh]
    rfl
  · rw [exists?_of_reaches hh hup (hk.ofParts hparts hh), bne_iff_ne.2 hh, bne_iff_ne.2 hparts.ne, Bool.true_and, Bool.true_and,
      Bool.eq_iff_iff]
    simp only [Bool.not_eq_true', decide_eq_false_iff_not, decide_eq_true_iff]
    omega

theorem makeWithWay_eq : ∀ {fuel : Nat} {p : String}, p.length < fuel → ".." ∉ pathNames p →
    ∀ {t : FileTree} {k : Nat}, Reaches t (startOf cwd p) (pathNames p) k → k < (pathNames p).length →
      makeWithWay cwd fuel p t = makeSound (startOf cwd p) (pathNames p) t := by
  intro fuel
  induction fuel with
  | zero => exact fun h => absurd h (Nat.not_lt_zero _)
  | succ fuel ih =>
    intro p hlen hup t k hk hlt
    have hne : p ≠ "" := by
      rintro rfl
      exact absurd hlt (Nat.not_lt_zero k)
    have hparts := wayParts_parts (p := p) (by rintro heq; rw [heq] at hlt; exact absurd hlt (Nat.not_lt_zero k))
    generalize hway : wayParts p = parts at hparts
    obtain ⟨h, l⟩ := parts
    obtain ⟨hl, hnames, hshorter, habsolute, halone⟩ := id hparts
    simp only at hl hnames hshorter habsolute halone hparts
    have hup' : ".." ∉ pathNames h := by
      rw [hnames] at hup
      exact fun hmem => hup (List.mem_append_left _ hmem)
    have hmissing : ((wayParts p).1 != "" && (wayParts p).2 != "" && !t.exists? cwd (wayParts p).1) = decide (k < (pathNames h).length) := by
      rw [hway]
      exact missing_eq hparts hup' hk
    have hstart : h ≠ "" → startOf cwd h = startOf cwd p := fun hh => by rw [startOf, startOf, habsolute hh]
    have hrec : h ≠ "" → k < (pathNames h).length → makeUnlessThere (makeWithWay cwd fuel h) t =
        makeSound (startOf cwd p) (pathNames h) t := by
      intro hh hlt'
      rw [← hstart hh]
      refine makeUnlessThere_eq (ih (by omega) hup' (hk.ofParts hparts hh) ?_)
      omega
    by_cases hdot : l = "."
    · -- the path text ends in a dot: the way before it is all of the way
      rw [if_pos hdot, List.append_nil] at hnames
      have hh : h ≠ "" := by
        rintro rfl
        rw [hnames] at hlt
        exact absurd hlt (Nat.not_lt_zero k)
      rw [hnames] at hlt
      rw [makeWithWay_run (hmissing.trans (decide_eq_true hlt)), if_pos rfl, hway, hdot, if_pos (beq_self_eq_true _)]
      rw [run_bind_congr (hrec hh hlt) fun _ _ _ => rfl, hnames]
      show (makeSound (startOf cwd p) (pathNames h) >>= pure) t = _
      rw [bind_pure]
    · rw [if_neg hdot] at hnames
      have hlast : (l == ".") = false := beq_eq_false_iff_ne.2 hdot
      have hk' : k ≤ (pathNames h).length := by
        rw [hnames, List.length_append] at hlt
        exact Nat.lt_succ_iff.1 hlt
      rw [hnames, makeSound_append]
      by_cases hfull : k = (pathNames h).length
      · -- all of the way is there, and the last directory is missing
        have hone := makeOne_eq hne hup hnames (hfull ▸ hk)
        have hself : makeSound (startOf cwd p) (pathNames h) t = (pure () : TreeStep Unit) t := by
          have hall : Reaches t (startOf cwd p) (pathNames h) (pathNames h).length := by
            have := (hnames ▸ hk : Reaches t (startOf cwd p) (pathNames h ++ [l]) k).upTo
            rwa [hfull, Nat.min_self] at this
          rw [makeSound_ok _ (fun n hn => hall.sound n (by rwa [List.take_length])), hall.makeWay_self]
          rfl
        rw [makeWithWay_run (hmissing.trans (decide_eq_false (Nat.not_lt.2 (Nat.le_of_eq hfull.symm)))), if_neg Bool.false_ne_true, run_bind_congr hself fun _ _ _ => rfl, pure_bind, hone]
      · have hh : h ≠ "" := by
          rintro rfl
          have : (pathNames "").length = 0 := rfl
          omega
        rw [makeWithWay_run (hmissing.trans (decide_eq_true (Nat.lt_of_le_of_ne hk' hfull))), if_pos rfl, hway, hlast, if_neg Bool.false_ne_true,
          run_bind_congr (hrec hh (by omega)) fun _ _ _ => rfl]
        -- the last directory is made only if all before it could be
        by_cases hsound : ∀ n ∈ pathNames h, isSound n = true
        · have hmade : Reaches (makeWay (startOf cwd p) (pathNames h) t) (startOf cwd p) (pathNames p) (pathNames h).length := by
            rw [hnames] at hk ⊢
            exact hk.made hk' hsound
          have hone := makeOne_eq hne hup hnames hmade
          have hrun := makeSound_ok (startOf cwd p) hsound t
          rw [run_bind_of_ok hrun, run_bind_of_ok hrun, hone]
        · obtain ⟨bad, hbad⟩ := makeSound_error (startOf cwd p) hsound
          rw [run_bind_of_error (hbad t), run_bind_of_error (hbad t)]

theorem makeDirectories_eq (hup : ".." ∉ pathNames p) (hk : Reaches t (startOf cwd p) (pathNames p) k) (hlt : k < (pathNames p).length) :
    makeDirectories cwd p t = makeSound (startOf cwd p) (pathNames p) t :=
  makeWithWay_eq (Nat.lt_succ_self _) hup hk hlt

end FileTree

end TraceArtifacts
