import TraceArtifacts.Proofs.Wording

/-!
# Proofs: the data set behind nested selects

The sources of a select are counted as words and then sought as mere letters.
-/

namespace TraceArtifacts.Text

variable {a x : Char} {u : List Char}

/-! ## Counting words -/

section Words

variable {word : List Char} (hw : word ≠ [] ∧ IsRun word)
include hw

theorem isWordAt_stop (hx : isWordChar x = false) (inWord : Bool) (r : List Char) : isWordAt word inWord (x :: r) = false := by
  obtain ⟨a, w, rfl⟩ := List.exists_cons_of_ne_nil hw.1
  have ha : a ≠ x := by
    rintro rfl
    simp [hw.2 a List.mem_cons_self] at hx
  simp [isWordAt, List.isPrefixOf, ha]

theorem countWordsFrom_inside (hu : IsRun u) (hx : isWordChar x = false) (r : List Char) :
    countWordsFrom word true 0 (u ++ x :: r) = countWords word r := by
  induction u with
  | nil =>
    rw [List.nil_append, countWordsFrom, isWordAt_stop hw hx, hx]
    rfl
  | cons c u ih =>
    have hc : isWordChar c = true := hu c List.mem_cons_self
    have hat : isWordAt word true (c :: (u ++ x :: r)) = false := by simp [isWordAt, startsInWord, hc]
    rw [List.cons_append, countWordsFrom, hat, hc]
    exact ih fun d hd => hu d (.tail c hd)

theorem countWords_run (hu : IsRun u) (hne : u ≠ word) (hx : isWordChar x = false) (r : List Char) :
    countWords word (u ++ x :: r) = countWords word r := by
  cases u with
  | nil =>
    rw [List.nil_append, countWords, countWordsFrom, isWordAt_stop hw hx, hx]
    rfl
  | cons c u =>
    have hat : isWordAt word false ((c :: u) ++ x :: r) = false := by
      rw [Bool.eq_false_iff]
      intro hat
      simp only [isWordAt, Bool.and_eq_true, List.isPrefixOf_iff_prefix] at hat
      obtain ⟨⟨-, hstands⟩, hedge⟩ := hat
      have hxw : x ∉ word.tail := fun h => by simp [hw.2 x (List.mem_of_mem_tail h)] at hx
      obtain ⟨v, hv⟩ := prefix_left_of_not_mem hxw (List.cons_ne_nil c u) hstands
      obtain ⟨w, a, rfl⟩ := List.eq_nil_or_concat' word |>.resolve_left hw.1
      have ha : isWordChar a = true := hw.2 a (by simp)
      -- what follows the word belongs to the run, so the word has no edge there
      cases v with
      | nil => exact hne (by rw [← hv, List.append_nil])
      | cons d v =>
        have hd : isWordChar d = true := hu d (by rw [← hv]; simp)
        rw [← hv, List.append_assoc, List.drop_left] at hedge
        simp [startsInWord, ha, hd] at hedge
    rw [countWords, List.cons_append, countWordsFrom, ← List.cons_append, hat, hu c List.mem_cons_self]
    exact countWordsFrom_inside hw (fun d hd => hu d (.tail c hd)) hx r

end Words

/-! ## Finding places -/

theorem indexOf?_append (t : List Char) (hu : a ∉ u) (s : List Char) :
    indexOf? (a :: t) (u ++ s) = (indexOf? (a :: t) s).map (· + u.length) := by
  induction u with
  | nil => simp
  | cons c u ih =>
    obtain ⟨hne, hnot⟩ := List.ne_and_not_mem_of_not_mem_cons hu
    have hc : (a :: t).isPrefixOf (c :: (u ++ s)) = false := by simp [List.isPrefixOf, hne]
    rw [List.cons_append, indexOf?, hc, if_neg Bool.false_ne_true, ih hnot, Option.map_map]
    rfl

theorem nthFrom_append (t : List Char) (hu : a ∉ u) (n offset : Nat) (s : List Char) :
    nthFrom (a :: t) n offset (u ++ s) = nthFrom (a :: t) n (offset + u.length) s := by
  cases n with
  | zero =>
    rw [nthFrom, nthFrom, indexOf?_append t hu, Option.map_map]
    congr 1
    funext i
    show offset + (i + u.length) = offset + u.length + i
    omega
  | succ n =>
    rw [nthFrom, nthFrom, indexOf?_append t hu]
    cases indexOf? (a :: t) s with
    | none => rfl
    | some i =>
      show nthFrom (a :: t) n (offset + (i + u.length) + (a :: t).length) ((u ++ s).drop (i + u.length + (a :: t).length)) =
        nthFrom (a :: t) n (offset + u.length + i + (a :: t).length) (s.drop (i + (a :: t).length))
      have hdrop : i + u.length + (a :: t).length = u.length + (i + (a :: t).length) := by omega
      have hoffset : offset + (i + u.length) + (a :: t).length = offset + u.length + i + (a :: t).length := by omega
      rw [hdrop, hoffset, List.drop_length_add_append]

theorem count_singleton (x : Char) (s : List Char) : count [x] s = s.count x := by
  show countFrom [x] 0 s = s.count x
  induction s with
  | nil => rfl
  | cons c s ih =>
    rw [countFrom, List.count_cons]
    by_cases hc : x = c
    · subst hc
      simp [List.isPrefixOf, ih]
    · simp [List.isPrefixOf, hc, Ne.symm hc, ih]

theorem stripRight_concat (s : List Char) {c : Char} (hc : isBlank c = false) : stripRight (s ++ [c]) = s ++ [c] := by
  simp [stripRight, hc]

end TraceArtifacts.Text

namespace TraceArtifacts

open Text

def sourceWord : List Char := ['F', 'R', 'O', 'M']

theorem sourceWord_isRun : sourceWord ≠ [] ∧ IsRun sourceWord := by decide

/-! ## Between blanks -/

section Blanks

variable {u v : List Char} (hu : ' ' ∉ u) (hv : ' ' ∉ v)
include hu hv

theorem betweenBlanks_last : betweenBlanks (u ++ ' ' :: v) = ' ' :: v := by
  have hcount : count [' '] (u ++ ' ' :: v) = 1 := by
    rw [count_singleton, List.count_append, List.count_cons_self, List.count_eq_zero.2 hu, List.count_eq_zero.2 hv]
  have hfirst : Text.findNth [' '] (u ++ ' ' :: v) 1 = some u.length := by
    show nthFrom [' '] 0 0 (u ++ ' ' :: v) = some u.length
    rw [nthFrom_append [] hu, Nat.zero_add]
    rfl
  rw [betweenBlanks, hcount, hfirst]
  exact List.drop_left

theorem betweenBlanks_inner (r : List Char) : betweenBlanks (u ++ ' ' :: (v ++ ' ' :: r)) = ' ' :: v := by
  have hcount : count [' '] (u ++ ' ' :: (v ++ ' ' :: r)) > 1 := by
    rw [count_singleton, List.count_append, List.count_cons_self, List.count_append, List.count_cons_self]
    omega
  have hfirst : Text.findNth [' '] (u ++ ' ' :: (v ++ ' ' :: r)) 1 = some u.length := by
    show nthFrom [' '] 0 0 _ = some u.length
    rw [nthFrom_append [] hu, Nat.zero_add]
    rfl
  have hsecond : Text.findNth [' '] (u ++ ' ' :: (v ++ ' ' :: r)) 2 = some (u.length + 1 + v.length) := by
    show nthFrom [' '] 1 0 _ = some (u.length + 1 + v.length)
    rw [nthFrom_append [] hu, Nat.zero_add]
    show nthFrom [' '] 0 (u.length + 1) (v ++ ' ' :: r) = _
    rw [nthFrom_append [] hv]
    rfl
  have htake : List.take (u.length + 1 + v.length) (u ++ ' ' :: (v ++ ' ' :: r)) = u ++ ' ' :: v := by
    rw [← List.cons_append, ← List.append_assoc]
    exact List.take_left' (by simp; omega)
  rw [betweenBlanks, if_pos hcount, hfirst, hsecond]
  show List.drop u.length (List.take (u.length + 1 + v.length) (u ++ ' ' :: (v ++ ' ' :: r))) = ' ' :: v
  rw [htake]
  exact List.drop_left

end Blanks

/-! ## Nested selects -/

def isNameChar (c : Char) : Bool := c.isUpper || c.isDigit || c == '_'

structure IsCapitalName (s : String) : Prop where
  nonempty : s ≠ ""
  chars : ∀ c ∈ s.toList, isNameChar c = true
  notSource : s ≠ "FROM"

def nestedSelect (schema table : String) : Nat → String
  | 0 => "SELECT * FROM \"" ++ schema ++ "\".\"" ++ table ++ "\""
  | k + 1 => "SELECT * FROM (" ++ nestedSelect schema table k ++ ") AS \"DT_" ++ toString k ++ "\""

def opening : List Char := ['S', 'E', 'L', 'E', 'C', 'T', ' ', '*', ' ']

def nestedFront : Nat → List Char
  | 0 => opening
  | k + 1 => opening ++ (sourceWord ++ ([' ', '('] ++ nestedFront k))

def aliasName (k : Nat) : List Char := ['D', 'T', '_'] ++ (toString k).toList

def nestedBack : Nat → List Char
  | 0 => []
  | k + 1 => nestedBack k ++ ')' :: ' ' :: 'A' :: 'S' :: ' ' :: '"' :: (aliasName k ++ ['"'])

def quotedDataset (schema table : String) : List Char :=
  '"' :: (schema.toList ++ '"' :: '.' :: '"' :: (table.toList ++ ['"']))

theorem toList_nestedSelect (schema table : String) (n : Nat) : (nestedSelect schema table n).toList =
    nestedFront n ++ (sourceWord ++ ' ' :: (quotedDataset schema table ++ nestedBack n)) := by
  induction n with
  | zero =>
    show ("SELECT * FROM \"" ++ schema ++ "\".\"" ++ table ++ "\"").toList = _
    simp [nestedFront, nestedBack, quotedDataset, opening, sourceWord]
  | succ k ih =>
    show ("SELECT * FROM (" ++ nestedSelect schema table k ++ ") AS \"DT_" ++ toString k ++ "\"").toList = _
    simp [nestedFront, nestedBack, aliasName, opening, sourceWord, ih]

theorem nameChar_cases {c : Char} (h : isNameChar c = true) : upperChar c = [c] ∧ isWordChar c = true ∧ c ∉ [' ', '.', ')', '"'] := by
  have hall : ∀ n < 128, isNameChar (Char.ofNat n) = true → upperChar (Char.ofNat n) = [Char.ofNat n] ∧
      isWordChar (Char.ofNat n) = true ∧ Char.ofNat n ∉ [' ', '.', ')', '"'] := by decide
  have hsmall : c.toNat < 128 := by
    rw [isNameChar, Bool.or_eq_true, Bool.or_eq_true, beq_iff_eq] at h
    rcases h with (hcapital | hdigit) | rfl
    · have hrange : 'A'.val ≤ c.val ∧ c.val ≤ 'Z'.val := of_decide_eq_true hcapital
      exact Nat.lt_of_le_of_lt (UInt32.le_iff_toNat_le.1 hrange.2) (by decide)
    · have hrange : decide ('0'.val ≤ c.val) = true ∧ decide (c.val ≤ '9'.val) = true := Bool.and_eq_true_iff.1 hdigit
      exact Nat.lt_of_le_of_lt (UInt32.le_iff_toNat_le.1 (of_decide_eq_true hrange.2)) (by decide)
    · decide
  have hc := hall c.toNat hsmall
  rw [Char.ofNat_toNat] at hc
  exact hc h

theorem IsCapitalName.isRun {s : String} (h : IsCapitalName s) : IsRun s.toList := fun c hc => (nameChar_cases (h.chars c hc)).2.1

theorem IsCapitalName.not_mem {s : String} (h : IsCapitalName s) {x : Char} (hx : x ∈ [' ', '.', ')', '"']) : x ∉ s.toList :=
  fun hmem => (nameChar_cases (h.chars x hmem)).2.2 hx

theorem IsCapitalName.ne_sourceWord {s : String} (h : IsCapitalName s) : s.toList ≠ sourceWord :=
  fun he => h.notSource (String.toList_inj.1 he)

def staysInName (c : Char) : Bool := c != ')' && c != '"'

def datasetOf : List (List Char) → Option String × String
  | [schema, table] => (some (String.ofList schema), String.ofList table)
  | table :: _ => (none, String.ofList table)
  | [] => (none, "")

theorem parseDataset_eq (select : String) : parseDataset select =
    datasetOf (cut '.' ((strip (betweenBlanks (fromLastSource (upper select.toList)))).filter staysInName)) := by
  have hfilter : (fun c => c != ')' && c != '"') = staysInName := rfl
  simp only [parseDataset, hfilter]
  generalize cut '.' _ = parts
  obtain _ | ⟨table, _ | ⟨b, _ | ⟨c, parts⟩⟩⟩ := parts <;> rfl

theorem IsCapitalName.filter_eq_self {s : String} (h : IsCapitalName s) : s.toList.filter staysInName = s.toList := by
  refine List.filter_eq_self.2 fun c hc => ?_
  have hp : c ≠ ')' := fun he => h.not_mem (x := ')') (by simp) (he ▸ hc)
  have hq : c ≠ '"' := fun he => h.not_mem (x := '"') (by simp) (he ▸ hc)
  simp [staysInName, hp, hq]

theorem nameChar_of_digits {k : Nat} {c : Char} (h : c ∈ (toString k).toList) : isNameChar c = true := by
  have hdigits : (toString k).toList = Nat.toDigits 10 k := String.toList_ofList
  rw [hdigits] at h
  simp [isNameChar, Nat.isDigit_of_mem_toDigits (by decide) (by decide) h]

theorem upper_eq_self {s : List Char} (h : ∀ c ∈ s, upperChar c = [c]) : upper s = s := by
  rw [upper, List.flatMap_congr h]
  simp

theorem upper_append (r s : List Char) : upper (r ++ s) = upper r ++ upper s := List.flatMap_append

theorem IsCapitalName.upper_eq_self {s : String} (h : IsCapitalName s) : upper s.toList = s.toList :=
  TraceArtifacts.upper_eq_self fun c hc => (nameChar_cases (h.chars c hc)).1

section Nested

variable {S T : String} (hS : IsCapitalName S) (hT : IsCapitalName T)
include hS hT

theorem upper_dataset : upper (quotedDataset S T) = quotedDataset S T := by
  show '"' :: upper (S.toList ++ '"' :: '.' :: '"' :: (T.toList ++ ['"'])) = _
  rw [upper_append, hS.upper_eq_self]
  show '"' :: (S.toList ++ '"' :: '.' :: '"' :: upper (T.toList ++ ['"'])) = _
  rw [upper_append, hT.upper_eq_self]
  rfl

theorem upper_nestedSelect (n : Nat) : upper (nestedSelect S T n).toList = (nestedSelect S T n).toList := by
  have hfront : ∀ k, upper (nestedFront k) = nestedFront k := by
    intro k
    induction k with
    | zero => rfl
    | succ k ih =>
      rw [nestedFront, upper_append, upper_append, upper_append, ih]
      rfl
  have hback : ∀ k, upper (nestedBack k) = nestedBack k := by
    intro k
    induction k with
    | zero => rfl
    | succ k ih =>
      rw [nestedBack, upper_append, ih]
      show nestedBack k ++ ')' :: ' ' :: 'A' :: 'S' :: ' ' :: '"' :: 'D' :: 'T' :: '_' :: upper ((toString k).toList ++ ['"']) = _
      rw [upper_append, upper_eq_self fun c hc => (nameChar_cases (nameChar_of_digits hc)).1]
      rfl
  rw [toList_nestedSelect, upper_append, hfront]
  show nestedFront n ++ (sourceWord ++ ' ' :: upper (quotedDataset S T ++ nestedBack n)) = _
  rw [upper_append, upper_dataset hS hT, hback]

theorem countWords_dataset (r : List Char) : countWords sourceWord (quotedDataset S T ++ r) = countWords sourceWord r := by
  have hquote : ∀ s, countWords sourceWord ('"' :: s) = countWords sourceWord s := fun s => rfl
  have hdot : ∀ s, countWords sourceWord ('.' :: '"' :: s) = countWords sourceWord s := fun s => rfl
  have happend : quotedDataset S T ++ r = '"' :: (S.toList ++ '"' :: '.' :: '"' :: (T.toList ++ '"' :: r)) := by
    simp [quotedDataset]
  rw [happend, hquote, countWords_run sourceWord_isRun hS.isRun hS.ne_sourceWord (by decide), hdot,
    countWords_run sourceWord_isRun hT.isRun hT.ne_sourceWord (by decide)]

theorem countWords_nested (n : Nat) : countWords sourceWord (nestedSelect S T n).toList = n + 1 := by
  have hback : ∀ k r, countWords sourceWord (nestedBack k ++ r) = countWords sourceWord r := by
    intro k
    induction k with
    | zero => exact fun r => rfl
    | succ k ih =>
      intro r
      have hrun : IsRun (aliasName k) := by
        intro c hc
        rcases List.mem_append.1 hc with hc | hc
        · exact (by decide : IsRun ['D', 'T', '_']) c hc
        · exact (nameChar_cases (nameChar_of_digits hc)).2.1
      have hne : aliasName k ≠ sourceWord := fun h => by simp [aliasName, sourceWord] at h
      have happend : nestedBack (k + 1) ++ r = nestedBack k ++
          (')' :: ' ' :: 'A' :: 'S' :: ' ' :: '"' :: (aliasName k ++ '"' :: r)) := by simp [nestedBack]
      have hskip : ∀ s, countWords sourceWord (')' :: ' ' :: 'A' :: 'S' :: ' ' :: '"' :: s) = countWords sourceWord s := fun s => rfl
      rw [happend, ih, hskip, countWords_run sourceWord_isRun hrun hne (by decide)]
  have hset : countWords sourceWord (quotedDataset S T ++ nestedBack n) = 0 := by
    have hrest := hback n []
    rw [List.append_nil] at hrest
    rw [countWords_dataset hS hT, hrest]
    rfl
  have hfront : ∀ k r, countWords sourceWord (nestedFront k ++ (sourceWord ++ ' ' :: r)) = k + 1 + countWords sourceWord r := by
    intro k r
    induction k with
    | zero => exact Nat.add_comm ..
    | succ k ih =>
      have hstep : countWords sourceWord (nestedFront (k + 1) ++ (sourceWord ++ ' ' :: r)) =
        countWords sourceWord (nestedFront k ++ (sourceWord ++ ' ' :: r)) + 1 := rfl
      rw [hstep, ih]
      omega
  rw [toList_nestedSelect, hfront, hset]

omit hS hT in
theorem nthFrom_nested (n offset : Nat) (r : List Char) :
    nthFrom sourceWord n offset (nestedFront n ++ (sourceWord ++ r)) = some (offset + (nestedFront n).length) := by
  have hskip : ∀ u, 'F' ∉ u → ∀ j m s, nthFrom sourceWord j m (u ++ s) = nthFrom sourceWord j (m + u.length) s :=
    fun u hu j m s => nthFrom_append ['R', 'O', 'M'] hu j m s
  induction n generalizing offset with
  | zero =>
    rw [nestedFront, hskip _ (by decide)]
    rfl
  | succ k ih =>
    have hfound : ∀ m s, nthFrom sourceWord (k + 1) m (sourceWord ++ s) = nthFrom sourceWord k (m + 4) s := fun m s => rfl
    rw [nestedFront, List.append_assoc, hskip _ (by decide), List.append_assoc, hfound, List.append_assoc, hskip _ (by decide), ih]
    simp only [List.length_append, sourceWord, List.length_cons, List.length_nil, Option.some.injEq]
    omega

theorem fromLastSource_nested (n : Nat) : fromLastSource (nestedSelect S T n).toList =
    sourceWord ++ ' ' :: (quotedDataset S T ++ nestedBack n) := by
  have hword : "FROM".toList = sourceWord := rfl
  have hfind : Text.findNth sourceWord (nestedSelect S T n).toList ((n + 1 : Nat) : Int) = some (nestedFront n).length := by
    have hn : (((n + 1 : Nat) : Int) - 1).toNat = n := by omega
    show nthFrom sourceWord (((n + 1 : Nat) : Int) - 1).toNat 0 _ = _
    rw [hn, toList_nestedSelect, nthFrom_nested, Nat.zero_add]
  rw [fromLastSource, hword, countWords_nested hS hT, hfind, toList_nestedSelect]
  exact List.drop_left

theorem blank_not_mem_dataset : ' ' ∉ quotedDataset S T := by
  simp [quotedDataset, hS.not_mem (x := ' ') (by simp), hT.not_mem (x := ' ') (by simp)]

theorem betweenBlanks_nested (n : Nat) : ∃ closing, (closing = [] ∨ closing = [')']) ∧
    betweenBlanks (sourceWord ++ ' ' :: (quotedDataset S T ++ nestedBack n)) = ' ' :: (quotedDataset S T ++ closing) := by
  have hblank := blank_not_mem_dataset hS hT
  have hback : nestedBack n = [] ∨ ∃ q, nestedBack n = ')' :: ' ' :: q := by
    induction n with
    | zero => exact .inl rfl
    | succ k ih =>
      refine .inr ?_
      rcases ih with h | ⟨q, h⟩
      · rw [nestedBack, h]
        exact ⟨_, rfl⟩
      · rw [nestedBack, h]
        exact ⟨_, rfl⟩
  rcases hback with h | ⟨q, h⟩
  · refine ⟨[], .inl rfl, ?_⟩
    rw [h, List.append_nil, betweenBlanks_last (by decide) hblank]
  · refine ⟨[')'], .inr rfl, ?_⟩
    have happend : quotedDataset S T ++ ')' :: ' ' :: q = (quotedDataset S T ++ [')']) ++ ' ' :: q := by simp
    rw [h, happend, betweenBlanks_inner (by decide) (by simpa using hblank)]

theorem parseDataset_of_dataset {select : String} {closing : List Char} (hclosing : closing = [] ∨ closing = [')'])
    (h : betweenBlanks (fromLastSource (upper select.toList)) = ' ' :: (quotedDataset S T ++ closing)) :
    parseDataset select = (some S, T) := by
  have hstrip : strip (' ' :: (quotedDataset S T ++ closing)) = quotedDataset S T ++ closing := by
    have hleft : stripLeft (' ' :: (quotedDataset S T ++ closing)) = quotedDataset S T ++ closing := rfl
    rw [strip, hleft]
    rcases hclosing with rfl | rfl
    · have hend : quotedDataset S T ++ [] = ('"' :: (S.toList ++ '"' :: '.' :: '"' :: T.toList)) ++ ['"'] := by
        simp [quotedDataset]
      rw [hend]
      exact stripRight_concat _ (by decide)
    · exact stripRight_concat _ (by decide)
  have hfilter : (quotedDataset S T ++ closing).filter staysInName = S.toList ++ '.' :: T.toList := by
    have hend : closing.filter staysInName = [] := by rcases hclosing with rfl | rfl <;> rfl
    have hmarks : staysInName '"' = false ∧ staysInName '.' = true := by decide
    simp [quotedDataset, List.filter_append, hS.filter_eq_self, hT.filter_eq_self, hend, hmarks]
  have hcut : cut '.' (S.toList ++ '.' :: T.toList) = [S.toList, T.toList] := by
    rw [cut_append, cut_eq_singleton_iff.2 ⟨hS.not_mem (by simp), rfl⟩, cut_eq_singleton_iff.2 ⟨hT.not_mem (by simp), rfl⟩]
    rfl
  rw [parseDataset_eq, h, hstrip, hfilter, hcut, datasetOf, String.ofList_toList, String.ofList_toList]

theorem parseDataset_nested (n : Nat) : parseDataset (nestedSelect S T n) = (some S, T) := by
  obtain ⟨closing, hclosing, hbetween⟩ := betweenBlanks_nested hS hT n
  refine parseDataset_of_dataset hS hT hclosing ?_
  rw [upper_nestedSelect hS hT, fromLastSource_nested hS hT, hbetween]

end Nested

/-- Letters of the source in a name do not matter. -/
theorem parseDataset_nested_sample : IsCapitalName "A_FROM" ∧ IsCapitalName "FROM1" ∧
    parseDataset (nestedSelect "A_FROM" "FROM1" 2) = (some "A_FROM", "FROM1") := by
  have hschema : IsCapitalName "A_FROM" := ⟨by decide, List.all_eq_true.1 (by decide), by decide⟩
  have htable : IsCapitalName "FROM1" := ⟨by decide, List.all_eq_true.1 (by decide), by decide⟩
  exact ⟨hschema, htable, parseDataset_nested hschema htable 2⟩

end TraceArtifacts
