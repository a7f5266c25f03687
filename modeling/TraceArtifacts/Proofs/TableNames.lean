import TraceArtifacts.Proofs.Wording

/-!
# Proofs: names of temporary tables

A temporary table is created by one statement and passed on by another.
-/

namespace TraceArtifacts

open Text

variable {c d x : Char} {k n r t : List Char}

/-! ## Names of temporary tables -/

def functionSynonym (schema object name : String) : Synonym :=
  { object := .text object, schema := .text schema, synonym := name, kind := .text Synonym.functionKind }

def createStatement (name columns : String) : String :=
  "CREATE LOCAL TEMPORARY COLUMN TABLE \"#" ++ name ++ "\" (" ++ columns ++ ")"

def declaration (name columns : String) : String := "DECLARE " ++ name ++ " TABLE (" ++ columns ++ ");"

def callStatement (function : String) (args : List String) : String :=
  "CALL " ++ function ++ "(" ++ ", ".intercalate args ++ ") WITH OVERVIEW"

def nameText (quoted : Bool) (name : String) : String := if quoted then "\"" ++ name ++ "\"" else name

def Text.nameChars (quoted : Bool) (name : List Char) : List Char := if quoted then '"' :: (name ++ ['"']) else name

theorem toList_nameText (quoted : Bool) (name : String) : (nameText quoted name).toList = nameChars quoted name.toList := by
  cases quoted with
  | false => rfl
  | true => simp [nameText, nameChars]

def procedureCall (synonym : String) (names : List String) : String :=
  "CALL \"" ++ synonym ++ "\"(" ++ ", ".intercalate (names.map (":" ++ ·)) ++ ");"

theorem KeywordFree.nameText {s : String} (h : KeywordFree s) (quoted : Bool) : KeywordFree (nameText quoted s) := by
  cases quoted with
  | false => exact h
  | true =>
    have hclosed : KeywordFree (s ++ "\"") := KeywordFree.join (b := "") (c := '"') (by decide) (by simp) h keywordFree_empty
    exact KeywordFree.join (a := "") (c := '"') (by decide) (by simp [TraceArtifacts.nameText]) keywordFree_empty hclosed

namespace Text

def functionKeys (S F : List Char) : List (List Char) := [S ++ '.' :: '"' :: (F ++ ['"']), S ++ '.' :: F]

section FunctionKeys

variable {S F : List Char} (hS : IsRun S)

theorem mem_functionKeys : k ∈ functionKeys S F ↔ ∃ quoted, k = S ++ '.' :: nameChars quoted F := by
  simp [functionKeys, nameChars, or_comm]

include hS

theorem notStoppedBy_functionKeys (hd : d ≠ '.') : ∀ k ∈ functionKeys S F, NotStoppedBy d k := by
  intro k hk
  obtain ⟨quoted, rfl⟩ := mem_functionKeys.1 hk
  exact ⟨S, '.', _, rfl, hS, by decide, .inr hd.symm⟩

theorem head_functionKeys (hne : S ≠ []) (hc : isWordChar c = false) : ∀ k ∈ functionKeys S F, k.head? ≠ some c := by
  obtain ⟨x, S, rfl⟩ := List.exists_cons_of_ne_nil hne
  have hx : x ≠ c := by
    rintro rfl
    simp [hS x List.mem_cons_self] at hc
  simp [functionKeys, hx]

section Longest

variable (hne : S ≠ []) {marks : List (List Char)} (hmarks : ∀ k ∈ marks, ∃ c b, k = c :: b ∧ isWordChar c = false)
include hne hmarks

theorem longestAt_function {b r : List Char} (hb : S ++ '.' :: b ∈ functionKeys S F)
    (hlong : ∀ k ∈ functionKeys S F, k <+: S ++ '.' :: b ++ r → k.length ≤ (S ++ '.' :: b).length) :
    LongestAt (marks ++ functionKeys S F) (S ++ '.' :: b ++ r) (S ++ '.' :: b) := by
  refine ⟨List.mem_append_right _ hb, by simp, List.prefix_append .., fun k hk hstands => ?_⟩
  rcases List.mem_append.1 hk with hk | hk
  · obtain ⟨c, b, rfl, hc⟩ := hmarks k hk
    obtain ⟨x, S, rfl⟩ := List.exists_cons_of_ne_nil hne
    obtain ⟨rfl, -⟩ := List.cons_prefix_cons.1 hstands
    simp [hS c List.mem_cons_self] at hc
  · exact hlong k hk hstands

theorem longestAt_quoted (r : List Char) :
    LongestAt (marks ++ functionKeys S F) ((S ++ '.' :: '"' :: (F ++ ['"'])) ++ r) (S ++ '.' :: '"' :: (F ++ ['"'])) := by
  refine longestAt_function hS hne hmarks (by simp [functionKeys]) fun k hk _ => ?_
  obtain ⟨_ | _, rfl⟩ := mem_functionKeys.1 hk <;> simp [nameChars]

theorem longestAt_plain (hF : IsRun F) (r : List Char) :
    LongestAt (marks ++ functionKeys S F) ((S ++ '.' :: F) ++ '(' :: r) (S ++ '.' :: F) := by
  refine longestAt_function hS hne hmarks (by simp [functionKeys]) fun k hk hstands => ?_
  obtain ⟨_ | _, rfl⟩ := mem_functionKeys.1 hk
  · exact Nat.le_refl _
  · rw [List.append_assoc, List.prefix_append_right_inj, List.cons_append, List.cons_prefix_cons] at hstands
    cases F with
    | nil => simp [nameChars] at hstands
    | cons f F =>
      obtain ⟨rfl, -⟩ := List.cons_prefix_cons.1 hstands.2
      exact absurd (hF _ List.mem_cons_self) (by decide)

end Longest

end FunctionKeys

def synonymOrMark (q k : List Char) : List Char := if '.' ∈ k then q else markText k

theorem synonymOrMark_mark (q : List Char) {p : String × String} (h : p ∈ allMarks) : synonymOrMark q p.1.toList = p.2.toList := by
  have hdot : ∀ p ∈ allMarks, '.' ∉ p.1.toList := by decide
  rw [synonymOrMark, if_neg (hdot p h), markText_of_mem h]

/-! ## Calls -/

section Calls

variable {S F q : List Char} (hS : IsRun S) (hne : S ≠ [])

def callKeys (S F : List Char) : List (List Char) := tableKeys callMarks ++ functionKeys S F

theorem mem_callKeys : k ∈ callKeys S F ↔ k = " WITH OVERVIEW".toList ∨ k = ['"'] ∨ k = ['#'] ∨ k ∈ functionKeys S F := by
  simp [callKeys, tableKeys, callMarks]

abbrev CallBecomes (S F q s t : List Char) : Prop := Becomes (callKeys S F) (synonymOrMark q) s t

theorem callMarks_heads : ∀ k ∈ tableKeys callMarks, ∃ c b, k = c :: b ∧ isWordChar c = false := by
  have h1 : isWordChar ' ' = false := by decide
  have h2 : isWordChar '"' = false := by decide
  have h3 : isWordChar '#' = false := by decide
  simp [tableKeys, callMarks, h1, h2, h3]

include hS

theorem notStoppedBy_callKeys (hd : d ≠ '.') : ∀ k ∈ callKeys S F, NotStoppedBy d k := by
  intro k hk
  rcases List.mem_append.1 hk with hk | hk
  · obtain ⟨c, b, rfl, hc⟩ := callMarks_heads k hk
    exact ⟨[], c, b, rfl, by simp [IsRun], hc, .inl rfl⟩
  · exact notStoppedBy_functionKeys hS hd k hk

include hne

/-- A space is a mark only before the word that ends a call. -/
theorem noneAt_space {s : List Char} (hs : ¬ "WITH OVERVIEW".toList <+: s) : NoneAt (callKeys S F) (' ' :: s) := by
  intro k hk hempty hstands
  rcases mem_callKeys.1 hk with rfl | rfl | rfl | hk
  · exact hs (by simpa [List.cons_prefix_cons] using hstands)
  · simp [List.cons_prefix_cons] at hstands
  · simp [List.cons_prefix_cons] at hstands
  · exact noneAt_head (head_functionKeys hS hne (by decide)) _ k hk hempty hstands

theorem Becomes.call_literal (hc : isWordChar c = false) (hmark : c ∉ [' ', '"', '#']) (h : CallBecomes S F q r t) :
    CallBecomes S F q (c :: r) (c :: t) := by
  refine .literal (noneAt_head (fun k hk => ?_) r) h
  rcases List.mem_append.1 hk with hk | hk
  · have hheads : ∀ k ∈ tableKeys callMarks, ∃ d ∈ [' ', '"', '#'], k.head? = some d := by simp [tableKeys, callMarks]
    obtain ⟨d, hd, hhead⟩ := hheads k hk
    rw [hhead]
    rintro ⟨rfl⟩
    exact hmark hd
  · exact head_functionKeys hS hne hc k hk

theorem Becomes.call_mark (hc : isWordChar c = false) {v : String} (hmem : (String.singleton c, v) ∈ callMarks)
    (h : CallBecomes S F q r t) : CallBecomes S F q (c :: r) (v.toList ++ t) := by
  have hvalue := synonymOrMark_mark q (p := (String.singleton c, v)) (by simp [allMarks, hmem])
  have hkey : [c] ∈ callKeys S F := List.mem_append_left _ (List.mem_map.2 ⟨_, hmem, by simp⟩)
  have hother : ∀ k ∈ callKeys S F, k.take 1 = [c].take 1 → k = [c] := by
    intro k hk htake
    have hhead : k.head? = some c := by
      cases k with
      | nil => simp at htake
      | cons a k => simpa using htake
    rcases mem_callKeys.1 hk with rfl | rfl | rfl | hk
    · obtain rfl : ' ' = c := by simpa using hhead
      simp [callMarks] at hmem
    · simpa using hhead
    · simpa using hhead
    · exact absurd hhead (head_functionKeys hS hne hc k hk)
  have hrun := Becomes.key (longestAt_of_take hkey (by simp) (by simp) hother r) h
  rw [show [c] = (String.singleton c).toList by simp, hvalue] at hrun
  simpa using hrun

theorem Becomes.call_arguments {arg : List Char → List Char} {names : List (List Char)}
    (harg : ∀ n ∈ names, ∀ {x : Char} {r t : List Char}, x ∈ [',', ')'] → CallBecomes S F q (x :: r) t →
      CallBecomes S F q (arg n ++ x :: r) (':' :: n ++ t))
    (hhead : ∀ n, ∃ c b, arg n = c :: b ∧ c ≠ 'W') (h : CallBecomes S F q (')' :: r) t) :
    CallBecomes S F q ([',', ' '].intercalate (names.map arg) ++ ')' :: r)
      ([',', ' '].intercalate (names.map (':' :: ·)) ++ t) := by
  induction names with
  | nil => exact h
  | cons n names ih =>
    cases names with
    | nil => simpa using harg n List.mem_cons_self (by simp) h
    | cons m names =>
      have hrest := ih fun n hn => harg n (.tail _ hn)
      obtain ⟨c, b, hb, hc⟩ := hhead m
      have hspace : NoneAt (callKeys S F) (' ' :: ([',', ' '].intercalate ((m :: names).map arg) ++ ')' :: r)) := by
        refine noneAt_space hS hne ?_
        cases names <;> simp [hb, List.intercalate_cons_cons, List.cons_prefix_cons, hc.symm]
      have hnext := harg n List.mem_cons_self (x := ',') (by simp) (.call_literal hS hne (by decide) (by decide) (.literal hspace hrest))
      simpa [List.intercalate_cons_cons] using hnext

theorem Becomes.call_quotedName (hn : IsRun n) (h : CallBecomes S F q (x :: r) t) :
    CallBecomes S F q (('"' :: '#' :: (n ++ ['"'])) ++ x :: r) (':' :: n ++ t) := by
  have hclose := Becomes.call_mark (v := "") hS hne (by decide : isWordChar '"' = false) (by decide) h
  have hname := Becomes.run hn (by decide) (notStoppedBy_callKeys hS (by decide)) hclose
  have hmark := Becomes.call_mark (v := ":") hS hne (by decide : isWordChar '#' = false) (by decide) hname
  have hopen := Becomes.call_mark (v := "") hS hne (by decide : isWordChar '"' = false) (by decide) hmark
  simpa using hopen

theorem Becomes.call_plainName (hn : IsRun n) (hx : x ∈ [',', ')']) (h : CallBecomes S F q (x :: r) t) :
    CallBecomes S F q (('#' :: n) ++ x :: r) (':' :: n ++ t) := by
  have hstop : isWordChar x = false ∧ x ≠ '.' := by
    rcases List.mem_pair.1 hx with rfl | rfl <;> decide
  have hname := Becomes.run hn hstop.1 (notStoppedBy_callKeys hS hstop.2) h
  have hmark := Becomes.call_mark (v := ":") hS hne (by decide : isWordChar '#' = false) (by decide) hname
  simpa using hmark

/-- A call of a function under one of its two names is a call of the synonym. -/
theorem Becomes.call (hk : ∃ b, k = S ++ '.' :: b) (hlong : ∀ r, LongestAt (callKeys S F) (k ++ '(' :: r) k) {args args' : List Char}
    (hargs : ∀ {r t : List Char}, CallBecomes S F q (')' :: r) t →
      CallBecomes S F q (args ++ ')' :: r) (args' ++ t)) :
    CallBecomes S F q ("CALL ".toList ++ k ++ '(' :: (args ++ ") WITH OVERVIEW".toList))
      ("CALL ".toList ++ q ++ '(' :: (args' ++ [')'])) := by
  have hvalue := synonymOrMark_mark q (p := (" WITH OVERVIEW", "")) (by decide)
  have hend : LongestAt (callKeys S F) (" WITH OVERVIEW".toList ++ []) " WITH OVERVIEW".toList := by
    refine ⟨by simp [callKeys, tableKeys, callMarks], by simp, List.prefix_append .., fun k' _ hstands => ?_⟩
    simpa using hstands.length_le
  have hover : CallBecomes S F q _ _ := .key hend .done
  rw [hvalue] at hover
  have hclose := hargs (.call_literal hS hne (by decide) (by decide) hover)
  have hopen := Becomes.call_literal hS hne (by decide : isWordChar '(' = false) (by decide) hclose
  have hname := Becomes.key (hlong _) hopen
  rw [synonymOrMark, if_pos (by obtain ⟨b, rfl⟩ := hk; simp)] at hname
  -- the space before the function is not the one that ends a call
  have hspace : NoneAt (callKeys S F) (' ' :: (k ++ '(' :: (args ++ ')' :: (" WITH OVERVIEW".toList ++ [])))) := by
    obtain ⟨b, rfl⟩ := hk
    refine noneAt_space hS hne fun hstands => ?_
    rw [List.append_assoc] at hstands
    have hrun : IsRun "WITH".toList := by decide
    exact absurd (runs_agree (b := "OVERVIEW".toList) hrun hS (by decide) (by decide) hstands).2.1 (by decide)
  have hrun : IsRun "CALL".toList := by decide
  have hcall := Becomes.run hrun (by decide) (notStoppedBy_callKeys hS (by decide)) (.literal hspace hname)
  simpa using hcall

theorem Becomes.call_named (hF : IsRun F) {names : List (List Char)} (hnames : ∀ n ∈ names, IsRun n) (quoted : Bool) :
    CallBecomes S F q ("CALL ".toList ++ (S ++ '.' :: nameChars quoted F) ++ '(' ::
        ([',', ' '].intercalate (names.map fun n => nameChars quoted ('#' :: n)) ++ ") WITH OVERVIEW".toList))
      ("CALL ".toList ++ q ++ '(' :: ([',', ' '].intercalate (names.map (':' :: ·)) ++ [')'])) := by
  cases quoted with
  | true =>
    refine .call hS hne ⟨_, rfl⟩ (fun r => longestAt_quoted hS hne callMarks_heads _) ?_
    exact .call_arguments hS hne (fun n hn _ _ _ _ h => .call_quotedName hS hne (hnames n hn) h) fun n => ⟨'"', _, rfl, by decide⟩
  | false =>
    refine .call hS hne ⟨_, rfl⟩ (fun r => longestAt_plain hS hne callMarks_heads hF _) ?_
    exact .call_arguments hS hne (fun n hn _ _ _ hx h => .call_plainName hS hne (hnames n hn) hx h) fun n => ⟨'#', _, rfl, by decide⟩

end Calls

/-! ## Creation -/

section Creation

variable {S F q : List Char} (hS : IsRun S) (hne : S ≠ [])

def createKeys (S F : List Char) : List (List Char) := tableKeys createMarks ++ functionKeys S F

theorem mem_createKeys : k ∈ createKeys S F ↔ k = "CREATE LOCAL TEMPORARY COLUMN TABLE".toList ∨ k = ['"', ' ', '('] ∨ k = ['"', '#'] ∨
      k ∈ functionKeys S F := by
  simp [createKeys, tableKeys, createMarks]

include hS

theorem notStoppedBy_createKeys : ∀ k ∈ createKeys S F, NotStoppedBy '"' k := by
  intro k hk
  have hquote : isWordChar '"' = false := by decide
  rcases mem_createKeys.1 hk with rfl | rfl | rfl | hk
  · exact ⟨"CREATE".toList, ' ', "LOCAL TEMPORARY COLUMN TABLE".toList, by simp, by decide, by decide, .inr (by decide)⟩
  · exact ⟨[], '"', _, rfl, by simp [IsRun], hquote, .inl rfl⟩
  · exact ⟨[], '"', _, rfl, by simp [IsRun], hquote, .inl rfl⟩
  · exact notStoppedBy_functionKeys hS (by decide) k hk

theorem longestAt_create (r : List Char) : LongestAt (createKeys S F) ("CREATE LOCAL TEMPORARY COLUMN TABLE".toList ++ r)
      "CREATE LOCAL TEMPORARY COLUMN TABLE".toList := by
  refine ⟨mem_createKeys.2 (.inl rfl), by simp, List.prefix_append .., fun k hk hstands => ?_⟩
  rcases mem_createKeys.1 hk with rfl | rfl | rfl | hk
  · exact Nat.le_refl _
  · simp
  · simp
  · -- the name of a schema is followed by a point
    have hrun : IsRun "CREATE".toList := by decide
    have htext : "CREATE LOCAL TEMPORARY COLUMN TABLE".toList ++ r =
        "CREATE".toList ++ ' ' :: ("LOCAL TEMPORARY COLUMN TABLE".toList ++ r) := by simp
    obtain ⟨quoted, rfl⟩ := mem_functionKeys.1 hk
    rw [htext] at hstands
    exact absurd (runs_agree hS hrun (by decide) (by decide) hstands).2.1 (by decide)

include hne

theorem longestAt_quoteMark {b : List Char} (hk : '"' :: c :: b ∈ [['"', ' ', '('], ['"', '#']]) (r : List Char) :
    LongestAt (createKeys S F) (('"' :: c :: b) ++ r) ('"' :: c :: b) := by
  simp only [List.mem_cons, List.not_mem_nil, or_false] at hk
  refine ⟨mem_createKeys.2 (by tauto), by simp, List.prefix_append .., fun k hk' hstands => ?_⟩
  rcases mem_createKeys.1 hk' with rfl | rfl | rfl | hk'
  · simp [List.cons_prefix_cons] at hstands
  · rcases hk with hk | hk
    · rw [hk]
    · simp [hk, List.cons_prefix_cons] at hstands
  · simp
  · have hempty : k ≠ [] := by
      rintro rfl
      simp [functionKeys] at hk'
    exact absurd hstands (noneAt_head (head_functionKeys hS hne (by decide)) _ k hk' hempty)

theorem Becomes.create (hF : IsRun F) {c : List Char} (hn : IsRun n) (hc : ∀ k ∈ createKeys S F, ¬ k <:+: c) :
    Becomes (createKeys S F) (synonymOrMark q)
      ("CREATE LOCAL TEMPORARY COLUMN TABLE".toList ++ ' ' :: '"' :: '#' :: (n ++ '"' :: ' ' :: '(' :: (c ++ [')'])))
      ("DECLARE".toList ++ ' ' :: (n ++ (" TABLE (".toList ++ (c ++ [')'])))) := by
  have hcreate := synonymOrMark_mark q (p := ("CREATE LOCAL TEMPORARY COLUMN TABLE", "DECLARE")) (by decide)
  have hopen := synonymOrMark_mark q (p := ("\" (", " TABLE (")) (by decide)
  have hquote := synonymOrMark_mark q (p := ("\"#", "")) (by decide)
  -- no key goes on over the last parenthesis
  have hcolumns : ∀ k ∈ createKeys S F, k ≠ [] → ¬ k <:+: c ++ [')'] := by
    intro k hk hempty
    have hclose : ')' ∉ k := by
      have hrun : ∀ {u : List Char}, IsRun u → ')' ∉ u := fun hu hmem => absurd (hu _ hmem) (by decide)
      rcases mem_createKeys.1 hk with rfl | rfl | rfl | hk
      · decide
      · decide
      · decide
      · obtain ⟨_ | _, rfl⟩ := mem_functionKeys.1 hk <;> simp [nameChars, hrun hS, hrun hF]
    rw [← occurs_iff_isInfix, occurs_append_cons hempty hclose, occurs_nil hempty, Bool.or_false, occurs_iff_isInfix]
    exact hc k hk
  have hspace : ∀ r, NoneAt (createKeys S F) (' ' :: r) := by
    intro r
    refine noneAt_head (fun k hk => ?_) r
    rcases mem_createKeys.1 hk with rfl | rfl | rfl | hk
    · simp
    · simp
    · simp
    · exact head_functionKeys hS hne (by decide) k hk
  have hend : Becomes (createKeys S F) (synonymOrMark q) (c ++ [')']) (c ++ [')']) := .literals hcolumns
  have htable := Becomes.key (longestAt_quoteMark hS hne (c := ' ') (b := ['(']) (by simp) _) hend
  have hname := Becomes.run hn (by decide) (notStoppedBy_createKeys hS) htable
  have hmark := Becomes.key (longestAt_quoteMark hS hne (c := '#') (b := []) (by simp) _) hname
  have hall := Becomes.key (longestAt_create hS _) (.literal (hspace _) hmark)
  rw [hcreate, show ['"', '#'] = "\"#".toList from rfl, hquote, show ['"', ' ', '('] = "\" (".toList from rfl, hopen] at hall
  exact hall

end Creation

end Text

/-! ## Names agree -/

/-- What the synonym of a function puts for its two names. -/
structure IsFunctionTable (S F syn : String) (table : List (String × String)) : Prop where
  values : ∀ p ∈ table, '.' ∈ p.1.toList ∧ p.2 = "\"" ++ syn ++ "\""
  keys : ∀ k, k ∈ tableKeys table ↔ k ∈ functionKeys S.toList F.toList

theorem allReplacements_function (S F syn : String) :
    ∃ table, Synonym.allReplacements (.list [(functionSynonym S F syn).toValue]) = .ok table ∧ IsFunctionTable S F syn table := by
  have hpairs : Synonym.replacements (functionSynonym S F syn).toValue =
      .ok [(S ++ ".\"" ++ F ++ "\"", "\"" ++ syn ++ "\""), (S ++ "." ++ F, "\"" ++ syn ++ "\"")] := by
    show Except.ok [("" ++ S ++ "" ++ ".\"" ++ F ++ "\"", _), _] = _
    rw [String.empty_append, String.append_empty]
    rfl
  refine ⟨putAll [] [(S ++ ".\"" ++ F ++ "\"", "\"" ++ syn ++ "\""), (S ++ "." ++ F, "\"" ++ syn ++ "\"")], ?_, ?_, ?_⟩
  · simp only [Synonym.allReplacements, Value.members, bind, Except.bind, List.mapM_cons, List.mapM_nil, hpairs]
    rfl
  · intro p hp
    have hp := mem_putAll hp
    simp only [List.nil_append, List.mem_cons, List.not_mem_nil, or_false] at hp
    rcases hp with rfl | rfl <;> simp
  · intro k
    rw [mem_tableKeys]
    simp only [mem_keys_putAll, List.nil_append, List.map_cons, List.map_nil, functionKeys, List.mem_cons, List.not_mem_nil, or_false,
      exists_eq_or_imp, exists_eq_left, eq_comm (a := k)]
    simp

section Names

variable {S F syn : String} {table : List (String × String)}

theorem transformStatement_keyword (htable : IsFunctionTable S F syn table) {s : String} (hblock : isBlockMark s = false)
    {marks : List (String × String)} (hne : marks ≠ []) (hmarks : procedureMarks s = marks) (ht : t ≠ [])
    (h : Becomes (tableKeys marks ++ functionKeys S.toList F.toList) (synonymOrMark ("\"" ++ syn ++ "\"").toList) s.toList t) :
    transformStatement table s = .ok (some (String.ofList t ++ ";")) := by
  have hvalue : ∀ p ∈ procedureMarks s ++ table, synonymOrMark ("\"" ++ syn ++ "\"").toList p.1.toList = p.2.toList := by
    intro p hp
    rcases List.mem_append.1 hp with hp | hp
    · exact synonymOrMark_mark _ (mem_allMarks_of_mem hp)
    · rw [synonymOrMark, if_pos (htable.values p hp).1, (htable.values p hp).2]
  have hsome : procedureMarks s ++ table ≠ [] := by simp [hmarks, hne]
  have hall : ∀ k, k ∈ statementKeys table s ↔ k ∈ tableKeys marks ++ functionKeys S.toList F.toList := by
    intro k
    rw [statementKeys, tableKeys_append, List.mem_append, List.mem_append, htable.keys, hmarks]
  rw [transformStatement_becomes hblock hvalue (by simp [synonymOrMark, markText]; decide) hsome hall h, if_neg ht]

theorem createStatement_toList (n c : String) :
    (createStatement n c).toList = "CREATE LOCAL TEMPORARY COLUMN TABLE".toList ++ ' ' :: '"' :: '#' ::
      (n.toList ++ '"' :: ' ' :: '(' :: (c.toList ++ [')'])) :=
  (toList_filled "CREATE LOCAL TEMPORARY COLUMN TABLE \"#" "\" (" ")" n c).trans (by simp)

theorem createStatement_words {n c : String} (hn : KeywordFree n) (hc : KeywordFree c) {w : String} (hw : w ∈ keywords) :
    containsText (createStatement n c) w = containsText "CREATE" w := by
  have hrun := isRun_keyword w hw
  have hfirst : ∀ w ∈ keywords, occurs w.toList "CREATE LOCAL TEMPORARY COLUMN TABLE".toList = occurs w.toList "CREATE".toList := by decide
  have hn' : occurs w.toList n.toList = false := hn w hw
  have hc' : occurs w.toList c.toList = false := hc w hw
  rw [containsText, createStatement_toList]
  simp only [occurs_append_stop hrun, occurs_cons_stop hrun, isWordChar_stops, hfirst w hw, hn', hc', occurs_nil hrun.1, Bool.or_false,
    containsText]

theorem callStatement_words {function : String} {args : List String} {w : String} (hw : w ∈ keywords)
    (hfunction : containsText function w = false) (hargs : ∀ a ∈ args, containsText a w = false) :
    containsText (callStatement function args) w = containsText "CALL" w := by
  have hrun := isRun_keyword w hw
  have hother : ∀ w ∈ keywords, ∀ u ∈ ["WITH", "OVERVIEW"], occurs w.toList u.toList = false := by decide
  have hlist : ∀ parts : List (List Char), (∀ p ∈ parts, occurs w.toList p = false) →
      occurs w.toList ([',', ' '].intercalate parts) = false := by
    intro parts hparts
    induction parts with
    | nil => exact occurs_nil hrun.1
    | cons p parts ih =>
      cases parts with
      | nil => simpa using hparts p List.mem_cons_self
      | cons p' parts =>
        have htext : [',', ' '].intercalate (p :: p' :: parts) = p ++ ',' :: ' ' :: [',', ' '].intercalate (p' :: parts) := by
          simp [List.intercalate_cons_cons]
        rw [htext, occurs_append_stop hrun (by decide), occurs_cons_stop hrun (by decide), hparts p List.mem_cons_self,
          ih fun p hp => hparts p (.tail _ hp)]
        rfl
  have htext : (callStatement function args).toList = "CALL".toList ++ ' ' :: (function.toList ++ '(' ::
      ([',', ' '].intercalate (args.map String.toList) ++ ')' :: ' ' :: ("WITH".toList ++ ' ' :: "OVERVIEW".toList))) := by
    simp [callStatement, String.toList_intercalate]
  have hf : occurs w.toList function.toList = false := hfunction
  have ha := hlist (args.map String.toList) fun p hp => by
    obtain ⟨a, ha, rfl⟩ := List.mem_map.1 hp
    exact hargs a ha
  rw [containsText, htext]
  simp only [occurs_append_stop hrun, occurs_cons_stop hrun, isWordChar_stops, hother w hw "WITH" (by simp),
    hother w hw "OVERVIEW" (by simp), hf, ha, Bool.or_false, containsText]

theorem transformStatement_create (hS : IsIdentifier S) (hF : IsIdentifier F)
    (htable : IsFunctionTable S F syn table) {n c : String} (hn : IsIdentifier n ∧ KeywordFree n)
    (hc : KeywordFree c) (hmarks : ∀ m ∈ ["\"#", "\" ("], containsText c m = false)
    (hnames : ∀ k ∈ functionKeys S.toList F.toList, occurs k c.toList = false) :
    transformStatement table (createStatement n c) = .ok (some (declaration n c)) := by
  have htext := createStatement_toList n c
  have hwords := (procedureMarks_congr fun w hw => createStatement_words hn.2 hc hw).trans (show _ = createMarks by decide)
  have hcolumns : ∀ k ∈ createKeys S.toList F.toList, ¬ k <:+: c.toList := by
    intro k hk hin
    rw [← occurs_iff_isInfix] at hin
    rcases mem_createKeys.1 hk with rfl | rfl | rfl | hk
    · have hword : "CREATE".toList <:+: c.toList :=
        (show "CREATE".toList <+: "CREATE LOCAL TEMPORARY COLUMN TABLE".toList by decide).isInfix.trans (occurs_iff_isInfix.1 hin)
      have hfree : occurs "CREATE".toList c.toList = false := hc "CREATE" (by decide)
      rw [← occurs_iff_isInfix, hfree] at hword
      exact absurd hword (by decide)
    · have hfree : occurs ['"', ' ', '('] c.toList = false := hmarks "\" (" (by simp)
      exact absurd hin (by simp [hfree])
    · have hfree : occurs ['"', '#'] c.toList = false := hmarks "\"#" (by simp)
      exact absurd hin (by simp [hfree])
    · exact absurd hin (by simp [hnames k hk])
  have hbecomes := Becomes.create (q := ("\"" ++ syn ++ "\"").toList) hS.2 (by simpa using hS.1) hF.2 hn.1.2 hcolumns
  rw [← htext] at hbecomes
  rw [transformStatement_keyword htable (isBlockMark_of_head (c := 'C') (by rw [htext]; rfl) (by decide)) (by simp [createMarks]) hwords
    (by simp) hbecomes]
  refine congrArg (fun t => Except.ok (some t)) ?_
  rw [declaration, ← String.toList_inj]
  simp

theorem transformStatement_call (hS : IsIdentifier S ∧ KeywordFree S) (hF : IsIdentifier F ∧ KeywordFree F)
    (htable : IsFunctionTable S F syn table) {names : List String}
    (hnames : ∀ n ∈ names, IsIdentifier n ∧ KeywordFree n) (quoted : Bool) :
    transformStatement table (callStatement (S ++ "." ++ nameText quoted F) (names.map fun n => nameText quoted ("#" ++ n))) =
      .ok (some (procedureCall syn names)) := by
  have hne : S.toList ≠ [] := by simpa using hS.1.1
  have hfree : KeywordFree (S ++ "." ++ nameText quoted F) := KeywordFree.join (c := '.') (by decide) (by simp) hS.2 (hF.2.nameText quoted)
  have hargs : ∀ a ∈ names.map (fun n => nameText quoted ("#" ++ n)), KeywordFree a := by
    intro a ha
    obtain ⟨n, hn, rfl⟩ := List.mem_map.1 ha
    exact (KeywordFree.join (a := "") (c := '#') (by decide) (by simp) keywordFree_empty (hnames n hn).2).nameText quoted
  have hwords := (procedureMarks_congr fun w hw => callStatement_words hw (hfree w hw) fun a ha => hargs a ha w hw).trans
    (show _ = callMarks by decide)
  have hruns : ∀ n ∈ names.map String.toList, IsRun n := by simpa using fun n hn => (hnames n hn).1.2
  have hbecomes := Becomes.call_named (q := ("\"" ++ syn ++ "\"").toList) hS.1.2 hne hF.1.2 hruns quoted
  have htext : (callStatement (S ++ "." ++ nameText quoted F) (names.map fun n => nameText quoted ("#" ++ n))).toList =
      "CALL ".toList ++ (S.toList ++ '.' :: nameChars quoted F.toList) ++ '(' :: ([',', ' '].intercalate
        ((names.map String.toList).map fun n => nameChars quoted ('#' :: n)) ++ ") WITH OVERVIEW".toList) := by
    simp [callStatement, String.toList_intercalate, toList_nameText, Function.comp_def]
  rw [← htext] at hbecomes
  rw [transformStatement_keyword htable (isBlockMark_of_head (c := 'C') (by rw [htext]; rfl) (by decide)) (by simp [callMarks]) hwords
    (by simp) hbecomes]
  refine congrArg (fun t => Except.ok (some t)) ?_
  rw [procedureCall, ← String.toList_inj]
  simp [String.toList_intercalate, Function.comp_def]

end Names

/-- Temporary tables keep one name through a body: each is declared under the name by which a call passes it on, be it in quotes or not,
and the function is called by its synonym. -/
theorem transformStatements_names {S F syn : String} {tables : List (String × String)}
    (hS : IsIdentifier S ∧ KeywordFree S) (hF : IsIdentifier F ∧ KeywordFree F)
    (hnames : ∀ t ∈ tables, IsIdentifier t.1 ∧ KeywordFree t.1) (hcolumns : ∀ t ∈ tables, KeywordFree t.2)
    (hmarks : ∀ t ∈ tables, ∀ m ∈ ["\"#", "\" ("], containsText t.2 m = false)
    (hkeys : ∀ t ∈ tables, ∀ quoted, containsText t.2 (S ++ "." ++ nameText quoted F) = false) :
    transformStatements (.list [(functionSynonym S F syn).toValue])
        (.ofTexts (tables.map (fun t => createStatement t.1 t.2) ++ [true, false].map fun quoted =>
          callStatement (S ++ "." ++ nameText quoted F) (tables.map fun t => nameText quoted ("#" ++ t.1)))) =
      .ok (tables.map (fun t => declaration t.1 t.2) ++ [true, false].map fun _ => procedureCall syn (tables.map Prod.fst)) := by
  obtain ⟨table, hall, htable⟩ := allReplacements_function S F syn
  have hfree : ∀ t ∈ tables, ∀ k ∈ functionKeys S.toList F.toList, occurs k t.2.toList = false := by
    intro t ht k hk
    obtain ⟨quoted, rfl⟩ := mem_functionKeys.1 hk
    simpa [containsText, toList_nameText] using hkeys t ht quoted
  refine transformStatements_texts.2 ⟨table, hall, (tables.map (fun t => declaration t.1 t.2) ++ [true, false].map fun _ =>
    procedureCall syn (tables.map Prod.fst)).map some, ?_, by simp⟩
  rw [List.map_append]
  refine List.rel_append ?_ ?_
  · rw [List.forall₂_map_left_iff, List.map_map, List.forall₂_map_right_iff, List.forall₂_same]
    intro t ht
    exact transformStatement_create hS.1 hF.1 htable (hnames t ht) (hcolumns t ht) (hmarks t ht) (hfree t ht)
  · rw [List.forall₂_map_left_iff, List.map_map, List.forall₂_map_right_iff, List.forall₂_same]
    intro quoted _
    have hfirst : ∀ n ∈ tables.map Prod.fst, IsIdentifier n ∧ KeywordFree n := by simpa using hnames
    have hcall := transformStatement_call hS hF htable hfirst quoted
    rwa [List.map_map] at hcall

theorem transformStatements_names_sample : transformStatements (.list [(functionSynonym "S" "F" "Y").toValue])
        (.ofTexts ["CREATE LOCAL TEMPORARY COLUMN TABLE \"#P\" (A INT)", "CREATE LOCAL TEMPORARY COLUMN TABLE \"#Q_1\" (B (1))",
          "CALL S.\"F\"(\"#P\", \"#Q_1\") WITH OVERVIEW", "CALL S.F(#P, #Q_1) WITH OVERVIEW"]) =
      .ok ["DECLARE P TABLE (A INT);", "DECLARE Q_1 TABLE (B (1));", "CALL \"Y\"(:P, :Q_1);", "CALL \"Y\"(:P, :Q_1);"] := by
  have hid : ∀ n ∈ ["S", "F", "P", "Q_1"], IsIdentifier n ∧ KeywordFree n := by
    unfold IsIdentifier
    decide
  exact @transformStatements_names "S" "F" "Y" [("P", "A INT"), ("Q_1", "B (1)")] (hid "S" (by simp)) (hid "F" (by simp))
    (by simpa using ⟨hid "P" (by simp), hid "Q_1" (by simp)⟩) (by decide) (by decide) (by decide)

end TraceArtifacts
