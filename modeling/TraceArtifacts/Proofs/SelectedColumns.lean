import TraceArtifacts.Proofs.NestedSelects

/-!
# Proofs: the data set behind selected columns

A select that lists its columns has one source that is a word, but letters of `FROM` in a column come before it.
-/

namespace TraceArtifacts.Text

theorem indexOf?_append_cons {t : List Char} (ht : t ≠ []) {x : Char} (hx : x ∉ t) {u : List Char} (hu : occurs t u = false)
    (r : List Char) : indexOf? t (u ++ x :: r) = (indexOf? t r).map (· + (u.length + 1)) := by
  induction u with
  | nil =>
    have hstart : t.isPrefixOf (x :: r) = false := by
      have := isPrefixOf_append_cons r [] hx
      obtain ⟨a, t, rfl⟩ := List.exists_cons_of_ne_nil ht
      exact this
    rw [List.nil_append, indexOf?, hstart]
    rfl
  | cons c u ih =>
    obtain ⟨hstart, hrest⟩ := Bool.or_eq_false_iff.1 ((occurs_cons t c u).symm.trans hu)
    have hno : t.isPrefixOf (c :: (u ++ x :: r)) = false := (isPrefixOf_append_cons r (c :: u) hx).trans hstart
    rw [List.cons_append, indexOf?, hno, if_neg Bool.false_ne_true, ih hrest, Option.map_map]
    rfl

theorem exists_first {t u : List Char} (hu : occurs t u = true) : ∃ p q, u = p ++ (t ++ q) ∧ ∀ r, indexOf? t (u ++ r) = some p.length := by
  induction u with
  | nil =>
    have ht : t = [] := List.infix_nil.1 (occurs_iff_isInfix.1 hu)
    subst ht
    exact ⟨[], [], rfl, fun r => by cases r <;> rfl⟩
  | cons c u ih =>
    cases hstart : t.isPrefixOf (c :: u) with
    | true =>
      obtain ⟨q, hq⟩ := List.isPrefixOf_iff_prefix.1 hstart
      refine ⟨[], q, hq.symm, fun r => ?_⟩
      have hstands : t.isPrefixOf (c :: (u ++ r)) = true :=
        List.isPrefixOf_iff_prefix.2 ((List.isPrefixOf_iff_prefix.1 hstart).trans (List.prefix_append (c :: u) r))
      rw [List.cons_append, indexOf?, hstands]
      rfl
    | false =>
      rw [occurs_cons, hstart, Bool.false_or] at hu
      obtain ⟨p, q, rfl, hfirst⟩ := ih hu
      refine ⟨c :: p, q, rfl, fun r => ?_⟩
      -- the text is no longer than what it occurs in, so it does not reach beyond that
      have hno : t.isPrefixOf (c :: (p ++ (t ++ q) ++ r)) = false := by
        rw [Bool.eq_false_iff]
        intro hyes
        have hshort := List.prefix_of_prefix_length_le (List.isPrefixOf_iff_prefix.1 hyes)
          (List.prefix_append (c :: (p ++ (t ++ q))) r) (by simp; omega)
        rw [List.isPrefixOf_iff_prefix.2 hshort] at hstart
        cases hstart
      rw [List.cons_append, indexOf?, hno, if_neg Bool.false_ne_true, hfirst]
      rfl

end TraceArtifacts.Text

namespace TraceArtifacts

open Text

/-! ## The text of a select -/

def columnSelect (columns : List String) (schema table : String) : String :=
  "SELECT " ++ String.intercalate ", " (columns.map fun c => "\"" ++ c ++ "\"") ++ " FROM \"" ++ schema ++ "\".\"" ++ table ++ "\""

def columnsFront (before : List String) : List Char :=
  ['S', 'E', 'L', 'E', 'C', 'T', ' '] ++ before.flatMap fun b => '"' :: (b.toList ++ ['"', ',', ' '])

def columnsBack (after : List String) : List Char := after.flatMap fun d => ',' :: ' ' :: '"' :: (d.toList ++ ['"'])

def columnsText (columns : List String) : List Char :=
  (String.intercalate ", " (columns.map fun c => "\"" ++ c ++ "\"")).toList

theorem columnsText_cons (c : String) {columns : List String} (h : columns ≠ []) :
    columnsText (c :: columns) = '"' :: (c.toList ++ '"' :: ',' :: ' ' :: columnsText columns) := by
  rw [columnsText, ← List.singleton_append, List.map_append, String.intercalate_append_of_ne_nil (by simp) (by simpa using h)]
  simp [columnsText]

theorem columnsText_eq (c : String) (after : List String) : columnsText (c :: after) = '"' :: (c.toList ++ '"' :: columnsBack after) := by
  induction after generalizing c with
  | nil => simp [columnsText, columnsBack]
  | cons d after ih =>
    rw [columnsText_cons c (List.cons_ne_nil d after), ih]
    simp [columnsBack]

theorem toList_columnSelect (before : List String) (c : String) (after : List String) (S T : String) :
    (columnSelect (before ++ c :: after) S T).toList = columnsFront before ++ '"' :: (c.toList ++ '"' :: (columnsBack after ++
      ' ' :: (sourceWord ++ ' ' :: quotedDataset S T))) := by
  have hall : columnsText (before ++ c :: after) =
      before.flatMap (fun b => '"' :: (b.toList ++ ['"', ',', ' '])) ++ '"' :: (c.toList ++ '"' :: columnsBack after) := by
    induction before with
    | nil => exact columnsText_eq c after
    | cons b before ih =>
      rw [List.cons_append, columnsText_cons b (by simp), ih]
      simp
  have hselect : (columnSelect (before ++ c :: after) S T).toList = ['S', 'E', 'L', 'E', 'C', 'T', ' '] ++
      (columnsText (before ++ c :: after) ++ ' ' :: (sourceWord ++ ' ' :: quotedDataset S T)) := by
    simp [columnSelect, columnsText, sourceWord, quotedDataset]
  rw [hselect, hall]
  simp [columnsFront]

/-! ## Where the text is read from -/

def hasSourceLetters (c : String) : Bool := containsText c "FROM"

theorem occurs_columnsFront (before : List String) : occurs sourceWord (columnsFront before) = before.any hasSourceLetters := by
  have hlist : occurs sourceWord (before.flatMap fun b => '"' :: (b.toList ++ ['"', ',', ' '])) = before.any hasSourceLetters := by
    induction before with
    | nil => rfl
    | cons b before ih =>
      have happend : ((b :: before).flatMap fun b => '"' :: (b.toList ++ ['"', ',', ' '])) =
          '"' :: (b.toList ++ '"' :: ',' :: ' ' :: before.flatMap fun b => '"' :: (b.toList ++ ['"', ',', ' '])) := by
        simp
      rw [happend, occurs_cons_stop sourceWord_isRun rfl, occurs_append_stop sourceWord_isRun rfl,
        occurs_cons_stop sourceWord_isRun rfl, occurs_cons_stop sourceWord_isRun rfl, ih]
      rfl
  have hselect : columnsFront before = ['S', 'E', 'L', 'E', 'C', 'T'] ++ ' ' ::
      before.flatMap fun b => '"' :: (b.toList ++ ['"', ',', ' ']) := rfl
  rw [hselect, occurs_append_stop sourceWord_isRun rfl, hlist]
  rfl

theorem occurs_columnsBack (after : List String) : occurs sourceWord (columnsBack after) = after.any hasSourceLetters := by
  induction after with
  | nil => rfl
  | cons d after ih =>
    have happend : columnsBack (d :: after) = ',' :: ' ' :: '"' :: (d.toList ++ '"' :: columnsBack after) := by
      simp [columnsBack]
    rw [happend, occurs_cons_stop sourceWord_isRun rfl, occurs_cons_stop sourceWord_isRun rfl,
      occurs_cons_stop sourceWord_isRun rfl, occurs_append_stop sourceWord_isRun rfl, ih]
    rfl

theorem occurs_columns (before : List String) (c : String) (after : List String) :
    occurs sourceWord (columnsFront before ++ '"' :: (c.toList ++ '"' :: columnsBack after)) =
      (before ++ c :: after).any hasSourceLetters := by
  rw [occurs_append_stop sourceWord_isRun rfl, occurs_append_stop sourceWord_isRun rfl, occurs_columnsFront, occurs_columnsBack,
    List.any_append]
  rfl

section Columns

variable {S T : String} (hS : IsCapitalName S) (hT : IsCapitalName T) {c : String} (hc : IsCapitalName c) {after : List String}
  (hafter : ∀ d ∈ after, IsCapitalName d)

include hafter in
theorem upper_columnsBack : upper (columnsBack after) = columnsBack after := by
  induction after with
  | nil => rfl
  | cons d after ih =>
    obtain ⟨hd, hafter⟩ := List.forall_mem_cons.1 hafter
    have happend : columnsBack (d :: after) = ',' :: ' ' :: '"' :: (d.toList ++ '"' :: columnsBack after) := by
      simp [columnsBack]
    rw [happend]
    show ',' :: ' ' :: '"' :: upper (d.toList ++ '"' :: columnsBack after) = _
    rw [upper_append, hd.upper_eq_self]
    show ',' :: ' ' :: '"' :: (d.toList ++ '"' :: upper (columnsBack after)) = _
    rw [ih hafter]

include hafter in
theorem countWords_columnsBack (r : List Char) : countWords sourceWord (columnsBack after ++ r) = countWords sourceWord r := by
  induction after with
  | nil => rfl
  | cons d after ih =>
    obtain ⟨hd, hafter⟩ := List.forall_mem_cons.1 hafter
    have happend : columnsBack (d :: after) ++ r = ',' :: ' ' :: '"' :: (d.toList ++ '"' :: (columnsBack after ++ r)) := by
      simp [columnsBack]
    have hskip : ∀ s, countWords sourceWord (',' :: ' ' :: '"' :: s) = countWords sourceWord s := fun s => rfl
    rw [happend, hskip, countWords_run sourceWord_isRun hd.isRun hd.ne_sourceWord (by decide), ih hafter]

include hS hT hc hafter

theorem upper_columnSelect : upper (columnSelect (c :: after) S T).toList = (columnSelect (c :: after) S T).toList := by
  rw [← List.nil_append (c :: after), toList_columnSelect]
  show ['S', 'E', 'L', 'E', 'C', 'T', ' ', '"'] ++ upper (c.toList ++ _) = ['S', 'E', 'L', 'E', 'C', 'T', ' ', '"'] ++ _
  rw [upper_append, hc.upper_eq_self]
  show _ ++ (c.toList ++ '"' :: upper (columnsBack after ++ _)) = _
  rw [upper_append, upper_columnsBack hafter]
  show _ ++ (c.toList ++ '"' :: (columnsBack after ++ ' ' :: (sourceWord ++ ' ' :: upper (quotedDataset S T)))) = _
  rw [upper_dataset hS hT]
  rfl

theorem countWords_columnSelect : countWords sourceWord (columnSelect (c :: after) S T).toList = 1 := by
  have hdataset := countWords_dataset hS hT []
  rw [List.append_nil] at hdataset
  have hsource : ∀ s, countWords sourceWord (' ' :: (sourceWord ++ ' ' :: s)) = countWords sourceWord s + 1 := fun s => rfl
  have hselect : ∀ s, countWords sourceWord (['S', 'E', 'L', 'E', 'C', 'T', ' '] ++ '"' :: s) = countWords sourceWord s := fun s => rfl
  rw [← List.nil_append (c :: after), toList_columnSelect, columnsFront, List.flatMap_nil, List.append_nil, hselect,
    countWords_run sourceWord_isRun hc.isRun hc.ne_sourceWord (by decide), countWords_columnsBack hafter, hsource, hdataset]
  rfl

theorem fromLastSource_columnSelect {i : Nat} (hi : indexOf? sourceWord (columnSelect (c :: after) S T).toList = some i) :
    fromLastSource (upper (columnSelect (c :: after) S T).toList) = (columnSelect (c :: after) S T).toList.drop i := by
  have hword : "FROM".toList = sourceWord := rfl
  rw [upper_columnSelect hS hT hc hafter, fromLastSource, hword, countWords_columnSelect hS hT hc hafter]
  show fromPosition ((indexOf? sourceWord _).map (0 + ·)) _ = _
  rw [hi, Option.map_some, Nat.zero_add]
  rfl

theorem parseDataset_found (hno : ∀ b ∈ c :: after, hasSourceLetters b = false) :
    parseDataset (columnSelect (c :: after) S T) = (some S, T) := by
  have hfront : occurs sourceWord (columnsFront [] ++ '"' :: (c.toList ++ '"' :: columnsBack after)) = false := by
    rw [occurs_columns]
    exact List.any_eq_false.2 fun b hb => Bool.eq_false_iff.1 (hno b hb)
  have htext : (columnSelect (c :: after) S T).toList = (columnsFront [] ++ '"' :: (c.toList ++ '"' :: columnsBack after)) ++
      ' ' :: (sourceWord ++ ' ' :: quotedDataset S T) := by
    rw [← List.nil_append (c :: after), toList_columnSelect]
    simp
  have hindex := indexOf?_append_cons (t := sourceWord) (by decide) (by decide : ' ' ∉ sourceWord) hfront
    (sourceWord ++ ' ' :: quotedDataset S T)
  rw [← htext] at hindex
  refine parseDataset_of_dataset hS hT (.inl rfl) ?_
  rw [fromLastSource_columnSelect hS hT hc hafter hindex, htext, List.append_nil]
  show betweenBlanks (List.drop (0 + _) _) = _
  rw [Nat.zero_add, List.drop_length_add_append]
  exact betweenBlanks_last (by decide) (blank_not_mem_dataset hS hT)

end Columns

def readInstead : List String → String
  | [] => "FROM"
  | [d] => d
  | d :: _ :: _ => d ++ ","

theorem datasetOf_quoted {d : String} (hd : IsCapitalName d) {tail : List Char} (htail : tail = [] ∨ tail = [',']) :
    datasetOf (cut '.' ((strip (' ' :: '"' :: (d.toList ++ '"' :: tail))).filter staysInName)) =
      (none, String.ofList (d.toList ++ tail)) := by
  have hstrip : strip (' ' :: '"' :: (d.toList ++ '"' :: tail)) = '"' :: (d.toList ++ '"' :: tail) := by
    have hleft : stripLeft (' ' :: '"' :: (d.toList ++ '"' :: tail)) = '"' :: (d.toList ++ '"' :: tail) := rfl
    rw [strip, hleft]
    rcases htail with rfl | rfl
    · exact stripRight_concat ('"' :: d.toList) (by decide)
    · have hend : '"' :: (d.toList ++ ['"', ',']) = '"' :: (d.toList ++ ['"']) ++ [','] := by simp
      rw [hend]
      exact stripRight_concat _ (by decide)
  have hmarks : staysInName '"' = false ∧ tail.filter staysInName = tail := by rcases htail with rfl | rfl <;> decide
  have hdot : '.' ∉ d.toList ++ tail := by
    rcases htail with rfl | rfl <;> simp [hd.not_mem (x := '.') (by simp)]
  have hfilter : ('"' :: (d.toList ++ '"' :: tail)).filter staysInName = d.toList ++ tail := by
    simp [List.filter_append, hd.filter_eq_self, hmarks]
  rw [hstrip, hfilter, cut_eq_singleton_iff.2 ⟨hdot, rfl⟩]
  rfl

theorem datasetOf_behind {u : List Char} (hu : ' ' ∉ u) {after : List String} (hafter : ∀ d ∈ after, IsCapitalName d)
    (r : List Char) : datasetOf (cut '.' ((strip (betweenBlanks (u ++ (columnsBack after ++ ' ' :: (sourceWord ++ ' ' :: r))))).filter
      staysInName)) = (none, readInstead after) := by
  obtain _ | ⟨d, after⟩ := after
  · rw [columnsBack, List.flatMap_nil, List.nil_append, betweenBlanks_inner hu (by decide)]
    rfl
  · have hd : IsCapitalName d := hafter d List.mem_cons_self
    have hcomma : ' ' ∉ u ++ [','] := by simpa using hu
    have hquoted : ' ' ∉ '"' :: (d.toList ++ ['"']) := by simp [hd.not_mem (x := ' ') (by simp)]
    obtain _ | ⟨e, after⟩ := after
    · have htext : u ++ (columnsBack [d] ++ ' ' :: (sourceWord ++ ' ' :: r)) =
          (u ++ [',']) ++ ' ' :: (('"' :: (d.toList ++ ['"'])) ++ ' ' :: (sourceWord ++ ' ' :: r)) := by simp [columnsBack]
      rw [htext, betweenBlanks_inner hcomma hquoted, datasetOf_quoted hd (.inl rfl), List.append_nil, String.ofList_toList]
      rfl
    · have htext : u ++ (columnsBack (d :: e :: after) ++ ' ' :: (sourceWord ++ ' ' :: r)) =
          (u ++ [',']) ++ ' ' :: (('"' :: (d.toList ++ ['"', ','])) ++ ' ' :: ('"' :: (e.toList ++ '"' :: (columnsBack after ++
            ' ' :: (sourceWord ++ ' ' :: r))))) := by simp [columnsBack]
      have hread : String.ofList (d.toList ++ [',']) = d ++ "," := by simp
      rw [htext, betweenBlanks_inner hcomma (by simp [hd.not_mem (x := ' ') (by simp)]), datasetOf_quoted hd (.inr rfl), hread]
      rfl

theorem parseDataset_instead {S T : String} (hS : IsCapitalName S) (hT : IsCapitalName T) {before : List String} {c : String}
    {after : List String} (hcolumns : ∀ d ∈ before ++ c :: after, IsCapitalName d)
    (hbefore : ∀ b ∈ before, hasSourceLetters b = false) (hletters : hasSourceLetters c = true) :
    parseDataset (columnSelect (before ++ c :: after) S T) = (none, readInstead after) := by
  obtain ⟨p, q, hsplit, hletter⟩ := exists_first (t := sourceWord) hletters
  have hindex := indexOf?_append_cons (t := sourceWord) (by decide) (by decide : '"' ∉ sourceWord)
    ((occurs_columnsFront before).trans (List.any_eq_false.2 fun b hb => Bool.eq_false_iff.1 (hbefore b hb)))
    (c.toList ++ '"' :: (columnsBack after ++ ' ' :: (sourceWord ++ ' ' :: quotedDataset S T)))
  rw [← toList_columnSelect, hletter, Option.map_some] at hindex
  have hdrop : ∀ s, List.drop (p.length + ((columnsFront before).length + 1)) (columnsFront before ++ '"' :: (p ++ s)) = s := by
    intro s
    have hlength : p.length + ((columnsFront before).length + 1) = (columnsFront before ++ '"' :: p).length := by simp; omega
    have happend : columnsFront before ++ '"' :: (p ++ s) = (columnsFront before ++ '"' :: p) ++ s := by simp
    rw [hlength, happend, List.drop_left]
  have hfrom : fromLastSource (upper (columnSelect (before ++ c :: after) S T).toList) =
      (sourceWord ++ (q ++ ['"'])) ++ (columnsBack after ++ ' ' :: (sourceWord ++ ' ' :: quotedDataset S T)) := by
    obtain ⟨d, rest, hd⟩ : ∃ d rest, before ++ c :: after = d :: rest := List.exists_cons_of_ne_nil (by simp)
    rw [hd] at hindex
    obtain ⟨hfirst, hrest⟩ := List.forall_mem_cons.1 (hd ▸ hcolumns)
    rw [hd, fromLastSource_columnSelect hS hT hfirst hrest hindex, ← hd, toList_columnSelect, hsplit, List.append_assoc, hdrop]
    simp
  have hblank : ' ' ∉ sourceWord ++ (q ++ ['"']) := by
    have hc : ' ' ∉ c.toList := (hcolumns c (by simp)).not_mem (by simp)
    have hq : ' ' ∉ q := fun hmem => hc (by rw [hsplit]; simp [hmem])
    simpa [sourceWord] using hq
  rw [parseDataset_eq, hfrom]
  exact datasetOf_behind hblank (fun d hd => hcolumns d (by simp [hd])) _

theorem parseDataset_columns {S T : String} (hS : IsCapitalName S) (hT : IsCapitalName T) {columns : List String}
    (hne : columns ≠ []) (hcolumns : ∀ c ∈ columns, IsCapitalName c) :
    (parseDataset (columnSelect columns S T) = (some S, T) ↔ ∀ c ∈ columns, containsText c "FROM" = false) ∧
      ∀ before c after, columns = before ++ c :: after → (∀ b ∈ before, containsText b "FROM" = false) →
        containsText c "FROM" = true → parseDataset (columnSelect columns S T) = (none, readInstead after) := by
  refine ⟨⟨fun hparse => ?_, fun hno => ?_⟩, ?_⟩
  · by_contra hsome
    have hfind : (columns.find? hasSourceLetters).isSome = true := by
      simpa [List.find?_isSome, hasSourceLetters] using hsome
    obtain ⟨c, hc⟩ := Option.isSome_iff_exists.1 hfind
    obtain ⟨hletters, before, after, rfl, hbefore⟩ := List.find?_eq_some_iff_append.1 hc
    have hread := parseDataset_instead hS hT hcolumns (fun b hb => by simpa using hbefore b hb) hletters
    rw [hparse] at hread
    cases congrArg Prod.fst hread
  · obtain ⟨c, after, rfl⟩ := List.exists_cons_of_ne_nil hne
    obtain ⟨hc, hafter⟩ := List.forall_mem_cons.1 hcolumns
    exact parseDataset_found hS hT hc hafter hno
  · rintro before c after rfl hbefore hletters
    exact parseDataset_instead hS hT hcolumns hbefore hletters

theorem parseDataset_columns_sample : IsCapitalName "S" ∧ IsCapitalName "T" ∧ (∀ c ∈ ["ID", "A_FROM", "B"], IsCapitalName c) ∧
    parseDataset (columnSelect ["ID", "A_FROM", "B"] "S" "T") = (none, "B") := by
  have hname : ∀ s ∈ ["S", "T", "ID", "A_FROM", "B"], IsCapitalName s := by
    intro s hs
    have hall := List.all_eq_true.1 (by decide : ["S", "T", "ID", "A_FROM", "B"].all
      (fun s => s != "" && s.toList.all isNameChar && s != "FROM") = true) s hs
    simp only [Bool.and_eq_true, bne_iff_ne, List.all_eq_true] at hall
    exact ⟨hall.1.1, hall.1.2, hall.2⟩
  have hcolumns : ∀ c ∈ ["ID", "A_FROM", "B"], IsCapitalName c := fun c hc => hname c (List.mem_of_mem_drop (i := 2) hc)
  refine ⟨hname "S" (by simp), hname "T" (by simp), hcolumns, ?_⟩
  exact (parseDataset_columns (hname "S" (by simp)) (hname "T" (by simp)) (by simp) hcolumns).2 ["ID"] "A_FROM" ["B"] rfl
    (fun b hb => by rw [List.mem_singleton.1 hb]; decide) (by decide)

/-- The schema and the table are missed, and the source itself is read for a table. -/
theorem parseDataset_misses_source : IsCapitalName "VALID_FROM" ∧
    parseDataset "SELECT \"VALID_FROM\" FROM \"S\".\"T\"" = (none, "FROM") := by
  exact ⟨⟨by decide, List.all_eq_true.1 (by decide), by decide⟩, by decide +kernel⟩

end TraceArtifacts
