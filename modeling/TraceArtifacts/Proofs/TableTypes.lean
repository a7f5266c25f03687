import TraceArtifacts.Proofs.NestedSelects

/-!
# Proofs: columns of table types

A table type is a list of columns between parentheses, and a column may end in a parenthesis of its own.
-/

namespace TraceArtifacts

open Text

/-- A column of a table type. -/
structure Column where
  name : String
  type : String
  digits : Option String

namespace Column

def size (c : Column) : String := (c.digits.map fun d => "(" ++ d ++ ")").getD ""

def text (c : Column) : String := "\"" ++ c.name ++ "\" " ++ c.type ++ c.size

def structureLine (c : Column) : String :=
  c.name ++ " TYPE " ++ (structureTypeNames.lookup c.type).getD "" ++ (c.digits.map (" LENGTH " ++ ·)).getD ""

def entityLine (c : Column) : String := c.name ++ " : " ++ (entityTypeNames.lookup c.type).getD "" ++ c.size ++ ";"

/-- Name and size have letters, digits and underscores only, and the type has a name in either notation. -/
structure IsPlain (c : Column) : Prop where
  name : IsRun c.name.toList
  structureType : c.type ∈ structureTypeNames.map Prod.fst
  entityType : c.type ∈ entityTypeNames.map Prod.fst
  digits : ∀ d ∈ c.digits, IsRun d.toList

def read (c : Column) : List Char := c.name.toList ++ ' ' :: (c.type.toList ++ c.size.toList)

end Column

def tableType (columns : List Column) : String :=
  "table (" ++ String.intercalate "," (columns.map Column.text) ++ ")"

variable {c : Column} {columns : List Column} {d : Char} {r t : List Char}

namespace Column.IsPlain

theorem type (hc : c.IsPlain) : IsRun c.type.toList := by
  have hkeys : ∀ k ∈ entityTypeNames.map Prod.fst, IsRun k.toList := by decide +kernel
  exact hkeys _ hc.entityType

theorem size_cases (hc : c.IsPlain) :
    c.digits = none ∧ c.size.toList = [] ∨ ∃ ds, c.digits = some ds ∧ IsRun ds.toList ∧ c.size.toList = '(' :: (ds.toList ++ [')']) := by
  cases hd : c.digits with
  | none => exact .inl ⟨rfl, by simp [size, hd]⟩
  | some ds => exact .inr ⟨ds, rfl, hc.digits ds hd, by simp [size, hd]⟩

theorem not_mem_read (hc : c.IsPlain) (hd : isWordChar d = false) (hmarks : d ∉ [' ', '(', ')']) : d ∉ c.read := by
  have hrun : ∀ {u : List Char}, IsRun u → d ∉ u := fun hu hmem => by simp [hu d hmem] at hd
  simp only [List.mem_cons, not_or] at hmarks
  rcases hc.size_cases with ⟨-, hs⟩ | ⟨ds, -, hds, hs⟩
  · simp [read, hs, hrun hc.name, hrun hc.type, hmarks]
  · simp [read, hs, hrun hc.name, hrun hc.type, hrun hds, hmarks]

end Column.IsPlain

/-! ## Stripping the marks -/

abbrev Strips (s t : List Char) : Prop := Becomes (tableKeys tableTypeMarks) (fun _ => []) s t

theorem notStoppedBy_marks (hd : d ≠ ' ') : ∀ k ∈ tableKeys tableTypeMarks, NotStoppedBy d k := by
  intro k hk
  have hstop : ∀ k ∈ tableKeys tableTypeMarks, k.dropWhile isWordChar ≠ [] ∧
      (k.takeWhile isWordChar = [] ∨ (k.dropWhile isWordChar).head? = some ' ') := by decide +kernel
  obtain ⟨hne, hrun | hblank⟩ := hstop k hk
  · exact notStoppedBy_of_dropWhile hne (.inl hrun)
  · exact notStoppedBy_of_dropWhile hne (.inr fun h => hd (Option.some.inj (h.symm.trans hblank)))

theorem Strips.mark {k : List Char} (hk : k ∈ tableKeys tableTypeMarks) (h : Strips r t) : Strips (k ++ r) t := by
  have hmarks : ∀ k ∈ tableKeys tableTypeMarks, k ≠ [] ∧ 1 ≤ k.length ∧ ∀ k' ∈ tableKeys tableTypeMarks, k'.take 1 = k.take 1 → k' = k := by
    decide +kernel
  obtain ⟨hne, hlen, halone⟩ := hmarks k hk
  exact Becomes.key (longestAt_of_take hk hne hlen halone r) h

theorem Strips.parenthesis (hd : d ≠ ' ') (h : Strips (d :: r) t) : Strips (')' :: d :: r) (')' :: t) := by
  refine .literal (fun k hk hne hstands => ?_) h
  have hheads : ∀ k ∈ tableKeys tableTypeMarks, k.head? = some ')' → k = [')', ' '] := by decide +kernel
  obtain ⟨a, k, rfl⟩ := List.exists_cons_of_ne_nil hne
  obtain ⟨rfl, hrest⟩ := List.cons_prefix_cons.1 hstands
  obtain rfl : k = [' '] := (List.cons.inj (hheads _ hk rfl)).2
  exact hd (List.cons_prefix_cons.1 hrest).1.symm

theorem Strips.plain (hd : ∀ k ∈ tableKeys tableTypeMarks, k.head? ≠ some d) (h : Strips r t) : Strips (d :: r) (d :: t) :=
  .literal (noneAt_head hd r) h

theorem Strips.column (hc : c.IsPlain) (hd : d ∈ [',', ')']) (h : Strips (d :: r) t) : Strips (c.text.toList ++ d :: r) (c.read ++ t) := by
  have hstop : d ≠ ' ' ∧ isWordChar d = false := by
    rcases List.mem_pair.1 hd with rfl | rfl <;> exact ⟨by decide, by decide⟩
  have htype : Strips (c.type.toList ++ (c.size.toList ++ d :: r)) (c.type.toList ++ (c.size.toList ++ t)) := by
    rcases hc.size_cases with ⟨-, hs⟩ | ⟨ds, -, hds, hs⟩
    · rw [hs]
      exact Becomes.run hc.type hstop.2 (notStoppedBy_marks hstop.1) h
    · rw [hs]
      have hdigits := Becomes.run hds (by decide) (notStoppedBy_marks (by decide)) (Strips.parenthesis hstop.1 h)
      have hopen := Strips.plain (d := '(') (by decide +kernel) hdigits
      simpa using Becomes.run hc.type (by decide) (notStoppedBy_marks (by decide)) hopen
  have hquote : ['"'] ∈ tableKeys tableTypeMarks := by decide +kernel
  have hblank := Strips.mark hquote (Strips.plain (d := ' ') (by decide +kernel) htype)
  have hname := Strips.mark hquote (Becomes.run hc.name (by decide) (notStoppedBy_marks (by decide)) hblank)
  simpa [Column.text, Column.read] using hname

theorem Strips.columnList (hcolumns : ∀ c ∈ columns, c.IsPlain) (hne : columns ≠ []) :
    Strips ([','].intercalate (columns.map fun c => c.text.toList) ++ [')', ' ']) ([','].intercalate (columns.map Column.read)) := by
  induction columns with
  | nil => exact absurd rfl hne
  | cons c columns ih =>
    have hc := hcolumns c (.head _)
    cases columns with
    | nil =>
      have hend : Strips [')', ' '] [] := Strips.mark (k := [')', ' ']) (by decide +kernel) .done
      simpa using Strips.column hc (by decide) hend
    | cons c' columns =>
      have hnext := Strips.plain (d := ',') (by decide +kernel) (ih (fun c hc => hcolumns c (.tail _ hc)) (List.cons_ne_nil _ _))
      simpa [List.intercalate_cons_cons] using Strips.column hc (by decide) hnext

/-! ## Reading columns -/

theorem cut_intercalate {sep : Char} {parts : List (List Char)} (h : ∀ p ∈ parts, sep ∉ p) (hne : parts ≠ []) :
    cut sep ([sep].intercalate parts) = parts := by
  induction parts with
  | nil => exact absurd rfl hne
  | cons p parts ih =>
    have hp := cut_eq_singleton_iff.2 ⟨h p (.head _), rfl⟩
    cases parts with
    | nil => simpa using hp
    | cons q parts =>
      rw [List.intercalate_cons_cons, List.append_assoc, List.singleton_append, cut_append, hp,
        ih (fun q hq => h q (.tail _ hq)) (List.cons_ne_nil _ _), List.singleton_append]

theorem columnTexts_tableType (h : ∀ c ∈ columns, c.IsPlain) (hne : columns ≠ []) :
    columnTexts (tableType columns) = .ok (columns.map fun c => String.ofList c.read) := by
  have hvalue : ∀ p ∈ textFields tableTypeMarks, inserted p.2 = .ok [] := by
    simp [textFields, tableTypeMarks, inserted]
  have hmarks : textFields tableTypeMarks ≠ [] := by simp [textFields, tableTypeMarks]
  obtain ⟨segs, hsplits, hout⟩ := @substituteFields_splits _ hmarks (fun _ => []) hvalue rfl (tableType columns ++ " ")
  have htext : (tableType columns ++ " ").toList =
      "table (".toList ++ ([','].intercalate (columns.map fun c => c.text.toList) ++ [')', ' ']) := by
    simp [tableType, String.toList_intercalate, Function.comp_def]
  have hstrips : Strips (tableType columns ++ " ").toList ([','].intercalate (columns.map Column.read)) := by
    rw [htext]
    exact Strips.mark (by decide +kernel) (Strips.columnList h hne)
  have hsame := hstrips.unique ⟨segs, hsplits, rfl⟩
  have hcut := @cut_intercalate ',' (columns.map Column.read) (by
    intro p hp
    obtain ⟨c, hc, rfl⟩ := List.mem_map.1 hp
    exact (h c hc).not_mem_read (by decide) (by decide)) (by simpa using hne)
  rw [columnTexts, substituteText]
  change (substituteFields (textFields tableTypeMarks) (tableType columns ++ " ") >>= _) = _
  rw [hout, hsame]
  simp [bind, Except.bind, pure, Except.pure, cutText, hcut]

theorem splitColumn_read (hc : c.IsPlain) : splitColumn (String.ofList c.read) = .ok (c.name, c.type ++ c.size) := by
  have hrun : ∀ {u : List Char}, IsRun u → ' ' ∉ u := fun hu hmem => absurd (hu _ hmem) (by decide)
  have hrest : ' ' ∉ c.type.toList ++ c.size.toList := by
    rcases hc.size_cases with ⟨-, hs⟩ | ⟨ds, -, hds, hs⟩
    · simp [hs, hrun hc.type]
    · simp [hs, hrun hc.type, hrun hds]
  have hcut : cutText ' ' (String.ofList c.read) = [c.name, c.type ++ c.size] := by
    rw [cutText, String.toList_ofList, Column.read, cut_append, cut_eq_singleton_iff.2 ⟨hrun hc.name, rfl⟩,
      cut_eq_singleton_iff.2 ⟨hrest, rfl⟩]
    simp
  rw [splitColumn, hcut]

theorem splitSize_read (hc : c.IsPlain) : splitSize (c.type ++ c.size) = (c.type, c.digits.map fun d => "(" ++ d ++ ")") := by
  have htype : '(' ∉ c.type.toList := fun hmem => absurd (hc.type _ hmem) (by decide)
  have hindex := indexOf?_append (a := '(') [] htype c.size.toList
  rw [splitSize, String.toList_append, hindex]
  rcases hc.size_cases with ⟨hd, hs⟩ | ⟨ds, hd, -, -⟩
  · have hempty : c.size = "" := String.toList_inj.1 hs
    simp [hd, hempty, indexOf?]
  · have hsize : c.size = "(" ++ ds ++ ")" := by simp [Column.size, hd]
    simp [hd, hsize, indexOf?, ← String.toList_inj]

theorem lookup_textFields (m : List (String × String)) (k : String) : (textFields m).lookup k = (m.lookup k).map Value.text := by
  induction m with
  | nil => rfl
  | cons p m ih =>
    rw [textFields, List.map_cons, List.lookup_cons, List.lookup_cons, ← textFields, ih]
    cases k == p.1 <;> rfl

theorem mappedType_ofTable {m : List (String × String)} {type : String} (h : type ∈ m.map Prod.fst) :
    mappedType (.ofTable m) type = .ok ((m.lookup type).getD "") := by
  rw [mappedType, show Value.ofTable m = .object (textFields m) from rfl, Value.item_object, lookup_textFields]
  cases hlook : m.lookup type with
  | none =>
    obtain ⟨p, hp, rfl⟩ := List.mem_map.1 h
    simpa using List.lookup_eq_none_iff.1 hlook p hp
  | some name => rfl

theorem structureColumn_read (hc : c.IsPlain) :
    structureColumn (.ofTable structureTypeNames) (String.ofList c.read) = .ok (c.structureLine ++ ",\n") := by
  have hlength : ∀ ds ∈ c.digits, replaceText (replaceText ("(" ++ ds ++ ")") "(" "") ")" "" = ds := by
    intro ds hds
    have hrun : ∀ x ∈ ds.toList, x ≠ '(' ∧ x ≠ ')' := fun x hx => by
      have hword := hc.digits ds hds x hx
      constructor <;> rintro rfl <;> exact absurd hword (by decide)
    have hfilter : (ds.toList.filter (· ≠ '(')).filter (· ≠ ')') = ds.toList := by
      rw [List.filter_filter]
      exact List.filter_eq_self.2 fun x hx => by simp [hrun x hx]
    simp [replaceText, replace_nil, ← String.toList_inj] at hfilter ⊢
    exact hfilter
  rw [structureColumn, splitColumn_read hc]
  simp only [bind, Except.bind, splitSize_read hc, mappedType_ofTable hc.structureType]
  cases hd : c.digits with
  | none => simp [Column.structureLine, hd, pure, Except.pure]
  | some ds => simp [Column.structureLine, hd, hlength ds hd, pure, Except.pure]

theorem entityColumn_read (hc : c.IsPlain) :
    entityColumn (.ofTable entityTypeNames) (String.ofList c.read) = .ok ("      " ++ c.entityLine ++ "\n") := by
  rw [entityColumn, splitColumn_read hc]
  simp only [bind, Except.bind, splitSize_read hc, mappedType_ofTable hc.entityType]
  simp [Column.entityLine, Column.size, pure, Except.pure, ← String.toList_inj]

/-! ## Lines -/

theorem mapM_columns {f : String → Outcome String} {line : Column → String} (h : ∀ c ∈ columns, f (String.ofList c.read) = .ok (line c)) :
    (columns.map fun c => String.ofList c.read).mapM f = .ok (columns.map line) := by
  rw [mapM_ok, List.forall₂_map_left_iff, List.forall₂_map_right_iff]
  exact List.forall₂_same.2 h

theorem has_comma (h : 2 ≤ columns.length) : (Value.text (tableType columns)).has "," = .ok true := by
  have hcomma : ',' ∈ (tableType columns).toList := by
    rcases columns with _ | ⟨c, _ | ⟨c', columns⟩⟩
    · exact absurd h (by decide)
    · exact absurd h (by simp)
    · simp [tableType, String.toList_intercalate]
  rw [Value.has, Value.isIn]
  exact congrArg Except.ok (occurs_iff_isInfix.2 ((List.singleton_infix_iff _ _).2 hcomma))

theorem builtin_structureTypes : Settings.builtin.entry Setting.structureTypes = .ok (.ofTable structureTypeNames) := rfl

theorem builtin_entityTypes : Settings.builtin.entry Setting.entityTypes = .ok (.ofTable entityTypeNames) := rfl

/-- Every column of a table type gives one line, in the order of the columns: in a structure its name, the name of its type there and
its length, and in an entity its name, the name of its type there and its size. -/
theorem tableType_lines (h : ∀ c ∈ columns, c.IsPlain) :
    (1 ≤ columns.length → structureColumns (Settings.builtin.entry Setting.structureTypes) (.text (tableType columns)) =
      .ok (String.join (columns.map fun c => c.structureLine ++ ",\n")) (.text (tableType columns))) ∧
    (2 ≤ columns.length → entityColumns (Settings.builtin.entry Setting.entityTypes) (.text (tableType columns)) =
      .ok (some (String.join (columns.map fun c => "      " ++ c.entityLine ++ "\n"))) (.text (tableType columns))) := by
  have hread : columns ≠ [] → readColumns (.text (tableType columns)) =
      .ok (columns.map fun c => String.ofList c.read) (.text (tableType columns)) := fun hne =>
    run_lift_of_ok (columnTexts_tableType h hne)
  constructor
  · intro hlen
    rw [structureColumns, run_bind_of_ok (hread (List.ne_nil_of_length_pos hlen)), run_lift_bind_of_ok builtin_structureTypes,
      run_lift_bind_of_ok (mapM_columns fun c hc => structureColumn_read (h c hc))]
    rfl
  · intro hlen
    rw [entityColumns, run_get_bind, run_lift_bind_of_ok (has_comma hlen), if_pos rfl,
      run_bind_of_ok (hread (List.ne_nil_of_length_pos (by omega))), run_lift_bind_of_ok builtin_entityTypes,
      run_lift_bind_of_ok (mapM_columns fun c hc => entityColumn_read (h c hc))]
    rfl

def sizedColumns : List Column := [⟨"A", "INT", none⟩, ⟨"B_1", "VARCHAR", some "50"⟩]

theorem tableType_lines_sample : (∀ c ∈ sizedColumns, c.IsPlain) ∧ tableType sizedColumns = "table (\"A\" INT,\"B_1\" VARCHAR(50))" ∧
    structureColumns (Settings.builtin.entry Setting.structureTypes) (.text (tableType sizedColumns)) =
      .ok "A TYPE I,\nB_1 TYPE C LENGTH 50,\n" (.text (tableType sizedColumns)) ∧
    entityColumns (Settings.builtin.entry Setting.entityTypes) (.text (tableType sizedColumns)) =
      .ok (some "      A : Integer;\n      B_1 : hana.VARCHAR(50);\n") (.text (tableType sizedColumns)) := by
  have hplain : ∀ c ∈ sizedColumns, c.IsPlain := by
    intro c hc
    rcases List.mem_pair.1 hc with rfl | rfl
    · exact ⟨by decide, by decide, by decide, by simp⟩
    · exact ⟨by decide, by decide, by decide, by simp; decide⟩
  exact ⟨hplain, by decide, (tableType_lines hplain).1 (by decide), (tableType_lines hplain).2 (by decide)⟩

end TraceArtifacts
