import Mathlib.Algebra.BigOperators.Ring.List
import Mathlib.Algebra.Order.BigOperators.Group.List
import Mathlib.Algebra.Order.Group.Nat
import Mathlib.Algebra.Ring.Nat
import TraceArtifacts.Proofs.Wording

/-!
# Proofs: values that are inserted

The marks of a statement that inserts values are replaced wherever they stand, and so in the values too.
-/

namespace TraceArtifacts

open Text

variable {called : Bool} {keys : List (List Char)} {n r t v w : List Char} {segs : List Segment}

namespace Text

/-! ## Texts that stay as they are -/

theorem images_eq_sources {value : List Char → List Char} (hle : ∀ g ∈ segs, (g.image value).length ≤ g.source.length)
    (h : segs.flatMap (Segment.image value) = segs.flatMap Segment.source) : ∀ g ∈ segs, g.image value = g.source := by
  induction segs with
  | nil => exact nofun
  | cons g segs ih =>
    have hlater : ∀ g ∈ segs, (g.image value).length ≤ g.source.length := fun g hg => hle g (.tail _ hg)
    rw [List.flatMap_cons, List.flatMap_cons] at h
    have hrest : (segs.flatMap (Segment.image value)).length ≤ (segs.flatMap Segment.source).length := by
      rw [List.length_flatMap, List.length_flatMap]
      exact List.sum_le_sum hlater
    have hlen := congrArg List.length h
    rw [List.length_append, List.length_append] at hlen
    have hfirst := hle g List.mem_cons_self
    obtain ⟨hg, hrest⟩ := List.append_inj h (by omega)
    intro g' hg'
    rcases List.mem_cons.1 hg' with rfl | hg'
    · exact hg
    · exact ih hlater hrest g' hg'

theorem not_mem_of_doubled {value : List Char → List Char} {c : Char} (hdouble : ∀ g ∈ segs, (g.image value).count c = 2 * g.source.count c)
    (h : segs.flatMap (Segment.image value) = segs.flatMap Segment.source) : c ∉ segs.flatMap Segment.source := by
  have hcount : (segs.flatMap (Segment.image value)).count c = 2 * (segs.flatMap Segment.source).count c := by
    rw [List.count_flatMap, List.count_flatMap, ← List.sum_map_mul_left]
    exact congrArg List.sum (List.map_congr_left hdouble)
  rw [h] at hcount
  exact List.count_eq_zero.1 (by omega)

theorem Splits.literal_not_key {s : List Char} (h : Splits keys s segs) {c : Char} (hc : [c] ∈ keys) : Segment.literal c ∉ segs := by
  intro hmem
  induction h with
  | done => cases hmem
  | key _ _ ih =>
    rcases List.mem_cons.1 hmem with hmem | hmem
    · cases hmem
    · exact ih hmem
  | literal hnone _ ih =>
    rcases List.mem_cons.1 hmem with hmem | hmem
    · cases hmem
      exact hnone [c] hc (by simp) (List.prefix_append [c] _)
    · exact ih hmem

/-! ## The marks in a statement that inserts values -/

def insertKeys (called : Bool) : List (List Char) :=
  tableKeys insertMarks ++ if called then tableKeys callMarks else []

theorem insertKeys_texts (called : Bool) : ∀ k ∈ insertKeys called,
    markText k ≠ k ∧ (k ≠ [')'] → (markText k).length ≤ k.length) ∧ (markText k).count ')' = 2 * k.count ')' := by
  revert called
  decide

theorem becomes_self_iff : Becomes (insertKeys called) markText v v ↔ ∀ k ∈ insertKeys called, ¬ k <:+: v := by
  have hnonempty : ∀ k ∈ insertKeys called, k ≠ [] := by
    revert called
    decide
  constructor
  · rintro ⟨segs, hsplits, hsame⟩
    have hsource := hsplits.sources
    have hclose : [')'] ∈ insertKeys called := List.mem_append_left _ (by decide)
    have hnot : ')' ∉ v := by
      rw [← hsource]
      refine not_mem_of_doubled (fun g hg => ?_) (hsame.trans hsource.symm)
      cases g with
      | key k => exact (insertKeys_texts called k (hsplits.mem_keys hg).1).2.2
      | literal c =>
        have hc : c ≠ ')' := by
          rintro rfl
          exact hsplits.literal_not_key hclose hg
        simp [Segment.image, Segment.source, hc]
    have hkeep : ∀ g ∈ segs, g.image markText = g.source := by
      refine images_eq_sources (fun g hg => ?_) (hsame.trans hsource.symm)
      cases g with
      | key k =>
        refine (insertKeys_texts called k (hsplits.mem_keys hg).1).2.1 ?_
        rintro rfl
        exact hnot (hsource ▸ List.mem_flatMap.2 ⟨_, hg, by simp [Segment.source]⟩)
      | literal c => exact Nat.le_refl _
    intro k hk
    exact hsplits.no_key_iff.1 (fun k hk => (insertKeys_texts called k (hsplits.mem_keys hk).1).1 (hkeep _ hk)) k hk (hnonempty k hk)
  · exact fun h => .literals fun k hk _ => h k hk

theorem notStoppedBy_allMarks : ∀ k ∈ tableKeys allMarks, NotStoppedBy '"' k := by
  have hmarks : ∀ k ∈ tableKeys allMarks, k.dropWhile isWordChar ≠ [] ∧
      (k.takeWhile isWordChar = [] ∨ (k.dropWhile isWordChar).head? ≠ some '"') := by decide
  exact fun k hk => notStoppedBy_of_dropWhile (hmarks k hk).1 (hmarks k hk).2

theorem insertKeys_subset : ∀ k ∈ insertKeys called, k ∈ tableKeys allMarks := by
  revert called
  decide

theorem longestAt_insertMark {p : String × String} (hp : p ∈ insertMarks) (r : List Char) :
    LongestAt (insertKeys called) (p.1.toList ++ r) p.1.toList := by
  have hopen : ∀ called, ∀ p ∈ insertMarks, p.1.toList ∈ insertKeys called ∧ p.1.toList ≠ [] ∧ ∀ k ∈ insertKeys called,
      k.take (min 2 p.1.toList.length) = p.1.toList.take (min 2 p.1.toList.length) → k = p.1.toList := by decide
  obtain ⟨hmem, hne, hother⟩ := hopen called p hp
  exact longestAt_of_take hmem hne (Nat.min_le_right _ _) hother r

namespace Becomes

theorem insert_mark {p : String × String} (hp : p ∈ insertMarks) (h : Becomes (insertKeys called) markText r t) :
    Becomes (insertKeys called) markText (p.1.toList ++ r) (p.2.toList ++ t) := by
  have hkey := Becomes.key (longestAt_insertMark hp r) h
  rwa [markText_of_mem (by simp [allMarks, hp])] at hkey

theorem insert (hn : IsRun n) (h : Becomes (insertKeys called) markText v w) : Becomes (insertKeys called) markText
      ("INSERT INTO ".toList ++ '"' :: '#' :: (n ++ '"' :: (" VALUES ".toList ++ '(' :: (v ++ [')']))))
      (':' :: (n ++ (".INSERT(".toList ++ '(' :: (w ++ [')', ')'])))) := by
  have hheads : ∀ called, ∀ k ∈ insertKeys called, k.head? ≠ some '(' ∧ ')' ∉ k.tail := by decide
  have hclose : Becomes (insertKeys called) markText _ _ := insert_mark (p := (")", "))")) (by decide) .done
  have hvalues := h.append_cons (fun k hk => (hheads called k hk).2) hclose
  have hopen := hvalues.literal (noneAt_head (fun k hk => (hheads called k hk).1) _)
  have hinsert := insert_mark (p := (" VALUES ", ".INSERT(")) (by decide) hopen
  have hquote := insert_mark (p := ("\"", "")) (by decide) hinsert
  have hname := hquote.run hn (by decide) fun k hk => notStoppedBy_allMarks k (insertKeys_subset k hk)
  have hmark := insert_mark (p := ("#", ":")) (by decide) hname
  exact insert_mark (p := ("INSERT INTO ", "")) (by decide) (insert_mark (p := ("\"", "")) (by decide) hmark)

theorem insert_created (hall : ∀ k ∈ keys, k ∈ tableKeys allMarks) (hkeys : ∀ k ∈ ["INSERT INTO ", "\"#"], k.toList ∈ keys) (hn : IsRun n)
    (h : Becomes keys markText ('"' :: r) t) :
    Becomes keys markText ("INSERT INTO ".toList ++ '"' :: '#' :: (n ++ '"' :: r)) (n ++ t) := by
  have hopen : ∀ m ∈ ["INSERT INTO ", "\"#"], m.toList ≠ [] ∧ 2 ≤ m.toList.length ∧
      (∀ k ∈ tableKeys allMarks, k.take 2 = m.toList.take 2 → k = m.toList) ∧ markText m.toList = [] := by decide
  have hkey : ∀ m ∈ ["INSERT INTO ", "\"#"], ∀ {s t : List Char}, Becomes keys markText s t → Becomes keys markText (m.toList ++ s) t := by
    intro m hm s t h
    obtain ⟨hne, hlen, hother, htext⟩ := hopen m hm
    have hkey := Becomes.key (longestAt_of_take (hkeys m hm) hne hlen (fun k hk => hother k (hall k hk)) s) h
    rwa [htext] at hkey
  have hname := h.run hn (by decide) fun k hk => notStoppedBy_allMarks k (hall k hk)
  exact hkey "INSERT INTO " (by simp) (hkey "\"#" (by simp) hname)

end Becomes

end Text

/-! ## Statements that insert values -/

def insertStatement (name values : String) : String := "INSERT INTO \"#" ++ name ++ "\" VALUES (" ++ values ++ ")"

def procedureInsert (name values : String) : String := ":" ++ name ++ ".INSERT((" ++ values ++ "));"

theorem insertStatement_toList (n v : String) : (insertStatement n v).toList =
    "INSERT INTO ".toList ++ '"' :: '#' :: (n.toList ++ '"' :: (" VALUES ".toList ++ '(' :: (v.toList ++ [')']))) :=
  (toList_filled "INSERT INTO \"#" "\" VALUES (" ")" n v).trans (by simp)

theorem insertStatement_words {n v w : String} (hw : w ∈ ["CREATE", "CALL", "SELECT"]) (hn : containsText n w = false) :
    containsText (insertStatement n v) w = containsText v w := by
  have hall : ∀ w ∈ ["CREATE", "CALL", "SELECT"], w ∈ keywords ∧
      ∀ u ∈ ["INSERT", "INTO", "VALUES"], occurs w.toList u.toList = false := by decide
  obtain ⟨hword, hother⟩ := hall w hw
  have hrun := isRun_keyword w hword
  have htext : (insertStatement n v).toList = "INSERT".toList ++ ' ' :: ("INTO".toList ++ ' ' :: '"' :: '#' :: (n.toList ++ '"' :: ' ' ::
      ("VALUES".toList ++ ' ' :: '(' :: (v.toList ++ [')'])))) := (insertStatement_toList n v).trans (by simp)
  have hn : occurs w.toList n.toList = false := hn
  rw [containsText, htext]
  simp only [occurs_append_stop hrun, occurs_cons_stop hrun, isWordChar_stops, hother "INSERT" (by simp), hother "INTO" (by simp),
    hother "VALUES" (by simp), hn, occurs_nil hrun.1, Bool.or_false, Bool.false_or, containsText]

theorem insertStatement_insert (n v : String) : containsText (insertStatement n v) "INSERT" = true := by
  have hopen : "INSERT".toList <+: (insertStatement n v).toList := by
    rw [insertStatement_toList]
    exact List.prefix_append_of_prefix (by decide)
  exact occurs_iff_isInfix.2 hopen.isInfix

theorem transformStatement_marks {s m : String} (hblock : isBlockMark s = false) (hm : m ∈ (procedureMarks s).map Prod.fst)
    (hkeys : ∀ k, k ∈ tableKeys (procedureMarks s) ↔ k ∈ keys) (h : Becomes keys markText s.toList t) :
    transformStatement [] s = .ok (if t = [] then none else some (String.ofList t ++ ";")) := by
  have hvalue : ∀ p ∈ procedureMarks s ++ [], markText p.1.toList = p.2.toList := by
    rw [List.append_nil]
    exact fun p hp => markText_of_mem (mem_allMarks_of_mem hp)
  refine transformStatement_becomes hblock hvalue (by decide) (fun hnil => ?_) (by rwa [statementKeys, List.append_nil]) h
  rw [List.append_nil] at hnil
  exact absurd (hnil ▸ hm) List.not_mem_nil

section Inserted

variable {N v : String} (hN : IsIdentifier N) (hwords : ∀ w ∈ ["CREATE", "CALL", "SELECT"], containsText N w = false)
include hN hwords

theorem transformStatement_insert (hcreate : containsText v "CREATE" = false)
    (h : Becomes (insertKeys (containsText v "CALL")) markText v.toList w) :
    transformStatement [] (insertStatement N v) = .ok (some (procedureInsert N (String.ofList w))) := by
  have htext := insertStatement_toList N v
  have hword := fun u (hu : u ∈ ["CREATE", "CALL", "SELECT"]) => insertStatement_words (v := v) hu (hwords u hu)
  have hmarks : procedureMarks (insertStatement N v) = marksOf false true (containsText v "CALL") (containsText v "SELECT") := by
    rw [procedureMarks_eq, hword "CREATE" (by simp), hword "CALL" (by simp), hword "SELECT" (by simp), hcreate, insertStatement_insert]
  have hall : ∀ call select, (∀ k ∈ tableKeys (marksOf false true call select), k ∈ insertKeys call) ∧
      (∀ k ∈ insertKeys call, k ∈ tableKeys (marksOf false true call select)) ∧
      "#" ∈ (marksOf false true call select).map Prod.fst := by decide
  obtain ⟨hmem, hkeys, hmark⟩ := hall (containsText v "CALL") (containsText v "SELECT")
  rw [← hmarks] at hmem hkeys hmark
  have hbecomes := Becomes.insert hN.2 h
  rw [← htext] at hbecomes
  rw [transformStatement_marks (isBlockMark_of_head (c := 'I') (by rw [htext]; rfl) (by decide)) hmark
    (fun k => ⟨hmem k, hkeys k⟩) hbecomes, if_neg (by simp)]
  refine congrArg (fun t => Except.ok (some t)) ?_
  rw [← String.toList_inj]
  simp [procedureInsert]

theorem transformStatement_insert_created (hcreate : containsText v "CREATE" = true) :
    transformStatement [] (insertStatement N v) ≠ .ok (some (procedureInsert N v)) := by
  have htext := insertStatement_toList N v
  have hmarks : ∀ k ∈ ["INSERT INTO ", "\"#"], k ∈ (procedureMarks (insertStatement N v)).map Prod.fst := by
    rw [procedureMarks_eq, insertStatement_words (by simp) (hwords "CREATE" (by simp)), hcreate, insertStatement_insert]
    have hall : ∀ call select, ∀ k ∈ ["INSERT INTO ", "\"#"], k ∈ (marksOf true true call select).map Prod.fst := by decide
    exact hall _ _
  have hkeys : ∀ k ∈ ["INSERT INTO ", "\"#"], k.toList ∈ tableKeys (procedureMarks (insertStatement N v)) := by
    exact fun k hk => mem_tableKeys.2 ⟨k, hmarks k hk, rfl⟩
  have hall : ∀ k ∈ tableKeys (procedureMarks (insertStatement N v)), k ∈ tableKeys allMarks := by
    intro k hk
    obtain ⟨p, hp, rfl⟩ := List.mem_map.1 hk
    exact List.mem_map.2 ⟨p, mem_allMarks_of_mem hp, rfl⟩
  obtain ⟨t, ht⟩ := Becomes.exists_of (tableKeys (procedureMarks (insertStatement N v))) markText
    ('"' :: (" VALUES ".toList ++ '(' :: (v.toList ++ [')'])))
  have hbecomes := Becomes.insert_created hall hkeys hN.2 ht
  rw [← htext] at hbecomes
  obtain ⟨c, n, hn⟩ := List.exists_cons_of_ne_nil (show N.toList ≠ [] by simpa using hN.1)
  rw [transformStatement_marks (isBlockMark_of_head (c := 'I') (by rw [htext]; rfl) (by decide)) (hmarks "\"#" (by simp))
    (fun _ => Iff.rfl) hbecomes, if_neg (by simp [hn])]
  intro hsame
  injection hsame with hsame
  injection hsame with hsame
  have hfirst := congrArg (fun s => s.toList.head?) hsame
  have hc : c = ':' := by simpa [procedureInsert, hn] using hfirst
  exact absurd (hN.2 c (by simp [hn])) (by rw [hc]; decide)

end Inserted

theorem transformStatements_single {s t : String} :
    transformStatements (.list []) (.ofTexts [s]) = .ok [t] ↔ transformStatement [] s = .ok (some t) := by
  rw [transformStatements_texts]
  constructor
  · rintro ⟨table, htable, os, hrun, hout⟩
    cases htable
    obtain ⟨o, _, ho, hnil, rfl⟩ := List.forall₂_cons_left_iff.1 hrun
    cases List.forall₂_nil_left_iff.1 hnil
    cases o with
    | none => simp at hout
    | some u =>
      have hu : u = t := by simpa using hout
      rw [← hu]
      exact ho
  · exact fun h => ⟨[], rfl, [some t], .cons h .nil, rfl⟩

/-- What a statement inserts reaches the procedure as it is just if none of the marks is in it: the replacements do not stop at quotes. -/
theorem transformStatements_keeps_values {N : String} (hN : IsIdentifier N)
    (hwords : ∀ w ∈ ["CREATE", "CALL", "SELECT"], containsText N w = false) (v : String) :
    transformStatements (.list []) (.ofTexts [insertStatement N v]) = .ok [procedureInsert N v] ↔
      (∀ m ∈ ["CREATE", "INSERT INTO ", " VALUES ", ")", "\"", "#"], containsText v m = false) ∧
        ¬ (containsText v "CALL" = true ∧ containsText v " WITH OVERVIEW" = true) := by
  rw [transformStatements_single]
  cases hcreate : containsText v "CREATE" with
  | true =>
    refine iff_of_false (transformStatement_insert_created hN hwords hcreate) fun h => ?_
    simp [h.1 "CREATE" (by simp)] at hcreate
  | false =>
    obtain ⟨w, hw⟩ := Becomes.exists_of (insertKeys (containsText v "CALL")) markText v.toList
    rw [transformStatement_insert hN hwords hcreate hw]
    have hsame : (Except.ok (some (procedureInsert N (String.ofList w))) : Outcome (Option String)) =
        .ok (some (procedureInsert N v)) ↔ w = v.toList := by
      rw [Except.ok.injEq, Option.some.injEq, ← String.toList_inj]
      simp [procedureInsert]
    have hself : w = v.toList ↔ Becomes (insertKeys (containsText v "CALL")) markText v.toList v.toList :=
      ⟨fun h => h ▸ hw, fun h => h.unique hw⟩
    rw [hsame, hself, becomes_self_iff]
    have htable : ∀ m : List (String × String), (∀ k ∈ tableKeys m, ¬ k <:+: v.toList) ↔
        ∀ n ∈ m.map Prod.fst, containsText v n = false := by
      intro m
      rw [tableKeys, List.forall_mem_map, List.forall_mem_map]
      simp only [containsText, ← occurs_iff_isInfix, Bool.not_eq_true]
    rw [insertKeys, List.forall_mem_append, htable]
    cases containsText v "CALL" with
    | false => simp [insertMarks, hcreate]
    | true =>
      rw [if_pos rfl, htable]
      simp only [insertMarks, callMarks, List.map_cons, List.map_nil, List.forall_mem_cons, List.not_mem_nil, false_implies, implies_true,
        and_true, true_and, hcreate, Bool.not_eq_true]
      grind

theorem transformStatements_keeps_values_sample :
    transformStatements (.list []) (.ofTexts ["INSERT INTO \"#P\" VALUES ('a(', 1)"]) = .ok [":P.INSERT(('a(', 1));"] := by
  have hP : IsIdentifier "P" := by
    unfold IsIdentifier
    decide
  exact (transformStatements_keeps_values hP (by decide) "'a(', 1").2 (by decide)

/-- A parenthesis is doubled in a text too. -/
theorem transformStatements_doubles_parenthesis :
    transformStatements (.list []) (.ofTexts ["INSERT INTO \"#P\" VALUES ('a)')"]) = .ok [":P.INSERT(('a))'));"] ∧
      ":P.INSERT(('a))'));" ≠ procedureInsert "P" "'a)'" := by
  decide

end TraceArtifacts
