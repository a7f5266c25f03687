import TraceArtifacts.Proofs.Paths
import TraceArtifacts.Proofs.Segments

/-!
# Proofs: statements in the notation of procedures

A statement is changed by one table of marks, which depends on the words in it, and of synonyms.
-/

namespace TraceArtifacts

variable {c d x : Char} {added m synonyms : List (String × String)} {k r t' u w : List Char} {p : String × String} {s : String}

namespace Text

/-! ## Cutting a text at a character -/

theorem prefix_left_of_not_mem (hx : x ∉ k.tail) (hu : u ≠ []) (h : k <+: u ++ x :: r) : k <+: u := by
  rcases List.prefix_or_prefix_of_prefix h (List.prefix_append u _) with h' | ⟨k', rfl⟩
  · exact h'
  · cases k' with
    | nil => rw [List.append_nil]
    | cons y k' =>
      obtain ⟨c, u, rfl⟩ := List.exists_cons_of_ne_nil hu
      obtain ⟨rfl, -⟩ := List.cons_prefix_cons.1 ((List.prefix_append_right_inj _).1 h)
      exact absurd (by simp) hx

namespace Splits

variable {keys : List (List Char)} {s : List Char} {segs : List Segment}

theorem append_cons {segs' : List Segment} (hx : ∀ k ∈ keys, x ∉ k.tail) (h : Splits keys s segs) (hr : Splits keys (x :: r) segs') :
    Splits keys (s ++ x :: r) (segs ++ segs') := by
  induction h with
  | done => exact hr
  | @key k rest segs hlong hrest ih =>
    have hne : k ++ rest ≠ [] := fun h => hlong.ne_nil (List.append_eq_nil_iff.1 h).1
    rw [List.append_assoc, List.cons_append]
    refine .key ⟨hlong.mem, hlong.ne_nil, List.prefix_append .., fun k' hk' hstands => ?_⟩ ih
    rw [← List.append_assoc] at hstands
    exact hlong.longest k' hk' (prefix_left_of_not_mem (hx k' hk') hne hstands)
  | @literal c rest segs hnone hrest ih =>
    refine .literal (fun k' hk' hne' hstands => ?_) ih
    exact hnone k' hk' hne' (prefix_left_of_not_mem (hx k' hk') (List.cons_ne_nil c rest) hstands)

theorem exists_of (keys : List (List Char)) (s : List Char) : ∃ segs, Splits keys s segs := by
  induction hn : s.length using Nat.strong_induction_on generalizing s with
  | _ n ih =>
    cases s with
    | nil => exact ⟨[], .done⟩
    | cons c s =>
      have hkeys : (keys.map fun k => (k, Value.text "")).map Prod.fst = keys := by simp [Function.comp_def]
      have hspec := longestMatch?_spec (keys.map fun k => (k, Value.text "")) (c :: s)
      rw [hkeys] at hspec
      obtain ⟨k, _, -, -, hlong⟩ | ⟨-, hnone⟩ := hspec
      · obtain ⟨rest, hrest⟩ := hlong.stands
        rw [← hrest] at hlong hn ⊢
        have hpos := List.length_pos_of_ne_nil hlong.ne_nil
        obtain ⟨segs, hsplits⟩ := ih rest.length (by rw [List.length_append] at hn; omega) rest rfl
        exact ⟨_, .key hlong hsplits⟩
      · obtain ⟨segs, hsplits⟩ := ih s.length (by rw [List.length_cons] at hn; omega) s rfl
        exact ⟨_, .literal hnone hsplits⟩

theorem literals (h : ∀ k ∈ keys, k ≠ [] → ¬ k <:+: s) : Splits keys s (s.map .literal) := by
  induction s with
  | nil => exact .done
  | cons c s ih =>
    refine .literal (fun k hk hne hstands => h k hk hne hstands.isInfix) (ih fun k hk hne hin => ?_)
    exact h k hk hne (hin.trans (List.suffix_cons c s).isInfix)

theorem no_key_iff (h : Splits keys s segs) : (∀ k, Segment.key k ∉ segs) ↔ ∀ k ∈ keys, k ≠ [] → ¬ k <:+: s := by
  constructor
  · intro hseg
    induction h with
    | done => exact fun k _ hne hin => hne (List.infix_nil.1 hin)
    | @key k _ _ _ _ ih => exact absurd List.mem_cons_self (hseg k)
    | literal hnone _ ih =>
      intro k hk hne hin
      rcases List.infix_cons_iff.1 hin with hstands | hin
      · exact hnone k hk hne hstands
      · exact ih (fun k' hk' => hseg k' (.tail _ hk')) k hk hne hin
  · intro hnone k hk
    rw [(literals hnone).unique h] at hk
    simp at hk

end Splits

/-! ## Runs of letters, digits and underscores -/

theorem runs_agree {p : Char → Bool} {a b : List Char} (ha : ∀ x ∈ a, p x = true) (hu : ∀ x ∈ u, p x = true) (hc : p c = false)
    (hd : p d = false) (h : a ++ c :: b <+: u ++ d :: r) : a = u ∧ c = d ∧ b <+: r := by
  induction a generalizing u with
  | nil =>
    cases u with
    | nil => simpa using h
    | cons y u =>
      obtain ⟨rfl, -⟩ := List.cons_prefix_cons.1 h
      exact absurd (hu c List.mem_cons_self) (by simp [hc])
  | cons x a ih =>
    cases u with
    | nil =>
      obtain ⟨rfl, -⟩ := List.cons_prefix_cons.1 h
      exact absurd (ha x List.mem_cons_self) (by simp [hd])
    | cons y u =>
      obtain ⟨rfl, hstands⟩ := List.cons_prefix_cons.1 h
      obtain ⟨rfl, hrest⟩ := ih (fun z hz => ha z (.tail _ hz)) (fun z hz => hu z (.tail _ hz)) hstands
      exact ⟨rfl, hrest⟩

def IsRun (s : List Char) : Prop := ∀ c ∈ s, isWordChar c = true

instance : DecidablePred IsRun := fun s => List.decidableBAll _ s

def NotStoppedBy (d : Char) (k : List Char) : Prop :=
  ∃ a c b, k = a ++ c :: b ∧ IsRun a ∧ isWordChar c = false ∧ (a = [] ∨ c ≠ d)

theorem occurs_nil (hw : w ≠ []) : occurs w [] = false := by
  cases w with
  | nil => exact absurd rfl hw
  | cons c w => rfl

theorem isWordChar_stops : isWordChar ' ' = false ∧ isWordChar '"' = false ∧ isWordChar '#' = false ∧ isWordChar '(' = false ∧
    isWordChar ')' = false := by decide

theorem occurs_append_stop (hw : w ≠ [] ∧ IsRun w) (hc : isWordChar c = false) (r s : List Char) :
    occurs w (r ++ c :: s) = (occurs w r || occurs w s) :=
  occurs_append_cons hw.1 (fun h => by simp [hw.2 c h] at hc) r s

theorem occurs_cons_stop (hw : w ≠ [] ∧ IsRun w) (hc : isWordChar c = false) (s : List Char) : occurs w (c :: s) = occurs w s := by
  rw [← List.nil_append (c :: s), occurs_append_stop hw hc, occurs_nil hw.1, Bool.false_or]

section Runs

variable {keys : List (List Char)}

theorem noneAt_run (hu : IsRun u) (hne : u ≠ []) (hd : isWordChar d = false) (hkeys : ∀ k ∈ keys, NotStoppedBy d k) :
    NoneAt keys (u ++ d :: r) := by
  intro k hk _ hstands
  obtain ⟨a, c, b, rfl, ha, hc, hstop⟩ := hkeys k hk
  obtain ⟨rfl, rfl, -⟩ := runs_agree ha hu hc hd hstands
  exact hstop.elim hne fun h => h rfl

theorem noneAt_head (h : ∀ k ∈ keys, k.head? ≠ some c) (r : List Char) : NoneAt keys (c :: r) := by
  intro k hk hne hstands
  obtain ⟨a, k, rfl⟩ := List.exists_cons_of_ne_nil hne
  obtain ⟨rfl, -⟩ := List.cons_prefix_cons.1 hstands
  exact h _ hk rfl

theorem longestAt_of_take (hmem : k ∈ keys) (hne : k ≠ []) {m : Nat} (hm : m ≤ k.length) (h : ∀ k' ∈ keys, k'.take m = k.take m → k' = k)
    (r : List Char) : LongestAt keys (k ++ r) k := by
  refine ⟨hmem, hne, List.prefix_append .., fun k' hk' hstands => ?_⟩
  by_cases hlen : k'.length ≤ m
  · omega
  · have hopen : (k ++ r).take m = k.take m := List.take_append_of_le_length hm
    have hsame : (k'.take m).length = ((k ++ r).take m).length := by
      simp only [List.length_take, List.length_append]
      omega
    rw [h k' hk' (((hstands.take m).eq_of_length hsame).trans hopen)]

theorem notStoppedBy_of_dropWhile (hne : k.dropWhile isWordChar ≠ [])
    (h : k.takeWhile isWordChar = [] ∨ (k.dropWhile isWordChar).head? ≠ some d) : NotStoppedBy d k := by
  obtain ⟨c, b, hcb⟩ := List.exists_cons_of_ne_nil hne
  have hc : isWordChar c = false := by
    have hhead := List.head_dropWhile_not isWordChar hne
    simpa [hcb] using hhead
  refine ⟨k.takeWhile isWordChar, c, b, ?_, fun x hx => List.all_eq_true.1 List.all_takeWhile x hx, hc, h.imp_right fun h hd => h ?_⟩
  · rw [← hcb, List.takeWhile_append_dropWhile]
  · rw [hcb, hd]
    rfl

end Runs

/-! ## What a text becomes -/

def Becomes (keys : List (List Char)) (value : List Char → List Char) (s t : List Char) : Prop :=
  ∃ segs, Splits keys s segs ∧ segs.flatMap (Segment.image value) = t

namespace Becomes

variable {keys : List (List Char)} {value : List Char → List Char} {s t : List Char}

theorem done : Becomes keys value [] [] := ⟨[], .done, rfl⟩

theorem exists_of (keys : List (List Char)) (value : List Char → List Char) (s : List Char) : ∃ t, Becomes keys value s t := by
  obtain ⟨segs, hsplits⟩ := Splits.exists_of keys s
  exact ⟨_, segs, hsplits, rfl⟩

theorem key (hlong : LongestAt keys (k ++ s) k) (h : Becomes keys value s t) : Becomes keys value (k ++ s) (value k ++ t) := by
  obtain ⟨segs, hsplits, rfl⟩ := h
  exact ⟨_, .key hlong hsplits, rfl⟩

theorem literal (hnone : NoneAt keys (c :: s)) (h : Becomes keys value s t) : Becomes keys value (c :: s) (c :: t) := by
  obtain ⟨segs, hsplits, rfl⟩ := h
  exact ⟨_, .literal hnone hsplits, rfl⟩

theorem literals (h : ∀ k ∈ keys, k ≠ [] → ¬ k <:+: s) : Becomes keys value s s := by
  refine ⟨_, .literals h, ?_⟩
  rw [List.flatMap_map]
  exact List.flatMap_singleton' s

theorem run (hu : IsRun u) (hd : isWordChar d = false) (hkeys : ∀ k ∈ keys, NotStoppedBy d k) (h : Becomes keys value (d :: r) t) :
    Becomes keys value (u ++ d :: r) (u ++ t) := by
  induction u with
  | nil => exact h
  | cons c u ih =>
    refine .literal ?_ (ih fun x hx => hu x (.tail _ hx))
    exact noneAt_run hu (List.cons_ne_nil c u) hd hkeys

theorem append_cons (hx : ∀ k ∈ keys, x ∉ k.tail) (h : Becomes keys value s t) (hr : Becomes keys value (x :: r) t') :
    Becomes keys value (s ++ x :: r) (t ++ t') := by
  obtain ⟨segs, hsplits, rfl⟩ := h
  obtain ⟨segs', hsplits', rfl⟩ := hr
  exact ⟨_, hsplits.append_cons hx hsplits', List.flatMap_append⟩

theorem unique (h : Becomes keys value s t) (h' : Becomes keys value s t') : t' = t := by
  obtain ⟨segs, hsplits, rfl⟩ := h
  obtain ⟨segs', hsplits', rfl⟩ := h'
  rw [hsplits.unique hsplits']

end Becomes

end Text

open Text

/-! ## The table of a statement -/

theorem mem_putKey [DecidableEq κ] {key : κ} {a : α} {m : List (κ × α)} {p : κ × α} (h : p ∈ putKey key a m) : p = (key, a) ∨ p ∈ m := by
  induction m with
  | nil => exact .inl (List.mem_singleton.1 h)
  | cons q m ih =>
    obtain ⟨k, b⟩ := q
    rw [putKey] at h
    split at h
    · next hk =>
      subst hk
      rcases List.mem_cons.1 h with rfl | h
      · exact .inl rfl
      · exact .inr (.tail _ h)
    · rcases List.mem_cons.1 h with rfl | h
      · exact .inr List.mem_cons_self
      · exact (ih h).imp_right (.tail _)

theorem mem_keys_putKey [DecidableEq κ] {key k : κ} {a : α} {m : List (κ × α)} :
    k ∈ (putKey key a m).map Prod.fst ↔ k ∈ m.map Prod.fst ∨ k = key := by
  induction m with
  | nil => simp [putKey]
  | cons q m ih =>
    obtain ⟨k', b⟩ := q
    rw [putKey]
    split
    · next hk =>
      subst hk
      simp only [List.map_cons, List.mem_cons]
      tauto
    · simp only [List.map_cons, List.mem_cons, ih]
      tauto

theorem mem_tableKeys {m : List (String × α)} : k ∈ tableKeys m ↔ ∃ n ∈ m.map Prod.fst, n.toList = k := by
  simp [tableKeys]

theorem tableKeys_append {m m' : List (String × α)} : tableKeys (m ++ m') = tableKeys m ++ tableKeys m' := List.map_append

def putAll (m added : List (String × String)) : List (String × String) :=
  added.foldl (fun table p => putKey p.1 p.2 table) m

theorem mem_putAll (h : p ∈ putAll m added) : p ∈ m ++ added := by
  induction added generalizing m with
  | nil => simpa [putAll] using h
  | cons q added ih =>
    rcases List.mem_append.1 (ih (m := putKey q.1 q.2 m) h) with h | h
    · rcases mem_putKey h with rfl | h
      · simp
      · exact List.mem_append_left _ h
    · exact List.mem_append_right _ (.tail _ h)

theorem mem_keys_putAll {k : String} : k ∈ (putAll m added).map Prod.fst ↔ k ∈ (m ++ added).map Prod.fst := by
  induction added generalizing m with
  | nil => simp [putAll]
  | cons q added ih =>
    rw [putAll, List.foldl_cons, ← putAll, ih, List.map_append, List.mem_append, mem_keys_putKey]
    simp only [List.map_append, List.map_cons, List.mem_append, List.mem_cons]
    tauto

theorem nodup_putKey [DecidableEq κ] {key : κ} {a : α} {m : List (κ × α)} (h : (m.map Prod.fst).Nodup) :
    ((putKey key a m).map Prod.fst).Nodup := by
  induction m with
  | nil => simp [putKey]
  | cons q m ih =>
    obtain ⟨k, b⟩ := q
    rw [List.map_cons, List.nodup_cons] at h
    rw [putKey]
    split
    · exact List.nodup_cons.2 h
    · next hk =>
      rw [List.map_cons, List.nodup_cons, mem_keys_putKey]
      exact ⟨not_or.2 ⟨h.1, hk⟩, ih h.2⟩

theorem nodup_putAll (h : (m.map Prod.fst).Nodup) (added : List (String × String)) : ((putAll m added).map Prod.fst).Nodup := by
  induction added generalizing m with
  | nil => exact h
  | cons q added ih => exact ih (nodup_putKey h)

def createMarks : List (String × String) :=
  [("CREATE LOCAL TEMPORARY COLUMN TABLE", "DECLARE"), ("\" (", " TABLE ("), ("\"#", "")]

def insertMarks : List (String × String) :=
  [("INSERT INTO ", ""), (" VALUES ", ".INSERT("), (")", "))"), ("\"", ""), ("#", ":")]

def callMarks : List (String × String) := [(" WITH OVERVIEW", ""), ("\"", ""), ("#", ":")]

def selectMarks : List (String × String) := [("#", ":")]

def allMarks : List (String × String) := createMarks ++ insertMarks ++ callMarks ++ selectMarks

/-- The marks for a statement with some of the keywords in it. -/
def marksOf (create insert call select : Bool) : List (String × String) :=
  [(create, createMarks), (insert, insertMarks), (call, callMarks), (select, selectMarks)].foldl
    (fun table q => if q.1 then putAll table q.2 else table) []

theorem procedureMarks_eq (s : String) : procedureMarks s =
    marksOf (containsText s "CREATE") (containsText s "INSERT") (containsText s "CALL") (containsText s "SELECT") := rfl

theorem mem_allMarks_of_mem (h : p ∈ procedureMarks s) : p ∈ allMarks := by
  have hall : ∀ create insert call select, ∀ p ∈ marksOf create insert call select, p ∈ allMarks := by decide
  exact hall _ _ _ _ p h

theorem nodup_procedureMarks (s : String) : ((procedureMarks s).map Prod.fst).Nodup := by
  have hall : ∀ create insert call select, ((marksOf create insert call select).map Prod.fst).Nodup := by decide
  exact hall _ _ _ _

def markText (k : List Char) : List Char := ((allMarks.lookup (String.ofList k)).getD "").toList

theorem markText_of_mem (h : p ∈ allMarks) : markText p.1.toList = p.2.toList := by
  have hall : ∀ p ∈ allMarks, (allMarks.lookup p.1).getD "" = p.2 := by decide
  rw [markText, String.ofList_toList, hall p h]

/-! ## Changing a statement -/

def statementKeys (synonyms : List (String × String)) (s : String) : List (List Char) :=
  tableKeys (procedureMarks s ++ synonyms)

theorem transformStatement_segments {value : List Char → List Char} (hblock : isBlockMark s = false)
    (hvalue : ∀ p ∈ putAll (procedureMarks s) synonyms, value p.1.toList = p.2.toList) (hempty : value [] = [])
    (hne : procedureMarks s ++ synonyms ≠ []) :
    ∃ t, Becomes (statementKeys synonyms s) value s.toList t ∧
      transformStatement synonyms s = .ok (if t = [] then none else some (String.ofList t ++ ";")) := by
  have hfields : textFields (putAll (procedureMarks s) synonyms) ≠ [] := by
    obtain ⟨p, hp⟩ := List.exists_mem_of_ne_nil _ hne
    have hkey := mem_keys_putAll.2 (List.mem_map_of_mem (f := Prod.fst) hp)
    obtain ⟨q, hq, -⟩ := List.mem_map.1 hkey
    exact List.ne_nil_of_mem (List.mem_map_of_mem hq)
  have hinserted : ∀ p ∈ textFields (putAll (procedureMarks s) synonyms), inserted p.2 = .ok (value p.1.toList) := by
    intro p hp
    obtain ⟨q, hq, rfl⟩ := List.mem_map.1 hp
    exact congrArg Except.ok (hvalue q hq).symm
  have hkeys : ∀ k, k ∈ statementKeys synonyms s ↔ k ∈ tableKeys (textFields (putAll (procedureMarks s) synonyms)) := by
    intro k
    have hsame : tableKeys (textFields (putAll (procedureMarks s) synonyms)) =
        tableKeys (putAll (procedureMarks s) synonyms) := by simp [tableKeys, textFields]
    rw [hsame, statementKeys, mem_tableKeys, mem_tableKeys]
    simp only [mem_keys_putAll]
  obtain ⟨segs, hsplits, hout⟩ := substituteFields_splits hfields hinserted hempty s
  refine ⟨_, ⟨segs, hsplits.congr hkeys, rfl⟩, ?_⟩
  have hsubstitute : substituteText (putAll (procedureMarks s) synonyms) s =
      .ok (String.ofList (segs.flatMap (Segment.image value))) := hout
  have hnil : ∀ t : List Char, (String.ofList t = "") = (t = []) := by simp
  rw [putAll] at hsubstitute
  simp only [transformStatement, hblock, Bool.false_eq_true, if_false, hsubstitute, bind, Except.bind, hnil]
  rfl

theorem transformStatement_becomes {value : List Char → List Char} {t : List Char} (hblock : isBlockMark s = false)
    (hvalue : ∀ p ∈ procedureMarks s ++ synonyms, value p.1.toList = p.2.toList) (hempty : value [] = [])
    (hne : procedureMarks s ++ synonyms ≠ []) {keys : List (List Char)} (hkeys : ∀ k, k ∈ statementKeys synonyms s ↔ k ∈ keys)
    (h : Becomes keys value s.toList t) :
    transformStatement synonyms s = .ok (if t = [] then none else some (String.ofList t ++ ";")) := by
  obtain ⟨t', ⟨segs', hsplits', hout⟩, hrun⟩ := transformStatement_segments hblock (fun p hp => hvalue p (mem_putAll hp)) hempty hne
  obtain rfl := h.unique ⟨segs', hsplits'.congr fun k => (hkeys k).symm, hout⟩
  exact hrun

theorem isBlockMark_of_head (h : s.toList.head? = some c) (hc : c ∉ ['D', 'B', 'E']) : isBlockMark s = false := by
  obtain ⟨r, hr⟩ := List.head?_eq_some_iff.1 h
  simp only [List.mem_cons, List.not_mem_nil, or_false, not_or] at hc
  simp [isBlockMark, startsWithText, hr, List.isPrefixOf, Ne.symm hc.1, Ne.symm hc.2.1, Ne.symm hc.2.2]

theorem transformStatements_texts {synonyms : Value} {ss sql : List String} :
    transformStatements synonyms (.ofTexts ss) = .ok sql ↔ ∃ table, Synonym.allReplacements synonyms = .ok table ∧
      ∃ os, List.Forall₂ (fun s o => transformStatement table s = .ok o) ss os ∧ os.filterMap id = sql := by
  have hentry : ∀ table s, transformEntry table (.text s) = transformStatement table s := fun _ _ => rfl
  simp only [transformStatements, Value.ofTexts, Value.members, bind_ok, pure_ok, mapM_ok]
  simp [hentry]

/-! ## Words in statements -/

theorem toList_filled (a b c x y : String) :
    (a ++ x ++ b ++ y ++ c).toList = a.toList ++ (x.toList ++ (b.toList ++ (y.toList ++ c.toList))) := by
  simp only [String.toList_append, List.append_assoc]

def keywords : List String := ["CREATE", "INSERT", "CALL", "SELECT"]

def KeywordFree (s : String) : Prop := ∀ w ∈ keywords, containsText s w = false

instance : DecidablePred KeywordFree := fun s => inferInstanceAs (Decidable (∀ w ∈ keywords, containsText s w = false))

def IsIdentifier (s : String) : Prop := s ≠ "" ∧ IsRun s.toList

theorem procedureMarks_congr {s s' : String} (h : ∀ w ∈ keywords, containsText s w = containsText s' w) :
    procedureMarks s = procedureMarks s' := by
  rw [procedureMarks_eq, procedureMarks_eq, h "CREATE" (by decide), h "INSERT" (by decide), h "CALL" (by decide), h "SELECT" (by decide)]

theorem isRun_keyword : ∀ w ∈ keywords, w.toList ≠ [] ∧ IsRun w.toList := by
  decide

theorem keywordFree_empty : KeywordFree "" := by decide

theorem KeywordFree.join {a b : String} (hc : isWordChar c = false) (hs : s.toList = a.toList ++ c :: b.toList) (ha : KeywordFree a)
    (hb : KeywordFree b) : KeywordFree s := by
  intro w hw
  have ha : occurs w.toList a.toList = false := ha w hw
  have hb : occurs w.toList b.toList = false := hb w hw
  rw [containsText, hs, occurs_append_stop (isRun_keyword w hw) hc, ha, hb]
  rfl

end TraceArtifacts
