import TraceArtifacts.Proofs.InsertedValues
import TraceArtifacts.Proofs.InterfaceNames

/-!
# Proofs: what the body of a procedure is made of

The body of a stored procedure has statements for the traced texts that are not left out and for the assignments of its inputs,
outputs and variables, one for each at most (`generateBase_body`).
-/

namespace TraceArtifacts

open Text

variable {b : Bool} {table : List (String × String)} {ts : List Value} {k key s : String}
  {algo function items n outputs statements synonyms t v : Value}

/-! ## Statements that are left out -/

def leavesOut (known : List Value) (s : String) : Bool :=
  containsText s "DROP" || (containsText s "CREATE" && known.any fun t => containsText s (t.textAt "name")) ||
    (startsWithText s "SELECT" && known.any fun t => containsText s (t.textAt "select"))

theorem leavesOut_append (known more : List Value) (s : String) :
    leavesOut (known ++ more) s = (leavesOut known s || leavesOut more s) := by
  simp only [leavesOut, List.any_append]
  cases containsText s "DROP" <;> cases containsText s "CREATE" <;> cases startsWithText s "SELECT" <;>
    simp [Bool.or_left_comm, Bool.or_assoc]

theorem anyOccurs_text (h : anyOccurs key (.text s) ts = .ok b) : b = ts.any fun t => containsText s (t.textAt key) := by
  induction ts with
  | nil => exact (Except.ok.inj h).symm
  | cons t ts ih =>
    rw [anyOccurs] at h
    simp only [bind_ok] at h
    obtain ⟨v, hv, c, hc, h⟩ := h
    obtain ⟨n, rfl⟩ : ∃ n, v = .text n := by
      cases v with
      | text n => exact ⟨n, rfl⟩
      | _ => cases hc
    have htext : t.textAt key = n := by
      rw [Value.textAt, Value.get_of_entry hv]
      rfl
    cases hc
    rw [List.any_cons, htext, containsText]
    cases hin : occurs n.toList s.toList with
    | true =>
      rw [hin] at h
      exact (Except.ok.inj h).symm
    | false =>
      rw [hin] at h
      exact ih h

theorem members_of_not_truthy (hv : v.isTruthy = false) (h : v.members = .ok ts) : ts = [] := by
  cases v with
  | list xs =>
    cases h
    simpa [Value.isTruthy] using hv
  | text s =>
    cases h
    have hs : s = "" := by simpa [Value.isTruthy] using hv
    simp [hs]
  | object fs =>
    cases h
    have hfs : fs = [] := by simpa [Value.isTruthy] using hv
    simp [hfs]
  | _ => cases h

theorem anyMemberOccurs_text (hts : items.members = .ok ts) (h : anyMemberOccurs key (.text s) items = .ok b) :
    b = ts.any fun t => containsText s (t.textAt key) := by
  rw [anyMemberOccurs] at h
  split at h
  · simp only [hts] at h
    exact anyOccurs_text h
  · next hempty =>
    cases h
    rw [members_of_not_truthy (by simpa using hempty) hts]
    rfl

theorem keepsStatement_eq (items : Value) (s : String) : keepsStatement items (.text s) = if containsText s "DROP" then .ok false
    else (if containsText s "CREATE" then anyMemberOccurs "name" (.text s) items else .ok false) >>= fun created =>
      if created then .ok false
      else (if startsWithText s "SELECT" then anyMemberOccurs "select" (.text s) items else .ok false) >>= fun read =>
        .ok !read := by
  have hhas : ∀ word, (Value.text s).has word = .ok (containsText s word) := fun _ => rfl
  have hreceiver : (Value.text s).asTextReceiver = .ok s := rfl
  have hnot : ∀ read : Bool, (if read then pure false else pure true : Outcome Bool) = .ok !read := by
    intro read
    cases read <;> rfl
  simp only [keepsStatement, hhas, hreceiver, bind, Except.bind, hnot]
  cases containsText s "CREATE" <;> cases startsWithText s "SELECT" <;> rfl

theorem eq_and_of_ite {c y : Bool} {r : Outcome Bool} (hr : ∀ {b}, r = .ok b → b = y) (h : (if c then r else .ok false) = .ok b) :
    b = (c && y) := by
  cases c with
  | true => exact hr h
  | false => exact (Except.ok.inj h).symm

theorem keepsStatement_text (hts : items.members = .ok ts) (h : keepsStatement items (.text s) = .ok b) : b = !leavesOut ts s := by
  rw [keepsStatement_eq] at h
  rw [leavesOut]
  cases hdrop : containsText s "DROP" with
  | true =>
    rw [hdrop] at h
    exact (Except.ok.inj h).symm
  | false =>
    simp only [hdrop, Bool.false_eq_true, if_false, bind_ok] at h
    obtain ⟨created, hcreated, h⟩ := h
    rw [← eq_and_of_ite (anyMemberOccurs_text hts) hcreated, Bool.false_or]
    cases created with
    | true => exact (Except.ok.inj h).symm
    | false =>
      obtain ⟨read, hread, h⟩ := bind_ok.1 h
      rw [← eq_and_of_ite (anyMemberOccurs_text hts) hread, Bool.false_or]
      exact (Except.ok.inj h).symm

theorem text_of_keepsStatement (h : keepsStatement items v = .ok true) : ∃ s, v = .text s := by
  cases hv : v.asTextReceiver with
  | ok s =>
    cases v with
    | text s => exact ⟨s, rfl⟩
    | _ => cases hv
  | error e =>
    simp only [keepsStatement, hv] at h
    obtain ⟨_, -, h⟩ := bind_ok.1 h
    split at h
    · cases h
    · obtain ⟨_, -, h⟩ := bind_ok.1 h
      split at h
      · obtain ⟨_, -, h⟩ := bind_ok.1 h
        split at h <;> cases h
      · cases h

theorem filterStatements_ok {es kept : List Value} (hts : items.members = .ok ts) (hes : statements.members = .ok es)
    (h : filterStatements items statements = .ok kept) :
    kept = ((es.filterMap Value.text?).filter fun s => !leavesOut ts s).map .text := by
  simp only [filterStatements, hes, bind_ok, pure_ok, mapM_ok] at h
  obtain ⟨_, he, parts, hparts, rfl⟩ := h
  obtain rfl := Except.ok.inj he
  clear hes he
  induction hparts with
  | nil => rfl
  | @cons v part es parts hv _ ih =>
    obtain ⟨b, hb, rfl⟩ := hv
    rw [List.flatten_cons, ih]
    cases v with
    | text s =>
      obtain rfl := keepsStatement_text hts hb
      cases hs : leavesOut ts s <;> simp [Value.text?, hs]
    | _ =>
      cases b with
      | false => rfl
      | true =>
        obtain ⟨_, hs⟩ := text_of_keepsStatement hb
        cases hs

/-! ## Statements of which nothing is left -/

def OnlyMarks (s : String) : Prop :=
  s = "" ∨ containsText s "INSERT" = true ∧
    ∃ parts : List (List Char), (∀ k ∈ parts, k = "INSERT INTO ".toList ∨ k = ['"']) ∧ s.toList = parts.flatten

def IsSynonymTable (table : List (String × String)) : Prop := ∀ p ∈ table, '.' ∈ p.1.toList ∧ '"' ∈ p.2.toList

theorem isSynonymTable_replacements {ps : List (String × String)} (h : Synonym.replacements v = .ok ps) : IsSynonymTable ps := by
  have hpairs : ∀ {mark : String}, (do
      let synonym ← v.textEntry "synonym"
      let schema ← v.textEntry "schema"
      let object ← v.textEntry "object"
      return [(mark ++ schema ++ mark ++ ".\"" ++ object ++ "\"", "\"" ++ synonym ++ "\""),
        (schema ++ "." ++ object, "\"" ++ synonym ++ "\"")] : Outcome (List (String × String))) = .ok ps → IsSynonymTable ps := by
    intro mark h
    simp only [bind_ok, pure_ok] at h
    obtain ⟨synonym, -, schema, -, object, -, rfl⟩ := h
    simp [IsSynonymTable]
  simp only [Synonym.replacements] at h
  obtain ⟨kind, -, h⟩ := bind_ok.1 h
  split at h
  · exact hpairs h
  · split at h
    · exact hpairs h
    · cases h
      exact nofun

theorem isSynonymTable_of_ok (h : Synonym.allReplacements synonyms = .ok table) : IsSynonymTable table := by
  simp only [Synonym.allReplacements, bind_ok, pure_ok, mapM_ok] at h
  obtain ⟨vs, -, all, hall, rfl⟩ := h
  intro p hp
  rcases List.mem_append.1 (mem_putAll hp) with hp | hp
  · cases hp
  · obtain ⟨ps, hps, hp⟩ := List.mem_flatten.1 hp
    obtain ⟨v, -, hv⟩ := forall₂_mem_right hall hps
    exact isSynonymTable_replacements hv p hp

theorem not_containsText_of_not_mem {w : String} {c : Char} (hc : c ∈ w.toList) (hs : c ∉ s.toList) : containsText s w = false := by
  rw [← Bool.not_eq_true]
  exact fun h => hs ((occurs_iff_isInfix.1 h).subset hc)

theorem mem_insertMarks_of_mem (hs : 'C' ∉ s.toList) (h : k ∈ (procedureMarks s).map Prod.fst) :
    containsText s "INSERT" = true ∧ k ∈ insertMarks.map Prod.fst := by
  have hwords : ∀ w ∈ ["CREATE", "CALL", "SELECT"], 'C' ∈ w.toList := by decide
  have hall : ∀ insert, ∀ k ∈ (marksOf false insert false false).map Prod.fst, insert = true ∧ k ∈ insertMarks.map Prod.fst := by decide
  rw [procedureMarks_eq, not_containsText_of_not_mem (hwords "CREATE" (by simp)) hs,
    not_containsText_of_not_mem (hwords "CALL" (by simp)) hs, not_containsText_of_not_mem (hwords "SELECT" (by simp)) hs] at h
  exact hall _ k h

section Leftover

variable {value : List Char → List Char} (htable : IsSynonymTable table)
  (hvalue : ∀ p ∈ putAll (procedureMarks s) table, value p.1.toList = p.2.toList)
include htable hvalue

theorem onlyMarks_of_becomes (h : Becomes (statementKeys table s) value s.toList []) : OnlyMarks s := by
  obtain ⟨segs, hsplits, hnil⟩ := h
  have hmark : ∀ g ∈ segs, ∃ p ∈ procedureMarks s, p.2 = "" ∧ g.source = p.1.toList := by
    intro g hg
    have himage := List.flatMap_eq_nil_iff.1 hnil g hg
    cases g with
    | literal c => cases himage
    | key k =>
      obtain ⟨n, hn, rfl⟩ := mem_tableKeys.1 (hsplits.mem_keys hg).1
      obtain ⟨p, hp, rfl⟩ := List.mem_map.1 (mem_keys_putAll.2 hn)
      have hempty : p.2 = "" := by
        rw [Segment.image, hvalue p hp] at himage
        simpa using himage
      refine ⟨p, (List.mem_append.1 (mem_putAll hp)).resolve_right fun hp => ?_, hempty, rfl⟩
      simpa [hempty] using (htable p hp).2
  have hletters : ∀ p ∈ allMarks, p.2 = "" → 'C' ∉ p.1.toList ∧
      (p.1 ∈ insertMarks.map Prod.fst → p.1.toList = "INSERT INTO ".toList ∨ p.1.toList = ['"']) := by decide
  have hnoC : 'C' ∉ s.toList := by
    rw [← hsplits.sources]
    intro hc
    obtain ⟨g, hg, hc⟩ := List.mem_flatMap.1 hc
    obtain ⟨p, hp, hempty, hsource⟩ := hmark g hg
    exact (hletters p (mem_allMarks_of_mem hp) hempty).1 (hsource ▸ hc)
  cases segs with
  | nil =>
    refine .inl ?_
    simpa using hsplits.sources.symm
  | cons g segs =>
    obtain ⟨p, hp, -⟩ := hmark g List.mem_cons_self
    refine .inr ⟨(mem_insertMarks_of_mem hnoC (List.mem_map_of_mem hp)).1, (g :: segs).map Segment.source, ?_, hsplits.sources.symm⟩
    intro k hk
    obtain ⟨g', hg', rfl⟩ := List.mem_map.1 hk
    obtain ⟨p, hp, hempty, hsource⟩ := hmark g' hg'
    rw [hsource]
    exact (hletters p (mem_allMarks_of_mem hp) hempty).2 (mem_insertMarks_of_mem hnoC (List.mem_map_of_mem hp)).2

theorem becomes_of_onlyMarks (h : OnlyMarks s) : Becomes (statementKeys table s) value s.toList [] := by
  rcases h with rfl | ⟨hinsert, parts, hparts, hs⟩
  · exact .done
  · have hletters : ∀ k ∈ parts.flatten, k ≠ 'C' ∧ k ≠ '.' := by
      intro c hc
      obtain ⟨k, hk, hc⟩ := List.mem_flatten.1 hc
      have hall : ∀ k ∈ ["INSERT INTO ".toList, ['"']], 'C' ∉ k ∧ '.' ∉ k := by decide
      obtain ⟨hnoC, hnoDot⟩ := hall k (by simpa using hparts k hk)
      exact ⟨fun h => hnoC (h ▸ hc), fun h => hnoDot (h ▸ hc)⟩
    have hnoC : 'C' ∉ s.toList := fun h => (hletters _ (hs ▸ h)).1 rfl
    have hinserts : ∀ m ∈ insertMarks, m.1 ∈ (procedureMarks s ++ table).map Prod.fst := by
      have hall : ∀ create call select, ∀ m ∈ insertMarks, m.1 ∈ (marksOf create true call select).map Prod.fst := by decide
      intro m hm
      rw [List.map_append, procedureMarks_eq, hinsert]
      exact List.mem_append_left _ (hall _ _ _ m hm)
    have hmarks : ∀ k ∈ parts, ∃ m ∈ insertMarks, m.2 = "" ∧ m.1.toList = k := by
      intro k hk
      rcases hparts k hk with rfl | rfl
      · exact ⟨("INSERT INTO ", ""), by decide, rfl, rfl⟩
      · exact ⟨("\"", ""), by decide, rfl, rfl⟩
    rw [hs]
    clear hparts hs
    induction parts with
    | nil => exact .done
    | cons k parts ih =>
      obtain ⟨m, hm, hempty, rfl⟩ := hmarks k List.mem_cons_self
      have hrest := ih (fun c hc => hletters c (by simp [hc])) fun k hk => hmarks k (.tail _ hk)
      -- no synonym stands here, as there is no point
      have hlong : LongestAt (statementKeys table s) (m.1.toList ++ parts.flatten) m.1.toList := by
        have hown : LongestAt (insertKeys false) _ _ := longestAt_insertMark hm parts.flatten
        refine ⟨mem_tableKeys.2 ⟨m.1, hinserts m hm, rfl⟩, hown.ne_nil, hown.stands, fun k' hk' hstands => ?_⟩
        refine hown.longest k' ?_ hstands
        obtain ⟨n, hn, rfl⟩ := mem_tableKeys.1 hk'
        rw [List.map_append, List.mem_append] at hn
        rcases hn with hn | hn
        · exact List.mem_append_left _ (mem_tableKeys.2 ⟨n, (mem_insertMarks_of_mem hnoC hn).2, rfl⟩)
        · obtain ⟨p, hp, rfl⟩ := List.mem_map.1 hn
          exact absurd rfl (hletters '.' (hstands.subset (htable p hp).1)).2
      have hempty : value m.1.toList = [] := by
        obtain ⟨q, hq, hqm⟩ := List.mem_map.1 (mem_keys_putAll.2 (hinserts m hm))
        have hsame : ∀ m ∈ insertMarks, '.' ∉ m.1.toList ∧ ∀ q ∈ allMarks, q.1 = m.1 → q.2 = m.2 := by decide
        rw [← hqm, hvalue q hq]
        rcases List.mem_append.1 (mem_putAll hq) with hq | hq
        · rw [(hsame m hm).2 q (mem_allMarks_of_mem hq) hqm, hempty]
          rfl
        · exact absurd (hqm ▸ (htable q hq).1) (hsame m hm).1
      have hall := Becomes.key hlong hrest
      rwa [hempty] at hall

end Leftover

theorem transformStatement_eq_none_iff (htable : IsSynonymTable table) (hblock : isBlockMark s = false) {o : Option String}
    (h : transformStatement table s = .ok o) : o = none ↔ OnlyMarks s := by
  have hne : procedureMarks s ++ table ≠ [] := by
    intro hnil
    obtain ⟨hmarks, rfl⟩ := List.append_eq_nil_iff.1 hnil
    simp [transformStatement, hblock, hmarks, substituteText, substituteFields, substitute, bind, Except.bind] at h
  have hkeys : "" ∉ (putAll (procedureMarks s) table).map Prod.fst := by
    have hmarks : ∀ p ∈ allMarks, p.1 ≠ "" := by decide
    intro hempty
    obtain ⟨p, hp, hempty⟩ := List.mem_map.1 hempty
    rcases List.mem_append.1 (mem_putAll hp) with hp | hp
    · exact hmarks p (mem_allMarks_of_mem hp) hempty
    · simpa [hempty] using (htable p hp).1
  have hvalue := fun p hp => tableText_textFields (p := p) (nodup_putAll (nodup_procedureMarks s) table) hp
  obtain ⟨t, ht, hrun⟩ := transformStatement_segments hblock hvalue (tableText_nil hkeys) hne
  obtain rfl := ok_unique hrun h
  have hnone : (if t = [] then none else some (String.ofList t ++ ";")) = none ↔ t = [] := by
    split <;> simp_all
  rw [hnone]
  constructor
  · rintro rfl
    exact onlyMarks_of_becomes htable hvalue ht
  · exact fun hs => (becomes_of_onlyMarks htable hvalue hs).unique ht

/-! ## Bodies -/

def statementOf (table : List (String × String)) (s : String) : Option String := (transformStatement table s).toOption.join

def tracedStatement (table : List (String × String)) (known : List Value) (s : String) : Option String :=
  if leavesOut known s then none else statementOf table s

theorem transformStatements_filterMap {ss sql : List String} (h : transformStatements synonyms (.ofTexts ss) = .ok sql) :
    ∃ table, Synonym.allReplacements synonyms = .ok table ∧
      (∀ s ∈ ss, transformStatement table s = .ok (statementOf table s)) ∧ sql = ss.filterMap (statementOf table) := by
  obtain ⟨table, htable, os, hos, rfl⟩ := transformStatements_texts.1 h
  have hof : ∀ {s o}, transformStatement table s = .ok o → statementOf table s = o := by
    intro s o ho
    rw [statementOf, ho]
    cases o <;> rfl
  refine ⟨table, htable, fun s hs => ?_, ?_⟩
  · obtain ⟨o, -, ho⟩ := forall₂_mem_left hos hs
    rw [hof ho, ho]
  · have hmap : ss.map (statementOf table) = os := by
      rw [← List.forall₂_eq_eq_eq, List.forall₂_map_left_iff]
      exact hos.imp fun _ _ => hof
    rw [← hmap, List.filterMap_map]
    rfl

def bodyTexts (ss : List String) (ins outs vars : List Value) : List String :=
  (ss.filter fun s => !leavesOut (ins ++ outs ++ vars) s) ++ ins.map inputAssignment ++ outs.map outputAssignment ++
    vars.map variableAssignment

theorem baseStatements_ok {inputs vars : Value} {synonyms : List Synonym} {sql : List String}
    (h : baseStatements inputs outputs vars synonyms statements = .ok sql) : ∃ es ins outs vs table body,
      statements.members = .ok es ∧ inputs.members = .ok ins ∧ outputs.members = .ok outs ∧ vars.members = .ok vs ∧
      IsSynonymTable table ∧ (∀ t ∈ outs, IsNamedOutput t) ∧ List.Perm body (bodyTexts (es.filterMap Value.text?) ins outs vs) ∧
      (∀ s ∈ body, transformStatement table s = .ok (statementOf table s)) ∧ sql = body.filterMap (statementOf table) := by
  simp only [baseStatements, bind_ok] at h
  obtain ⟨k1, h1, k2, h2, k3, h3, arranged, harranged, h⟩ := h
  obtain ⟨ins, outs, vs, hi, ho, hv, hins, houts, hvars⟩ := named_of_arrangeStatements harranged
  obtain ⟨es, hes, -⟩ := bind_ok.1 h1
  obtain rfl := filterStatements_ok hi hes h1
  obtain rfl := filterStatements_ok ho rfl h2
  obtain rfl := filterStatements_ok hv rfl h3
  have htexts : ∀ ss : List String, (ss.map Value.text).filterMap Value.text? = ss := by
    intro ss
    rw [List.filterMap_map]
    exact List.filterMap_some
  simp only [htexts, List.filter_filter] at harranged
  obtain ⟨assigned, hperm, hrun⟩ := arrangeStatements_texts hi ho hv hins houts hvars ((es.filterMap Value.text?).filter fun s =>
    !leavesOut vs s && (!leavesOut outs s && !leavesOut ins s))
  obtain rfl := ok_unique hrun harranged
  obtain ⟨table, htable, hall, rfl⟩ := transformStatements_filterMap h
  refine ⟨es, ins, outs, vs, table, _, hes, hi, ho, hv, isSynonymTable_of_ok htable, houts, ?_, hall, rfl⟩
  have hkept : (fun s => !leavesOut vs s && (!leavesOut outs s && !leavesOut ins s)) = fun s => !leavesOut (ins ++ outs ++ vs) s := by
    funext s
    rw [leavesOut_append, leavesOut_append, Bool.not_or, Bool.not_or, Bool.and_comm, Bool.and_comm (!leavesOut outs s)]
  rw [hkept, bodyTexts, List.append_assoc _ (outs.map _), List.append_assoc _ (outs.map _)]
  exact perm_arranged _ hperm

theorem statementOf_isSome_iff (htable : IsSynonymTable table) (h : transformStatement table s = .ok (statementOf table s)) :
    (statementOf table s).isSome = true ↔ isBlockMark s = false ∧ ¬ OnlyMarks s := by
  cases hblock : isBlockMark s with
  | true =>
    have hnone : statementOf table s = none := by
      rw [transformStatement, hblock] at h
      exact (Except.ok.inj h).symm
    simp [hnone]
  | false =>
    rw [← transformStatement_eq_none_iff htable hblock h]
    simp [Option.isSome_iff_ne_none]

theorem not_onlyMarks_of_mem {c : Char} (hc : c ∉ "INSERT INTO \"".toList) (h : c ∈ s.toList) : ¬ OnlyMarks s := by
  rintro (rfl | ⟨-, parts, hparts, hs⟩)
  · simp at h
  · rw [hs] at h
    obtain ⟨k, hk, hck⟩ := List.mem_flatten.1 h
    refine hc ?_
    rcases hparts k hk with rfl | rfl
    · exact (show "INSERT INTO ".toList ⊆ "INSERT INTO \"".toList by decide) hck
    · exact (show ['"'] ⊆ "INSERT INTO \"".toList by decide) hck

theorem not_onlyMarks_assignment (t : Value) :
    ¬ OnlyMarks (inputAssignment t) ∧ ¬ OnlyMarks (outputAssignment t) ∧ ¬ OnlyMarks (variableAssignment t) := by
  refine ⟨not_onlyMarks_of_mem (c := '=') (by decide) ?_, not_onlyMarks_of_mem (c := '=') (by decide) ?_,
    not_onlyMarks_of_mem (c := '(') (by decide) ?_⟩
  · simp [inputAssignment]
  · rw [outputAssignment]
    split <;> simp
  · simp [variableAssignment]

/-! ## Stored bodies -/

theorem under_at {c : Change α} {a : α} {v' : Value} (h : Change.under (.text k) c v = .ok a v') :
    ∃ w w', c w = .ok a w' ∧ ∀ rest, v'.at? (.key k :: rest) = w'.at? rest := by
  cases v with
  | object fs =>
    obtain ⟨w, w', -, hc, rfl⟩ := under_ok h
    refine ⟨w, w', hc, fun rest => ?_⟩
    rw [Value.at?_key, Fields.lookup_set_self]
    rfl
  | _ =>
    simp only [Change.under, run_parts] at h
    obtain ⟨w, hw, h⟩ := h
    cases hw

theorem storeBase_at {b : BaseParts} {x : ProcedureName} {layers layers' : Value} {u : Unit}
    (h : storeBase (.text x.1) (.text x.2) b layers = .ok u layers') :
    ∃ metadata old o, b.putInto metadata old = .ok o ∧ procedureAt? layers' x = some o := by
  simp only [storeBase, run_bind_ok, run_lift_ok] at h
  obtain ⟨_, _, -, _, _, -, metadata, _, -, h⟩ := h
  obtain ⟨_, w1, h, hat1⟩ := under_at h
  obtain ⟨_, w2, h, hat2⟩ := under_at h
  obtain ⟨old, o, h, hat3⟩ := under_at h
  simp only [Change.apply, run_parts, run_set_ok] at h
  obtain ⟨o', hput, rfl⟩ := h
  refine ⟨metadata, _, _, hput, ?_⟩
  rw [procedureAt?, procedurePlace, hat1, hat2, hat3]
  rfl

theorem putInto_parts {b : BaseParts} {metadata old o : Value} (h : b.putInto metadata old = .ok o) :
    o.entry "sql" = .ok (.ofTexts b.statements) ∧ o.entry "input_tables" = .ok b.inputTables ∧
      o.entry "output_tables" = .ok b.outputTables ∧ o.entry "output_vars" = .ok b.outputVars := by
  simp only [BaseParts.putInto, bind_ok, pure_ok] at h
  obtain ⟨v, hv, rfl⟩ := h
  cases old with
  | object fs =>
    cases hv
    refine ⟨?_, Value.entry_withEntries rfl, Value.entry_withEntries rfl, Value.entry_withEntries rfl⟩
    show Value.entry (.object _) "sql" = _
    rw [Value.entry_object, lookup_foldl_set_of_not_mem (by simp), Fields.lookup_set_self]
    rfl
  | _ => cases hv

theorem extendTable_interface {settings : Settings} {u : Value} (h : extendTable settings algo function statements t = .ok u)
    (hn : u.entry "name" = .ok n) : ∃ name, u.entry "interface_name" = .ok (.text name) ∧ name.toList.head? = some 'l' := by
  obtain ⟨named, hnamed⟩ := extendTable_named h (extendTable_has h hn)
  have hinterface := hnamed.interface
  simp only [interfaceNameFor, bind_ok, pure_ok] at hinterface
  obtain ⟨_, -, _, -, hname⟩ := hinterface
  exact ⟨_, hnamed.storedInterface, by rw [← hname, toList_interfaceNameOf]; rfl⟩

theorem isBlockMark_outputAssignment {settings : Settings} {tables : Value}
    (h : extendedIf (extendTables settings algo function statements) tables = .ok outputs) {outs : List Value}
    (houts : outputs.members = .ok outs) (ht : t ∈ outs) (hn : t.entry "name" = .ok n) : isBlockMark (outputAssignment t) = false := by
  unfold extendedIf at h
  split at h
  · simp only [extendTables, bind_ok, pure_ok, mapM_ok] at h
    obtain ⟨ts, -, us, hus, rfl⟩ := h
    cases houts
    obtain ⟨_, -, ht⟩ := forall₂_mem_right hus ht
    obtain ⟨name, hname, hhead⟩ := extendTable_interface ht hn
    have htext : t.textAt "interface_name" = name := by
      rw [Value.textAt, Value.get_of_entry hname]
      rfl
    refine isBlockMark_of_head (c := 'l') ?_ (by decide)
    rw [outputAssignment, htext, String.toList_append, List.head?_append, hhead]
    rfl
  · next hempty =>
    cases h
    rw [members_of_not_truthy (by simpa using hempty) houts] at ht
    cases ht

theorem isBlockMark_of_opening (h : startsWithText s "INSERT INTO" = true ∨ startsWithText s "CALL" = true) : isBlockMark s = false := by
  rcases h with h | h
  · obtain ⟨r, hr⟩ := List.isPrefixOf_iff_prefix.1 h
    exact isBlockMark_of_head (c := 'I') (by rw [← hr]; rfl) (by decide)
  · obtain ⟨r, hr⟩ := List.isPrefixOf_iff_prefix.1 h
    exact isBlockMark_of_head (c := 'C') (by rw [← hr]; rfl) (by decide)

/-- What the body of a stored procedure is made of. -/
theorem generateBase_body {settings : Settings} {x : ProcedureName} {p : Prepared} {w w' : BaseWork}
    (h : generateBase settings (.text x.1) (.text x.2) p w = .ok () w') :
    ∃ (o : Value) (es ins outs vars : List Value) (table : List (String × String)) (sql : List String),
      procedureAt? w'.layers x = some o ∧ o.entry "sql" = .ok (.ofTexts sql) ∧ p.statements.members = .ok es ∧
      partsUnder "input_tables" o = .ok ins ∧ partsUnder "output_tables" o = .ok outs ∧ partsUnder "output_vars" o = .ok vars ∧
      sql.Perm ((es.filterMap Value.text?).filterMap (tracedStatement table (ins ++ outs ++ vars)) ++
        (ins.map inputAssignment).filterMap (statementOf table) ++ (outs.map outputAssignment).filterMap (statementOf table) ++
        (vars.map variableAssignment).filterMap (statementOf table)) ∧
      (∀ s ∈ es.filterMap Value.text?, (tracedStatement table (ins ++ outs ++ vars) s).isSome = true ↔
        leavesOut (ins ++ outs ++ vars) s = false ∧ isBlockMark s = false ∧ ¬ OnlyMarks s) ∧
      (∀ s, startsWithText s "INSERT INTO" = true ∨ startsWithText s "CALL" = true → isBlockMark s = false) ∧
      (∀ s ∈ ins.map inputAssignment ++ outs.map outputAssignment ++ vars.map variableAssignment,
        (statementOf table s).isSome = true ↔ isBlockMark s = false) ∧
      ∀ t ∈ outs, ∀ n, t.entry "name" = .ok n → (statementOf table (outputAssignment t)).isSome = true := by
  obtain ⟨b, hb, hs⟩ := generateBase_ok h
  obtain ⟨metadata, old, o, hput, ho⟩ := storeBase_at hs
  obtain ⟨hsql, hins, houts, hvars⟩ := putInto_parts hput
  obtain ⟨_, _, _, -, hextended, -, -, -, -, hstatements⟩ := buildBase_ok.1 hb
  obtain ⟨es, ins, outs, vs, table, body, hes, hi, hout, hv, htable, -, hperm, hall, hsql'⟩ := baseStatements_ok hstatements
  rw [hsql'] at hsql
  have hmem : ∀ s, s ∈ body ↔ s ∈ bodyTexts (es.filterMap Value.text?) ins outs vs := fun s => hperm.mem_iff
  have hyield : ∀ s ∈ ins.map inputAssignment ++ outs.map outputAssignment ++ vs.map variableAssignment,
      (statementOf table s).isSome = true ↔ isBlockMark s = false := by
    intro s hs
    have hbody : s ∈ body := by
      simp only [hmem, bodyTexts, List.mem_append] at hs ⊢
      tauto
    refine (statementOf_isSome_iff htable (hall s hbody)).trans (and_iff_left ?_)
    simp only [List.mem_append, List.mem_map] at hs
    rcases hs with (⟨t, -, rfl⟩ | ⟨t, -, rfl⟩) | ⟨t, -, rfl⟩
    · exact (not_onlyMarks_assignment t).1
    · exact (not_onlyMarks_assignment t).2.1
    · exact (not_onlyMarks_assignment t).2.2
  refine ⟨o, es, ins, outs, vs, table, _, ho, hsql, hes, (partsUnder_of_entry hins).trans hi, (partsUnder_of_entry houts).trans hout,
    (partsUnder_of_entry hvars).trans hv, ?_, ?_, ?_, hyield, ?_⟩
  · have hyields := hperm.filterMap (statementOf table)
    rw [bodyTexts, List.filterMap_append, List.filterMap_append, List.filterMap_append, List.filterMap_filter] at hyields
    have htraced : (fun s => if (!leavesOut (ins ++ outs ++ vs) s) = true then statementOf table s else none) =
        tracedStatement table (ins ++ outs ++ vs) := by
      funext s
      rw [tracedStatement]
      cases leavesOut (ins ++ outs ++ vs) s <;> rfl
    rwa [htraced] at hyields
  · intro s hs
    rw [tracedStatement]
    cases hleft : leavesOut (ins ++ outs ++ vs) s with
    | true => simp
    | false =>
      have hbody : s ∈ body := by
        simp only [hmem, bodyTexts, List.mem_append, List.mem_filter]
        exact .inl (.inl (.inl ⟨hs, by rw [hleft]; rfl⟩))
      simpa using statementOf_isSome_iff htable (hall s hbody)
  · exact fun s => isBlockMark_of_opening
  · exact fun t ht n hn => (hyield _ (by simp only [List.mem_append, List.mem_map]; exact .inl (.inr ⟨t, ht, rfl⟩))).2
      (isBlockMark_outputAssignment hextended hout ht hn)

/-- A call that inserts a text with the word for dropping into a table, and that reads a table whose name opens like a block. -/
def lossyCall : Prepared where
  functions := .list []
  statements := .ofTexts ["INSERT INTO \"#P\" VALUES ('DROP')", "CALL F"]
  inputTables := .list [.object [("name", .text "#DODATA")]]
  outputTables := .list []
  outputVars := .list []

def lossySettings : Settings := [(Setting.entityContext, .text "c"), (Setting.schema, .text "S")]

def storedTexts (layers : Value) (x : ProcedureName) : Option (List String) :=
  (procedureAt? layers x).map fun o => (o.get "sql").toList.map Value.textOrEmpty

theorem generateBase_body_sample : ∃ w' o sql, generateBase lossySettings (.text "A") (.text "f") lossyCall
      { functions := .list [], layers := .object [] } = .ok () w' ∧
    procedureAt? w'.layers ("A", "f") = some o ∧ o.entry "sql" = .ok (.ofTexts sql) := by
  have hrun : succeedsWith (fun _ _ => true) (generateBase lossySettings (.text "A") (.text "f") lossyCall
      { functions := .list [], layers := .object [] }) = true := by decide +kernel
  obtain ⟨_, w', h, -⟩ := exists_of_succeedsWith hrun
  obtain ⟨o, _, _, _, _, _, sql, ho, hsql, -⟩ := generateBase_body (x := ("A", "f")) h
  exact ⟨w', o, sql, h, ho, hsql⟩

/-- The insertion is left out for the text that it inserts, and the assignment of the table is taken for the mark of a block. -/
theorem generateBase_loses_statements : ∃ w', generateBase lossySettings (.text "A") (.text "f") lossyCall
      { functions := .list [], layers := .object [] } = .ok () w' ∧ storedTexts w'.layers ("A", "f") = some ["CALL F;"] := by
  have hrun : succeedsWith (fun _ w' => storedTexts w'.layers ("A", "f") == some ["CALL F;"])
      (generateBase lossySettings (.text "A") (.text "f") lossyCall { functions := .list [], layers := .object [] }) = true := by
    decide +kernel
  obtain ⟨_, w', h, hbody⟩ := exists_of_succeedsWith hrun
  exact ⟨w', h, beq_iff_eq.1 hbody⟩

end TraceArtifacts
