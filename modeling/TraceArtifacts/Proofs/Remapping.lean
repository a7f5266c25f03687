import TraceArtifacts.Proofs.RemoteEntities
import TraceArtifacts.Proofs.Sources

/-!
# Proofs: what remapping a data source changes

A mapping replaces the selects that it has as keys in the text of a procedure.
-/

namespace TraceArtifacts

variable {e : Element} {m m' : Fields} {i : InputItem} {relations : List Relation} {s t t' : Session} {layers : Value}

/-! ## Segments and their images -/

namespace Text

section Images

variable {value value' : List Char → List Char} {k : List Char}

theorem length_images (hother : ∀ k', k' ≠ k → value k' = value' k') (segs : List Segment) :
    (segs.flatMap (Segment.image value)).length + segs.count (.key k) * (value' k).length =
      (segs.flatMap (Segment.image value')).length + segs.count (.key k) * (value k).length := by
  induction segs with
  | nil => simp
  | cons seg segs ih =>
    simp only [List.flatMap_cons, List.length_append, List.count_cons]
    by_cases hseg : seg = .key k
    · subst hseg
      simp only [Segment.image, beq_self_eq_true, if_true, Nat.add_mul, Nat.one_mul]
      omega
    · have himage : Segment.image value seg = Segment.image value' seg := by
        cases seg with
        | literal c => rfl
        | key k' => exact hother k' fun heq => hseg (congrArg Segment.key heq)
      rw [himage, if_neg (by simpa using hseg), Nat.add_zero]
      omega

theorem flatMap_image_eq_iff (hother : ∀ k', k' ≠ k → value k' = value' k') (hk : value k ≠ value' k) (segs : List Segment) :
    segs.flatMap (Segment.image value) = segs.flatMap (Segment.image value') ↔ .key k ∉ segs := by
  constructor
  · intro heq hmem
    have hpos : 0 < segs.count (.key k) := List.count_pos_iff.2 hmem
    have hlengths := length_images hother segs
    rw [heq] at hlengths
    -- images of one length are laid out alike, so the first place of the key tells them apart
    have hlen : (value k).length = (value' k).length := (Nat.eq_of_mul_eq_mul_left hpos (Nat.add_left_cancel hlengths)).symm
    clear hpos hlengths
    induction segs with
    | nil => exact List.not_mem_nil hmem
    | cons seg segs ih =>
      rw [List.flatMap_cons, List.flatMap_cons] at heq
      have hseg : (Segment.image value seg).length = (Segment.image value' seg).length := by
        cases seg with
        | literal c => rfl
        | key k' =>
          by_cases hk' : k' = k
          · rw [hk']
            exact hlen
          · exact congrArg List.length (hother k' hk')
      obtain ⟨hfirst, hrest⟩ := List.append_inj heq hseg
      rcases List.mem_cons.1 hmem with rfl | hmem
      · exact hk hfirst
      · exact ih hrest hmem
  · intro hmem
    refine List.flatMap_congr fun seg hseg => ?_
    cases seg with
    | literal c => rfl
    | key k' => exact hother k' fun heq => hmem (heq ▸ hseg)

end Images

namespace Splits

variable {keys : List (List Char)} {s k : List Char} {segs : List Segment}

theorem infix_of_mem (h : Splits keys s segs) (hk : .key k ∈ segs) : k <:+: s := by
  induction h with
  | done => cases hk
  | @key k' rest segs _ _ ih =>
    rcases List.mem_cons.1 hk with heq | hk
    · obtain rfl : k = k' := Segment.key.inj heq
      exact List.infix_append' [] k rest
    · exact (ih hk).trans (List.suffix_append k' rest).isInfix
  | @literal c rest segs _ _ ih =>
    rcases List.mem_cons.1 hk with heq | hk
    · cases heq
    · exact (ih hk).trans (List.suffix_cons c rest).isInfix

theorem mem_of_infix (h : Splits keys s segs) (hmem : k ∈ keys) (hne : k ≠ [])
    (hother : ∀ k' ∈ keys, k' ≠ k → ¬ k' <:+: s) (hk : k <:+: s) : .key k ∈ segs := by
  induction h with
  | done => exact absurd (List.infix_nil.1 hk) hne
  | @key k' rest segs hlong _ _ =>
    have hk' : k' = k := not_not.1 fun hk' => hother k' hlong.mem hk' (List.infix_append' [] k' rest)
    rw [hk']
    exact List.mem_cons_self
  | @literal c rest segs hnone _ ih =>
    have hrest : k <:+: rest := (List.infix_cons_iff.1 hk).resolve_left (hnone k hmem hne)
    refine List.mem_cons_of_mem _ (ih (fun k' hk' hne' hin => ?_) hrest)
    exact hother k' hk' hne' (hin.trans (List.suffix_cons c rest).isInfix)

end Splits

end Text

/-! ## Texts of procedures -/

open Text TraceArtifacts.Graph

def procedureFields (body name signature : String) : Fields :=
  [("<<SQL_PLACEHOLDER>>", .text body), ("<<PROCEDURE_NAME>>", .text name), ("<<INTERFACE>>", .text signature)]

def procedurePart (body name signature : String) (k : List Char) : List Char :=
  if k = "<<SQL_PLACEHOLDER>>".toList then body.toList
  else if k = "<<PROCEDURE_NAME>>".toList then name.toList
  else if k = "<<INTERFACE>>".toList then signature.toList else k

theorem procedureText_splits (body name signature : String) :
    ∃ segs, Splits (tableKeys (procedureFields "" "" "")) Container.FileText.procedure.toList segs ∧
      substituteFields (procedureFields body name signature) Container.FileText.procedure =
        .ok (String.ofList (segs.flatMap (Segment.image (procedurePart body name signature)))) := by
  have hkeys : tableKeys (procedureFields body name signature) = tableKeys (procedureFields "" "" "") := rfl
  have hvalue : ∀ p ∈ procedureFields body name signature, inserted p.2 = .ok (procedurePart body name signature p.1.toList) := by
    simp only [procedureFields, List.forall_mem_cons, procedurePart, String.toList_inj, inserted]
    simp
  have hempty : procedurePart body name signature [] = [] := by
    simp [procedurePart]
  rw [← hkeys]
  exact substituteFields_splits (List.cons_ne_nil _ _) hvalue hempty _

theorem procedureText_eq_iff {name signature body body' content content' : String}
    (h : substituteFields (procedureFields body name signature) Container.FileText.procedure = .ok content)
    (h' : substituteFields (procedureFields body' name signature) Container.FileText.procedure = .ok content') :
    content = content' ↔ body = body' := by
  obtain ⟨segs, hsplits, hcontent⟩ := procedureText_splits body name signature
  have hsame : ∀ body name signature, substituteFields (procedureFields body name signature) Container.FileText.procedure =
      .ok (String.ofList (segs.flatMap (Segment.image (procedurePart body name signature)))) := by
    intro body name signature
    obtain ⟨segs', hsplits', hcontent'⟩ := procedureText_splits body name signature
    rw [hcontent', hsplits.unique hsplits']
  have hother : ∀ (b b' n s : String) k, k ≠ "<<SQL_PLACEHOLDER>>".toList → procedurePart b n s k = procedurePart b' n s k := by
    intro b b' n s k hk
    rw [procedurePart, procedurePart, if_neg hk, if_neg hk]
  -- the template has a place for the body: files with different bodies differ
  have hplace : .key "<<SQL_PLACEHOLDER>>".toList ∈ segs := by
    by_contra hno
    have htexts : substituteFields (procedureFields "a" "" "") Container.FileText.procedure ≠
        substituteFields (procedureFields "b" "" "") Container.FileText.procedure := by decide +kernel
    have himages := (flatMap_image_eq_iff (hother "a" "b" "" "") (by simp [procedurePart]) segs).2 hno
    rw [hsame, hsame, himages] at htexts
    exact htexts rfl
  constructor
  · intro heq
    by_contra hne
    have hcontents : String.ofList (segs.flatMap (Segment.image (procedurePart body name signature))) =
        String.ofList (segs.flatMap (Segment.image (procedurePart body' name signature))) := by
      rw [← ok_unique h (hsame ..), ← ok_unique h' (hsame ..), heq]
    refine (flatMap_image_eq_iff (hother body body' name signature) ?_ segs).1 (String.ofList_injective hcontents) hplace
    simpa [procedurePart, String.toList_inj] using hne
  · rintro rfl
    exact ok_unique h h'

/-! ## Remapping -/

/-- A mapping with the keys of another one: one key stands for a new text, and all others stand for themselves. -/
structure Remaps (m : Fields) (k v : String) (m' : Fields) : Prop where
  keys : (m'.map Prod.fst).Perm (m.map Prod.fst)
  values : ∀ p ∈ m', p.2 = .text (if p.1 = k then v else p.1)

def remapped (k v : String) (c : List Char) : List Char := if c = k.toList then v.toList else c

theorem Remaps.substitutes {k v : String} (h : Remaps m k v m') (hk : k ≠ "") (hm : m ≠ []) (text : String) :
    ∃ segs, Splits (tableKeys m) text.toList segs ∧ substituteValue (.text text) (.object m') false =
      .ok (String.ofList (segs.flatMap (Segment.image (remapped k v)))) := by
  have hne : m' ≠ [] := by
    rintro rfl
    exact hm (List.map_eq_nil_iff.1 h.keys.nil_eq.symm)
  have hvalue : ∀ p ∈ m', inserted p.2 = .ok (remapped k v p.1.toList) := by
    intro p hp
    rw [h.values p hp, remapped, inserted]
    simp only [String.toList_inj]
    split <;> rfl
  have hempty : remapped k v [] = [] := by
    have hnil : [] ≠ k.toList := fun heq => hk (String.toList_inj.1 heq.symm)
    rw [remapped, if_neg hnil]
  obtain ⟨segs, hsplits, hout⟩ := substituteValue_splits hne hvalue hempty text
  refine ⟨segs, hsplits.congr fun c => ?_, hout⟩
  have hmem := (h.keys.map String.toList).mem_iff (a := c)
  simpa [tableKeys] using hmem.symm

theorem Remaps.self (h : ∀ p ∈ m, p.2 = .text p.1) (k : String) : Remaps m k k m := by
  refine ⟨.refl _, fun p hp => ?_⟩
  rw [h p hp]
  split
  · rename_i heq
    rw [heq]
  · rfl

/-! ## What is written for an element -/

def Element.remoteText (e : Element) : Outcome String := do
  let inputs ← (e.inputs.map InputItem.toValue).mapM statementText
  let body ← (e.body.map BodyItem.toValue).mapM statementText
  let outputs ← (e.outputs.map OutputItem.toValue).mapM synonymStatementText
  return joinLines (inputs ++ body ++ outputs)

section Taking

variable {modelOnly : Bool}

theorem takeOutput_text {name item : Value} {r r' : Container.RemoteOutputs}
    (h : Container.takeOutput modelOnly true name r item t = .ok r' t') :
    ∃ text, synonymStatementText item = .ok text ∧ r'.texts = r.texts ++ [text] := by
  rw [takeOutput_eq, if_pos rfl] at h
  simp only [run_parts] at h
  obtain ⟨text, htext, _, -, h⟩ := h
  obtain ⟨_, _, rfl, -⟩ := loadOutput_ok h
  exact ⟨text, htext, rfl⟩

theorem takeOutputs_texts {name : Value} {items : List Value} : ∀ {r r' : Container.RemoteOutputs} {t t' : Session},
    items.foldlM (Container.takeOutput modelOnly true name) r t = .ok r' t' →
    ∃ texts, items.mapM synonymStatementText = .ok texts ∧ r'.texts = r.texts ++ texts := by
  induction items with
  | nil =>
    intro r r' t t' h
    cases h
    exact ⟨[], rfl, (List.append_nil _).symm⟩
  | cons item items ih =>
    intro r r' t t' h
    rw [List.foldlM_cons] at h
    obtain ⟨r1, t1, hfirst, hrest⟩ := run_bind_ok.1 h
    obtain ⟨text, htext, hr1⟩ := takeOutput_text hfirst
    obtain ⟨texts, htexts, hr'⟩ := ih hrest
    refine ⟨text :: texts, ?_, by rw [hr', hr1, List.append_assoc, List.singleton_append]⟩
    rw [List.mapM_cons, htext, htexts]
    rfl

theorem takeElement_writes {entities entities' : List Value} (h : Container.takeElement modelOnly entities e.toValue t = .ok entities' t')
    (hpass : passesText (remoteFilters modelOnly) e.name = true) :
    ∃ text sig body directory content, e.remoteText = .ok text ∧
      Container.signature .null (.list (e.outputs.map OutputItem.toValue)) = .ok sig ∧
      t.settings.mapSources (.text text) = .ok body ∧
      t.settings.entry (Setting.remote Setting.proceduresPath) = .ok (.text directory) ∧
      substituteFields (procedureFields body e.name sig) Container.FileText.procedure = .ok content ∧
      t'.tree.read t'.cwd (joinPaths directory (e.name ++ ".hdbprocedure")) = .ok content := by
  obtain ⟨statements, hsql, hparts⟩ := sql_elementAfter "" 0 e
  rw [elementAfter_zero] at hsql
  rw [partsAfter_zero] at hparts
  have hhas := Value.has_of_entry hsql
  have hname : e.toValue.entry "name" = .ok (.text e.name) := rfl
  have hpasses : Container.passes (if modelOnly then Container.modelFilters else []) (.text e.name) = .ok true :=
    (passes_text (remoteFilters modelOnly) e.name).trans (congrArg Except.ok hpass)
  simp only [Container.takeElement, hhas, hname, hsql, hparts, hpasses, lift_ok_eq, pure_bind, Bool.not_true, Bool.false_eq_true,
    if_false, if_true, Job.setting, run_parts, run_pure_ok] at h
  obtain ⟨inputs, hinputs, body, hbody, outputs, houtputs, r, t1, hfold, sig, hsig, text, htext, path, hpath, _, _, hwrite, -, rfl⟩ := h
  have hsettings : t1.settings = t.settings := Keeps.foldlM (fun _ _ =>
    Container.keeps_takeOutput (keeps_writeFile (P := (· = t.settings))) _ _ _ _ _) _ _ hfold rfl
  cases houtputs
  obtain ⟨outputs, houts, hr⟩ := takeOutputs_texts hfold
  obtain ⟨directory, content, rfl, hcontent, hread⟩ := Container.writeProcedure_ok hwrite
  rw [hsettings] at htext hpath
  refine ⟨joinLines r.texts, sig, text, directory, content, ?_, hsig, htext, hpath, hcontent, hread⟩
  have hinputs : (e.inputs.map InputItem.toValue).mapM statementText = .ok inputs := hinputs
  have hbody : (e.body.map BodyItem.toValue).mapM statementText = .ok body := hbody
  rw [Element.remoteText, hinputs, hbody, houts, hr]
  rfl

end Taking

/-! ## Statements among the text of an element -/

theorem infix_joinEntries {separator entry : String} {entries : List String} (h : entry ∈ entries) :
    entry.toList <:+: (joinEntries separator "" entries).toList := by
  induction entries with
  | nil => cases h
  | cons e es ih =>
    have hhead : e.toList <:+: (joinEntries separator "" (e :: es)).toList := by
      by_cases he : e = ""
      · rw [he]
        exact List.nil_infix
      · cases es with
        | nil => simp [joinEntries, he]
        | cons e' es =>
          rw [joinEntries, if_neg he, String.toList_append, String.toList_append, String.toList_append, List.append_assoc,
            List.append_assoc]
          · exact List.infix_append' [] e.toList _
          · simp
    rcases List.mem_cons.1 h with rfl | h
    · exact hhead
    · cases es with
      | nil => cases h
      | cons e' es =>
        rw [joinEntries, String.toList_append]
        · exact (ih h).trans (List.suffix_append _ _).isInfix
        · simp

theorem Element.remoteText_reads {text : String} (h : e.remoteText = .ok text) (hi : i ∈ e.inputs ∨ .input i ∈ e.body)
    (hname : '\x7b' ∉ i.name.toList ∧ '\x7d' ∉ i.name.toList) : (readText i.name i.source.display).toList <:+: text.toList := by
  have hstatement : statementText i.toValue = .ok (readText i.name i.source.display) := fillWith_inputTemplate hname _
  rw [Element.remoteText] at h
  obtain ⟨inputs, hinputs, h⟩ := bind_ok.1 h
  obtain ⟨body, hbody, h⟩ := bind_ok.1 h
  obtain ⟨outputs, -, h⟩ := bind_ok.1 h
  cases h
  refine infix_joinEntries ?_
  rcases hi with hi | hi
  · obtain ⟨line, hmem, hline⟩ := forall₂_mem_left (mapM_ok.1 hinputs) (List.mem_map_of_mem (f := InputItem.toValue) hi)
    obtain rfl := ok_unique hstatement hline
    exact List.mem_append_left _ (List.mem_append_left _ hmem)
  · obtain ⟨line, hmem, hline⟩ := forall₂_mem_left (mapM_ok.1 hbody) (List.mem_map_of_mem (f := BodyItem.toValue) hi)
    obtain rfl := ok_unique hstatement hline
    exact List.mem_append_left _ (List.mem_append_right _ hmem)

/-! ## Runs -/

/-- When some phases have been run and the elements before it have been taken, an element is taken, and its procedure is then read with
this content. -/
def WritesInTurn (modelOnly : Bool) (before : List Phase) (es : List Element) (e : Element) (s : Session) (content : String) :
    Prop :=
  ∃ q first rest entities r entities' r' directory, before.forM Phase.run s = .ok () q ∧ es = first ++ e :: rest ∧
    (first.map Element.toValue).foldlM (Container.takeElement modelOnly) [] q = .ok entities r ∧
    Container.takeElement modelOnly entities e.toValue r = .ok entities' r' ∧
    r.settings.entry (Setting.remote Setting.proceduresPath) = .ok (.text directory) ∧
    r'.tree.read r'.cwd (joinPaths directory (e.name ++ ".hdbprocedure")) = .ok content

section Runs

variable {modelOnly : Bool} {before : List Phase} {schema : Outcome Value} {es : List Element}

theorem phases_write {u : Unit} (hphases : ∀ p ∈ before, ∃ c : ContainerCall, p ∈ c.phases)
    (h : (before ++ [Phase.other (Container.finishRemote modelOnly)]).forM Phase.run s = .ok u t) (hs : ListsAfter schema es 0 s.settings)
    {m : Value} (hm : s.settings.entry Setting.sourceMapping = .ok m) (he : e ∈ es)
    (hpass : passesText (remoteFilters modelOnly) e.name = true) :
    ∃ text sig body content, e.remoteText = .ok text ∧ Container.signature .null (.list (e.outputs.map OutputItem.toValue)) = .ok sig ∧
      substituteValue (.text text) m false = .ok body ∧
      substituteFields (procedureFields body e.name sig) Container.FileText.procedure = .ok content ∧
      WritesInTurn modelOnly before es e s content := by
  rw [List.forM_eq_forM, List.forM_append, List.forM_cons] at h
  obtain ⟨_, q, hbefore, h⟩ := run_bind_ok.1 h
  obtain ⟨_, _, hfinish, -⟩ := run_bind_ok.1 h
  have hq : ListsAfter schema es 0 q.settings :=
    keeps_phases (unnoted_listsAfter schema es 0) (baseless_listsAfter schema es 0) hphases hbefore hs
  have hqm : q.settings.entry Setting.sourceMapping = .ok m := keeps_phases (Container.unnoted_entry (by decide) _)
    (Container.baseless_entry (by decide) _) hphases hbefore hm
  obtain ⟨layers, hl, hes⟩ := hq.listed
  rw [funext (elementAfter_zero _)] at hes
  simp only [Phase.run, Container.finishRemote, run_parts, Job.layers_ok] at hfinish
  obtain ⟨l, hl', vs, hvs, entities, r, hfold, -⟩ := hfinish
  obtain rfl := ok_unique hl hl'
  have helements := Container.elements_of_records hes (List.forall_mem_map.2 fun _ _ => rfl)
  obtain rfl := ok_unique helements hvs
  obtain ⟨first, rest, rfl⟩ := List.append_of_mem he
  rw [List.map_append, List.map_cons, List.foldlM_append] at hfold
  obtain ⟨entities1, r1, hfirst, hfold⟩ := run_bind_ok.1 hfold
  rw [List.foldlM_cons] at hfold
  obtain ⟨entities2, r2, htake, -⟩ := run_bind_ok.1 hfold
  have hr1 : r1.settings = q.settings := Keeps.foldlM (fun _ _ =>
    Container.keeps_takeElement (keeps_writeFile (P := (· = q.settings))) _ _ _) _ _ hfirst rfl
  obtain ⟨text, sig, body, directory, content, htext, hsig, hbody, hdirectory, hcontent, hread⟩ := takeElement_writes htake hpass
  rw [Settings.mapSources, hr1, hqm] at hbody
  exact ⟨text, sig, body, content, htext, hsig, hbody, hcontent, q, first, rest, entities1, r1, entities2, r2, directory,
    hbefore, rfl, hfirst, htake, hdirectory, hread⟩

end Runs

/-! ## What elements read -/

def quotedTable (schema table : String) : String := "\"" ++ schema ++ "\".\"" ++ table ++ "\""

def InputItem.ReadsSelect (i : InputItem) (select : String) : Prop :=
  ∃ schema table, parseDataset select = (some schema, table) ∧ i.source = .text (quotedTable schema table)

def BodyItem.input? : BodyItem → Option InputItem
  | .call _ => none
  | .input i => some i

def Element.inputItems (e : Element) : List InputItem := e.inputs ++ e.body.filterMap BodyItem.input?

theorem ContributedAs.reads {linkType : Value} (hrel : HasRelations layers relations) {y : ProcedureName} {c : Contribution}
    (h : ContributedAs layers linkType y c) (hi : i ∈ c.inputs) (hlink : i.link = none) :
    ∃ select, HasSource layers relations y select ∧ i.ReadsSelect select := by
  obtain ⟨l, o, hl, ho, hc⟩ := h
  obtain ⟨ts, hts, hinputs⟩ := hc.inputs
  obtain ⟨t, ht, hfrom⟩ := forall₂_mem_right hinputs hi
  obtain ⟨ks, hks, hhead⟩ := hfrom.link
  obtain ⟨select, schema, table, hselect, hparse, hsource⟩ := hfrom.dataset hlink
  have hnil : ks = [] := List.head?_eq_none_iff.1 (hhead.symm.trans hlink)
  have hends := (linksOfTable_nil_iff (hl.relations.trans hrel) hks).1 hnil
  exact ⟨select, (hasSource_alike hl).1 ⟨o, t, ho, ⟨ts, hts, ht⟩, i.name, hfrom.name, hselect, hends⟩, schema, table, hparse, hsource⟩

theorem Built.reads (hrel : HasRelations layers relations) (h : Built layers relations e) (hi : i ∈ e.inputItems) (hlink : i.link = none) :
    ∃ y select, HasSource layers relations y select ∧ i.ReadsSelect select := by
  cases h with
  | @alone x n groups c hc hn =>
    have hi : i ∈ c.inputs := by simpa [Element.inputItems, elementOf, BodyItem.input?] using hi
    exact ⟨x, hc.reads hrel hi hlink⟩
  | @merged x y n m groups p c r hp hc hn hm hpart hr hfrom hto =>
    have hi : i ∈ p.inputs ∨ i ∈ c.inputs := by
      simpa [Element.inputItems, mergedOf, BodyItem.input?, List.filterMap_map, Function.comp_def] using hi
    rcases hi with hi | hi
    · exact ⟨x, hp.reads hrel hi hlink⟩
    · exact ⟨y, hc.reads hrel hi hlink⟩

/-! ## Remapped sessions -/

/-- What becomes of the procedure of an element when a data source is remapped: it changes just if the select is a segment of the
statements. -/
structure RemapEffect (m : Fields) (k : String) (e : Element) (content content' : String) : Prop where
  changed : ∃ text segs, e.remoteText = .ok text ∧ Splits (tableKeys m) text.toList segs ∧ (content' ≠ content ↔ .key k.toList ∈ segs)
  occurs : content' ≠ content → ∃ text, e.remoteText = .ok text ∧ k.toList <:+: text.toList
  alone : ∀ text, e.remoteText = .ok text → (∀ k' ∈ m.map Prod.fst, k' ≠ k → ¬ k'.toList <:+: text.toList) →
    k.toList <:+: text.toList → content' ≠ content
  reads : ∀ i ∈ e.inputItems, '\x7b' ∉ i.name.toList ∧ '\x7d' ∉ i.name.toList → ∀ text, e.remoteText = .ok text →
    (readText i.name i.source.display).toList <:+: text.toList

def Session.withMapping (s : Session) (m : Fields) : Session :=
  { s with settings := s.settings.set Setting.sourceMapping (.object m) }

/-- The procedure of an element when a remote container is generated, and when it is generated with another mapping instead. -/
structure RemapShows (m : Fields) (k : String) (m' : Fields) (es : List Element) (e : Element) (s : Session) : Prop where
  steps : ∀ modelOnly before t t', passesText (remoteFilters modelOnly) e.name = true → (∀ p ∈ before, ∃ c : ContainerCall, p ∈ c.phases) →
    (before ++ [Phase.other (Container.finishRemote modelOnly)]).forM Phase.run s = .ok () t →
    (before ++ [Phase.other (Container.finishRemote modelOnly)]).forM Phase.run (s.withMapping m') = .ok () t' →
    ∃ content content', WritesInTurn modelOnly before es e s content ∧
      WritesInTurn modelOnly before es e (s.withMapping m') content' ∧ RemapEffect m k e content content'
  generated : ∀ modelOnly mappingOnly t t', passesText (remoteFilters modelOnly) e.name = true →
    Container.generateRemote modelOnly mappingOnly s = .ok () t →
    Container.generateRemote modelOnly mappingOnly (s.withMapping m') = .ok () t' →
    ∃ before content content',
      (ContainerCall.withRemote modelOnly mappingOnly).phases = before ++ [.other (Container.finishRemote modelOnly)] ∧
      WritesInTurn modelOnly before es e s content ∧
      WritesInTurn modelOnly before es e (s.withMapping m') content' ∧ RemapEffect m k e content content'

theorem remapEffect {k v : String} (hself : ∀ p ∈ m, p.2 = .text p.1) (hk : k ∈ m.map Prod.fst) (hempty : k ≠ "") (hv : v ≠ k)
    (hm' : Remaps m k v m') {text sig body body' content content' : String} (htext : e.remoteText = .ok text)
    (hbody : substituteValue (.text text) (.object m) false = .ok body)
    (hbody' : substituteValue (.text text) (.object m') false = .ok body')
    (hcontent : substituteFields (procedureFields body e.name sig) Container.FileText.procedure = .ok content)
    (hcontent' : substituteFields (procedureFields body' e.name sig) Container.FileText.procedure = .ok content') :
    RemapEffect m k e content content' := by
  have hne : m ≠ [] := by
    rintro rfl
    cases hk
  have hkey : k.toList ≠ [] := fun heq => hempty (String.toList_inj.1 heq)
  obtain ⟨segs, hsegs, hout⟩ := (Remaps.self hself k).substitutes hempty hne text
  obtain ⟨segs', hsegs', hout'⟩ := hm'.substitutes hempty hne text
  obtain rfl := hsegs'.unique hsegs
  obtain rfl := ok_unique hbody hout
  obtain rfl := ok_unique hbody' hout'
  have hother : ∀ c, c ≠ k.toList → remapped k v c = remapped k k c := fun c hc => by
    rw [remapped, remapped, if_neg hc, if_neg hc]
  have hdiff : remapped k v k.toList ≠ remapped k k k.toList := by
    rw [remapped, remapped, if_pos rfl, if_pos rfl]
    exact fun heq => hv (String.toList_inj.1 heq)
  have hchanged : content' ≠ content ↔ .key k.toList ∈ segs := by
    rw [Ne, procedureText_eq_iff hcontent' hcontent, String.ofList_inj, flatMap_image_eq_iff hother hdiff, not_not]
  refine ⟨⟨text, segs, htext, hsegs, hchanged⟩, fun h => ⟨text, htext, hsegs.infix_of_mem (hchanged.1 h)⟩, ?_, ?_⟩
  · intro text' htext' hothers hin
    obtain rfl := ok_unique htext htext'
    refine hchanged.2 (hsegs.mem_of_infix (List.mem_map.2 ?_) hkey (fun c hc hne => ?_) hin)
    · obtain ⟨p, hp, rfl⟩ := List.mem_map.1 hk
      exact ⟨p, hp, rfl⟩
    · obtain ⟨p, hp, rfl⟩ := List.mem_map.1 hc
      exact hothers p.1 (List.mem_map_of_mem hp) fun heq => hne (congrArg String.toList heq)
  · intro i hi hname text' htext'
    refine Element.remoteText_reads htext' ?_ hname
    rcases List.mem_append.1 hi with hi | hi
    · exact .inl hi
    · obtain ⟨b, hb, hbi⟩ := List.mem_filterMap.1 hi
      cases b with
      | call c => cases hbi
      | input j =>
        cases hbi
        exact .inr hb

section Showing

variable {k v : String} {schema : Outcome Value} {es : List Element}

theorem listsAfter_withMapping (hs : ListsAfter schema es 0 s.settings) : ListsAfter schema es 0 (s.withMapping m').settings := by
  obtain ⟨hschema, ⟨layers, hl, hes⟩, hnamed⟩ := hs
  exact ⟨(Settings.entry_set_ne (by decide) ..).trans hschema, ⟨layers, (Settings.entry_set_ne (by decide) ..).trans hl, hes⟩, hnamed⟩

theorem remapShows (hs : ListsAfter schema es 0 s.settings) (hm : s.settings.entry Setting.sourceMapping = .ok (.object m))
    (hself : ∀ p ∈ m, p.2 = .text p.1) (hk : k ∈ m.map Prod.fst) (hempty : k ≠ "") (hv : v ≠ k) (hm' : Remaps m k v m') (he : e ∈ es) :
    RemapShows m k m' es e s := by
  have hsteps : ∀ modelOnly before t t', passesText (remoteFilters modelOnly) e.name = true →
      (∀ p ∈ before, ∃ c : ContainerCall, p ∈ c.phases) →
      (before ++ [Phase.other (Container.finishRemote modelOnly)]).forM Phase.run s = .ok () t →
      (before ++ [Phase.other (Container.finishRemote modelOnly)]).forM Phase.run (s.withMapping m') = .ok () t' →
      ∃ content content', WritesInTurn modelOnly before es e s content ∧
        WritesInTurn modelOnly before es e (s.withMapping m') content' ∧ RemapEffect m k e content content' := by
    intro modelOnly before t t' hpass hphases h h'
    obtain ⟨text, sig, body, content, htext, hsig, hbody, hcontent, hturn⟩ := phases_write hphases h hs hm he hpass
    obtain ⟨text', sig', body', content', htext', hsig', hbody', hcontent', hturn'⟩ :=
      phases_write hphases h' (listsAfter_withMapping hs) (Settings.entry_set_self ..) he hpass
    obtain rfl := ok_unique htext htext'
    obtain rfl := ok_unique hsig hsig'
    exact ⟨content, content', hturn, hturn', remapEffect hself hk hempty hv hm' htext hbody hbody' hcontent hcontent'⟩
  refine ⟨hsteps, fun modelOnly mappingOnly t t' hpass h h' => ?_⟩
  let before : List Phase := .other Container.noteRemotePaths :: (containerPhases true true mappingOnly ++
    [.other Container.prepareRemote, .base (Setting.remote Setting.proceduresPath) (if modelOnly then Container.modelFilters else []) true])
  have hphases : (ContainerCall.withRemote modelOnly mappingOnly).phases = before ++ [.other (Container.finishRemote modelOnly)] := by
    simp [before, ContainerCall.phases]
  have hrun : Container.generateRemote modelOnly mappingOnly =
      (before ++ [Phase.other (Container.finishRemote modelOnly)]).forM Phase.run := by
    rw [← hphases, ← ContainerCall.run_eq_phases]
    rfl
  rw [hrun] at h h'
  obtain ⟨content, content', heffect⟩ := hsteps modelOnly before t t' hpass (fun p hp =>
    ⟨_, hphases ▸ List.mem_append_left _ hp⟩) h h'
  exact ⟨before, content, content', hphases, heffect⟩

end Showing

theorem Processed.reads_noted {P : BaseParts → Prop} {s' : Session} {grouped final : Value} {es : List Element}
    (hp : Processed P s s' grouped final relations es) (hm : s.settings.entry Setting.sourceMapping = .ok (.object [])) :
    ∃ m, s'.settings.entry Setting.sourceMapping = .ok (.object m) ∧ SourcesNoted final relations m ∧
      ∀ e ∈ es, ∀ i ∈ e.inputItems, i.link = none → ∃ select ∈ m.map Prod.fst, i.ReadsSelect select := by
  obtain ⟨m, hmap, hnoted⟩ := hp.sourcesNoted hm
  refine ⟨m, hmap, hnoted, fun e he i hi hlink => ?_⟩
  obtain ⟨y, select, hsource, hreads⟩ := (hp.built e he).reads hp.noted hi hlink
  exact ⟨select, (hnoted.noted select).2 (hasSource_iff_inputAt.1 ⟨y, hp.hasSource_iff.2 hsource⟩), hreads⟩

/-- Where a data source of a processed session is mapped to something else, the procedure of an element in a remote container changes just
if the select is a segment of its statements. -/
theorem processTrace_remapping_shows {raiseOnError logStatements own : Bool} {s s' : Session} {u : Unit}
    (h : processTrace raiseOnError logStatements own s = .ok u s')
    (hl : s.settings.entry Setting.layers = .ok (.object []))
    (hm : s.settings.entry Setting.sourceMapping = .ok (.object [])) :
    (s.trace.isTruthy = false ∧ s' = s) ∨ ∃ layers es m, s'.settings.entry Setting.layers = .ok layers ∧
      layers.entry consumptionKey = .ok (.list (es.map Element.toValue)) ∧
      s'.settings.entry Setting.sourceMapping = .ok (.object m) ∧ (∀ p ∈ m, p.2 = .text p.1) ∧
      (∀ e ∈ es, ∀ i ∈ e.inputItems, i.link = none → ∃ select ∈ m.map Prod.fst, i.ReadsSelect select) ∧
      ∀ k ∈ m.map Prod.fst, ∀ v, v ≠ k → ∀ m', Remaps m k v m' → ∀ e ∈ es, RemapShows m k m' es e s' := by
  refine (processTrace_processed storesAs_trivial h hl trivial).imp_right ?_
  rintro ⟨grouped, final, relations, es, hp⟩
  obtain ⟨m, hmap, hnoted, hreads⟩ := hp.reads_noted hm
  refine ⟨final, es, m, hp.layers, hp.listed, hmap, hnoted.itself, hreads, fun k hk v hv m' hm' e he => ?_⟩
  have hempty : k ≠ "" := by
    rintro rfl
    obtain ⟨schema, table, hparse⟩ := hnoted.datasets "" hk
    have hnone : (parseDataset "").1 = none := by decide
    rw [hparse] at hnone
    cases hnone
  exact remapShows (listsAfter_of_processed hp) hmap hnoted.itself hk hempty hv hm' he

def sourcedSession : Session where
  settings := Settings.builtin ++ [(Setting.mergeStrategy, .int 1), (Setting.groupStrategy, .int 1),
    (Setting.layers, .object []), (Setting.entityContext, .text "c"), (Setting.schema, .text "S"),
    (Setting.sourceMapping, .object []), (Setting.remoteSource, .text "r"), (Setting.virtualTablePath, .text "."),
    (Setting.remote Setting.proceduresPath, .text "."), (Setting.remote Setting.entitiesPath, .text ".")]
  trace := .object [("RandomForestClassifier", .object [("F", .object [("sql", .list [.text "DO"]), ("function", .list []),
      ("input_tables", .list [tracedTable "#D" "SELECT * FROM S.T"]), ("output_tables", .list []), ("output_vars", .list [])])])]

def otherMapping : Fields := [("SELECT * FROM S.T", .text "SELECT * FROM S.U")]

/-- Processes a trace and finishes its remote container, once as it is and once from the same session with another mapping. Returns
the session that is processed and what was finished first. -/
def finishTwice (m : Fields) : Job (Session × Session) := do
  processTrace true false true
  let s ← get
  Container.finishRemote false
  let t ← get
  set (s.withMapping m)
  Container.finishRemote false
  return (s, t)

theorem finishTwice_ok {q : Session} {r : Session × Session} (h : finishTwice m q = .ok r t') :
    processTrace true false true q = .ok () r.1 ∧ Container.finishRemote false r.1 = .ok () r.2 ∧
      Container.finishRemote false (r.1.withMapping m) = .ok () t' := by
  simp only [finishTwice, run_bind_ok, run_get_bind, run_set_ok, run_pure_ok] at h
  obtain ⟨_, _, hs, _, _, ht, _, _, rfl, _, _, ht', rfl, rfl⟩ := h
  exact ⟨hs, ht, ht'⟩

def inputPlace (i j : Nat) : Place := [.key consumptionKey, .position i, .key "sql", .key "input", .position j]

def readsFirst (name : String) (layers : Value) : Bool :=
  (layers.at? (inputPlace 0 0)).any fun item => (item.get "name").same (.text name) && !(item.get "hasrel").isTruthy

theorem readsFirst_of_listed {es : List Element} (hes : layers.entry consumptionKey = .ok (.list (es.map Element.toValue)))
    {name : String} (h : readsFirst name layers = true) : ∃ e ∈ es, ∃ i ∈ e.inputItems, i.name = name ∧ i.link = none := by
  have hinputs : ∀ e : Element, e.toValue.at? [.key "sql", .key "input"] = some (.list (e.inputs.map InputItem.toValue)) := by
    intro e
    unfold Element.toValue
    cases e.single <;> rfl
  have hplace : layers.at? (inputPlace 0 0) = es[0]?.bind fun e => e.inputs[0]?.map InputItem.toValue := by
    have hsplit : inputPlace 0 0 = [.key consumptionKey] ++ ([.position 0] ++ ([.key "sql", .key "input"] ++ [.position 0])) := rfl
    rw [hsplit, Value.at?_append, Value.entry_eq_ok_iff.1 hes, Option.bind_some, Value.at?_append]
    simp only [Value.at?, List.getElem?_map]
    cases es[0]? with
    | none => rfl
    | some e =>
      rw [Option.map_some, Option.bind_some, Option.bind_some, Option.bind_some, Value.at?_append, hinputs]
      simp [Value.at?]
  rw [readsFirst, hplace, Option.any_eq_true] at h
  obtain ⟨item, hitem, hreads⟩ := h
  obtain ⟨e, he, hitem⟩ := Option.bind_eq_some_iff.1 hitem
  obtain ⟨i, hi, rfl⟩ := Option.map_eq_some_iff.1 hitem
  have hname : i.toValue.get "name" = .text i.name := rfl
  have hlink : i.toValue.get "hasrel" = .bool i.link.isSome := rfl
  rw [hname, hlink, Bool.and_eq_true, same_text_iff] at hreads
  refine ⟨e, List.mem_of_getElem? he, i, List.mem_append_left _ (List.mem_of_getElem? hi), Value.text.inj hreads.1, ?_⟩
  simpa [Value.isTruthy] using hreads.2

theorem sourcedSession_runs : ∃ s t t' layers, finishTwice otherMapping sourcedSession = .ok (s, t) t' ∧
    s.settings.entry Setting.layers = .ok layers ∧ readsFirst "lt_d_randomforestclassifier_f" layers = true ∧
    notedSelects s = ["SELECT * FROM S.T"] ∧ t'.tree.entries = t.tree.entries := by
  have hrun : succeedsWith (fun r t' => (r.1.settings.entry Setting.layers).toOption.any
        (readsFirst "lt_d_randomforestclassifier_f") && (notedSelects r.1 == ["SELECT * FROM S.T"] &&
          t'.tree.entries == r.2.tree.entries)) (finishTwice otherMapping sourcedSession) = true := by decide +kernel
  obtain ⟨⟨s, t⟩, t', hrun, htest⟩ := exists_of_succeedsWith hrun
  simp only [Bool.and_eq_true, Option.any_eq_true, beq_iff_eq] at htest
  obtain ⟨⟨layers, hl, hreads⟩, hnoted, htree⟩ := htest
  exact ⟨s, t, t', layers, hrun, eq_ok_of_toOption hl, hreads, hnoted, htree⟩

theorem remaps_otherMapping (hm : s.settings.entry Setting.sourceMapping = .ok (.object m)) (h : notedSelects s = ["SELECT * FROM S.T"]) :
    m.map Prod.fst = ["SELECT * FROM S.T"] ∧ Remaps m "SELECT * FROM S.T" "SELECT * FROM S.U" otherMapping := by
  rw [notedSelects, hm] at h
  have hkeys : m.map Prod.fst = ["SELECT * FROM S.T"] := h
  refine ⟨hkeys, ?_, fun p hp => ?_⟩
  · rw [hkeys]
    exact .refl _
  · obtain rfl := List.mem_singleton.1 hp
    rfl

/-- In the sample an element reads the data set, and its procedure is written under either mapping. -/
theorem processTrace_remapping_shows_sample : ∃ s m es e content content',
    processTrace true false true sourcedSession = .ok () s ∧ s.settings.entry Setting.sourceMapping = .ok (.object m) ∧
      e ∈ es ∧ (∃ i ∈ e.inputItems, i.link = none ∧ i.ReadsSelect "SELECT * FROM S.T") ∧
      WritesInTurn false [] es e s content ∧ WritesInTurn false [] es e (s.withMapping otherMapping) content' ∧
      RemapEffect m "SELECT * FROM S.T" e content content' := by
  obtain ⟨s, t, t', layers, hrun, hl, hfirst, hnoted, -⟩ := sourcedSession_runs
  obtain ⟨hs, ht, ht'⟩ := finishTwice_ok hrun
  obtain ⟨hempty, -⟩ | ⟨layers', es, m, hl', hes, hm, -, hreads, hshows⟩ := processTrace_remapping_shows hs rfl rfl
  · exact absurd hempty (by decide)
  obtain rfl := ok_unique hl hl'
  obtain ⟨hkeys, hremaps⟩ := remaps_otherMapping hm hnoted
  obtain ⟨e, he, i, hi, -, hlink⟩ := readsFirst_of_listed hes hfirst
  obtain ⟨select, hselect, hreads⟩ := hreads e he i hi hlink
  rw [hkeys, List.mem_singleton] at hselect
  subst hselect
  have hshow := hshows "SELECT * FROM S.T" (by rw [hkeys]; exact List.mem_singleton_self _) "SELECT * FROM S.U" (by decide) _ hremaps e he
  obtain ⟨content, content', hturn, hturn', heffect⟩ := hshow.steps false [] t t' rfl (by simp) (by simpa [Phase.run] using ht)
    (by simpa [Phase.run] using ht')
  exact ⟨s, m, es, e, content, content', hs, hm, he, ⟨i, hi, hlink, hreads⟩, hturn, hturn', heffect⟩

/-- An element reads a data set by its quoted name, and mapping the select to something else changes nothing. -/
theorem finishRemote_misses_remapping : ∃ s m layers t t', ∃ (es : List Element) (e : Element) (i : InputItem),
    processTrace true false true sourcedSession = .ok () s ∧ s.settings.entry Setting.sourceMapping = .ok (.object m) ∧
      Remaps m "SELECT * FROM S.T" "SELECT * FROM S.U" otherMapping ∧ s.settings.entry Setting.layers = .ok layers ∧
      layers.entry consumptionKey = .ok (.list (es.map Element.toValue)) ∧ e ∈ es ∧ i ∈ e.inputItems ∧ i.link = none ∧
      i.ReadsSelect "SELECT * FROM S.T" ∧ Container.finishRemote false s = .ok () t ∧
      Container.finishRemote false (s.withMapping otherMapping) = .ok () t' ∧ t'.tree.entries = t.tree.entries := by
  obtain ⟨s, t, t', layers, hrun, hl, hfirst, hnoted, htree⟩ := sourcedSession_runs
  obtain ⟨hs, ht, ht'⟩ := finishTwice_ok hrun
  obtain ⟨hempty, -⟩ | ⟨grouped, final, relations, es, hp⟩ := processTrace_processed storesAs_trivial hs rfl trivial
  · exact absurd hempty (by decide)
  obtain rfl := ok_unique hl hp.layers
  obtain ⟨m, hm, -, hreads⟩ := hp.reads_noted rfl
  obtain ⟨hkeys, hremaps⟩ := remaps_otherMapping hm hnoted
  obtain ⟨e, he, i, hi, -, hlink⟩ := readsFirst_of_listed hp.listed hfirst
  obtain ⟨select, hselect, hreads⟩ := hreads e he i hi hlink
  rw [hkeys, List.mem_singleton] at hselect
  subst hselect
  exact ⟨s, m, layers, t, t', es, e, i, hs, hm, hremaps, hl, hp.listed, he, hi, hlink, hreads, ht, ht', htree⟩

end TraceArtifacts
