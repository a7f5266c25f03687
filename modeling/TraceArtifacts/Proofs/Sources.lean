import TraceArtifacts.Proofs.Alike
import TraceArtifacts.Proofs.ElementKeys
import TraceArtifacts.Proofs.Segments

/-!
# Proofs: data sources that are noted

While elements are built, an input that no relation ends in notes its select in the mapping of data sources, to stand for itself.
-/

namespace TraceArtifacts

variable {c : Contribution} {es : List Element} {relations : List Relation} {s s' : PartState} {x : ProcedureName} {st : Settings}
  {P : String → Prop} {k name : String} {groups layers layers' linkType t : Value}

/-! ## Inputs and the relations that end in them -/

def InputAt (layers : Value) (path : String) (t : Value) : Prop :=
  ∃ x o, procedureAt? layers x = some o ∧ procedurePath x = path ∧ TableOf "input_tables" o t

def EndsIn (relations : List Relation) (path : String) (t : Value) : Prop :=
  ∃ r ∈ relations, r.toPath = path ∧ r.toTable = t

def EndsAt (relations : List Relation) (path name : String) : Prop :=
  ∃ r ∈ relations, r.toPath = path ∧ r.toTable.entry "interface_name" = .ok (.text name)

def ReadsSource (relations : List Relation) (path : String) (t : Value) (select : String) : Prop :=
  ∃ name, t.entry "interface_name" = .ok (.text name) ∧ t.entry "select" = .ok (.text select) ∧ ¬ EndsAt relations path name

def HasSource (layers : Value) (relations : List Relation) (x : ProcedureName) (select : String) : Prop :=
  ∃ o t, procedureAt? layers x = some o ∧ TableOf "input_tables" o t ∧ ReadsSource relations (procedurePath x) t select

theorem isAtTable_iff {r : Relation} : r.isAtTable .incoming x (.text name) = true ↔
      r.toPath = procedurePath x ∧ r.toTable.entry "interface_name" = .ok (.text name) := by
  rw [Relation.isAtTable, Bool.and_eq_true, beq_iff_eq, same_text_iff]
  exact and_congr_right fun _ =>
    ⟨Graph.entry_of_get_text, fun h => Value.get_of_entry h .null⟩

theorem linksOfTable_nil_iff (hrel : HasRelations layers relations) {ks : List Link}
    (h : linksOfTable layers .incoming (.text x.1) (.text x.2) (.text name) = .ok ks) :
    ks = [] ↔ ¬ EndsAt relations (procedurePath x) name := by
  have hlen := (linksOfTable_ok hrel h).length_eq
  have hnil : ks = [] ↔ relations.filter (Relation.isAtTable .incoming x (.text name)) = [] := by
    rw [← List.length_eq_zero_iff, ← List.length_eq_zero_iff, hlen]
  rw [hnil, List.filter_eq_nil_iff]
  simp only [isAtTable_iff, EndsAt, not_exists, not_and]

theorem HasSource.sameBut (h : ∀ {x o}, procedureAt? layers x = some o → ∃ o', procedureAt? layers' x = some o' ∧ o.SameBut [mergedKey] o')
    (hx : HasSource layers relations x k) : HasSource layers' relations x k := by
  obtain ⟨o, t, ho, ⟨ts, hts, ht⟩, hreads⟩ := hx
  obtain ⟨o', ho', hs⟩ := h ho
  exact ⟨o', t, ho', ⟨ts, (hs.partsUnder (by decide)).trans hts, ht⟩, hreads⟩

theorem hasSource_alike (h : Alike [mergedKey] layers layers') : HasSource layers' relations x k ↔ HasSource layers relations x k :=
  ⟨.sameBut h.symm.procedure, .sameBut h.procedure⟩

/-! ## Noting -/

def IsDataset (select : String) : Prop := ∃ schema table, parseDataset select = (some schema, table)

def Notes (st : Settings) (P : String → Prop) : Prop :=
  ∃ m : Fields, st.entry Setting.sourceMapping = .ok (.object m) ∧ (m.map Prod.fst).Nodup ∧
    (∀ p ∈ m, IsDataset p.1) ∧ ∀ k v, m.lookup k = some v ↔ v = .text k ∧ P k

theorem Notes.congr {Q : String → Prop} (h : Notes st P) (hPQ : ∀ k, P k ↔ Q k) : Notes st Q := by
  obtain ⟨m, hm, hnodup, hsets, hlookup⟩ := h
  exact ⟨m, hm, hnodup, hsets, fun k v => by rw [hlookup, hPQ]⟩

theorem noteSource_notes {select : String} {u : Unit} (h : noteSource (.text select) s = .ok u s') (hselect : IsDataset select)
    (hs : Notes s.settings P) : Notes s'.settings fun k => P k ∨ k = select := by
  obtain ⟨m, hm, hnodup, hsets, hlookup⟩ := hs
  simp only [noteSource, run_parts, run_modify_ok] at h
  obtain ⟨_, hm', mapping, hset, rfl⟩ := h
  obtain rfl := ok_unique hm hm'
  obtain rfl : Value.object (Fields.set select (.text select) m) = mapping := Except.ok.inj hset
  refine ⟨_, Settings.entry_set_self .., Fields.nodup_keys_set _ _ hnodup, fun p hp => ?_, fun k v => ?_⟩
  · rcases Fields.mem_set hp with rfl | hp
    · exact hselect
    · exact hsets p hp
  · rw [Fields.lookup_set]
    by_cases hk : k = select
    · subst hk
      simp [eq_comm]
    · simp [hk, hlookup]

theorem buildInput_notes (hrel : HasRelations layers relations) {n : Nat} {i : InputItem}
    (h : buildInput layers (.text x.1) (.text x.2) linkType t n s = .ok i s') (hs : Notes s.settings P) :
    Notes s'.settings fun k => P k ∨ ReadsSource relations (procedurePath x) t k := by
  simp only [buildInput, run_parts] at h
  obtain ⟨interface, hi, _, -, _, -, _, t1, ht1, ks, hks, h⟩ := h
  obtain rfl : t1 = s := reading_ok structureColumns_ok ht1
  cases ks with
  | cons k ks =>
    simp only [run_parts, run_pure_ok] at h
    obtain ⟨_, -, name, hname, -, rfl⟩ := h
    obtain rfl := asText_ok.1 hname
    have hends : EndsAt relations (procedurePath x) name :=
      not_not.1 fun hends => List.cons_ne_nil k ks ((linksOfTable_nil_iff hrel hks).2 hends)
    refine hs.congr fun select => (or_iff_left ?_).symm
    rintro ⟨name', hname', -, hnot⟩
    obtain rfl := Value.text.inj (ok_unique hi hname')
    exact hnot hends
  | nil =>
    simp only [run_parts, run_pure_ok] at h
    obtain ⟨⟨select, source, synonym⟩, hnames, _, t2, ht2, name, hname, -, rfl⟩ := h
    obtain rfl := asText_ok.1 hname
    obtain ⟨text, schema, table, hselect, hparse, htext, -⟩ := sourceNames_ok hnames
    obtain rfl : select = .text text := htext
    have hends : ¬ EndsAt relations (procedurePath x) name := (linksOfTable_nil_iff hrel hks).1 rfl
    refine (noteSource_notes ht2 ⟨schema, table, hparse⟩ hs).congr fun k => or_congr_right ⟨?_, ?_⟩
    · rintro rfl
      exact ⟨name, hi, hselect, hends⟩
    · rintro ⟨-, -, hk, -⟩
      exact Value.text.inj (ok_unique hk hselect)

theorem contribution_notes (hrel : HasRelations layers relations) (h : contribution layers (.text x.1) (.text x.2) linkType s = .ok c s')
    (hs : Notes s.settings P) :
    Notes s'.settings fun k => P k ∨ ∃ t, TableOf "input_tables" s.object t ∧ ReadsSource relations (procedurePath x) t k := by
  simp only [contribution, run_parts, run_pure_ok] at h
  obtain ⟨ts, hts, inputs, t1, h1, us, -, tables, t2, h2, vs, -, vars, t3, h3, names, -, procedure, -, -, rfl⟩ := h
  -- outputs are built after the inputs and note nothing
  have hout := mapM_run_ok (I := fun _ t => t = t1) (R := fun _ _ => True)
    (fun p _ t o t' hI hp => ⟨(buildOutputTable_ok hp).1.trans hI, trivial⟩) rfl h2
  have hvar := mapM_run_ok (I := fun _ t => t = t2) (R := fun _ _ => True)
    (fun p _ t o t' hI hp => ⟨(run_lift_ok.1 hp).2.symm.trans hI, trivial⟩) rfl h3
  obtain rfl := hout.1
  obtain rfl := hvar.1
  -- the inputs, one after the other: those before the rest have noted what they read
  have hin := mapM_run_ok (R := fun _ _ => True) (I := fun rest (t : PartState) => ∃ before, ts.zipIdx = before ++ rest ∧
      Notes t.settings fun k => P k ∨ ∃ p ∈ before, ReadsSource relations (procedurePath x) p.1 k)
    (fun p rest t i t' hI hp => by
      obtain ⟨before, hsplit, hnotes⟩ := hI
      refine ⟨⟨before ++ [p], by rw [hsplit, List.append_assoc]; rfl, ?_⟩, trivial⟩
      refine (buildInput_notes hrel hp hnotes).congr fun k => ?_
      simp only [List.mem_append, List.mem_singleton, or_and_right, exists_or, exists_eq_left, or_assoc])
    ⟨[], rfl, hs.congr fun k => by simp⟩ h1
  obtain ⟨⟨before, hsplit, hnotes⟩, -⟩ := hin
  rw [List.append_nil] at hsplit
  refine hnotes.congr fun k => or_congr_right ?_
  rw [← hsplit, exists_mem_zipIdx (P := fun t => ReadsSource relations (procedurePath x) t k)]
  constructor
  · rintro ⟨t, ht, hk⟩
    exact ⟨t, ⟨ts, hts, ht⟩, hk⟩
  · rintro ⟨t, ⟨ts', hts', ht⟩, hk⟩
    obtain rfl := ok_unique hts hts'
    exact ⟨t, ht, hk⟩

theorem contributionOf_notes {s s' : BuildState} (hrel : HasRelations s.layers relations)
    (h : contributionOf (addressOf x) linkType s = .ok c s') (hs : Notes s.settings P) :
    Notes s'.settings fun k => P k ∨ HasSource s.layers relations x k := by
  obtain ⟨o, p, ho, hc, rfl⟩ := contributionOf_iff.1 h
  refine (contribution_notes hrel hc hs).congr fun k => or_congr_right ⟨?_, ?_⟩
  · rintro ⟨t, ht, hk⟩
    exact ⟨o, t, ho, ht, hk⟩
  · rintro ⟨o', t, ho', ht, hk⟩
    obtain rfl := Option.mem_unique ho ho'
    exact ⟨t, ht, hk⟩

/-! ## Every procedure is asked -/

def NamesInputs (layers : Value) (x : ProcedureName) : Prop :=
  ∀ {o t}, procedureAt? layers x = some o → TableOf "input_tables" o t → ∃ name, t.entry "interface_name" = .ok (.text name)

/-- Elements are being built: some procedures have been asked for their parts, among them all that have been taken into an
element, and the mapping holds what these read. -/
structure Visited (layers : Value) (relations : List Relation) (asked : List ProcedureName) (s : BuildState) : Prop where
  alike : Alike [mergedKey] layers s.layers
  named : ∀ x ∈ asked, NamesInputs layers x
  notes : Notes s.settings fun k => ∃ x ∈ asked, HasSource layers relations x k
  marked : ∀ y, IsMarked s.layers y → y ∈ asked

section Visits

variable {asked : List ProcedureName} {s s' : BuildState}

theorem Visited.contribute (hrel : HasRelations layers relations) (h : Visited layers relations asked s)
    (hc : contributionOf (addressOf x) linkType s = .ok c s') : Visited layers relations (x :: asked) s' := by
  obtain ⟨hl, -, o, ho, hcon⟩ := contributionOf_ok hc
  have hnotes := contributionOf_notes (h.alike.relations.trans hrel) hc h.notes
  refine ⟨by rw [hl]; exact h.alike, List.forall_mem_cons.2 ⟨?_, h.named⟩, hnotes.congr fun k => ?_, fun y hy => ?_⟩
  · obtain ⟨ts, hts, hinputs⟩ := hcon.inputs
    obtain ⟨o', ho', hs⟩ := h.alike.procedure' ho
    rintro o1 t ho1 ⟨ts', hts', ht⟩
    obtain rfl := Option.mem_unique ho' ho1
    rw [← hs.partsUnder (by decide)] at hts'
    obtain rfl := ok_unique hts hts'
    obtain ⟨i, -, hi⟩ := forall₂_mem_left hinputs ht
    exact ⟨i.name, hi.name⟩
  · simp only [hasSource_alike h.alike, List.mem_cons, or_and_right, exists_or, exists_eq_left]
    exact or_comm
  · rw [hl] at hy
    exact List.mem_cons_of_mem _ (h.marked y hy)

theorem Visited.mark (h : Visited layers relations asked s) (hx : x ∈ asked) {u : Unit}
    (hm : markMerged (addressOf x) s = .ok u s') : Visited layers relations asked s' where
  alike := markMerged_alike hm h.alike
  named := h.named
  notes := by
    obtain ⟨o, o', -, -, rfl⟩ := markMerged_ok hm
    exact h.notes
  marked := fun y hy => by
    rcases (markMerged_marked hm y).1 hy with rfl | hy
    · exact hx
    · exact h.marked y hy

theorem Visited.alone (h : Visited layers relations asked s) (hx : x ∈ asked)
    (he : aloneElements (.text x.1) (.text x.2) groups c s = .ok es s') : Visited layers relations asked s' := by
  simp only [aloneElements, run_parts, run_pure_ok] at he
  obtain ⟨e, -, _, t, ht, -, rfl⟩ := he
  exact h.mark hx ht

def VisitedMore (layers : Value) (relations : List Relation) (asked : List ProcedureName) (s : BuildState) : Prop :=
  ∃ asked', asked ⊆ asked' ∧ Visited layers relations asked' s

theorem Visited.mergeChild (hrel : HasRelations layers relations) (h : Visited layers relations asked s) {algo function : Value}
    {p : Contribution} {k : Link} {y : ProcedureName} (hk : k.path = .text (procedurePath y)) {e : Element}
    (he : mergeChild algo function groups p k s = .ok e s') : VisitedMore layers relations asked s' := by
  simp only [TraceArtifacts.mergeChild, hk, run_parts, run_pure_ok, ofPath_procedurePath] at he
  obtain ⟨_, ⟨-, rfl⟩, c, t, hc, e', -, _, t', ht', -, rfl⟩ := he
  exact ⟨y :: asked, List.subset_cons_self .., (h.contribute hrel hc).mark List.mem_cons_self ht'⟩

theorem Visited.partition (hrel : HasRelations layers relations) (h : Visited layers relations asked s) (hx : x ∈ asked)
    {children : List Link} (hk : ∀ k ∈ children, ∃ y, k.path = .text (procedurePath y))
    (he : partitionElements (.text x.1) (.text x.2) groups c children s = .ok es s') : VisitedMore layers relations asked s' := by
  simp only [partitionElements, run_bind_ok, run_pure_ok] at he
  obtain ⟨es', t, hes, _, t', ht', -, rfl⟩ := he
  have hrun := mapM_run_ok (R := fun _ _ => True)
    (I := fun rest (t : BuildState) => VisitedMore layers relations asked t ∧ ∀ k ∈ rest, k ∈ children)
    (fun k rest t e t' hI hke => by
      obtain ⟨⟨asked', hsub, ht⟩, hrest⟩ := hI
      obtain ⟨y, hpath⟩ := hk k (hrest k List.mem_cons_self)
      obtain ⟨asked'', hsub', ht'⟩ := ht.mergeChild hrel hpath hke
      exact ⟨⟨⟨asked'', List.Subset.trans hsub hsub', ht'⟩, fun k' hk' => hrest k' (.tail _ hk')⟩, trivial⟩)
    ⟨⟨asked, List.Subset.refl _, h⟩, fun _ hk => hk⟩ hes
  obtain ⟨⟨⟨asked', hsub, ht⟩, -⟩, -⟩ := hrun
  exact ⟨asked', hsub, ht.mark (hsub hx) ht'⟩

theorem buildElements_visited (hrel : HasRelations layers relations) (hpair : Paired relations) (hs : Visited layers relations asked s)
    (h : buildElements (.text x.1) (.text x.2) (.text storedLink) s = .ok es s') :
    ∃ asked', asked ⊆ asked' ∧ x ∈ asked' ∧ Visited layers relations asked' s' := by
  obtain ⟨_, groups, m, -, -, -, ⟨hmarked, -, rfl⟩ | ⟨-, c, t, hc, h⟩⟩ := buildElements_cases h
  · exact ⟨asked, List.Subset.refl _, hs.marked x hmarked, hs⟩
  have ht := hs.contribute hrel hc
  have hx : x ∈ x :: asked := List.mem_cons_self
  -- whatever comes of it, it has been asked
  have hmore : VisitedMore layers relations (x :: asked) s' := by
    split at h
    · rcases mergedElements_cases h with ⟨-, rfl⟩ | h | ⟨_, children, -, -, hchildren, h⟩
      · exact ⟨_, List.Subset.refl _, ht⟩
      · exact ⟨_, List.Subset.refl _, ht.alone hx h⟩
      · refine ht.partition hrel hx (fun k hk => ?_) h
        obtain ⟨y, r, hy, -⟩ := outgoing_links (hs.alike.relations.trans hrel) hpair hchildren hk
        exact ⟨y, hy⟩
    · exact ⟨_, List.Subset.refl _, ht.alone hx h⟩
  obtain ⟨asked', hsub, ht'⟩ := hmore
  exact ⟨asked', List.Subset.trans (List.subset_cons_self ..) hsub, hsub hx, ht'⟩

end Visits

theorem buildConsumption_notes {s s' : BuildState} (h : buildConsumption s = .ok es s') (hf : FreshBase s.layers)
    (hrel : HasRelations s.layers relations) (hpair : Paired relations)
    (hnone : s.settings.entry Setting.sourceMapping = .ok (.object [])) :
    (Notes s'.settings fun k => ∃ x, HasSource s.layers relations x k) ∧ ∀ x, NamesInputs s.layers x := by
  rw [buildConsumption_eq hf.base] at h
  obtain ⟨ess, t, hrun, h⟩ := run_bind_ok.1 h
  cases h
  have hstart : Visited s.layers relations [] s :=
    ⟨.refl _ hf.base hf.records, by simp, ⟨[], hnone, List.nodup_nil, by simp, by simp⟩, fun y hy => absurd hy (hf.not_marked y)⟩
  have hvisits := mapM_run_ok (R := fun _ _ => True) (I := fun rest (t : BuildState) => ∃ asked, Visited s.layers relations asked t ∧
      ∀ x ∈ procedureNames s.layers, x ∈ asked ∨ x ∈ rest)
    (fun x rest t es t' hI hx => by
      obtain ⟨asked, ht, hall⟩ := hI
      obtain ⟨asked', hsub, hmem, ht'⟩ := buildElements_visited hrel hpair ht hx
      refine ⟨⟨asked', ht', fun y hy => ?_⟩, trivial⟩
      rcases hall y hy with hy | hy
      · exact .inl (hsub hy)
      · rcases List.mem_cons.1 hy with rfl | hy
        · exact .inl hmem
        · exact .inr hy)
    ⟨[], hstart, fun x hx => .inr hx⟩ hrun
  obtain ⟨⟨asked, ht, hall⟩, -⟩ := hvisits
  have hasked : ∀ {x o}, procedureAt? s.layers x = some o → x ∈ asked := fun ho =>
    (hall _ ((mem_procedureNames hf.base).2 ⟨_, ho⟩)).resolve_right List.not_mem_nil
  refine ⟨ht.notes.congr fun k => ⟨?_, ?_⟩, fun x o t ho => ht.named x (hasked ho) ho⟩
  · rintro ⟨x, -, hx⟩
    exact ⟨x, hx⟩
  · rintro ⟨x, o, t, ho, hx⟩
    exact ⟨x, hasked ho, o, t, ho, hx⟩

/-! ## A mapping to itself -/

theorem mapSources_self {m : Fields} (hm : st.entry Setting.sourceMapping = .ok (.object m)) (hne : m ≠ [])
    (hself : ∀ p ∈ m, p.2 = .text p.1) (text : String) : st.mapSources (.text text) = .ok text := by
  have hvalue : ∀ p ∈ m, Text.inserted p.2 = .ok (id p.1.toList) := by
    intro p hp
    rw [hself p hp]
    rfl
  obtain ⟨segs, hsplits, hout⟩ := substituteValue_splits hne hvalue rfl text
  have himages : segs.flatMap (Text.Segment.image id) = segs.flatMap Text.Segment.source :=
    List.flatMap_congr fun seg _ => by cases seg <;> rfl
  rw [Settings.mapSources, hm]
  show substituteValue (.text text) (.object m) false = .ok text
  rw [hout, himages, hsplits.sources, String.ofList_toList]

def MapsToItself (st : Settings) : Prop := ∀ text, st.mapSources (.text text) = .ok text

theorem MapsToItself.set (h : MapsToItself st) (hk : Setting.sourceMapping ≠ k) (v : Value) : MapsToItself (st.set k v) := by
  intro text
  rw [Settings.mapSources, Settings.entry_set_ne hk]
  exact h text

/-! ## Containers of such a mapping -/

namespace Container

theorem unnoted_mapsToItself : Unnoted MapsToItself := by
  intro st k v hk h
  have hall : ∀ k ∈ notedKeys, Setting.sourceMapping ≠ k := by decide
  exact h.set (hall k hk) v

theorem mapsAlike_mapsToItself (b b' : Bool) : MapsAlike (Both (WithSettings MapsToItself)) b b' := by
  have hmapped : ∀ (b : Bool) {s : Session} (text : String), WithSettings MapsToItself s → mappedIf b text s = .ok text s := by
    intro b s text hs
    cases b with
    | false => rfl
    | true => exact run_lift_of_ok (hs text)
  rintro text s _ ⟨rfl, hs⟩
  rw [hmapped b text hs, hmapped b' text hs]
  exact .ok ⟨rfl, hs⟩

theorem writeAll_agree (b b' baseLayer consumptionLayer : Bool) {s : Session} (hs : MapsToItself s.settings) :
    writeAll baseLayer consumptionLayer b s = writeAll baseLayer consumptionLayer b' s := by
  have hE : FilesDiffer (Both (WithSettings MapsToItself)) := by
    refine filesDiffer_both fun f g hf h text => ?_
    rw [Settings.mapSources, hf]
    exact h text
  have hends := writeAll_both keeps_writeFile hE (mapsAlike_mapsToItself b b') (mapsAlike_mapsToItself _ _) hs baseLayer consumptionLayer
  generalize writeAll baseLayer consumptionLayer b s = r at hends ⊢
  generalize writeAll baseLayer consumptionLayer b' s = r' at hends ⊢
  cases hends with
  | ok h => rw [h.1]
  | error h => rw [h.1]

theorem generate_agree (b b' baseLayer consumptionLayer : Bool) {s : Session} (hs : MapsToItself s.settings) :
    generate baseLayer consumptionLayer b s = generate baseLayer consumptionLayer b' s := by
  rw [generate_eq_writeAll, generate_eq_writeAll]
  refine run_bind_congr rfl fun _ s1 hnote => run_bind_congr rfl fun _ s2 hpath => run_bind_congr rfl fun _ s3 hmodule => ?_
  refine run_bind_congr rfl fun _ s4 hlay => writeAll_agree b b' baseLayer consumptionLayer ?_
  have hs1 : WithSettings MapsToItself s1 := keeps_notePaths unnoted_mapsToItself hnote hs
  exact keeps_layOut _ _ _ hlay (keeps_setting _ hmodule (keeps_setting _ hpath hs1))

end Container

/-! ## Processed sessions -/

def NamedApart (layers : Value) (relations : List Relation) : Prop :=
  ∀ path t t' name, InputAt layers path t → InputAt layers path t' →
    t.entry "interface_name" = .ok (.text name) → t'.entry "interface_name" = .ok (.text name) →
    EndsIn relations path t → EndsIn relations path t'

/-- The mapping of a processed session. -/
structure SourcesNoted (layers : Value) (relations : List Relation) (m : Fields) : Prop where
  nodup : (m.map Prod.fst).Nodup
  itself : ∀ p ∈ m, p.2 = .text p.1
  datasets : ∀ k ∈ m.map Prod.fst, IsDataset k
  noted : ∀ k, k ∈ m.map Prod.fst ↔ ∃ path t, InputAt layers path t ∧ ReadsSource relations path t k
  apart : NamedApart layers relations → ∀ k, k ∈ m.map Prod.fst ↔
    ∃ path t, InputAt layers path t ∧ t.entry "select" = .ok (.text k) ∧ ¬ EndsIn relations path t

theorem NamedApart.readsSource_iff (h : NamedApart layers relations) (hgrounded : ∀ r ∈ relations, InputAt layers r.toPath r.toTable)
    {path : String} (ht : InputAt layers path t) (hname : t.entry "interface_name" = .ok (.text name)) :
    ReadsSource relations path t k ↔ t.entry "select" = .ok (.text k) ∧ ¬ EndsIn relations path t := by
  constructor
  · rintro ⟨name', hname', hk, hends⟩
    refine ⟨hk, ?_⟩
    rintro ⟨r, hr, hpath, rfl⟩
    exact hends ⟨r, hr, hpath, hname'⟩
  · rintro ⟨hk, hends⟩
    refine ⟨name, hname, hk, ?_⟩
    rintro ⟨r, hr, rfl, hr'⟩
    exact hends (h _ _ _ name (hgrounded r hr) ht hr' hname ⟨r, hr, rfl, rfl⟩)

theorem hasSource_iff_inputAt : (∃ x, HasSource layers relations x k) ↔
      ∃ path t, InputAt layers path t ∧ ReadsSource relations path t k := by
  constructor
  · rintro ⟨x, o, t, ho, ht, hk⟩
    exact ⟨procedurePath x, t, ⟨x, o, ho, rfl, ht⟩, hk⟩
  · rintro ⟨_, t, ⟨x, o, ho, rfl, ht⟩, hk⟩
    exact ⟨x, o, t, ho, ht, hk⟩

theorem Notes.mem_keys (h : Notes st P) : ∃ m : Fields, st.entry Setting.sourceMapping = .ok (.object m) ∧ (m.map Prod.fst).Nodup ∧
      (∀ p ∈ m, p.2 = .text p.1 ∧ IsDataset p.1) ∧ ∀ k, k ∈ m.map Prod.fst ↔ P k := by
  obtain ⟨m, hm, hnodup, hsets, hlookup⟩ := h
  refine ⟨m, hm, hnodup, fun p hp => ⟨((hlookup p.1 p.2).1 (Fields.lookup_of_mem hnodup hp)).1, hsets p hp⟩, fun k => ?_⟩
  constructor
  · intro hk
    obtain ⟨p, hp, rfl⟩ := List.mem_map.1 hk
    exact ((hlookup p.1 p.2).1 (Fields.lookup_of_mem hnodup hp)).2
  · intro hk
    exact List.mem_map_of_mem (Fields.mem_of_lookup ((hlookup k _).2 ⟨rfl, hk⟩))

namespace Processed

variable {P : BaseParts → Prop} {s s' : Session} {grouped final : Value} {elements : List Element}
  (hp : Processed P s s' grouped final relations elements)
include hp

theorem hasSource_iff : HasSource final relations x k ↔ HasSource grouped relations x k := ⟨.sameBut fun ho => by
    obtain ⟨o', ho', hs⟩ := hp.procedure' ho
    exact ⟨o', ho', hs.symm⟩, .sameBut hp.procedure⟩

theorem inputAt_grounded : ∀ r ∈ relations, InputAt final r.toPath r.toTable := by
  intro r hr
  obtain ⟨x, y, hjoins⟩ := buildRelations_grounded hp.base hp.relations_final hr
  obtain ⟨o, ho, -, ht⟩ := hjoins.reader
  exact ⟨y, o, ho, hjoins.toPath.symm, ht⟩

theorem sourcesNoted (hm : s.settings.entry Setting.sourceMapping = .ok (.object [])) :
    ∃ m, s'.settings.entry Setting.sourceMapping = .ok (.object m) ∧ SourcesNoted final relations m := by
  obtain ⟨settings, b, hst, hb, hbase, hkept⟩ := hp.run
  have hnone : settings.entry Setting.sourceMapping = .ok (.object []) := by rw [hst _ (by decide), hm]
  obtain ⟨hnotes, hnamed⟩ := buildConsumption_notes hb hp.fresh hp.noted (buildRelations_paired hp.fresh.base hp.related) hnone
  obtain ⟨m, hmap, hnodup, hself, hkeys⟩ := hnotes.mem_keys
  have hnoted : ∀ k, k ∈ m.map Prod.fst ↔ ∃ path t, InputAt final path t ∧ ReadsSource relations path t k := by
    intro k
    rw [hkeys, ← hasSource_iff_inputAt]
    exact exists_congr fun x => hp.hasSource_iff.symm
  have hname : ∀ path t, InputAt final path t → ∃ name, t.entry "interface_name" = .ok (.text name) := by
    rintro _ t ⟨x, o, ho, rfl, ts, hts, ht⟩
    obtain ⟨o', ho', hs⟩ := hp.procedure' ho
    rw [hs.partsUnder (by decide)] at hts
    exact hnamed x ho' ⟨ts, hts, ht⟩
  refine ⟨m, (hkept _ (by decide)).trans hmap, hnodup, fun p hp => (hself p hp).1, fun k hk => ?_, hnoted, fun hapart k => ?_⟩
  · obtain ⟨p, hp, rfl⟩ := List.mem_map.1 hk
    exact (hself p hp).2
  rw [hnoted]
  refine exists_congr fun path => exists_congr fun t => and_congr_right fun ht => ?_
  obtain ⟨name, hname⟩ := hname path t ht
  exact hapart.readsSource_iff hp.inputAt_grounded ht hname

end Processed

/-- The mapping of data sources after a trace has been processed: it notes what is read and nothing else, and while it is kept it
changes no text, so that a container is the same whether it is used for base procedures or for elements. -/
theorem processTrace_notes_sources {raiseOnError logStatements own : Bool} {s s' : Session} {u : Unit}
    (h : processTrace raiseOnError logStatements own s = .ok u s')
    (hl : s.settings.entry Setting.layers = .ok (.object []))
    (hm : s.settings.entry Setting.sourceMapping = .ok (.object [])) :
    (s.trace.isTruthy = false ∧ s' = s) ∨ ∃ layers relations m,
      s'.settings.entry Setting.layers = .ok layers ∧ buildRelations layers = .ok relations ∧
      s'.settings.entry Setting.sourceMapping = .ok (.object m) ∧ SourcesNoted layers relations m ∧
      (m ≠ [] → (∀ text, s'.settings.mapSources (.text text) = .ok text) ∧
        ∀ baseLayer consumptionLayer t, t.settings.entry Setting.sourceMapping = .ok (.object m) →
          Container.generate baseLayer consumptionLayer true t = Container.generate baseLayer consumptionLayer false t) := by
  refine (processTrace_processed storesAs_trivial h hl trivial).imp_right ?_
  rintro ⟨grouped, final, relations, elements, hp⟩
  obtain ⟨m, hmap, hnoted⟩ := hp.sourcesNoted hm
  refine ⟨final, relations, m, hp.layers, hp.relations_final, hmap, hnoted, fun hne => ⟨?_, ?_⟩⟩
  · exact mapSources_self hmap hne hnoted.itself
  · intro baseLayer consumptionLayer t ht
    exact Container.generate_agree true false baseLayer consumptionLayer (mapSources_self ht hne hnoted.itself)

def notedSelects (s : Session) : List String :=
  ((s.settings.entry Setting.sourceMapping).toOption.getD .null).toFields.map Prod.fst

def clashingSession : Session where
  settings := partitioningSession.settings
  trace := .object [("RandomForestClassifier", .object
    [("Partition", tracedStep (tracedTable "#X" "SELECT * FROM S.X") (tracedTable "#P" "SELECT * FROM #P")),
     ("Fit", (tracedStep .null (tracedTable "#M" "SELECT * FROM #M")).withEntries
       [("input_tables", .list [tracedTable "#D" "SELECT * FROM S.T", tracedTable "D" "SELECT * FROM #P"])])])]

theorem clashingSession_notes : ∃ s' layers relations path t,
    processTrace true false true clashingSession = .ok () s' ∧ s'.settings.entry Setting.layers = .ok layers ∧
      buildRelations layers = .ok relations ∧ notedSelects s' = ["SELECT * FROM S.X"] ∧ InputAt layers path t ∧
      t.entry "select" = .ok (.text "SELECT * FROM S.T") ∧ ¬ EndsIn relations path t := by
  have hrun : succeedsWith (fun layers s' => notedSelects s' == ["SELECT * FROM S.X"] &&
      (((buildRelations layers).toOption.any fun relations =>
        relations.all fun r => !(r.toTable.get "select").same (.text "SELECT * FROM S.T")) &&
      ((procedureAt? layers ("RandomForestClassifier", "Fit")).any fun o =>
        (partsUnder "input_tables" o).toOption.any fun ts =>
          ts.any fun t => (t.get "select").same (.text "SELECT * FROM S.T"))))
      ((do
        processTrace true false true
        Job.layers : Job Value) clashingSession) = true := by decide +kernel
  obtain ⟨layers, s', h, htest⟩ := exists_of_succeedsWith hrun
  simp only [run_bind_ok, Job.layers_ok] at h
  obtain ⟨_, _, h, hl, rfl⟩ := h
  simp only [Bool.and_eq_true, Option.any_eq_true, List.any_eq_true, List.all_eq_true, Bool.not_eq_true',
    same_text_iff, beq_iff_eq] at htest
  obtain ⟨hnoted, ⟨relations, hrel, hends⟩, o, ho, ts, hts, t, ht, hselect⟩ := htest
  refine ⟨_, layers, relations, _, t, h, hl, eq_ok_of_toOption hrel, hnoted,
    ⟨_, o, ho, rfl, ts, eq_ok_of_toOption hts, ht⟩, Graph.entry_of_get_text hselect, ?_⟩
  rintro ⟨r, hr, -, rfl⟩
  have hne := hends r hr
  rw [same_text_iff.2 hselect] at hne
  cases hne

/-- In the sample a partition takes in its reader, and what it reads itself is noted. -/
theorem processTrace_notes_sources_sample : ∃ s' layers relations m,
    processTrace true false true clashingSession = .ok () s' ∧ s'.settings.entry Setting.layers = .ok layers ∧
      s'.settings.entry Setting.sourceMapping = .ok (.object m) ∧ m.map Prod.fst = ["SELECT * FROM S.X"] ∧
      SourcesNoted layers relations m ∧ s'.settings.mapSources (.text "FROM S.X") = .ok "FROM S.X" ∧
      Container.generate true true true s' = Container.generate true true false s' := by
  obtain ⟨s', -, -, -, -, h, -, -, hselects, -⟩ := clashingSession_notes
  rcases processTrace_notes_sources h rfl rfl with ⟨hempty, -⟩ | ⟨layers, relations, m, hl, -, hmap, hnoted, hself⟩
  · exact absurd hempty (by decide)
  rw [notedSelects, hmap] at hselects
  have hm : m.map Prod.fst = ["SELECT * FROM S.X"] := hselects
  have hne : m ≠ [] := by
    rintro rfl
    cases hm
  obtain ⟨hmaps, hgenerate⟩ := hself hne
  exact ⟨s', layers, relations, m, h, hl, hmap, hm, hnoted, hmaps _, hgenerate _ _ _ hmap⟩

/-- A data set that is read is not noted, since another input of the same name is related. -/
theorem processTrace_misses_source : ∃ s' layers relations path t,
    processTrace true false true clashingSession = .ok () s' ∧ s'.settings.entry Setting.layers = .ok layers ∧
      buildRelations layers = .ok relations ∧ InputAt layers path t ∧
      t.entry "select" = .ok (.text "SELECT * FROM S.T") ∧ ¬ EndsIn relations path t ∧
      "SELECT * FROM S.T" ∉ notedSelects s' := by
  obtain ⟨s', layers, relations, path, t, h, hl, hrel, hselects, ht, hselect, hends⟩ := clashingSession_notes
  refine ⟨s', layers, relations, path, t, h, hl, hrel, ht, hselect, hends, ?_⟩
  rw [hselects]
  simp

end TraceArtifacts
