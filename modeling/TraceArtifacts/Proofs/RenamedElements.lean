import TraceArtifacts.Proofs.Consumption
import TraceArtifacts.Proofs.Identifiers

/-!
# Proofs: elements under other identifiers

Elements and their links show the groups of procedures and do nothing else with them.
-/

namespace TraceArtifacts

variable {attr k key : String}

/-! ## Elements -/

def InputItem.renamed (σ : String → String) (i : InputItem) : InputItem := { i with link := i.link.map (Link.renamed σ) }

def BodyItem.renamed (σ : String → String) : BodyItem → BodyItem
  | .call c => .call c
  | .input i => .input (i.renamed σ)

def OutputTable.renamed (σ : String → String) (t : OutputTable) : OutputTable :=
  { t with links := t.links.map (Link.renamed σ) }

def OutputItem.renamed (σ : String → String) : OutputItem → OutputItem
  | .table t => .table (t.renamed σ)
  | .var v => .var v

def Contribution.renamed (σ : String → String) (c : Contribution) : Contribution :=
  { c with inputs := c.inputs.map (InputItem.renamed σ), outputs := c.outputs.map (OutputItem.renamed σ) }

def Element.renamed (σ : String → String) (e : Element) : Element :=
  { e with inputs := e.inputs.map (InputItem.renamed σ)
           body := e.body.map (BodyItem.renamed σ)
           outputs := e.outputs.map (OutputItem.renamed σ)
           groups := renameGroups σ e.groups }

/-! ## Parts of elements -/

def SameOptions (st st' : Settings) : Prop := ∀ k, k ≠ Setting.layers → Settings.entry st' k = st.entry k

theorem sameOptions_set {st st' : Settings} (h : SameOptions st st') (hkey : key ≠ Setting.layers) (v : Value) :
    SameOptions (st.set key v) (st'.set key v) := by
  intro k hk
  by_cases he : k = key
  · subst he
    rw [Settings.entry_set_self, Settings.entry_set_self]
  · rw [Settings.entry_set_ne he, Settings.entry_set_ne he, h k hk]

/-- What the parts of an element are built from, with other identifiers. -/
structure PartState.Renamed (σ : String → String) (s t : PartState) : Prop where
  object : t.object = renameShown σ s.object
  settings : SameOptions s.settings t.settings

theorem mirrors_same {τ υ : Type} {R : τ → υ → Prop} {Q : α → β → Prop} {x : Outcome γ} {f : γ → EStateM Fault τ α}
    {g : γ → EStateM Fault υ β} (h : ∀ c, x = .ok c → Mirrors R Q (f c) (g c)) :
    Mirrors R Q (liftM x >>= f) (liftM x >>= g) := by
  refine (mirrors_lift (P := fun a b => a = b ∧ x = .ok a) fun a ha => ⟨a, ha, rfl, ha⟩).bind ?_
  rintro a _ ⟨rfl, ha⟩
  exact h a ha

section Parts

variable {σ : String → String} {relations : List Relation} {layers : Value}

theorem reading_iff {place : Place} {c : Outcome Value → Change α} {s s' : PartState} {a : α} : PartStep.reading place c key s = .ok a s' ↔
      ∃ o, Change.within place (c (s.settings.entry key)) s.object = .ok a o ∧ s' = { s with object := o } := by
  rw [PartStep.reading, run_get_bind]
  cases Change.within place (c (s.settings.entry key)) s.object with
  | error e o => simp [run_bind_ok, run_throw_ok]
  | ok b o =>
    simp only [run_bind_ok, run_set_ok, run_pure_ok, EStateM.Result.ok.injEq]
    constructor
    · rintro ⟨_, _, rfl, rfl, rfl⟩
      exact ⟨o, ⟨rfl, rfl⟩, rfl⟩
    · rintro ⟨_, ⟨rfl, rfl⟩, rfl⟩
      exact ⟨(), _, rfl, rfl, rfl⟩

theorem at?_renameShown (hk : k ≠ "groups") (rest : Place) (o : Value) :
    (renameShown σ o).at? (.key k :: rest) = o.at? (.key k :: rest) := by
  have h : Place.Apart [.key "groups"] (.key k :: rest) := .inl (by simpa using Ne.symm hk)
  exact Value.at?_modifyAt_of_apart _ h o

theorem reading_renamed {c : Outcome Value → Change α} (hc : ∀ {m v v' a}, c m v = .ok a v' → v' = v) (hkey : key ≠ Setting.layers)
    (hk : k ≠ "groups") (rest : Place) :
    Mirrors (PartState.Renamed σ) Eq (PartStep.reading (.key k :: rest) c key) (PartStep.reading (.key k :: rest) c key) := by
  intro s t a s' hR h
  obtain rfl := reading_ok hc h
  obtain ⟨o, hw, -⟩ := reading_iff.1 h
  obtain ⟨w, w', hplace, hcw, -⟩ := Value.within_ok hw
  obtain rfl := hc hcw
  have hplace' : t.object.at? (.key k :: rest) = some w' := by
    rw [hR.object, at?_renameShown hk, hplace]
  refine ⟨a, t, reading_iff.2 ⟨t.object, ?_, rfl⟩, hR, rfl⟩
  rw [Change.within, hplace', hR.settings key hkey]
  simp only [hcw]
  rw [Value.putAt_self hplace']

theorem noteSource_renamed (select : Value) : Mirrors (PartState.Renamed σ) Eq (noteSource select) (noteSource select) := by
  refine mirrors_get.bind fun s t hR => ?_
  have hsame : t.settings.entry Setting.sourceMapping = s.settings.entry Setting.sourceMapping := hR.settings _ (by decide)
  rw [hsame]
  refine mirrors_same fun mapping _ => mirrors_same fun mapping' _ => mirrors_modify fun h => ?_
  exact ⟨h.object, sameOptions_set h.settings (by decide) mapping'⟩

theorem linkTarget_renamed (h : attr ≠ "groups") (k : Link) : linkTarget (.text attr) (k.renamed σ) = linkTarget (.text attr) k := by
  have hitem : (k.renamed σ).toValue.item (.text attr) = k.toValue.item (.text attr) := by
    have hvalue : (k.renamed σ).toValue = renameShown σ k.toValue := by
      obtain ⟨path, groups, direction, name, elementName, interfaceName, dbObjectName⟩ := k
      cases elementName <;> rfl
    rw [hvalue, Link.toValue, renameShown_object, Value.item_object, Value.item_object, Fields.lookup_modify, if_neg h]
  rw [linkTarget, linkTarget, hitem]

theorem partsUnder_renameShown (hk : key ≠ "groups") (o : Value) : partsUnder key (renameShown σ o) = partsUnder key o := by
  rw [partsUnder, partsUnder, Value.entryOr, Value.entryOr, has_renameShown, entry_renameShown hk]

theorem procedureName_renameShown (o : Value) : procedureName (renameShown σ o) = procedureName o := by
  rw [procedureName, procedureName, has_renameShown, entry_renameShown (by decide)]

variable (hrel : HasRelations layers relations) (hp : Paired relations)
include hrel hp

theorem buildInput_renamed (algo function t : Value) (ha : attr ≠ "groups") (n : Nat) :
    Mirrors (PartState.Renamed σ) (fun i i' => i' = i.renamed σ) (buildInput layers algo function (.text attr) t n)
      (buildInput (renameBase σ layers) algo function (.text attr) t n) := by
  refine mirrors_same fun interface _ => mirrors_same fun category _ => mirrors_same fun tableType _ => ?_
  refine (reading_renamed structureColumns_ok (by decide) (by decide) _).bind ?_
  rintro structureType _ rfl
  refine (mirrors_lift (P := fun ks ks' => ks' = ks.map (Link.renamed σ)) fun ks hks =>
    ⟨_, linksOfTable_renamed hrel hp hks, rfl⟩).bind ?_
  rintro ks _ rfl
  cases ks with
  | nil =>
    refine mirrors_same fun names _ => ?_
    refine (noteSource_renamed names.1).bind fun _ _ _ => mirrors_same fun name _ => ?_
    exact mirrors_pure rfl
  | cons k ks =>
    show Mirrors _ _ (liftM (linkTarget (.text attr) k) >>= _) (liftM (linkTarget (.text attr) (k.renamed σ)) >>= _)
    rw [linkTarget_renamed ha]
    exact mirrors_same fun source _ => mirrors_same fun name _ => mirrors_pure rfl

theorem buildOutputTable_renamed (algo function t : Value) (n : Nat) :
    Mirrors (PartState.Renamed σ) (fun u u' => u' = u.renamed σ) (buildOutputTable layers algo function t n)
      (buildOutputTable (renameBase σ layers) algo function t n) := by
  refine mirrors_same fun name _ => mirrors_same fun db _ => mirrors_same fun schema _ => mirrors_same fun object _ =>
    mirrors_same fun tableType _ => ?_
  refine (reading_renamed entityColumns_ok (by decide) (by decide) _).bind ?_
  rintro entityType _ rfl
  refine (reading_renamed structureColumns_ok (by decide) (by decide) _).bind ?_
  rintro structureType _ rfl
  refine mirrors_same fun category _ => ?_
  refine (mirrors_lift (P := fun ks ks' => ks' = ks.map (Link.renamed σ)) fun ks hks =>
    ⟨_, linksOfTable_renamed hrel hp hks, rfl⟩).bind ?_
  rintro ks _ rfl
  exact mirrors_pure rfl

end Parts

section Contributions

variable {σ : String → String} {relations : List Relation} {layers : Value}

theorem forall₂_eq_map {f : α → β} {xs : List α} {ys : List β} (h : List.Forall₂ (fun x y => y = f x) xs ys) : ys = xs.map f := by
  induction h with
  | nil => rfl
  | cons hxy _ ih => rw [hxy, ih, List.map_cons]

theorem name_renamed (o : OutputItem) : (o.renamed σ).name = o.name := by cases o <;> rfl

theorem contribution_renamed (hrel : HasRelations layers relations) (hp : Paired relations) (algo function : Value) (ha : attr ≠ "groups") :
    Mirrors (PartState.Renamed σ) (fun c c' => c' = c.renamed σ) (contribution layers algo function (.text attr))
      (contribution (renameBase σ layers) algo function (.text attr)) := by
  refine mirrors_get.bind fun s t hR => ?_
  have hparts : ∀ key, key ≠ "groups" → partsUnder key t.object = partsUnder key s.object := fun key hk => by
    rw [hR.object, partsUnder_renameShown hk]
  simp only [hparts "input_tables" (by decide), hparts "output_tables" (by decide), hparts "output_vars" (by decide)]
  rw [show procedureName t.object = procedureName s.object by rw [hR.object, procedureName_renameShown]]
  have hself : ∀ {ι : Type} (xs : List ι), List.Forall₂ Eq xs xs := fun xs => List.forall₂_same.2 fun _ _ => rfl
  refine mirrors_same fun ts _ => ?_
  refine (Mirrors.mapM (hself _) (Q := fun i i' => i' = InputItem.renamed σ i) ?_).bind fun inputs inputs' hinputs => ?_
  · rintro p - _ rfl
    exact buildInput_renamed hrel hp algo function p.1 ha p.2
  obtain rfl := forall₂_eq_map hinputs
  refine mirrors_same fun us _ => ?_
  refine (Mirrors.mapM (hself _) (Q := fun i i' => i' = OutputTable.renamed σ i) ?_).bind fun tables tables' htables => ?_
  · rintro p - _ rfl
    exact buildOutputTable_renamed hrel hp algo function p.1 p.2
  obtain rfl := forall₂_eq_map htables
  refine mirrors_same fun vs _ => ?_
  refine (Mirrors.mapM (hself _) (Q := Eq) ?_).bind fun vars vars' hvars => ?_
  · rintro v - _ rfl
    exact mirrors_lift fun w hw => ⟨w, hw, rfl⟩
  obtain rfl : vars = vars' := by rwa [List.forall₂_eq_eq_eq] at hvars
  -- the names of the outputs are the same
  have houtputs : (tables.map (OutputTable.renamed σ)).map OutputItem.table ++ vars.map OutputItem.var =
      (tables.map OutputItem.table ++ vars.map OutputItem.var).map (OutputItem.renamed σ) := by
    rw [List.map_append, List.map_map, List.map_map, List.map_map]
    rfl
  have hnames : ((tables.map (OutputTable.renamed σ)).map OutputItem.table ++ vars.map OutputItem.var).mapM
      (fun o : OutputItem => o.name.asText) =
      (tables.map OutputItem.table ++ vars.map OutputItem.var).mapM fun o : OutputItem => o.name.asText := by
    rw [houtputs, List.mapM_map]
    exact mapM_congr_mem (m := Outcome) fun o _ => by rw [Function.comp, name_renamed]
  simp only [hnames]
  refine mirrors_same fun names _ => mirrors_same fun procedure _ => mirrors_pure ?_
  rw [houtputs, List.map_map]
  rfl

end Contributions

/-! ## Building elements -/

/-- What elements are built from, with other identifiers. -/
structure BuildState.Renamed (σ : String → String) (relations : List Relation) (s t : BuildState) : Prop where
  related : HasRelations s.layers relations
  layers : t.layers = renameBase σ s.layers
  settings : SameOptions s.settings t.settings

section Building

variable {σ : String → String} {relations : List Relation} (hp : Paired relations)

include hp in
theorem contributionOf_renamed (x : ProcedureName) (ha : attr ≠ "groups") :
    Mirrors (BuildState.Renamed σ relations) (fun c c' => c' = c.renamed σ) (contributionOf (addressOf x) (.text attr))
      (contributionOf (addressOf x) (.text attr)) := by
  intro s t c s' hR h
  obtain ⟨o, p, ho, hc, rfl⟩ := contributionOf_iff.1 h
  have hstart : PartState.Renamed σ { settings := s.settings, object := o }
      { settings := t.settings, object := renameShown σ o } := ⟨rfl, hR.settings⟩
  obtain ⟨c', p', hc', hp', rfl⟩ := contribution_renamed hR.related hp (.text x.1) (.text x.2) ha hstart hc
  refine ⟨_, _, contributionOf_iff.2 ⟨renameShown σ o, p', ?_, ?_, rfl⟩, ⟨?_, ?_, hp'.settings⟩, rfl⟩
  · rw [hR.layers, procedureAt?_renameBase, ho]
    rfl
  · rw [hR.layers]
    exact hc'
  · exact (at?_put_of_ne (by decide) x p.object s.layers).trans hR.related
  · show (addressOf x).put p'.object t.layers = renameBase σ ((addressOf x).put p.object s.layers)
    rw [renameBase_put, hp'.object, hR.layers]

theorem markMerged_renamed (x : ProcedureName) :
    Mirrors (BuildState.Renamed σ relations) Eq (markMerged (addressOf x)) (markMerged (addressOf x)) := by
  intro s t u s' hR h
  simp only [markMerged, run_parts, run_modify_ok, address_object_ok] at h
  obtain ⟨o, ho, o', ho', rfl⟩ := h
  have hnow : (addressOf x).object t.layers = .ok (renameShown σ o) := by
    rw [hR.layers, address_object_ok, procedureAt?_renameBase, ho]
    rfl
  refine ⟨(), { t with layers := (addressOf x).put (renameShown σ o') t.layers }, ?_, ⟨?_, ?_, hR.settings⟩, rfl⟩
  · rw [markMerged, run_get_bind, run_lift_bind_of_ok hnow, run_lift_bind_of_ok (setEntry_renameShown (by decide) ho')]
    rfl
  · exact (at?_put_of_ne (by decide) x o' s.layers).trans hR.related
  · show (addressOf x).put _ t.layers = renameBase σ ((addressOf x).put o' s.layers)
    rw [renameBase_put, hR.layers]

theorem aloneElements_renamed (x : ProcedureName) (groups : Value) (c : Contribution) :
    Mirrors (BuildState.Renamed σ relations) (fun es es' => es' = es.map (Element.renamed σ))
      (aloneElements (.text x.1) (.text x.2) groups c)
      (aloneElements (.text x.1) (.text x.2) (renameGroups σ groups) (c.renamed σ)) := by
  refine (mirrors_lift (P := fun e e' => e' = e.renamed σ) fun e he => ?_).bind ?_
  · obtain ⟨n, hn, rfl⟩ := singleElement_ok he
    refine ⟨_, ?_, rfl⟩
    rw [singleElement, show (c.renamed σ).procedure = .text n from hn]
    rfl
  rintro e _ rfl
  exact (markMerged_renamed x).bind fun _ _ _ => mirrors_pure rfl

theorem mergedElement_renamed {algo function groups : Value} {partition child : Contribution} {e : Element}
    (h : mergedElement algo function groups partition child = .ok e) :
    mergedElement algo function (renameGroups σ groups) (partition.renamed σ) (child.renamed σ) = .ok (e.renamed σ) := by
  simp only [mergedElement, bind_ok, pure_ok] at h ⊢
  obtain ⟨childName, hc, name, hn, a, ha, f, hf, rfl⟩ := h
  refine ⟨childName, hc, name, hn, a, ha, f, hf, ?_⟩
  simp only [Element.renamed, Contribution.renamed, Element.mk.injEq, true_and, and_true, List.map_append, List.map_cons,
    List.map_map, List.map_nil]
  rfl

include hp in
theorem mergeChild_renamed (algo function groups : Value) (c : Contribution) {k : Link} {y : ProcedureName}
    (hy : k.path = .text (procedurePath y)) :
    Mirrors (BuildState.Renamed σ relations) (fun e e' => e' = e.renamed σ) (mergeChild algo function groups c k)
      (mergeChild algo function (renameGroups σ groups) (c.renamed σ) (k.renamed σ)) := by
  unfold mergeChild
  rw [show (k.renamed σ).path = k.path from rfl, hy]
  refine mirrors_same fun a ha => ?_
  obtain rfl := (ofPath_procedurePath.1 ha).2
  refine (contributionOf_renamed hp y (show passedLink ≠ "groups" by decide)).bind ?_
  rintro child _ rfl
  refine (mirrors_lift (P := fun e e' => e' = e.renamed σ) fun e he => ⟨_, mergedElement_renamed he, rfl⟩).bind ?_
  rintro e _ rfl
  exact (markMerged_renamed y).bind fun _ _ _ => mirrors_pure rfl

theorem anyPartition_renamed (ks : List Link) : anyPartition (ks.map (Link.renamed σ)) = anyPartition ks := by
  induction ks with
  | nil => rfl
  | cons k ks ih =>
    rw [List.map_cons, anyPartition, anyPartition, ih]
    rfl

include hp in
theorem mergedElements_renamed {layers : Value} (hrel : HasRelations layers relations) (x : ProcedureName) (groups : Value)
    (c : Contribution) :
    Mirrors (BuildState.Renamed σ relations) (fun es es' => es' = es.map (Element.renamed σ))
      (mergedElements layers (.text x.1) (.text x.2) groups c)
      (mergedElements (renameBase σ layers) (.text x.1) (.text x.2) (renameGroups σ groups) (c.renamed σ)) := by
  have hlinks : ∀ d, Mirrors (BuildState.Renamed σ relations)
      (fun ks ks' => ks' = ks.map (Link.renamed σ) ∧ ∀ k ∈ ks, ∃ y, k.path = .text (procedurePath y))
      (liftM (links layers d (.text x.1) (.text x.2)) : BuildStep _)
      (liftM (links (renameBase σ layers) d (.text x.1) (.text x.2)) : BuildStep _) := fun d =>
    mirrors_lift fun ks hks => ⟨_, links_renamed hrel hp hks, rfl, fun k hk => links_path hp hrel hks hk⟩
  refine (hlinks .incoming).bind ?_
  rintro parents _ ⟨rfl, -⟩
  refine mirrors_same fun name _ => ?_
  by_cases hname : containsText (lowerText name) "partition" = true
  · rw [if_pos hname, if_pos hname]
    refine (hlinks .outgoing).bind ?_
    rintro children _ ⟨rfl, hpaths⟩
    cases children with
    | nil => exact aloneElements_renamed x groups c
    | cons k ks =>
      show Mirrors _ _ (partitionElements _ _ _ _ (k :: ks)) (partitionElements _ _ _ _ ((k :: ks).map (Link.renamed σ)))
      refine (Mirrors.mapM (P := fun k k' => k' = k.renamed σ ∧ ∃ y, k.path = .text (procedurePath y))
        (List.forall₂_map_right_iff.2 (List.forall₂_same.2 fun k hk => ⟨rfl, hpaths k hk⟩))
        (Q := fun e e' => e' = e.renamed σ) ?_).bind fun es es' hes => ?_
      · rintro k - _ ⟨rfl, y, hy⟩
        exact mergeChild_renamed hp _ _ groups c hy
      obtain rfl := forall₂_eq_map hes
      exact (markMerged_renamed x).bind fun _ _ _ => mirrors_pure rfl
  · rw [if_neg hname, if_neg hname, anyPartition_renamed]
    refine mirrors_same fun b _ => ?_
    cases b with
    | true => exact mirrors_pure rfl
    | false => exact aloneElements_renamed x groups c

include hp in
theorem buildElements_renamed (x : ProcedureName) :
    Mirrors (BuildState.Renamed σ relations) (fun es es' => es' = es.map (Element.renamed σ))
      (buildElements (.text x.1) (.text x.2) (.text storedLink))
      (buildElements (.text x.1) (.text x.2) (.text storedLink)) := by
  refine mirrors_get.bind fun s t hR => ?_
  refine (mirrors_lift (P := fun o o' => o' = renameShown σ o) fun o ho => ?_).bind ?_
  · refine ⟨_, ?_, rfl⟩
    show (addressOf x).object t.layers = _
    rw [hR.layers, address_object_ok, procedureAt?_renameBase, address_object_ok.1 ho]
    rfl
  rintro o _ rfl
  refine (mirrors_lift (P := fun g g' => g' = renameGroups σ g) fun g hg => ⟨_, shownGroupsOf_renamed hg, rfl⟩).bind ?_
  rintro groups _ rfl
  rw [show t.settings.entry Setting.mergeStrategy = s.settings.entry Setting.mergeStrategy from hR.settings _ (by decide)]
  refine mirrors_same fun strategy _ => ?_
  rw [show (renameShown σ o).entryOr "cons_processed" .null = o.entryOr "cons_processed" .null by
    rw [Value.entryOr, Value.entryOr, has_renameShown, entry_renameShown (by decide)]]
  refine mirrors_same fun mark _ => ?_
  cases mark.isTruthy with
  | true => exact mirrors_pure rfl
  | false =>
    refine (contributionOf_renamed hp x (show storedLink ≠ "groups" by decide)).bind ?_
    rintro c _ rfl
    by_cases hmerge : strategy.same (.int mergePartitions) = true
    · rw [if_pos hmerge, if_pos hmerge, hR.layers]
      exact mergedElements_renamed hp hR.related x groups c
    · rw [if_neg hmerge, if_neg hmerge]
      exact aloneElements_renamed x groups c

end Building

theorem buildConsumption_renamed {σ : String → String} {relations : List Relation} (hp : Paired relations) {s s' t : BuildState}
    {es : List Element} (hb : IsBaseLayer s.layers) (hR : s.Renamed σ relations t) (h : buildConsumption s = .ok es s') :
    ∃ t', buildConsumption t = .ok (es.map (Element.renamed σ)) t' ∧ s'.Renamed σ relations t' := by
  rw [buildConsumption_eq hb] at h
  have hb' : IsBaseLayer t.layers := by
    rw [hR.layers]
    exact hb.renamed
  rw [buildConsumption_eq hb', hR.layers, procedureNames_renameBase hb]
  have hmirrors : Mirrors (BuildState.Renamed σ relations) (fun es es' => es' = es.map (Element.renamed σ))
      (do return (← (procedureNames s.layers).mapM fun x =>
        buildElements (.text x.1) (.text x.2) (.text storedLink)).flatten : BuildStep _)
      (do return (← (procedureNames s.layers).mapM fun x =>
        buildElements (.text x.1) (.text x.2) (.text storedLink)).flatten : BuildStep _) := by
    refine (Mirrors.mapM (P := Eq) (List.forall₂_same.2 fun _ _ => rfl)
      (Q := fun es es' => es' = es.map (Element.renamed σ)) ?_).bind fun ess ess' hess => ?_
    · rintro x - _ rfl
      exact buildElements_renamed hp x
    obtain rfl := forall₂_eq_map hess
    exact mirrors_pure List.map_flatten.symm
  obtain ⟨_, t', hrun, hR', rfl⟩ := hmirrors hR h
  exact ⟨t', hrun, hR'⟩

/-! ## Elements as records -/

def renameItem (σ : String → String) : Value → Value :=
  Value.modifyAt (fun r => renameShown σ (r.eachMember (renameShown σ))) [.key "relobject"]

def renameElement (σ : String → String) (e : Value) : Value :=
  renameShown σ (["input", "body", "output"].foldl (fun e part => e.modifyAt (Value.eachMember (renameItem σ)) [.key "sql", .key part]) e)

def renameUids (σ : String → String) (layers : Value) : Value :=
  (renameBase σ layers).modifyAt (Value.eachMember (renameElement σ)) [.key consumptionKey]

section Records

variable (σ : String → String)

theorem Link.toValue_renamed (k : Link) : (k.renamed σ).toValue = renameShown σ k.toValue := by
  obtain ⟨path, groups, direction, name, elementName, interfaceName, dbObjectName⟩ := k
  cases elementName <;> rfl

theorem InputItem.toValue_renamed (i : InputItem) : (i.renamed σ).toValue = renameItem σ i.toValue := by
  obtain ⟨category, name, tableType, structureType, link, source, synonym⟩ := i
  cases link with
  | none => rfl
  | some k =>
    have hlink : (k.renamed σ).toValue = renameShown σ (k.toValue.eachMember (renameShown σ)) := k.toValue_renamed σ
    simp only [InputItem.toValue, InputItem.renamed, Option.map_some, Option.isSome_some, hlink]
    rfl

theorem BodyItem.toValue_renamed (b : BodyItem) : (b.renamed σ).toValue = renameItem σ b.toValue := by
  cases b with
  | call c => rfl
  | input i => exact i.toValue_renamed σ

theorem OutputItem.toValue_renamed (o : OutputItem) : (o.renamed σ).toValue = renameItem σ o.toValue := by
  cases o with
  | var v => rfl
  | table t =>
    obtain ⟨category, name, dbObjectName, dbSchema, objectName, tableType, entityType, structureType, links⟩ := t
    cases links with
    | nil => rfl
    | cons k ks =>
      have hlinks : Value.list (((k :: ks).map (Link.renamed σ)).map Link.toValue) =
          renameShown σ (Value.eachMember (renameShown σ) (.list ((k :: ks).map Link.toValue))) := by
        refine congrArg Value.list ?_
        rw [List.map_map, List.map_map]
        exact List.map_congr_left fun k _ => k.toValue_renamed σ
      show Value.object _ = Value.object _
      simp only [OutputTable.renamed, hlinks]
      rfl

theorem Element.toValue_renamed (e : Element) : (e.renamed σ).toValue = renameElement σ e.toValue := by
  obtain ⟨name, origin, single, inputs, body, outputs, groups⟩ := e
  have hinputs : (inputs.map (InputItem.renamed σ)).map InputItem.toValue = (inputs.map InputItem.toValue).map (renameItem σ) := by
    rw [List.map_map, List.map_map]
    exact List.map_congr_left fun i _ => i.toValue_renamed σ
  have hbody : (body.map (BodyItem.renamed σ)).map BodyItem.toValue = (body.map BodyItem.toValue).map (renameItem σ) := by
    rw [List.map_map, List.map_map]
    exact List.map_congr_left fun i _ => i.toValue_renamed σ
  have houtputs : (outputs.map (OutputItem.renamed σ)).map OutputItem.toValue = (outputs.map OutputItem.toValue).map (renameItem σ) := by
    rw [List.map_map, List.map_map]
    exact List.map_congr_left fun i _ => i.toValue_renamed σ
  simp only [Element.toValue, Element.renamed, hinputs, hbody, houtputs]
  cases single <;> rfl

theorem renameUids_setEntry {layers final : Value} {es : List Element} (hc : layers.at? [.key consumptionKey] = none)
    (h : layers.setEntry consumptionKey (.list (es.map Element.toValue)) = .ok final) :
    (renameBase σ layers).setEntry consumptionKey (.list ((es.map (Element.renamed σ)).map Element.toValue)) =
      .ok (renameUids σ final) := by
  cases layers with
  | object fs =>
    cases h
    have hnone : fs.lookup consumptionKey = none := by
      rw [Value.at?_key] at hc
      cases hfs : fs.lookup consumptionKey with
      | none => rfl
      | some v =>
        rw [hfs] at hc
        cases hc
    have hmap : (es.map (Element.renamed σ)).map Element.toValue = (es.map Element.toValue).map (renameElement σ) := by
      rw [List.map_map, List.map_map]
      exact List.map_congr_left fun e _ => e.toValue_renamed σ
    rw [hmap]
    refine congrArg (Except.ok ∘ Value.object) ?_
    show _ = Fields.modify consumptionKey _ (Fields.modify baseKey _ (Fields.set consumptionKey _ fs))
    rw [Fields.modify_set_ne (by decide), Fields.modify_set]
    refine congrArg (Fields.set consumptionKey _) (Fields.modify_eq_self fun v hv => ?_).symm
    rw [Fields.lookup_modify, if_neg (by decide), hnone] at hv
    cases hv
  | _ => cases h

end Records

end TraceArtifacts
