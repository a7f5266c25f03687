import TraceArtifacts.Managed
import TraceArtifacts.Proofs.Generations
import TraceArtifacts.Proofs.Merging

/-!
# Proofs: what generators read of elements

Graphs and classes are generated from the records of elements.
-/

namespace TraceArtifacts

variable {es : List Element} {s s' : Session} {u : Unit}

/-! ## Keys -/

def Carries (v : Value) (key : String) : Prop := ∃ w, v.entry key = .ok w

def elementKeys : List String := ["name", "display_name_short", "algo", "function", "groups", "sql"]

def titleKeys : List String := ["display_name_short", "algo", "function"]

def IsWhole (v : Value) : Prop :=
  (∀ k ∈ elementKeys, Carries v k) ∧ ∃ statements, v.entry "sql" = .ok statements ∧ ∀ k ∈ ["input", "body", "output"], Carries statements k

theorem carries_object {fs : Fields} {k : String} : Carries (.object fs) k ↔ (fs.lookup k).isSome = true := by
  rw [Carries, Value.entry_object]
  cases fs.lookup k with
  | none => exact iff_of_false (by rintro ⟨w, hw⟩; cases hw) (by simp)
  | some v => exact iff_of_true ⟨v, rfl⟩ rfl

section Records

variable (e : Element)

theorem carries_statements : ∀ k ∈ ["input", "body", "output"], Carries e.statements k := by
  intro k hk
  simp only [List.mem_cons, List.not_mem_nil, or_false] at hk
  rcases hk with rfl | rfl | rfl <;> exact carries_object.2 rfl

theorem carries_element {k : String} (hk : k ∈ elementKeys) : Carries e.toValue k ↔ e.single = true ∨ k ∉ titleKeys := by
  unfold Element.toValue
  simp only [elementKeys, List.mem_cons, List.not_mem_nil, or_false] at hk
  rw [carries_object]
  cases e.single <;> rcases hk with rfl | rfl | rfl | rfl | rfl | rfl <;> simp [titleKeys, titleFields]

theorem isWhole_element : IsWhole e.toValue ↔ e.single = true := by
  constructor
  · intro h
    have hcarries := (carries_element e (by simp [elementKeys])).1 (h.1 "algo" (by simp [elementKeys]))
    exact hcarries.resolve_right (by simp [titleKeys])
  · intro h
    exact ⟨fun k hk => (carries_element e hk).2 (.inl h), e.statements, entry_sql e, carries_statements e⟩

end Records

/-! ## Graphs -/

namespace Graph

def draftRead (c : ElementContext) (position : Nat) (e : Element) : DraftStep Unit := do
  draftParts c [.key consumptionKey, .position position, .key "sql", .key "output"] (partsOf e)
  draftOperator c (.text (titleText e.origin.2))
  (← c.groups.members).forM joinGraph

section Elements

variable {settings : Settings} {options : GraphOptions} {e : Element} (i : Nat) (d : DraftState)

theorem draftElement_single (he : e.single = true) {schema : Value} (hschema : settings.entry Setting.schema = .ok schema) :
    draftElement settings options i e.toValue d =
        draftRead (contextOf settings options schema e) i e { graphs := d.graphs, layers := d.layers } ∧
      (contextOf settings options schema e).scores = .ok (e.origin.2 == "Score") := by
  have hlabel : e.toValue.entry "display_name_short" = .ok (.text (titleText e.origin.2)) := by
    unfold Element.toValue
    rw [he]
    rfl
  have hfunction : e.toValue.entry "function" = .ok (.text e.origin.2) := by
    unfold Element.toValue
    rw [he]
    rfl
  have hparts : Parts.of e.statements = .ok (partsOf e) := rfl
  constructor
  · simp only [draftElement, shownGroupsOf_element, entry_name, hlabel, entry_sql, hparts, hschema, lift_ok_eq, pure_bind]
    rfl
  · rw [ElementContext.scores, contextOf, hfunction]
    rfl

theorem draftElement_merged (he : e.single = false) : draftElement settings options i e.toValue d =
      .error (.missingKey "display_name_short") { graphs := d.graphs, layers := d.layers } := by
  have hlabel : e.toValue.entry "display_name_short" = .error (.missingKey "display_name_short") := by
    unfold Element.toValue
    rw [he]
    rfl
  simp only [draftElement, shownGroupsOf_element, entry_name, hlabel, lift_ok_eq, pure_bind]
  rfl

end Elements

theorem draftAll_single {settings : Settings} {options : GraphOptions} {d d' : DraftState} (h : draftAll settings options d = .ok u d')
    (hes : d.layers.entry consumptionKey = .ok (.list (es.map Element.toValue))) : ∀ e ∈ es, e.single = true := by
  simp only [draftAll, run_parts, run_modify_ok] at h
  obtain ⟨layer, hlayer, ps, hps, _, _, rfl, h⟩ := h
  obtain rfl := ok_unique hes hlayer
  cases hps
  intro e he
  obtain ⟨i, hi⟩ := List.getElem?_of_mem he
  have hmem : (e.toValue, i) ∈ (es.map Element.toValue).zipIdx := by
    rw [List.mem_zipIdx_iff_getElem?, List.getElem?_map, hi]
    rfl
  obtain ⟨t, v, t', -, hrun⟩ := forM_run_mem (I := fun _ => True) (fun _ _ _ _ _ _ _ => trivial) h trivial hmem
  have hrecord : e.toValue.isRecord = true := rfl
  have hsql : e.toValue.has "sql" = .ok true := by
    unfold Element.toValue
    cases e.single <;> rfl
  simp only [hrecord, if_true, hsql, lift_ok_eq, pure_bind] at hrun
  cases hsingle : e.single with
  | true => rfl
  | false =>
    rw [draftElement_merged i t hsingle] at hrun
    cases hrun

end Graph

/-! ## Classes -/

namespace Managed

section Elements

variable {st : Settings} {c : Carried} {e : Element}

theorem takeElement_single (he : e.single = true) : takeElement st c e.toValue = (do
      let (c, others) ← takeOutputs st c (e.outputs.map OutputItem.toValue)
      let c ← takeInputs st c (e.inputs.map InputItem.toValue)
      let item ← (Value.list (e.body.map BodyItem.toValue)).item (.int 0)
      let call ← statementText item
      return ({ c with algo := some (.text e.origin.1), call := some call }, ← Container.signature .null (.list others))) := by
  have halgo : e.toValue.entry "algo" = .ok (.text e.origin.1) := by
    unfold Element.toValue
    rw [he]
    rfl
  unfold takeElement
  rw [entry_sql, halgo]
  rfl

theorem takeElement_merged (he : e.single = false) : takeElement st c e.toValue = (do
      let (c, _) ← takeOutputs st c (e.outputs.map OutputItem.toValue)
      let _ ← takeInputs st c (e.inputs.map InputItem.toValue)
      throw (.missingKey "algo")) := by
  have halgo : e.toValue.entry "algo" = .error (.missingKey "algo") := by
    unfold Element.toValue
    rw [he]
    rfl
  unfold takeElement
  rw [entry_sql, halgo]
  rfl

theorem generateElement_merged {c' : Carried} (h : generateElement c e.toValue s = .ok c' s') (he : e.single = false) :
    isWanted e.toValue = .ok false := by
  simp only [generateElement, run_parts] at h
  obtain ⟨b, hb, h⟩ := h
  cases b with
  | false => exact hb
  | true =>
    have hsql : e.toValue.has "sql" = .ok true := by
      unfold Element.toValue
      cases e.single <;> rfl
    simp only [if_not_true, hsql, lift_ok_eq, pure_bind, run_parts, takeElement_merged he] at h
    obtain ⟨r, htake, -⟩ := h
    obtain ⟨p, -, htake⟩ := bind_ok.1 htake
    obtain ⟨c1, -, htake⟩ := bind_ok.1 htake
    cases htake

end Elements

theorem generate_merged (h : generate s = .ok u s') {layers : Value} (hl : s.settings.entry Setting.layers = .ok layers)
    (hes : layers.entry consumptionKey = .ok (.list (es.map Element.toValue))) :
    ∀ e ∈ es, e.single = false → isWanted e.toValue = .ok false := by
  have hnote : Keeps (WithSettings fun st => st.entry Setting.layers = .ok layers) (Graph.noteDirectory Setting.abapPath "abap") := by
    refine Keeps.bind (keeps_get.bind fun _ => keeps_lift _) fun path => ?_
    intro t v t' hset ht
    cases hset
    exact (Settings.entry_set_ne (by decide) ..).trans ht
  simp only [generate, Job.layers, Job.setting, run_parts, run_pure_ok] at h
  obtain ⟨_, t1, h1, _, t2, h2, l, hl2, vs, hvs, c, t3, hrun, -⟩ := h
  have hkept := Graph.keeps_renewDirectory _ h2 (hnote h1 hl)
  obtain rfl := ok_unique hl2 hkept
  have helements := Container.elements_of_records hes (List.forall_mem_map.2 fun _ _ => rfl)
  obtain rfl := ok_unique helements hvs
  intro e he hsingle
  obtain ⟨c1, r, c2, r', -, hstep⟩ := foldlM_run_mem (I := fun _ => True) (fun _ _ _ _ _ _ _ => trivial) hrun
    trivial (List.mem_map_of_mem he)
  exact generateElement_merged hstep hsingle

end Managed

theorem Graph.generate_single {container : Bool} {options : GraphOptions} (h : generate container options s = .ok u s')
    {schema : Outcome Value} (hs : ListsAfter schema es 0 s.settings) : ∀ e ∈ es, e.single = true := by
  obtain ⟨path, graphs, r, t, hprepare, -, hdraft, -⟩ := generate_ok h
  have hr : ListsAfter schema es 0 r.settings :=
    keeps_prepareGraphs (unnoted_listsAfter schema es 0) (baseless_listsAfter schema es 0) _ hprepare hs
  obtain ⟨l, d, hl, hd, -⟩ := drafting_run hdraft
  obtain ⟨layers, hlayers, hes⟩ := hr.listed
  obtain rfl := ok_unique hl hlayers
  rw [funext (elementAfter_zero _)] at hes
  exact draftAll_single hd hes

/-! ## Processed traces -/

theorem Built.single_of_calls {layers : Value} {relations : List Relation} {e : Element}
    (h : Built layers relations e) : e.single = true ↔ e.calls.length = 1 := by
  cases h with
  | alone hc hn => exact iff_of_true rfl rfl
  | merged hp hc hn hm hpart hr hfrom hto =>
    refine iff_of_false Bool.false_ne_true ?_
    simp [Element.calls, mergedOf, BodyItem.call?]

namespace Processed

variable {P : BaseParts → Prop} {grouped final : Value} {relations : List Relation} {elements : List Element}
  (hp : Processed P s s' grouped final relations elements)
include hp

theorem mergeRules_eq : mergeRules final relations = mergeRules grouped relations := by
  obtain ⟨l, hl, hbase⟩ := hp.alike
  rw [← mergeRules_alike hl (by decide)]
  simp only [mergeRules, carriedName, procedureAt?_congr hbase]

theorem exists_merged_iff : (∃ e ∈ elements, e.single = false) ↔ MergesPartitions s.settings ∧ ∃ p ∈ procedureNames final,
      (mergeRules final relations).isPartition p = true ∧ (mergeRules final relations).readers p ≠ [] := by
  rw [hp.mergeRules_eq, hp.names]
  obtain ⟨settings, b, hst, hb, -⟩ := hp.run
  have hsettings : MergesPartitions settings ↔ MergesPartitions s.settings := by
    rw [MergesPartitions, hst _ (by decide), MergesPartitions]
  constructor
  · rintro ⟨e, he, hsingle⟩
    refine ⟨?_, ?_⟩
    · by_contra hno
      have hnothing : MergesNothing settings := fun m hm =>
        Bool.eq_false_iff.2 fun hsame => hno (hsettings.1 ⟨m, hm, hsame⟩)
      obtain ⟨hall, -, -⟩ := buildConsumption_single hb hp.fresh.base hp.fresh.records hnothing hp.fresh.unmerged
      obtain ⟨x, -, _, _, _, _, _, -, -, -, -, -, rfl⟩ := forall₂_mem_right hall he
      cases hsingle
    · cases hp.built e he with
      | alone => cases hsingle
      | @merged x y n m groups p c r hx hc hn hm hpart hr hfrom hto =>
        have hname := hx.carriedName_eq hn
        obtain ⟨l, o, hl, ho, -⟩ := hx
        obtain ⟨o', ho', -⟩ := hl.procedure' ho
        refine ⟨x, (mem_procedureNames hp.fresh.base).2 ⟨o', ho'⟩, ?_, ?_⟩
        · rw [mergeRules_isPartition, hname, hpart]
        · refine List.ne_nil_of_mem (List.mem_map_of_mem (List.mem_filter.2 ⟨hr, ?_⟩))
          rw [hfrom, beq_self_eq_true]
  · rintro ⟨hm, p, hpmem, hpart, hread⟩
    have hplan := buildConsumption_planned hb hp.fresh hp.noted (buildRelations_paired hp.fresh.base hp.related) (hsettings.2 hm)
    obtain ⟨q, y, hpair⟩ := MergeRules.exists_pair_mem_plan _ (procedureNames_nodup hp.fresh.base) hpmem hpart hread
    obtain ⟨e, he, hcalls⟩ := forall₂_mem_left hplan hpair
    refine ⟨e, he, Bool.eq_false_iff.2 fun hsingle => ?_⟩
    have hlen := (hp.built e he).single_of_calls.1 hsingle
    rw [← List.Forall₂.length_eq hcalls] at hlen
    cases hlen

end Processed

/-- The elements of a processed session, and what generators make of them. -/
structure ElementsRead (settings : Settings) (layers : Value) (relations : List Relation)
    (elements : List Element) (s : Session) : Prop where
  listed : layers.entry consumptionKey = .ok (.list (elements.map Element.toValue))
  whole : ∀ e ∈ elements, IsWhole e.toValue ↔ e.single = true
  lacking : ∀ e ∈ elements, e.single = false →
    (∀ k ∈ elementKeys, Carries e.toValue k ↔ k ∉ titleKeys) ∧ e.toValue.entry "sql" = .ok e.statements ∧
      ∀ k ∈ ["input", "body", "output"], Carries e.statements k
  merged : (∃ e ∈ elements, e.single = false) ↔ MergesPartitions settings ∧ ∃ p ∈ procedureNames layers,
    (mergeRules layers relations).isPartition p = true ∧ (mergeRules layers relations).readers p ≠ []
  drafted : ∀ e ∈ elements, ∀ st options i d, (e.single = true → ∀ schema, Settings.entry st Setting.schema = .ok schema →
      Graph.draftElement st options i e.toValue d =
          Graph.draftRead (Graph.contextOf st options schema e) i e { graphs := d.graphs, layers := d.layers } ∧
        (Graph.contextOf st options schema e).scores = .ok (e.origin.2 == "Score")) ∧
    (e.single = false → Graph.draftElement st options i e.toValue d =
      .error (.missingKey "display_name_short") { graphs := d.graphs, layers := d.layers })
  taken : ∀ e ∈ elements, ∀ st c, Managed.takeElement st c e.toValue = (do
    let (c, others) ← Managed.takeOutputs st c (e.outputs.map OutputItem.toValue)
    let c ← Managed.takeInputs st c (e.inputs.map InputItem.toValue)
    if e.single then
      let item ← (Value.list (e.body.map BodyItem.toValue)).item (.int 0)
      let call ← statementText item
      return ({ c with algo := some (.text e.origin.1), call := some call }, ← Container.signature .null (.list others))
    else throw (.missingKey "algo"))
  graphs : ∀ container options t, Graph.generate container options s = .ok () t → ∀ e ∈ elements, e.single = true
  classes : ∀ t, Managed.generate s = .ok () t → ∀ e ∈ elements, e.single = false → Managed.isWanted e.toValue = .ok false

/-- What generators read of the elements that a trace is processed to. -/
theorem processTrace_elements_read {raiseOnError logStatements own : Bool} {s s' : Session} {u : Unit}
    (h : processTrace raiseOnError logStatements own s = .ok u s')
    (hl : s.settings.entry Setting.layers = .ok (.object [])) :
    (s.trace.isTruthy = false ∧ s' = s) ∨ ∃ layers relations elements,
      s'.settings.entry Setting.layers = .ok layers ∧ buildRelations layers = .ok relations ∧
      ElementsRead s.settings layers relations elements s' := by
  refine (processTrace_processed storesAs_trivial h hl trivial).imp_right ?_
  rintro ⟨grouped, final, relations, elements, hp⟩
  refine ⟨final, relations, elements, hp.layers, hp.relations_final, hp.listed, fun e _ => isWhole_element e,
    fun e _ hsingle => ⟨fun k hk => ?_, entry_sql e, carries_statements e⟩, hp.exists_merged_iff,
    fun e _ st options i d => ⟨fun hsingle schema hschema => Graph.draftElement_single i d hsingle hschema,
      Graph.draftElement_merged i d⟩, fun e _ st c => ?_,
    fun container options t hgen => Graph.generate_single hgen (Graph.listsAfter_of_processed hp),
    fun t hgen => Managed.generate_merged hgen hp.layers hp.listed⟩
  · rw [carries_element e hk, hsingle]
    simp
  · cases hsingle : e.single with
    | true => exact Managed.takeElement_single hsingle
    | false => exact Managed.takeElement_merged hsingle

def tracedStep (input output : Value) : Value :=
  .object [("sql", .list [.text "CALL P(\"#D\", \"#M\")"]), ("function", .list []),
    ("input_tables", .list [input]), ("output_tables", .list [output]), ("output_vars", .list [])]

def partitioningSession : Session where
  settings := Settings.builtin ++ [(Setting.mergeStrategy, .int mergePartitions),
    (Setting.groupStrategy, .int functionalGrouping), (Setting.layers, .object []),
    (Setting.entityContext, .text "c"), (Setting.schema, .text "S"), (Setting.outputPath, .text "out"),
    (Setting.sourceMapping, .object [])]
  trace := .object [("RandomForestClassifier", .object
    [("Partition", tracedStep (tracedTable "#D" "SELECT * FROM S.D") (tracedTable "#P" "SELECT * FROM #P")),
     ("Fit", tracedStep (tracedTable "#T" "SELECT * FROM #P") (tracedTable "#M" "SELECT * FROM #M"))])]

def failsWith (e : Fault) : EStateM.Result Fault σ α → Bool
  | .ok .. => false
  | .error e' _ => e' == e

theorem exists_of_failsWith {e : Fault} {r : EStateM.Result Fault σ α} (h : failsWith e r = true) : ∃ s, r = .error e s := by
  cases r with
  | ok a s => cases h
  | error e' s => exact ⟨s, by rw [beq_iff_eq.1 h]⟩

theorem partitioningSession_merges : ∃ s' layers, processTrace true false true partitioningSession = .ok () s' ∧
    s'.settings.entry Setting.layers = .ok layers ∧
      ((buildRelations layers).toOption.any fun relations => (procedureNames layers).any fun p =>
        (mergeRules layers relations).isPartition p && !((mergeRules layers relations).readers p).isEmpty) = true ∧
      ((layers.listAt consumptionKey).any fun element => (element.entry "algo").toOption.isNone) = true ∧
      failsWith (.missingKey "display_name_short") (Graph.generate false Graph.plainOptions s') = true ∧
      failsWith (.missingKey "algo") (Managed.generate s') = true := by
  have hrun : succeedsWith (fun layers s' =>
      ((buildRelations layers).toOption.any fun relations => (procedureNames layers).any fun p =>
        (mergeRules layers relations).isPartition p && !((mergeRules layers relations).readers p).isEmpty) &&
      (((layers.listAt consumptionKey).any fun element => (element.entry "algo").toOption.isNone) &&
      (failsWith (.missingKey "display_name_short") (Graph.generate false Graph.plainOptions s') &&
        failsWith (.missingKey "algo") (Managed.generate s'))))
      ((do
        processTrace true false true
        Job.layers : Job Value) partitioningSession) = true := by decide +kernel
  obtain ⟨layers, s', h, htest⟩ := exists_of_succeedsWith hrun
  simp only [Job.layers, Job.setting, run_parts] at h
  obtain ⟨_, _, h, hl, rfl⟩ := h
  obtain ⟨hmerged, htest⟩ := Bool.and_eq_true_iff.1 htest
  obtain ⟨hlacks, htest⟩ := Bool.and_eq_true_iff.1 htest
  obtain ⟨hgraphs, hclasses⟩ := Bool.and_eq_true_iff.1 htest
  exact ⟨_, layers, h, hl, hmerged, hlacks, hgraphs, hclasses⟩

/-- In the sample the two procedures are merged, so that neither graphs nor classes can be generated. -/
theorem processTrace_elements_read_sample : ∃ s' layers relations elements, processTrace true false true partitioningSession = .ok () s' ∧
      s'.settings.entry Setting.layers = .ok layers ∧
      ElementsRead partitioningSession.settings layers relations elements s' ∧
      ∃ e ∈ elements, e.single = false := by
  obtain ⟨s', layers, h, hl, hmerged, -⟩ := partitioningSession_merges
  rcases processTrace_elements_read h rfl with ⟨hempty, -⟩ | ⟨layers', relations, elements, hl', hrel, hread⟩
  · exact absurd hempty (by decide)
  obtain rfl := ok_unique hl hl'
  simp only [hrel, Except.toOption, Option.any_some] at hmerged
  obtain ⟨p, hp, htest⟩ := List.any_eq_true.1 hmerged
  obtain ⟨hpart, hreaders⟩ := Bool.and_eq_true_iff.1 htest
  refine ⟨s', layers, relations, elements, h, hl, hread, hread.merged.2 ⟨⟨_, rfl, by decide⟩, p, hp, hpart, ?_⟩⟩
  intro hnil
  simp [hnil] at hreaders

/-- An element of the sample lacks a label and the algorithm: graphs cannot be generated for want of the one, and classes cannot for
want of the other. -/
theorem processTrace_lacks_keys : ∃ s' layers element t t', processTrace true false true partitioningSession = .ok () s' ∧
    s'.settings.entry Setting.layers = .ok layers ∧ element ∈ layers.listAt consumptionKey ∧ ¬IsWhole element ∧
      Graph.generate false Graph.plainOptions s' = .error (.missingKey "display_name_short") t ∧
      Managed.generate s' = .error (.missingKey "algo") t' := by
  obtain ⟨s', layers, h, hl, -, hlacks, hgraphs, hclasses⟩ := partitioningSession_merges
  obtain ⟨t, ht⟩ := exists_of_failsWith hgraphs
  obtain ⟨t', ht'⟩ := exists_of_failsWith hclasses
  obtain ⟨element, hmem, hnone⟩ := List.any_eq_true.1 hlacks
  refine ⟨s', layers, element, t, t', h, hl, hmem, fun hwhole => ?_, ht, ht'⟩
  obtain ⟨w, hw⟩ := hwhole.1 "algo" (by simp [elementKeys])
  rw [hw] at hnone
  cases hnone

end TraceArtifacts
